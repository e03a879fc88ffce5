import RajNX.Patcher.Ips

/-!
# What IPS patches mean

A patch is a list of records, each of which puts some data, or a run of one value, at an offset of the file
that a module was loaded from. The records are written one behind the other, with a tail that is the
offset which no record may have. `ApplyIpsPatch` gives every record its meaning if the records end inside
the module.
-/

namespace RajNX.Patcher

open WriteTrace

/-- A record of a patch. -/
inductive IpsRecord
  | plain (offset : Nat) (data : List UInt8)
  | rle (offset size : Nat) (value : UInt8)

namespace IpsRecord

/-- The offset of a record in the file. -/
def offset : IpsRecord → Nat
  | .plain offset _ => offset
  | .rle offset _ _ => offset

/-- How many bytes it puts there. -/
def size : IpsRecord → Nat
  | .plain _ data => data.length
  | .rle _ size _ => size

/-- The bytes that it puts there. -/
def byte (k : Nat) : IpsRecord → UInt8
  | .plain _ data => data.getD k 0
  | .rle _ _ value => value

/-- What a record means for a module that starts at an offset of the file, and of which the part before
`protectedSize` may not change. -/
def applyTo (r : IpsRecord) (moduleOffset protectedSize : Nat) (image : List UInt8) : List UInt8 :=
  image.mapIdx fun i b =>
    if protectedSize ≤ moduleOffset + i ∧ r.offset ≤ moduleOffset + i ∧
        moduleOffset + i < r.offset + r.size then
      r.byte (moduleOffset + i - r.offset)
    else b

/-- The records that can be written down. -/
def WellFormed (isIps32 : Bool) (r : IpsRecord) : Prop :=
  r.offset < (if isIps32 then 2 ^ 32 else 2 ^ 24) ∧
    r.offset ≠ getIpsPatchOffset isIps32 (ipsTailMagic isIps32) ∧ r.size < 2 ^ 16 ∧
    match r with
    | .plain _ data => data ≠ []
    | .rle _ _ _ => True

/-- An offset in the file. -/
def offsetBytes (isIps32 : Bool) (o : Nat) : List UInt8 :=
  if isIps32 then [.ofNat (o / 2 ^ 24), .ofNat (o / 2 ^ 16), .ofNat (o / 2 ^ 8), .ofNat o]
  else [.ofNat (o / 2 ^ 16), .ofNat (o / 2 ^ 8), .ofNat o]

/-- A size in the file. -/
def sizeBytes (n : Nat) : List UInt8 := [.ofNat (n / 2 ^ 8), .ofNat n]

/-- A record in the file. A size of zero marks a run. -/
def encode (isIps32 : Bool) : IpsRecord → List UInt8
  | .plain offset data => offsetBytes isIps32 offset ++ sizeBytes data.length ++ data
  | .rle offset size value =>
    offsetBytes isIps32 offset ++ sizeBytes 0 ++ sizeBytes size ++ [value]

end IpsRecord

/-- The records of a patch and its tail. -/
def encodePatch (isIps32 : Bool) (records : List IpsRecord) : List UInt8 :=
  records.flatMap (IpsRecord.encode isIps32) ++ ipsTailMagic isIps32

namespace IpsRecord

section Encoding

variable {isIps32 : Bool} {o n : Nat} {rest : List UInt8} {r : IpsRecord}

lemma fread_append {size : Nat} {data : List UInt8} (hsize : data.length = size) (hpos : 0 < size) :
    fread size (data ++ rest) = some (data, rest) := by
  subst hsize
  have hlong : ¬(data.length = 0 ∨ (data ++ rest).length < data.length) := by
    rw [List.length_append]
    omega
  rw [fread, if_neg hlong, List.take_left, List.drop_left]

lemma length_offsetBytes : (offsetBytes isIps32 o).length = if isIps32 then 4 else 3 := by
  cases isIps32 <;> rfl

lemma getIpsPatchOffset_offsetBytes (ho : o < if isIps32 then 2 ^ 32 else 2 ^ 24) :
    getIpsPatchOffset isIps32 (offsetBytes isIps32 o) = o := by
  cases isIps32 with
  | true | false =>
    simp [getIpsPatchOffset, offsetBytes, byteAt] at ho ⊢
    omega

lemma getIpsPatchSize_sizeBytes (hn : n < 2 ^ 16) : getIpsPatchSize (sizeBytes n) = n := by
  simp [getIpsPatchSize, sizeBytes, byteAt]
  omega

/-- The bytes of an offset that a record may have are not the tail. -/
lemma isIpsTail_offsetBytes (ho : o < if isIps32 then 2 ^ 32 else 2 ^ 24)
    (htail : o ≠ getIpsPatchOffset isIps32 (ipsTailMagic isIps32)) :
    isIpsTail isIps32 (offsetBytes isIps32 o) = false := by
  refine decide_eq_false fun heq => htail ?_
  rw [← heq, getIpsPatchOffset_offsetBytes ho]

/-- The head of a record is read, and then its size. -/
lemma readHead_offsetBytes (ho : o < if isIps32 then 2 ^ 32 else 2 ^ 24)
    (htail : o ≠ getIpsPatchOffset isIps32 (ipsTailMagic isIps32)) :
    readHead isIps32 (offsetBytes isIps32 o ++ rest) = readSize o rest := by
  have hpos : 0 < if isIps32 then 4 else 3 := by cases isIps32 <;> decide
  rw [readHead, fread_append length_offsetBytes hpos]
  simp only [Option.bind_eq_bind, Option.bind_some, isIpsTail_offsetBytes ho htail, Bool.false_eq_true,
    if_false, getIpsPatchOffset_offsetBytes ho]

lemma fread_sizeBytes : fread 2 (sizeBytes n ++ rest) = some (sizeBytes n, rest) :=
  fread_append rfl (by decide)

lemma readHead_tail : readHead isIps32 (ipsTailMagic isIps32 ++ rest) = some (.tail, rest) := by
  have hlen : (ipsTailMagic isIps32).length = if isIps32 then 4 else 3 := by cases isIps32 <;> rfl
  have hpos : 0 < if isIps32 then 4 else 3 := by cases isIps32 <;> decide
  rw [readHead, fread_append hlen hpos]
  simp [isIpsTail]

lemma readHead_plain {data : List UInt8} (h : (plain o data).WellFormed isIps32) :
    readHead isIps32 ((plain o data).encode isIps32 ++ rest) =
      some (.plain o data.length, data ++ rest) := by
  obtain ⟨(ho : o < _), (htail : o ≠ _), (hsize : data.length < 2 ^ 16), (hdata : data ≠ [])⟩ := h
  have hlen : data.length ≠ 0 := fun h => hdata (List.length_eq_zero_iff.mp h)
  rw [encode, List.append_assoc, List.append_assoc, readHead_offsetBytes ho htail, readSize, fread_sizeBytes]
  simp only [Option.bind_eq_bind, Option.bind_some, getIpsPatchSize_sizeBytes hsize, hlen, ne_eq,
    not_false_eq_true, if_true]
  rfl

lemma readHead_rle {value : UInt8} (h : (rle o n value).WellFormed isIps32) :
    readHead isIps32 ((rle o n value).encode isIps32 ++ rest) = some (.rle o n value, rest) := by
  obtain ⟨(ho : o < _), (htail : o ≠ _), (hsize : n < 2 ^ 16), -⟩ := h
  rw [encode, List.append_assoc, List.append_assoc, List.append_assoc, readHead_offsetBytes ho htail,
    readSize, fread_sizeBytes]
  have hvalue : fread 1 ([value] ++ rest) = some ([value], rest) := fread_append rfl (by decide)
  simp only [Option.bind_eq_bind, Option.bind_some, getIpsPatchSize_sizeBytes (n := 0) (by decide), ne_eq,
    not_true_eq_false, if_false, fread_sizeBytes, hvalue, getIpsPatchSize_sizeBytes hsize]
  rfl

end Encoding

section Meaning

variable {isIps32 : Bool} {moduleOffset protectedSize : Nat} {image : List UInt8} {r : IpsRecord}

/-- A record that the protected bytes hide changes nothing. -/
lemma applyTo_of_skipped (hend : r.offset + r.size < 2 ^ 32)
    (h : Skipped protectedSize r.offset r.size) : r.applyTo moduleOffset protectedSize image = image := by
  unfold Skipped at h
  rw [Nat.mod_eq_of_lt hend] at h
  refine (List.mapIdx_eq_iff.mpr fun i => ?_)
  cases hi : image[i]? with
  | none => rfl
  | some b =>
    rw [Option.map_some, if_neg]
    omega

/-- A write of what is left of a record gives it its meaning. -/
lemma apply_eq_applyTo {w : Write} (hoffset : moduleOffset ≤ protectedSize)
    (hstart : w.position = max r.offset protectedSize - moduleOffset)
    (hsize : w.size = r.size - (protectedSize - r.offset))
    (hbyte : ∀ k, w.byte k = r.byte (protectedSize - r.offset + k)) :
    w.apply image = r.applyTo moduleOffset protectedSize image := by
  refine congrArg (List.mapIdx · image) (funext fun i => funext fun b => ?_)
  by_cases hcover : w.position ≤ i ∧ i < w.position + w.size
  · have hplace : protectedSize - r.offset + (i - w.position) = moduleOffset + i - r.offset := by omega
    rw [if_pos hcover, if_pos, hbyte, hplace]
    omega
  · rw [if_neg hcover, if_neg]
    omega

/-- A turn of the loop reads a record and gives it its meaning. -/
lemma turn_eq (rest : List UInt8) (hoffset : moduleOffset ≤ protectedSize) (hr : r.WellFormed isIps32)
    (hend : r.offset + r.size ≤ moduleOffset + image.length) (hsize : moduleOffset + image.length < 2 ^ 32) :
    ∃ ws, ipsTurn image.length protectedSize moduleOffset isIps32 (r.encode isIps32 ++ rest) = .next ws rest ∧
      applyAll ws image = r.applyTo moduleOffset protectedSize image := by
  have hend32 := Nat.lt_of_le_of_lt hend hsize
  by_cases hskip : Skipped protectedSize r.offset r.size
  · refine ⟨[], ?_, (applyTo_of_skipped hend32 hskip).symm⟩
    cases r with
    | plain o data =>
      rw [ipsTurn_plain_skipped (readHead_plain hr) hskip]
      exact congrArg _ List.drop_left
    | rle o n value => exact ipsTurn_rle_skipped (readHead_rle hr) hskip
  · -- The record ends inside the module, so that all that is left of it is written.
    have hlt : protectedSize - r.offset ≤ r.size := by
      unfold Skipped at hskip
      rw [Nat.mod_eq_of_lt hend32] at hskip
      omega
    have hinside : max r.offset protectedSize - moduleOffset + (r.size - (protectedSize - r.offset)) ≤
        image.length := by omega
    have hclip : clipSize image.length (max r.offset protectedSize - moduleOffset)
        (r.size - (protectedSize - r.offset)) = r.size - (protectedSize - r.offset) := by
      rw [clipSize_of_inside (Nat.lt_of_le_of_lt (Nat.sub_le _ _) hr.2.2.1) (.inl hinside)]
      omega
    cases r with
    | plain o data =>
      simp only [IpsRecord.offset, IpsRecord.size] at hskip hend32 hlt hclip
      have hpos : 0 < data.length - (protectedSize - o) := by
        have hdata := List.length_pos_iff.mpr hr.2.2.2
        unfold Skipped at hskip
        rw [Nat.mod_eq_of_lt hend32] at hskip
        omega
      have hread : fread (data.length - (protectedSize - o)) ((data ++ rest).drop (protectedSize - o)) =
          some (data.drop (protectedSize - o), rest) := by
        rw [List.drop_append_of_le_length hlt]
        exact fread_append List.length_drop hpos
      refine ⟨[.copy (max o protectedSize - moduleOffset) (data.drop (protectedSize - o))], ?_, ?_⟩
      · rw [ipsTurn_plain (readHead_plain hr) hoffset hskip, hclip, applyData, hread]
        simp only [Nat.sub_self, List.drop_zero]
      · rw [applyAll_cons]
        refine apply_eq_applyTo hoffset rfl List.length_drop fun k => ?_
        simp only [Write.byte, IpsRecord.byte, List.getD_eq_getElem?_getD, List.getElem?_drop]
        rfl
    | rle o n value =>
      refine ⟨_, ipsTurn_rle (readHead_rle hr) hoffset hskip, ?_⟩
      rw [applyAll_cons]
      exact apply_eq_applyTo hoffset rfl hclip fun _ => rfl

end Meaning

end IpsRecord

/-- The loop gives the records of a patch their meanings, in their order, and stops behind the tail. -/
lemma ipsLoop_encode {isIps32 : Bool} {moduleOffset protectedSize fuel : Nat} {image : List UInt8}
    {records : List IpsRecord} (rest : List UInt8) (hoffset : moduleOffset ≤ protectedSize)
    (hrecords : ∀ r ∈ records, r.WellFormed isIps32 ∧ r.offset + r.size ≤ moduleOffset + image.length)
    (hsize : moduleOffset + image.length < 2 ^ 32) (hfuel : records.length < fuel) :
    ∃ ws, ipsLoop image.length protectedSize moduleOffset isIps32 fuel
        (encodePatch isIps32 records ++ rest) = ⟨ws, some rest⟩ ∧
      applyAll ws image =
        records.foldl (fun image r => r.applyTo moduleOffset protectedSize image) image := by
  induction records generalizing image fuel with
  | nil =>
    obtain ⟨fuel, rfl⟩ := Nat.exists_eq_succ_of_ne_zero (Nat.ne_zero_of_lt hfuel)
    refine ⟨[], ipsLoop_stop ?_, rfl⟩
    rw [encodePatch, List.flatMap_nil, List.nil_append, ipsTurn, IpsRecord.readHead_tail]
  | cons r records ih =>
    obtain ⟨fuel, rfl⟩ := Nat.exists_eq_succ_of_ne_zero (Nat.ne_zero_of_lt hfuel)
    obtain ⟨⟨hr, hend⟩, hrecords⟩ := List.forall_mem_cons.mp hrecords
    obtain ⟨first, hturn, hfirst⟩ :=
      IpsRecord.turn_eq (encodePatch isIps32 records ++ rest) hoffset hr hend hsize
    have hlength : (r.applyTo moduleOffset protectedSize image).length = image.length :=
      List.length_mapIdx
    rw [← hlength] at hrecords hsize
    obtain ⟨ws, hloop, hws⟩ := ih hrecords hsize (Nat.lt_of_succ_lt_succ hfuel)
    rw [hlength] at hloop
    refine ⟨first ++ ws, ?_, ?_⟩
    · rw [encodePatch, List.flatMap_cons, List.append_assoc, List.append_assoc,
        ← List.append_assoc _ _ rest, ← encodePatch, ipsLoop_next hturn, hloop]
    · rw [List.foldl_cons, ← hws, ← hfirst, applyAll, applyAll, applyAll, List.foldl_append]

lemma length_le_encodePatch (isIps32 : Bool) (records : List IpsRecord) :
    records.length ≤ (encodePatch isIps32 records).length := by
  have hrecord : ∀ n ∈ records.map fun r => (r.encode isIps32).length, 1 ≤ n := by
    refine List.forall_mem_map.mpr fun r _ => ?_
    cases r with
    | plain o data | rle o n value =>
      simp only [IpsRecord.encode, IpsRecord.sizeBytes, List.length_append, List.length_cons]
      omega
  have hsum := List.length_le_sum_of_one_le _ hrecord
  rw [List.length_map] at hsum
  rw [encodePatch, List.length_append, List.length_flatMap]
  exact Nat.le_add_right_of_le hsum

/-- `ApplyIpsPatch` leaves the module as the records of the patch say, one after the other, where they do
not change what is protected. It reads up to the tail. -/
theorem ips_patch_applied (isIps32 : Bool) (records : List IpsRecord) (rest image : List UInt8)
    (protectedSize offset : Nat) (hoffset : offset ≤ protectedSize) (hrecords : ∀ r ∈ records, r.WellFormed isIps32)
    (hend : ∀ r ∈ records, r.offset + r.size ≤ offset + image.length) (hsize : offset + image.length < 2 ^ 32) :
    let result :=
      applyIpsPatch image.length protectedSize offset isIps32 (encodePatch isIps32 records ++ rest)
    applyAll result.writes image = records.foldl (fun image r => r.applyTo offset protectedSize image) image ∧
      result.rest = some rest := by
  intro result
  have hfuel : records.length < (encodePatch isIps32 records ++ rest).length + 1 := by
    have hle := length_le_encodePatch isIps32 records
    rw [List.length_append]
    omega
  obtain ⟨ws, hloop, hws⟩ :=
    ipsLoop_encode rest hoffset (fun r hr => ⟨hrecords r hr, hend r hr⟩) hsize hfuel
  have hresult : result = ⟨ws, some rest⟩ := by
    rw [← hloop]
    exact if_neg (Nat.not_lt.mpr hoffset)
  rw [hresult]
  exact ⟨hws, rfl⟩

/-- A module of 8 bytes that starts at 0x10 of the file, of which 2 are protected. The first record starts
in these. -/
theorem ips_patch_applied_straddling :
    let records : List IpsRecord := [.plain 0x11 [1, 2, 3], .rle 0x14 2 9]
    let image : List UInt8 := [0, 0, 0, 0, 0, 0, 0, 0]
    let result := applyIpsPatch image.length 0x12 0x10 false (encodePatch false records ++ [7])
    applyAll result.writes image = [0, 0, 2, 3, 9, 9, 0, 0] ∧ result.rest = some [7] := by
  intro records image result
  have hrecords : ∀ r ∈ records, r.WellFormed false := by
    refine List.forall_mem_cons.mpr ⟨⟨?_, ?_, ?_, ?_⟩, List.forall_mem_singleton.mpr ⟨?_, ?_, ?_, ?_⟩⟩
    all_goals decide
  obtain ⟨himage, hrest⟩ := ips_patch_applied false records [7] image 0x12 0x10 (by decide) hrecords
    (by decide) (by decide)
  exact ⟨himage, hrest⟩

end RajNX.Patcher
