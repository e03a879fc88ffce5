import RajNX.Lib.Loop
import RajNX.Patcher.IpsFormat

/-!
# IPS patches in the bootloader

`apply_ips_patch` of `ips.c`, as it works on the bytes of an initial process or of the kernel. It reads the records,
leaves out what is protected and cuts off what is behind the end by code of its own, with sizes of 32 bits. At every
record it leaves the same bytes as `ApplyIpsPatch` does for a module that starts at the begin of its file.
-/

namespace RajNX.Fusee.Ips

open Loop WriteTrace Patcher

/-- `IPS_TAIL` and `IPS32_TAIL`, of which the size of the buffer is compared. -/
def atTail (isIps32 : Bool) (buffer : List UInt8) : Bool :=
  (isIps32 && buffer = [0x45, 0x45, 0x4F, 0x46]) || (!isIps32 && buffer = [0x45, 0x4F, 0x46])

/-- The offset of a record. -/
def patchOffsetOf (isIps32 : Bool) (buffer : List UInt8) : Nat :=
  if isIps32 then byteAt buffer 0 * 2 ^ 24 + byteAt buffer 1 * 2 ^ 16 + byteAt buffer 2 * 2 ^ 8 + byteAt buffer 3
  else byteAt buffer 0 * 2 ^ 16 + byteAt buffer 1 * 2 ^ 8 + byteAt buffer 2

/-- What is behind `IPS_RLE_PATCH_OFFSET_WITHIN_BOUNDS`. -/
def rleWithinBounds (mem : List UInt8) (patchOffset rleSize : Nat) (value : UInt8) : List UInt8 :=
  let rleSize :=
    if (patchOffset + rleSize) % 2 ^ 32 > mem.length then (mem.length + 2 ^ 32 - patchOffset) % 2 ^ 32 else rleSize
  (Write.fill patchOffset rleSize value).apply mem

/-- The record of a run. -/
def rleRecord (mem : List UInt8) (protSize patchOffset rleSize : Nat) (value : UInt8) : List UInt8 :=
  if patchOffset < protSize then
    if (patchOffset + rleSize) % 2 ^ 32 > protSize then
      let diff := protSize - patchOffset
      rleWithinBounds mem ((patchOffset + diff) % 2 ^ 32) ((rleSize + 2 ^ 32 - diff) % 2 ^ 32) value
    else mem
  else rleWithinBounds mem patchOffset rleSize value

/-- The bytes and what is left of the file, in the loop. At its end only the bytes matter. -/
abbrev PatchTurn := Turn (List UInt8 × List UInt8) (List UInt8)

/-- What is behind `IPS_DATA_PATCH_OFFSET_WITHIN_BOUNDS`. -/
def dataWithinBounds (mem : List UInt8) (patchOffset patchSize : Nat) (f : List UInt8) : PatchTurn :=
  let readSize :=
    if (patchOffset + patchSize) % 2 ^ 32 > mem.length then (mem.length + 2 ^ 32 - patchOffset) % 2 ^ 32
    else patchSize
  match fread readSize f with
  | none => .leave ((Write.copy patchOffset (f.take readSize)).apply mem)
  | some (data, f) =>
    .again ((Write.copy patchOffset data).apply mem, if patchSize > readSize then f.drop (patchSize - readSize) else f)

/-- A record with data. -/
def dataRecord (mem : List UInt8) (protSize patchOffset patchSize : Nat) (f : List UInt8) : PatchTurn :=
  if patchOffset < protSize then
    if (patchOffset + patchSize) % 2 ^ 32 > protSize then
      let diff := protSize - patchOffset
      dataWithinBounds mem ((patchOffset + diff) % 2 ^ 32) ((patchSize + 2 ^ 32 - diff) % 2 ^ 32) (f.drop diff)
    else .again (mem, f.drop patchSize)
  else dataWithinBounds mem patchOffset patchSize f

/-- A turn of the loop. -/
def patchTurn (protSize : Nat) (isIps32 : Bool) : List UInt8 × List UInt8 → PatchTurn
  | (mem, f) =>
    match fread (if isIps32 then 4 else 3) f with
    | none => .leave mem
    | some (buffer, f) =>
      if atTail isIps32 buffer then .leave mem
      else
        let patchOffset := patchOffsetOf isIps32 buffer
        match fread 2 f with
        | none => .leave mem
        | some (buffer, f) =>
          let patchSize := byteAt buffer 0 * 2 ^ 8 + byteAt buffer 1
          if patchSize = 0 then
            match fread 2 f with
            | none => .leave mem
            | some (buffer, f) =>
              let rleSize := byteAt buffer 0 * 2 ^ 8 + byteAt buffer 1
              match fread 1 f with
              | none => .leave mem
              | some (buffer, f) => .again (rleRecord mem protSize patchOffset rleSize (buffer.getD 0 0), f)
          else dataRecord mem protSize patchOffset patchSize f

/-- `apply_ips_patch`. Each turn reads some of the file, so that its length is enough turns. -/
def applyIpsPatch (mem : List UInt8) (protSize : Nat) (isIps32 : Bool) (f : List UInt8) : Option (List UInt8) :=
  loop (patchTurn protSize isIps32) (f.length + 1) (mem, f)

/-- A turn that leaves the bytes of a turn of `ApplyIpsPatch`. -/
def turnOf (mem : List UInt8) : IpsTurn → PatchTurn
  | .stop writes _ => .leave (applyAll writes mem)
  | .next writes f => .again (applyAll writes mem, f)

section Turns

variable {isIps32 : Bool} {mem f f' : List UInt8} {value : UInt8} {protSize o n fuel : Nat}

lemma atTail_eq (buffer : List UInt8) : atTail isIps32 buffer = isIpsTail isIps32 buffer := by
  cases isIps32 with
  | true => exact Bool.or_false _
  | false => rfl

/-- Sizes of 32 bits have the differences that those of 64 bits have as 32-bit numbers. -/
lemma sub32_eq {a b : Nat} (ha : a < 2 ^ 32) (hb : b < 2 ^ 32) : (a + 2 ^ 32 - b) % 2 ^ 32 = sub32 a b := by
  rw [sub32]
  omega

lemma skipped_diff (hprot : protSize < 2 ^ 32) : (protSize - o) % 2 ^ 32 = protSize - o :=
  Nat.mod_eq_of_lt (by omega)

section

variable (hmem : mem.length < 2 ^ 32)

include hmem

lemma rleWithinBounds_eq (ho : o < 2 ^ 32) :
    rleWithinBounds mem o n value = (Write.fill o (clipSize mem.length o n) value).apply mem := by
  rw [rleWithinBounds, clipSize, sub32_eq hmem ho]

lemma rleRecord_eq (hprot : protSize < 2 ^ 32) (ho : o < 2 ^ 32) :
    Turn.again (rleRecord mem protSize o n value, f) = turnOf mem (applyRle mem.length protSize 0 o n value f) := by
  rw [rleRecord, applyRle, skipProtected]
  split
  · split
    · dsimp only
      rw [skipped_diff hprot, rleWithinBounds_eq hmem (Nat.mod_lt _ (by decide)), turnOf, applyAll_cons,
        sub32_of_le (Nat.mod_lt _ (by decide)) (Nat.zero_le _)]
      rfl
    · rfl
  · dsimp only
    rw [rleWithinBounds_eq hmem ho, turnOf, applyAll_cons, sub32_of_le ho (Nat.zero_le _)]
    rfl

lemma dataWithinBounds_eq (ho : o < 2 ^ 32) :
    dataWithinBounds mem o n f = turnOf mem (applyData o n (clipSize mem.length o n) f) := by
  rw [dataWithinBounds, applyData, sub32_eq hmem ho, ← clipSize]
  cases fread (clipSize mem.length o n) f with
  | none => rfl
  | some read =>
    dsimp only
    split
    · rfl
    · next hall =>
      rw [turnOf, Nat.sub_eq_zero_of_le (Nat.le_of_not_lt hall), List.drop_zero]
      rfl

lemma dataRecord_eq (hprot : protSize < 2 ^ 32) (ho : o < 2 ^ 32) :
    dataRecord mem protSize o n f = turnOf mem (applyPlain mem.length protSize 0 o n f) := by
  rw [dataRecord, applyPlain, skipProtected]
  split
  · split
    · dsimp only
      rw [skipped_diff hprot, dataWithinBounds_eq hmem (Nat.mod_lt _ (by decide)),
        sub32_of_le (Nat.mod_lt _ (by decide)) (Nat.zero_le _)]
      rfl
    · rfl
  · dsimp only
    rw [dataWithinBounds_eq hmem ho, sub32_of_le ho (Nat.zero_le _)]
    rfl

/-- A turn leaves the bytes that a turn of `ApplyIpsPatch` leaves, and as much of the file. -/
lemma patchTurn_eq (hprot : protSize < 2 ^ 32) :
    patchTurn protSize isIps32 (mem, f) = turnOf mem (ipsTurn mem.length protSize 0 isIps32 f) := by
  rw [patchTurn, ipsTurn, readHead]
  cases fread (if isIps32 then 4 else 3) f with
  | none => rfl
  | some read =>
    obtain ⟨buffer, f⟩ := read
    have ho : patchOffsetOf isIps32 buffer < 2 ^ 32 := getIpsPatchOffset_lt buffer
    simp only [Option.bind_eq_bind, Option.bind_some, atTail_eq]
    split
    · rfl
    · rw [readSize]
      cases fread 2 f with
      | none => rfl
      | some read =>
        obtain ⟨size, f⟩ := read
        simp only [Option.bind_eq_bind, Option.bind_some]
        by_cases hsize : getIpsPatchSize size = 0
        · -- a run
          rw [if_neg (not_not_intro hsize), ← getIpsPatchSize, if_pos hsize]
          cases fread 2 f with
          | none => rfl
          | some read =>
            obtain ⟨size, f⟩ := read
            simp only [Option.bind_some]
            cases fread 1 f with
            | none => rfl
            | some read => exact rleRecord_eq hmem hprot ho
        · rw [if_pos hsize, ← getIpsPatchSize, if_neg hsize]
          exact dataRecord_eq hmem hprot ho

end

lemma length_le_of_applyData {size : Nat} {writes : List Write} (h : applyData o n size f = .next writes f') :
    f'.length ≤ f.length := by
  rw [applyData] at h
  split at h
  · cases h
  · next hread =>
    obtain ⟨-, -, -, rfl⟩ := fread_eq_some hread
    cases h
    rw [List.length_drop, List.length_drop]
    exact (Nat.sub_le _ _).trans (Nat.sub_le _ _)

/-- A turn that goes on has read some of the file. -/
lemma length_lt_of_ipsTurn {memSize : Nat} {writes : List Write}
    (h : ipsTurn memSize protSize 0 isIps32 f = .next writes f') : f'.length < f.length := by
  rw [ipsTurn] at h
  cases hhead : readHead isIps32 f with
  | none =>
    rw [hhead] at h
    cases h
  | some read =>
    obtain ⟨head, f₁⟩ := read
    have hlt := (readHead_ok hhead).2
    rw [hhead] at h
    apply Nat.lt_of_le_of_lt _ hlt
    cases head with
    | tail => cases h
    | rle o n value =>
      dsimp only at h
      rw [applyRle] at h
      split at h
      · cases h
        exact le_rfl
      · cases h
        exact le_rfl
    | plain o n =>
      dsimp only at h
      rw [applyPlain] at h
      split at h
      · cases h
        rw [List.length_drop]
        exact Nat.sub_le _ _
      · apply (length_le_of_applyData h).trans
        rw [List.length_drop]
        exact Nat.sub_le _ _

/-- The loop leaves the bytes that the one of `ApplyIpsPatch` leaves, for every file. -/
lemma loop_patchTurn (hmem : mem.length < 2 ^ 32) (hprot : protSize < 2 ^ 32) (hfuel : f.length < fuel) :
    loop (patchTurn protSize isIps32) fuel (mem, f) =
      some (applyAll (ipsLoop mem.length protSize 0 isIps32 fuel f).writes mem) := by
  induction fuel generalizing mem f with
  | zero => exact absurd hfuel (Nat.not_lt_zero _)
  | succ fuel ih =>
    have hturn := @patchTurn_eq isIps32 mem f protSize hmem hprot
    cases hips : ipsTurn mem.length protSize 0 isIps32 f with
    | stop writes rest =>
      rw [hips] at hturn
      rw [loop_leave hturn, ipsLoop_stop hips]
    | next writes f' =>
      rw [hips] at hturn
      have hlength : (applyAll writes mem).length = mem.length := length_applyAll writes mem
      have hless : f'.length < fuel := Nat.lt_of_lt_of_le (length_lt_of_ipsTurn hips) (Nat.le_of_lt_succ hfuel)
      rw [loop_again hturn, ipsLoop_next hips, ih (hlength ▸ hmem) hless, hlength, applyAll_append]

/-- For every file the bootloader leaves what the writes of `ApplyIpsPatch` leave. -/
lemma applyIpsPatch_eq (hmem : mem.length < 2 ^ 32) (hprot : protSize < 2 ^ 32) (f : List UInt8) :
    applyIpsPatch mem protSize isIps32 f =
      some (applyAll (Patcher.applyIpsPatch mem.length protSize 0 isIps32 f).writes mem) := by
  rw [applyIpsPatch, loop_patchTurn hmem hprot (Nat.lt_succ_self _), Patcher.applyIpsPatch, if_neg (Nat.not_lt_zero _)]

end Turns

/-- Both engines leave the image as the records of the patch say, one after the other. -/
theorem ips_engines_agree (isIps32 : Bool) (records : List IpsRecord) (rest image : List UInt8) (protSize : Nat)
    (himage : image.length < 2 ^ 32) (hprot : protSize < 2 ^ 32) (hrecords : ∀ r ∈ records, r.WellFormed isIps32)
    (hend : ∀ r ∈ records, r.offset + r.size ≤ image.length) :
    let f := encodePatch isIps32 records ++ rest
    let result := Patcher.applyIpsPatch image.length protSize 0 isIps32 f
    applyIpsPatch image protSize isIps32 f = some (applyAll result.writes image) ∧ result.rest = some rest ∧
      applyAll result.writes image = records.foldl (fun image r => r.applyTo 0 protSize image) image := by
  intro f result
  have hfuel : records.length < f.length + 1 := by
    have hle := length_le_encodePatch isIps32 records
    have hlength : f.length = (encodePatch isIps32 records).length + rest.length := List.length_append
    omega
  have hzero : 0 + image.length = image.length := Nat.zero_add _
  have hall : ∀ r ∈ records, r.WellFormed isIps32 ∧ r.offset + r.size ≤ 0 + image.length := fun r hr =>
    ⟨hrecords r hr, hzero.symm ▸ hend r hr⟩
  rw [← hzero] at himage
  obtain ⟨ws, hloop, hws⟩ := ipsLoop_encode rest (Nat.zero_le protSize) hall himage hfuel
  rw [hzero] at himage
  have hresult : result = ⟨ws, some rest⟩ := by
    rw [← hloop]
    exact if_neg (Nat.not_lt_zero _)
  refine ⟨applyIpsPatch_eq himage hprot f, ?_, ?_⟩
  · rw [hresult]
  · rw [hresult]
    exact hws

/-- A record that starts in the protected bytes, and a run behind it. -/
theorem ips_engines_agree_straddling :
    let records : List IpsRecord := [.plain 1 [1, 2, 3], .rle 4 2 9]
    let image : List UInt8 := [0, 0, 0, 0, 0, 0, 0, 0]
    let f := encodePatch true records ++ [7]
    let result := Patcher.applyIpsPatch image.length 2 0 true f
    applyIpsPatch image 2 true f = some (applyAll result.writes image) ∧ result.rest = some [7] ∧
      applyAll result.writes image = [0, 0, 2, 3, 9, 9, 0, 0] := by
  intro records image f result
  have hrecords : ∀ r ∈ records, r.WellFormed true := by
    refine List.forall_mem_cons.mpr ⟨⟨?_, ?_, ?_, ?_⟩, List.forall_mem_singleton.mpr ⟨?_, ?_, ?_, ?_⟩⟩
    all_goals decide
  exact ips_engines_agree true records [7] image 2 (by decide) (by decide) hrecords (by decide)

end RajNX.Fusee.Ips
