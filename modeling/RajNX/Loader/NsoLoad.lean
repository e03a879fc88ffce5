import RajNX.Lib.Wrapping
import RajNX.Loader.Meta

/-!
# Loading of NSOs

`LoadNsoSegment` and `LoadNsoIntoProcessMemory` of `ldr_process_creation.cpp`, with the part of
`DecideAddressSpaceLayout` that decides how much memory an NSO is given. A header says where in the memory
its three segments are; nothing but the offset of the first is checked. Sums of offsets and sizes are of 32
bits, and the space between segments is a difference of 64 bits.

`Fits` holds of the headers with which every write is inside the memory of the NSO. Addresses are relative to
where that is mapped, modulo `2 ^ 64`.
-/

namespace RajNX.Loader

open Wrapping WriteTrace

/-- `NsoHeader::SegmentInfo`, with the compressed size and the hash of the segment -/
structure NsoSegment where
  fileOffset : UInt32
  dstOffset : UInt32
  size : UInt32
  compressedSize : UInt32
  hash : List UInt8

/-- `NsoHeader` -/
structure NsoHeader where
  flags : UInt32
  text : NsoSegment
  ro : NsoSegment
  rw : NsoSegment
  bssSize : UInt32

/-- `Nso_Count` -/
abbrev nsoCount : Nat := 13

lemma neZero_nsoCount : NeZero 13 := ⟨by decide⟩

/-- `ValidateNsoHeaders` -/
def validateNsoHeaders (headers : Fin nsoCount → NsoHeader) (hasNso : Fin nsoCount → Bool) : Except LoaderError Unit :=
  if ¬hasNso 1 then .error .invalidNso
  else if ¬hasNso 0 ∧ ∃ i : Fin nsoCount, 1 < i ∧ hasNso i then .error .invalidNso
  else if ∃ i, (headers i).text.dstOffset ≠ 0 then .error .invalidNso
  else .ok ()

/-- `nso_size` of `DecideAddressSpaceLayout` -/
def nsoSize (h : NsoHeader) : Nat :=
  let textEnd := (h.text.dstOffset + h.text.size).toNat
  let roEnd := (h.ro.dstOffset + h.ro.size).toNat
  let rwEnd := (h.rw.dstOffset + h.rw.size + h.bssSize).toNat
  (max (max textEnd roEnd) rwEnd + 0xFFF) / 0x1000 * 0x1000

/-- `LZ4_decompress_safe`, by what has been written before. It returns how much it has decompressed, and
never writes more than it is given space for. -/
structure Lz4 where
  decompress : List Write → (dst dstSize src srcSize : Nat) → Int × List UInt8
  length_le : ∀ ws dst dstSize src srcSize, (decompress ws dst dstSize src srcSize).2.length ≤ dstSize
  length_eq : ∀ ws dst dstSize src srcSize, (decompress ws dst dstSize src srcSize).1 = dstSize →
    (decompress ws dst dstSize src srcSize).2.length = dstSize

/-- What is given to the loader: the code that it calls, and what the kernel answers when it is asked to map
the memory and to set the permissions. -/
structure NsoLoader where
  lz4 : Lz4
  sha256 : List Write → (address size : Nat) → List UInt8
  mapped : Except Nat Unit
  permissions : Except Nat Unit

/-- `std::numeric_limits<s32>::max()` -/
def s32Max : Nat := 2 ^ 31 - 1

/-- The end of `LoadNsoSegment`, which checks the hash. -/
def checkSegmentHash (loader : NsoLoader) (segment : NsoSegment) (checkHash : Bool) (mapBase : Nat)
    (ws : List Write) : Except LoaderError Unit × List Write :=
  if checkHash ∧ loader.sha256 ws mapBase segment.size.toNat ≠ segment.hash then (.error .invalidNso, ws)
  else (.ok (), ws)

/-- `LoadNsoSegment`, with the writes before and after -/
def loadNsoSegment (loader : NsoLoader) (f : List UInt8) (segment : NsoSegment)
    (isCompressed checkHash : Bool) (mapBase mapEnd : Nat) (ws : List Write) : Except LoaderError Unit × List Write :=
  let size := segment.size.toNat
  let fileSize := if isCompressed then segment.compressedSize.toNat else size
  if fileSize > size ∨ fileSize > s32Max ∨ size > s32Max then (.error .invalidNso, ws)
  else
    let loadAddress := if isCompressed then sub64 mapEnd fileSize else mapBase
    let data := (f.drop segment.fileOffset.toNat).take fileSize
    let ws := ws ++ [.copy loadAddress data]
    if fileSize = 0 ∨ data.length < fileSize then (.error .invalidNso, ws)
    else if isCompressed then
      let out := loader.lz4.decompress ws mapBase size loadAddress fileSize
      let ws := ws ++ [.copy mapBase out.2]
      if out.1 ≠ size then (.error .invalidNso, ws)
      else checkSegmentHash loader segment checkHash mapBase ws
    else checkSegmentHash loader segment checkHash mapBase ws

/-- What is cleared behind the segments, and the bss. -/
def clearUnused (h : NsoHeader) : List Write :=
  let textEnd := (h.text.dstOffset + h.text.size).toNat
  let roEnd := (h.ro.dstOffset + h.ro.size).toNat
  let rwEnd := (h.rw.dstOffset + h.rw.size).toNat
  [.fill 0 h.text.dstOffset.toNat 0, .fill textEnd (sub64 h.ro.dstOffset.toNat textEnd) 0,
   .fill roEnd (sub64 h.rw.dstOffset.toNat roEnd) 0,
   .fill rwEnd h.bssSize.toNat 0]

/-- Go on after a load that succeeded. -/
def andThen (r : Except LoaderError Unit × List Write)
    (next : List Write → Except LoaderError Unit × List Write) : Except LoaderError Unit × List Write :=
  match r with
  | (.error e, ws) => (.error e, ws)
  | (.ok (), ws) => next ws

/-- `LoadNsoIntoProcessMemory`, without IPS patches -/
def loadNsoIntoProcessMemory (loader : NsoLoader) (f : List UInt8) (h : NsoHeader) (size : Nat) :
    Except LoaderError Unit × List Write :=
  match loader.mapped with
  | .error e => (.error (.kernel e), [])
  | .ok () =>
    let load := fun (segment : NsoSegment) (index : Nat) (ws : List Write) =>
      loadNsoSegment loader f segment (h.flags.toNat.testBit index) (h.flags.toNat.testBit (index + 3))
        segment.dstOffset.toNat size ws
    andThen (load h.text 0 []) fun ws =>
      andThen (load h.ro 1 ws) fun ws =>
        andThen (load h.rw 2 ws) fun ws =>
          (loader.permissions.mapError .kernel, ws ++ clearUnused h)

/-- The headers with which every write is inside the memory of the NSO: the segments are in their order, and
none of them ends behind it. The ends are sums of 32 bits where the source has them so. -/
structure Fits (h : NsoHeader) : Prop where
  text_le_ro : h.text.size.toNat ≤ h.ro.dstOffset.toNat
  ro_le : h.ro.dstOffset.toNat + h.ro.size.toNat ≤ nsoSize h
  ro_le_rw : (h.ro.dstOffset + h.ro.size).toNat ≤ h.rw.dstOffset.toNat
  rw_le : h.rw.dstOffset.toNat + h.rw.size.toNat ≤ nsoSize h
  bss_le : h.bssSize.toNat = 0 ∨ (h.rw.dstOffset + h.rw.size).toNat + h.bssSize.toNat ≤ nsoSize h

/-- The sizes are of at most 32 bits, rounded up. -/
lemma nsoSize_le (h : NsoHeader) : nsoSize h ≤ 2 ^ 32 := by
  have htext := (h.text.dstOffset + h.text.size).toNat_lt
  have hro := (h.ro.dstOffset + h.ro.size).toNat_lt
  have hrw := (h.rw.dstOffset + h.rw.size + h.bssSize).toNat_lt
  simp only [nsoSize]
  omega

/-- The text of an accepted header is at the start. -/
lemma validateNsoHeaders.text {headers : Fin nsoCount → NsoHeader} {hasNso : Fin nsoCount → Bool}
    (hv : validateNsoHeaders headers hasNso = .ok ()) (i : Fin nsoCount) : (headers i).text.dstOffset = 0 := by
  unfold validateNsoHeaders at hv
  split_ifs at hv with _ _ htext
  by_contra hne
  exact htext ⟨i, hne⟩

/-- A part of the load adds its writes to the ones before. They are inside if a condition on the header holds,
and after a success only then. -/
def Adds (condition : Prop) (size : Nat) (ws : List Write) (r : Except LoaderError Unit × List Write) : Prop :=
  ∃ new, r.2 = ws ++ new ∧ (condition → ∀ w ∈ new, w.Within 0 size) ∧
    (r.1 = .ok () → (∀ w ∈ new, w.Within 0 size) → condition)

/-- Two parts, one after the other. -/
lemma Adds.andThen {P Q : Prop} {size ws r next} (first : Adds P size ws r)
    (second : ∀ ws, Adds Q size ws (next ws)) : Adds (P ∧ Q) size ws (andThen r next) := by
  obtain ⟨result, written⟩ := r
  obtain ⟨new, hnew, hin, hout⟩ := first
  cases result with
  | error e =>
    refine ⟨new, hnew, fun h => hin h.1, ?_⟩
    intro hok
    cases hok
  | ok u =>
    obtain ⟨more, hmore, hin', hout'⟩ := second written
    refine ⟨new ++ more, ?_, ?_, ?_⟩
    · rw [← List.append_assoc, ← hnew]
      exact hmore
    · intro h w hw
      cases List.mem_append.mp hw with
      | inl hw => exact hin h.1 w hw
      | inr hw => exact hin' h.2 w hw
    · intro hok hall
      constructor
      · exact hout rfl fun w hw => hall w (List.mem_append_left _ hw)
      · exact hout' hok fun w hw => hall w (List.mem_append_right _ hw)

/-- Writes before a part is refused. -/
lemma Adds.refused {P : Prop} {size ws new e} (hin : P → ∀ w ∈ new, w.Within 0 size) :
    Adds P size ws (.error e, ws ++ new) := by
  refine ⟨new, rfl, hin, ?_⟩
  intro hok
  cases hok

lemma Adds.refused_at_once {P : Prop} {size ws e} : Adds P size ws (.error e, ws) := by
  refine ⟨[], (List.append_nil ws).symm, fun _ w hw => ?_, ?_⟩
  · cases hw
  · intro hok
    cases hok

/-- The hash is only read. -/
lemma Adds.checkHash {P : Prop} {size ws new} (loader segment checkHash mapBase)
    (hin : P → ∀ w ∈ new, w.Within 0 size) (hout : (∀ w ∈ new, w.Within 0 size) → P) :
    Adds P size ws (checkSegmentHash loader segment checkHash mapBase (ws ++ new)) := by
  unfold checkSegmentHash
  split
  · exact Adds.refused hin
  · exact ⟨new, rfl, hin, fun _ => hout⟩

lemma copy_within {base size last : Nat} {data : List UInt8} (hlen : data.length ≤ size)
    (hle : base + size ≤ last) : (Write.copy base data).Within 0 last :=
  (Write.within_iff (Nat.zero_le _)).mpr (Or.inr (le_trans (Nat.add_le_add_left hlen _) hle))

/-- The end of what is written, if that is something. -/
lemma le_of_copy_within {base size last : Nat} {data : List UInt8} (hin : (Write.copy base data).Within 0 last)
    (hlen : data.length = size) (hpos : 0 < size) : base + size ≤ last := by
  cases (Write.within_iff (Nat.zero_le _)).mp hin with
  | inl hzero => exact absurd (hlen.symm.trans hzero) hpos.ne'
  | inr hle =>
    rw [← hlen]
    exact hle

section segment
variable (loader : NsoLoader) (f : List UInt8) (segment : NsoSegment) (checkHash : Bool) {mapEnd : Nat}
  (ws : List Write)

/-- A segment that is loaded as it is in the file. It is not empty, so that its end is written. -/
lemma loadNsoSegment.adds_plain :
    Adds (segment.dstOffset.toNat + segment.size.toNat ≤ mapEnd) mapEnd ws
      (loadNsoSegment loader f segment false checkHash segment.dstOffset.toNat mapEnd ws) := by
  simp only [loadNsoSegment, Bool.false_eq_true, if_false]
  generalize hdata : (f.drop segment.fileOffset.toNat).take segment.size.toNat = data
  have hlen : data.length ≤ segment.size.toNat := by
    rw [← hdata]
    exact List.length_take_le _ _
  have hin : segment.dstOffset.toNat + segment.size.toNat ≤ mapEnd →
      ∀ w ∈ [Write.copy segment.dstOffset.toNat data], w.Within 0 mapEnd := by
    intro hle w hw
    cases List.mem_singleton.mp hw
    exact copy_within hlen hle
  split
  · exact Adds.refused_at_once
  · split
    · exact Adds.refused hin
    · rename_i hread
      apply Adds.checkHash _ _ _ _ hin
      intro hall
      apply le_of_copy_within (hall _ (List.mem_singleton_self _)) <;> omega

/-- A segment that is decompressed from the end of the memory. -/
lemma loadNsoSegment.adds_compressed (hend : mapEnd ≤ 2 ^ 32) :
    Adds (segment.dstOffset.toNat + segment.size.toNat ≤ mapEnd) mapEnd ws
      (loadNsoSegment loader f segment true checkHash segment.dstOffset.toNat mapEnd ws) := by
  simp only [loadNsoSegment, if_true]
  generalize hdata : (f.drop segment.fileOffset.toNat).take segment.compressedSize.toNat = data
  have hlen : data.length ≤ segment.compressedSize.toNat := by
    rw [← hdata]
    exact List.length_take_le _ _
  split
  · exact Adds.refused_at_once
  · rename_i hsize
    -- the compressed bytes are read to the end of the image, which is inside if the segment is
    have hstaged : segment.dstOffset.toNat + segment.size.toNat ≤ mapEnd →
        (Write.copy (sub64 mapEnd segment.compressedSize.toNat) data).Within 0 mapEnd := by
      intro hle
      have hfile : segment.compressedSize.toNat ≤ mapEnd := by omega
      rw [sub64_of_le hfile (by omega)]
      exact copy_within hlen (by omega)
    split
    · apply Adds.refused
      intro hle w hw
      cases List.mem_singleton.mp hw
      exact hstaged hle
    · rename_i hread
      have hle := loader.lz4.length_le
        (ws ++ [Write.copy (sub64 mapEnd segment.compressedSize.toNat) data]) segment.dstOffset.toNat
        segment.size.toNat (sub64 mapEnd segment.compressedSize.toNat) segment.compressedSize.toNat
      have heq := loader.lz4.length_eq
        (ws ++ [Write.copy (sub64 mapEnd segment.compressedSize.toNat) data]) segment.dstOffset.toNat
        segment.size.toNat (sub64 mapEnd segment.compressedSize.toNat) segment.compressedSize.toNat
      revert hle heq
      generalize loader.lz4.decompress _ _ _ _ _ = out
      intro hle heq
      rw [List.append_assoc]
      have hin : segment.dstOffset.toNat + segment.size.toNat ≤ mapEnd →
          ∀ w ∈ [Write.copy (sub64 mapEnd segment.compressedSize.toNat) data] ++
            [Write.copy segment.dstOffset.toNat out.2], w.Within 0 mapEnd := by
        intro hfit w hw
        cases List.mem_append.mp hw with
        | inl hw =>
          cases List.mem_singleton.mp hw
          exact hstaged hfit
        | inr hw =>
          cases List.mem_singleton.mp hw
          exact copy_within hle hfit
      split
      · exact Adds.refused hin
      · rename_i hout
        apply Adds.checkHash _ _ _ _ hin
        intro hall
        apply le_of_copy_within (hall _ (List.mem_append_right _ (List.mem_singleton_self _)))
        · exact heq (not_not.mp hout)
        · omega

/-- The writes of a segment are inside the memory if the segment is. -/
lemma loadNsoSegment.adds (isCompressed : Bool) (hend : mapEnd ≤ 2 ^ 32) :
    Adds (segment.dstOffset.toNat + segment.size.toNat ≤ mapEnd) mapEnd ws
      (loadNsoSegment loader f segment isCompressed checkHash segment.dstOffset.toNat mapEnd ws) := by
  cases isCompressed with
  | false => exact loadNsoSegment.adds_plain loader f segment checkHash ws
  | true => exact loadNsoSegment.adds_compressed loader f segment checkHash ws hend

end segment

/-- The space from one place to another is inside the memory if the places are in their order. -/
lemma fill_between_iff {a b last : Nat} (ha : a ≤ 2 ^ 32) (hb : b ≤ last) (hlast : last ≤ 2 ^ 32) :
    (Write.fill a (sub64 b a) 0).Within 0 last ↔ a ≤ b := by
  rw [Write.within_iff (Nat.zero_le _), Write.size_fill, Write.position_fill, sub64]
  omega

lemma clearUnused.within_iff {h : NsoHeader} (htext : h.text.dstOffset = 0)
    (hro : h.ro.dstOffset.toNat ≤ nsoSize h) (hrw : h.rw.dstOffset.toNat ≤ nsoSize h) :
    (∀ w ∈ clearUnused h, w.Within 0 (nsoSize h)) ↔ h.text.size.toNat ≤ h.ro.dstOffset.toNat ∧
        (h.ro.dstOffset + h.ro.size).toNat ≤ h.rw.dstOffset.toNat ∧
        (h.bssSize.toNat = 0 ∨
          (h.rw.dstOffset + h.rw.size).toNat + h.bssSize.toNat ≤ nsoSize h) := by
  have htextEnd : (h.text.dstOffset + h.text.size).toNat = h.text.size.toNat := by
    rw [htext, UInt32.zero_add]
  have hend := nsoSize_le h
  have htextLt : h.text.size.toNat ≤ 2 ^ 32 := le_of_lt h.text.size.toNat_lt
  have hroLt : (h.ro.dstOffset + h.ro.size).toNat ≤ 2 ^ 32 := le_of_lt (h.ro.dstOffset + h.ro.size).toNat_lt
  have hbetween := fill_between_iff htextLt hro hend
  have hbetween' := fill_between_iff hroLt hrw hend
  have hbss : (Write.fill (h.rw.dstOffset + h.rw.size).toNat h.bssSize.toNat 0).Within 0 (nsoSize h) ↔ _ :=
    Write.within_iff (Nat.zero_le _)
  have hfirst : (Write.fill 0 h.text.dstOffset.toNat 0).Within 0 (nsoSize h) := by
    left
    rw [htext]
    rfl
  rw [clearUnused, htextEnd]
  rw [List.forall_mem_cons, List.forall_mem_cons, List.forall_mem_cons, List.forall_mem_singleton, hbetween,
    hbetween', hbss]
  exact and_iff_right hfirst

/-- The conditions of the parts, together -/
lemma fits_iff {h : NsoHeader} (htext : h.text.dstOffset = 0) :
    (h.text.dstOffset.toNat + h.text.size.toNat ≤ nsoSize h ∧
      h.ro.dstOffset.toNat + h.ro.size.toNat ≤ nsoSize h ∧
      h.rw.dstOffset.toNat + h.rw.size.toNat ≤ nsoSize h ∧
      ∀ w ∈ clearUnused h, w.Within 0 (nsoSize h)) ↔ Fits h := by
  constructor
  · intro ⟨_, hro, hrw, hclear⟩
    have hclear := (clearUnused.within_iff htext (by omega) (by omega)).mp hclear
    exact ⟨hclear.1, hro, hclear.2.1, hrw, hclear.2.2⟩
  · intro hfits
    have hro := hfits.ro_le
    have hrw := hfits.rw_le
    refine ⟨?_, hro, hrw, ?_⟩
    · have hle := hfits.text_le_ro
      rw [htext]
      change 0 + h.text.size.toNat ≤ nsoSize h
      omega
    · apply (clearUnused.within_iff htext (by omega) (by omega)).mpr
      exact ⟨hfits.text_le_ro, hfits.ro_le_rw, hfits.bss_le⟩

/-- The whole load adds its writes to none. -/
lemma loadNsoIntoProcessMemory.adds (loader : NsoLoader) (f : List UInt8) {h : NsoHeader}
    (htext : h.text.dstOffset = 0) :
    Adds (Fits h) (nsoSize h) [] (loadNsoIntoProcessMemory loader f h (nsoSize h)) := by
  unfold loadNsoIntoProcessMemory
  cases loader.mapped with
  | error e => exact Adds.refused_at_once
  | ok u =>
    have hend := nsoSize_le h
    rw [← fits_iff htext]
    apply Adds.andThen (loadNsoSegment.adds loader f h.text _ [] _ hend)
    intro ws
    apply Adds.andThen (loadNsoSegment.adds loader f h.ro _ ws _ hend)
    intro ws
    apply Adds.andThen (loadNsoSegment.adds loader f h.rw _ ws _ hend)
    intro ws
    exact ⟨clearUnused h, rfl, id, fun _ => id⟩

/-- A segment that is neither compressed nor hashed. -/
def plainSegment (fileOffset dstOffset size : UInt32) : NsoSegment :=
  { fileOffset := fileOffset, dstOffset := dstOffset, size := size, compressedSize := 0, hash := [] }

/-- Two bytes of text and two of data, with one byte of `ro` somewhere. -/
def smallHeader (roOffset : UInt32) : NsoHeader :=
  { flags := 0, text := plainSegment 0 0 2, ro := plainSegment 2 roOffset 1, rw := plainSegment 3 3 2
    bssSize := 4 }

/-- The only NSO is the main one. -/
def onlyMain (i : Fin nsoCount) : Bool := i = 1

/-- A loader that decompresses nothing. -/
def plainLoader : NsoLoader :=
  { lz4 :=
      { decompress := fun _ _ _ _ _ => (-1, [])
        length_le := fun _ _ _ _ _ => Nat.zero_le _
        length_eq := fun _ _ _ _ _ h => absurd h (by omega) }
    sha256 := fun _ _ _ => []
    mapped := .ok ()
    permissions := .ok () }

lemma validateNsoHeaders_smallHeader (roOffset : UInt32) :
    validateNsoHeaders (fun _ => smallHeader roOffset) onlyMain = .ok () := by
  have hmain : onlyMain 1 := rfl
  have hmore : ¬∃ i : Fin nsoCount, 1 < i ∧ onlyMain i := by decide
  have htext : ¬∃ _ : Fin nsoCount, (smallHeader roOffset).text.dstOffset ≠ 0 := fun h => h.elim fun _ h => h rfl
  simp only [validateNsoHeaders, hmain, hmore, htext]
  simp

/-- Every byte that is written for an accepted header is inside the memory of the NSO if the header fits, also
when the load is refused later on. A load that is not refused stays inside only for these headers. -/
theorem loadNsoIntoProcessMemory_within_iff {headers : Fin nsoCount → NsoHeader} {hasNso : Fin nsoCount → Bool}
    (hv : validateNsoHeaders headers hasNso = .ok ()) (i : Fin nsoCount) (loader : NsoLoader) (f : List UInt8) :
    let h := headers i
    let load := loadNsoIntoProcessMemory loader f h (nsoSize h)
    (Fits h → ∀ w ∈ load.2, w.Within 0 (nsoSize h)) ∧
      (load.1 = .ok () → ((∀ w ∈ load.2, w.Within 0 (nsoSize h)) ↔ Fits h)) := by
  intro h load
  obtain ⟨new, hnew, hin, hout⟩ :=
    loadNsoIntoProcessMemory.adds loader f (validateNsoHeaders.text hv i)
  have hwrites : load.2 = new := hnew
  rw [hwrites]
  constructor
  · exact hin
  · intro hok
    exact ⟨hout hok, hin⟩

/-- `ro` behind the text -/
theorem loadNsoIntoProcessMemory_within_in_order :
    (loadNsoIntoProcessMemory plainLoader [1, 2, 3, 4, 5] (smallHeader 2) 0x1000).1 = .ok () ∧
      ∀ w ∈ (loadNsoIntoProcessMemory plainLoader [1, 2, 3, 4, 5] (smallHeader 2) 0x1000).2,
        w.Within 0 0x1000 := by
  have hfits : Fits (smallHeader 2) := ⟨by decide, by decide, by decide, by decide, by decide⟩
  have hwithin := loadNsoIntoProcessMemory_within_iff (validateNsoHeaders_smallHeader 2) 1 plainLoader
    [1, 2, 3, 4, 5]
  exact ⟨rfl, hwithin.1 hfits⟩

/-- `ro` in the text: the space between them is of nearly `2 ^ 64` bytes. -/
theorem loadNsoIntoProcessMemory_clears_outside :
    validateNsoHeaders (fun _ => smallHeader 1) onlyMain = .ok () ∧ onlyMain 1 = true ∧
      nsoSize (smallHeader 1) = 0x1000 ∧
      (loadNsoIntoProcessMemory plainLoader [1, 2, 3, 4, 5] (smallHeader 1) 0x1000).1 = .ok () ∧
      .fill 2 (2 ^ 64 - 1) 0 ∈ (loadNsoIntoProcessMemory plainLoader [1, 2, 3, 4, 5] (smallHeader 1) 0x1000).2 ∧
      ¬(Write.fill 2 (2 ^ 64 - 1) 0).Within 0 0x1000 :=
  ⟨validateNsoHeaders_smallHeader 1, rfl, by decide, rfl, by decide +kernel, by decide +kernel⟩

end RajNX.Loader
