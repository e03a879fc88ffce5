import RajNX.Lib.AddressSpace

/-!
# The package2 header

`validate_package2_metadata` of `package2.c`. It only looks at the first three sections. The sum of their
sizes is one of 32 bits, and that it does not wrap around follows from the other checks: sections that are
apart from each other have no more room than the addresses of 32 bits.
-/

namespace RajNX.Exosphere

open AddressSpace Regions

lemma neZero_sections : NeZero 4 := ⟨by decide⟩

/-- `NX_BOOTLOADER_PACKAGE2_LOAD_ADDRESS` -/
def package2LoadAddress : Nat := 0xA9800000

/-- `PACKAGE2_SIZE_MAX` -/
def package2SizeMax : Nat := 0x7FC000

/-- `sizeof(package2_header_t)` -/
def package2HeaderSize : Nat := 0x200

/-- `MASTERKEY_REVISION_MAX` -/
def masterkeyRevisionMax : UInt8 := 0xA

/-- `package2_meta_t` with the fields that are read. -/
structure Package2Meta where
  ctrDwords : Fin 4 → UInt32
  sectionCtrs : Fin 4 → List UInt8
  magic : UInt32
  entrypoint : UInt32
  versionMax : UInt8
  versionMin : UInt8
  sectionSizes : Fin 4 → UInt32
  sectionOffsets : Fin 4 → UInt32
  sectionHashes : Fin 4 → List UInt8

/-- The sections below `PACKAGE2_SECTION_MAX`. -/
def package2Sections : List (Fin 4) := [0, 1, 2]

/-- `overlaps` -/
def overlaps (as ae bs be : Nat) : Bool :=
  if as ≤ bs ∧ bs < ae then true
  else if bs ≤ as ∧ as < be then true
  else false

/-- `check_32bit_additive_overflow` -/
def check32bitAdditiveOverflow (a b : UInt32) : Bool := decide (2 ^ 32 ≤ a.toNat + b.toNat)

namespace Package2Meta

/-- `get_package2_size` -/
def getPackage2Size (metadata : Package2Meta) : UInt32 :=
  metadata.ctrDwords 0 ^^^ metadata.ctrDwords 2 ^^^ metadata.ctrDwords 3

/-- The version that is stored in the counter. -/
def headerVersion (metadata : Package2Meta) : UInt8 :=
  let dword := metadata.ctrDwords 1
  ((dword ^^^ dword >>> 16 ^^^ dword >>> 24) &&& 0xFF).toUInt8

/-- The addresses of a section behind the start of DRAM. -/
def sectionRegion (metadata : Package2Meta) (i : Fin 4) : Region :=
  ⟨(metadata.sectionOffsets i).toNat, (metadata.sectionSizes i).toNat⟩

/-- `section_end`, a sum of 32 bits. -/
def sectionEnd (metadata : Package2Meta) (i : Fin 4) : UInt32 :=
  metadata.sectionOffsets i + metadata.sectionSizes i

/-- The inner loop over the later sections. -/
def overlapsLater (metadata : Package2Meta) (i : Fin 4) (later : List (Fin 4)) : Bool :=
  later.any fun j => metadata.sectionSizes j ≠ 0 &&
    overlaps (metadata.sectionOffsets i).toNat (metadata.sectionEnd i).toNat
      (metadata.sectionOffsets j).toNat (metadata.sectionEnd j).toNat

/-- The loop over the sections, with the flag `entrypoint_found`, the offset `cur_section_offset` and the
data that has been hashed. -/
def validateSections (sha256 : List UInt8 → List UInt8) (checkHash : Bool) (mem : Nat → UInt8)
    (metadata : Package2Meta) : List (Fin 4) → Bool → Nat → List Region → Option (Bool × List Region)
  | [], entrypointFound, _, hashed => some (entrypointFound, hashed)
  | i :: later, entrypointFound, curSectionOffset, hashed =>
    let size := metadata.sectionSizes i
    if size &&& 3 ≠ 0 then none
    else if check32bitAdditiveOverflow (metadata.sectionOffsets i) size then none
    else
      let found := entrypointFound ||
        (metadata.sectionOffsets i ≤ metadata.entrypoint && metadata.entrypoint < metadata.sectionEnd i)
      if size ≠ 0 ∧ metadata.overlapsLater i later then none
      else if size = 0 then validateSections sha256 checkHash mem metadata later found curSectionOffset hashed
      else
        let data : Region := ⟨package2LoadAddress + package2HeaderSize + curSectionOffset, size.toNat⟩
        if checkHash ∧ sha256 (read mem data) ≠ metadata.sectionHashes i then none
        else
          validateSections sha256 checkHash mem metadata later found (curSectionOffset + size.toNat)
            (hashed ++ [data])

/-- `validate_package2_metadata`: what has been hashed, or `none` if it returns false. -/
def validatePackage2Metadata (sha256 : List UInt8 → List UInt8) (checkHash : Bool) (mem : Nat → UInt8)
    (metadata : Package2Meta) : Option (List Region) :=
  let packageSize := metadata.getPackage2Size.toNat
  if metadata.magic ≠ 0x31324B50 then none
  else if packageSize ≤ package2HeaderSize ∨ package2SizeMax < packageSize then none
  else if masterkeyRevisionMax < metadata.headerVersion then none
  else if metadata.entrypoint &&& 3 ≠ 0 then none
  else if (metadata.sectionSizes 0 + metadata.sectionSizes 1 + metadata.sectionSizes 2).toNat +
      package2HeaderSize ≠ packageSize then none
  else
    match validateSections sha256 checkHash mem metadata package2Sections false 0 [] with
    | none => none
    | some (entrypointFound, hashed) =>
      if !entrypointFound then none
      else if 0 ≤ metadata.versionMax ∧ metadata.versionMin < 0xC then some hashed
      else none

/-- The sections of `is` with a size. -/
def usedSections (metadata : Package2Meta) (is : List (Fin 4)) : List (Fin 4) :=
  is.filter fun i => metadata.sectionSizes i ≠ 0

/-- Where those sections are to go, behind the start of DRAM. -/
def usedRegions (metadata : Package2Meta) (is : List (Fin 4)) : List Region :=
  (metadata.usedSections is).map metadata.sectionRegion

/-- Where the data of those sections is, with `curSectionOffset` bytes in front of it. -/
def dataRegions (metadata : Package2Meta) (is : List (Fin 4)) (curSectionOffset : Nat) : List Region :=
  layOut (package2LoadAddress + package2HeaderSize + curSectionOffset)
    ((metadata.usedRegions is).map Region.size)

section Accepted

variable {sha256 : List UInt8 → List UInt8} {checkHash : Bool} {mem : Nat → UInt8} {metadata : Package2Meta}
  {hashed : List Region}

lemma stop_le_of_overlaps {as ae bs be : Nat} (h : overlaps as ae bs be = false) : ae ≤ bs ∨ be ≤ as := by
  rw [overlaps] at h
  split at h
  · cases h
  split at h
  · cases h
  omega

lemma toNat_eq_zero {n : UInt32} : n.toNat = 0 ↔ n = 0 := by
  rw [← UInt32.toNat_zero, UInt32.toNat_inj]

variable {i : Fin 4}

/-- A section that does not overflow. -/
lemma sectionEnd_toNat (h : check32bitAdditiveOverflow (metadata.sectionOffsets i) (metadata.sectionSizes i) = false) :
    (metadata.sectionEnd i).toNat = (metadata.sectionRegion i).stop ∧
      (metadata.sectionRegion i).stop < 2 ^ 32 := by
  have hlt := Nat.lt_of_not_le (of_decide_eq_false h)
  rw [sectionEnd, UInt32.toNat_add, Nat.mod_eq_of_lt hlt]
  exact ⟨rfl, hlt⟩

variable {later : List (Fin 4)}

lemma usedRegions_of_zero (h : metadata.sectionSizes i = 0) :
    metadata.usedRegions (i :: later) = metadata.usedRegions later := by
  rw [usedRegions, usedRegions, usedSections, usedSections, List.filter_cons_of_neg]
  simpa using h

lemma usedRegions_of_ne (h : metadata.sectionSizes i ≠ 0) :
    metadata.usedRegions (i :: later) = metadata.sectionRegion i :: metadata.usedRegions later := by
  rw [usedRegions, usedRegions, usedSections, usedSections, List.filter_cons_of_pos, List.map_cons]
  simpa using h

variable {is : List (Fin 4)}

lemma mem_usedRegions {r : Region} (h : r ∈ metadata.usedRegions is) :
    ∃ i ∈ is, metadata.sectionSizes i ≠ 0 ∧ metadata.sectionRegion i = r := by
  obtain ⟨i, hi, hr⟩ := List.mem_map.mp h
  obtain ⟨hi, hsize⟩ := List.mem_filter.mp hi
  exact ⟨i, hi, of_decide_eq_true hsize, hr⟩

variable {cur : Nat}

lemma dataRegions_of_zero (h : metadata.sectionSizes i = 0) :
    metadata.dataRegions (i :: later) cur = metadata.dataRegions later cur := by
  rw [dataRegions, dataRegions, usedRegions_of_zero h]

lemma dataRegions_of_ne (h : metadata.sectionSizes i ≠ 0) :
    metadata.dataRegions (i :: later) cur =
      ⟨package2LoadAddress + package2HeaderSize + cur, (metadata.sectionSizes i).toNat⟩ ::
        metadata.dataRegions later (cur + (metadata.sectionSizes i).toNat) := by
  rw [dataRegions, dataRegions, usedRegions_of_ne h, List.map_cons, layOut, Nat.add_assoc _ cur]
  rfl

variable {found : Bool} {result : Bool × List Region}

/-- What a section that is accepted has passed. -/
lemma validateSections_cons
    (h : validateSections sha256 checkHash mem metadata (i :: later) found cur hashed = some result) :
    check32bitAdditiveOverflow (metadata.sectionOffsets i) (metadata.sectionSizes i) = false ∧
      (metadata.sectionSizes i ≠ 0 → metadata.overlapsLater i later = false) ∧
      validateSections sha256 checkHash mem metadata later
        (found || (metadata.sectionOffsets i ≤ metadata.entrypoint && metadata.entrypoint < metadata.sectionEnd i))
        (cur + (metadata.sectionSizes i).toNat) (hashed ++ metadata.dataRegions [i] cur) = some result := by
  rw [validateSections] at h
  dsimp only at h
  split at h
  · cases h
  split at h
  · cases h
  next hoverflow =>
  split at h
  · cases h
  next hoverlap =>
  refine ⟨Bool.eq_false_iff.mpr hoverflow, fun hsize => Bool.eq_false_iff.mpr fun hany => hoverlap ⟨hsize, hany⟩, ?_⟩
  split at h
  · next hzero =>
    have hdata : metadata.dataRegions [i] cur = [] := dataRegions_of_zero hzero
    rw [hdata, List.append_nil, toNat_eq_zero.mpr hzero]
    exact h
  · next hsize =>
    split at h
    · cases h
    · rw [dataRegions_of_ne hsize]
      exact h

section

variable (h : validateSections sha256 checkHash mem metadata is found cur hashed = some result)

include h

/-- No section wraps around. -/
lemma validateSections_stop_lt :
    ∀ i ∈ is, check32bitAdditiveOverflow (metadata.sectionOffsets i) (metadata.sectionSizes i) = false := by
  induction is generalizing found cur hashed with
  | nil => exact fun i hi => nomatch hi
  | cons i later ih =>
    obtain ⟨hoverflow, -, hrest⟩ := validateSections_cons h
    intro j hj
    cases hj with
    | head => exact hoverflow
    | tail _ hj => exact ih hrest j hj

/-- The sections with a size are apart from each other. -/
lemma validateSections_pairwise : (metadata.usedRegions is).Pairwise Region.Apart := by
  induction is generalizing found cur hashed with
  | nil => exact .nil
  | cons i later ih =>
    obtain ⟨hoverflow, hlater, hrest⟩ := validateSections_cons h
    by_cases hzero : metadata.sectionSizes i = 0
    · rw [usedRegions_of_zero hzero]
      exact ih hrest
    · rw [usedRegions_of_ne hzero]
      refine .cons (fun r hr => ?_) (ih hrest)
      obtain ⟨j, hj, hsize, rfl⟩ := mem_usedRegions hr
      have hoverlap := List.any_eq_false.mp (hlater hzero) j hj
      rw [decide_eq_true hsize, Bool.true_and, Bool.not_eq_true, (sectionEnd_toNat hoverflow).1,
        (sectionEnd_toNat (validateSections_stop_lt hrest j hj)).1] at hoverlap
      exact stop_le_of_overlaps hoverlap

/-- The entrypoint has been found in a section. -/
lemma validateSections_entrypoint (hfound : result.1 = true) :
    found = true ∨ ∃ i ∈ is, (metadata.sectionRegion i).Contains metadata.entrypoint.toNat := by
  induction is generalizing found cur hashed with
  | nil =>
    cases h
    exact .inl hfound
  | cons i later ih =>
    obtain ⟨hoverflow, -, hrest⟩ := validateSections_cons h
    rcases ih hrest with hfirst | ⟨j, hj, hin⟩
    · rw [Bool.or_eq_true, Bool.and_eq_true] at hfirst
      rcases hfirst with hfirst | ⟨hstart, hend⟩
      · exact .inl hfirst
      · have hlt := UInt32.lt_iff_toNat_lt.mp (of_decide_eq_true hend)
        rw [(sectionEnd_toNat hoverflow).1] at hlt
        exact .inr ⟨i, .head _, UInt32.le_iff_toNat_le.mp (of_decide_eq_true hstart), hlt⟩
    · exact .inr ⟨j, .tail _ hj, hin⟩

/-- The data of the sections is hashed in a row. -/
lemma validateSections_hashed : result.2 = hashed ++ metadata.dataRegions is cur := by
  induction is generalizing found cur hashed with
  | nil =>
    cases h
    exact (List.append_nil _).symm
  | cons i later ih =>
    obtain ⟨-, -, hrest⟩ := validateSections_cons h
    rw [ih hrest, List.append_assoc]
    by_cases hzero : metadata.sectionSizes i = 0
    · rw [dataRegions_of_zero hzero, dataRegions_of_zero hzero, toNat_eq_zero.mpr hzero]
      rfl
    · rw [dataRegions_of_ne hzero, dataRegions_of_ne hzero]
      rfl

end

/-- The sizes of the sections with a size. -/
lemma sum_usedRegions (metadata : Package2Meta) (is : List (Fin 4)) :
    ((metadata.usedRegions is).map Region.size).sum = (is.map fun i => (metadata.sectionSizes i).toNat).sum := by
  induction is with
  | nil => rfl
  | cons i later ih =>
    by_cases hzero : metadata.sectionSizes i = 0
    · rw [usedRegions_of_zero hzero, List.map_cons, List.sum_cons, toNat_eq_zero.mpr hzero, Nat.zero_add, ih]
    · rw [usedRegions_of_ne hzero, List.map_cons, List.map_cons, List.sum_cons, List.sum_cons, ih]
      rfl

section

variable (h : validatePackage2Metadata sha256 checkHash mem metadata = some hashed)

include h

/-- What metadata that is accepted has passed. -/
lemma validatePackage2Metadata_checks :
    metadata.getPackage2Size.toNat ≤ package2SizeMax ∧ metadata.entrypoint &&& 3 = 0 ∧
      (metadata.sectionSizes 0 + metadata.sectionSizes 1 + metadata.sectionSizes 2).toNat + package2HeaderSize =
        metadata.getPackage2Size.toNat ∧
      validateSections sha256 checkHash mem metadata package2Sections false 0 [] = some (true, hashed) := by
  rw [validatePackage2Metadata] at h
  split at h
  · cases h
  split at h
  · cases h
  next hsize =>
  split at h
  · cases h
  split at h
  · cases h
  next hentry =>
  split at h
  · cases h
  next hsum =>
  refine ⟨by omega, not_not.mp hentry, not_not.mp hsum, ?_⟩
  split at h
  · cases h
  next hsections =>
  split at h
  · cases h
  next hfound =>
  rw [Bool.not_eq_true', Bool.not_eq_false] at hfound
  split at h
  · cases h
    rw [hsections, hfound]
  · cases h

/-- The sections have room in the addresses of 32 bits, so that the sum of their sizes does not wrap around. -/
lemma validatePackage2Metadata_sum :
    (package2Sections.map fun i => (metadata.sectionSizes i).toNat).sum + package2HeaderSize =
      metadata.getPackage2Size.toNat := by
  obtain ⟨-, -, hsum, hsections⟩ := validatePackage2Metadata_checks h
  have hroom : ((metadata.usedRegions package2Sections).map Region.size).sum ≤ 2 ^ 32 - 1 := by
    refine sum_size_le (validateSections_pairwise hsections) fun r hr => ?_
    obtain ⟨i, hi, -, rfl⟩ := mem_usedRegions hr
    exact Nat.le_sub_one_of_lt (sectionEnd_toNat (validateSections_stop_lt hsections i hi)).2
  rw [sum_usedRegions] at hroom
  rw [← hsum, UInt32.toNat_add, UInt32.toNat_add]
  simp only [package2Sections, List.map_cons, List.map_nil, List.sum_cons, List.sum_nil] at hroom ⊢
  omega

lemma validatePackage2Metadata_size :
    (metadata.sectionSizes 0).toNat + (metadata.sectionSizes 1).toNat + (metadata.sectionSizes 2).toNat +
      package2HeaderSize = metadata.getPackage2Size.toNat := by
  simpa only [package2Sections, List.map_cons, List.map_nil, List.sum_cons, List.sum_nil, Nat.add_zero,
    Nat.add_assoc] using validatePackage2Metadata_sum h

/-- The metadata that is accepted: the sizes make up the package, the sections are apart and do not wrap
around, the entrypoint is in one of them, and the data that is hashed lies in a row in the package. -/
theorem validatePackage2Metadata_sane :
    ((metadata.sectionSizes 0).toNat + (metadata.sectionSizes 1).toNat + (metadata.sectionSizes 2).toNat +
        package2HeaderSize = metadata.getPackage2Size.toNat ∧
      metadata.getPackage2Size.toNat ≤ package2SizeMax) ∧
    ((metadata.usedRegions package2Sections).Pairwise Region.Apart ∧
      ∀ i ∈ package2Sections, (metadata.sectionRegion i).stop < 2 ^ 32) ∧
    (metadata.entrypoint.toNat % 4 = 0 ∧
      ∃ i ∈ package2Sections, (metadata.sectionRegion i).Contains metadata.entrypoint.toNat) ∧
    (hashed.map Region.size = (metadata.usedRegions package2Sections).map Region.size ∧
      hashed = layOut (package2LoadAddress + package2HeaderSize) (hashed.map Region.size) ∧
      (hashed.Pairwise fun r r' => r.stop ≤ r'.start) ∧
      ∀ r ∈ hashed, package2LoadAddress + package2HeaderSize ≤ r.start ∧
        r.stop ≤ package2LoadAddress + metadata.getPackage2Size.toNat) := by
  obtain ⟨hmax, hentry, -, hsections⟩ := validatePackage2Metadata_checks h
  have hsum := validatePackage2Metadata_sum h
  have hhashed : hashed = metadata.dataRegions package2Sections 0 := validateSections_hashed hsections
  have hsizes : hashed.map Region.size = (metadata.usedRegions package2Sections).map Region.size := by
    rw [hhashed, dataRegions, map_size_layOut]
  refine ⟨⟨validatePackage2Metadata_size h, hmax⟩, ⟨validateSections_pairwise hsections, ?_⟩, ⟨?_, ?_⟩, hsizes,
    ?_, ?_, ?_⟩
  · exact fun i hi => (sectionEnd_toNat (validateSections_stop_lt hsections i hi)).2
  · have hmask := congrArg UInt32.toNat hentry
    rw [UInt32.toNat_and] at hmask
    exact (Nat.and_two_pow_sub_one_eq_mod _ 2).symm.trans hmask
  · exact (validateSections_entrypoint hsections rfl).resolve_left Bool.false_ne_true
  · rw [hsizes, hhashed]
    rfl
  · rw [hhashed]
    exact layOut_pairwise _ _
  · intro r hr
    rw [hhashed] at hr
    obtain ⟨hstart, hstop⟩ := layOut_inside hr
    rw [sum_usedRegions] at hstop
    exact ⟨hstart, by omega⟩

end

/-! ## Metadata that is accepted -/

lemma overlaps_of_apart {as ae bs be : Nat} (ha : as < ae) (hb : bs < be) (h : ae ≤ bs ∨ be ≤ as) :
    overlaps as ae bs be = false := by
  rw [overlaps, if_neg (by omega), if_neg (by omega)]

/-- The sections are accepted if they are aligned, do not overflow, and are apart. -/
lemma validateSections_eq {is : List (Fin 4)} {found : Bool} {cur : Nat}
    (haligned : ∀ i ∈ is, metadata.sectionSizes i &&& 3 = 0)
    (hoverflow : ∀ i ∈ is, check32bitAdditiveOverflow (metadata.sectionOffsets i) (metadata.sectionSizes i) = false)
    (hapart : (metadata.usedRegions is).Pairwise Region.Apart) :
    ∃ regions, validateSections sha256 false mem metadata is found cur hashed =
      some (found || is.any fun i =>
        metadata.sectionOffsets i ≤ metadata.entrypoint && metadata.entrypoint < metadata.sectionEnd i, regions) := by
  induction is generalizing found cur hashed with
  | nil => exact ⟨hashed, by rw [validateSections, List.any_nil, Bool.or_false]⟩
  | cons i later ih =>
    have hlater := fun j hj => haligned j (.tail _ hj)
    have hlater' := fun j hj => hoverflow j (.tail _ hj)
    have hthis := hoverflow i (.head _)
    rw [validateSections, List.any_cons, ← Bool.or_assoc]
    dsimp only
    rw [if_neg (not_not.mpr (haligned i (.head _))), if_neg (Bool.eq_false_iff.mp hthis)]
    rcases eq_or_ne (metadata.sectionSizes i) 0 with hzero | hsize
    · rw [usedRegions_of_zero hzero] at hapart
      rw [if_neg fun h => h.1 hzero, if_pos hzero]
      exact ih hlater hlater' hapart
    · rw [usedRegions_of_ne hsize] at hapart
      obtain ⟨hfirst, hrest⟩ := List.pairwise_cons.mp hapart
      have hpos (j : Fin 4) (hj : metadata.sectionSizes j ≠ 0) :
          (metadata.sectionRegion j).start < (metadata.sectionRegion j).stop :=
        Nat.lt_add_of_pos_right (Nat.pos_of_ne_zero (mt toNat_eq_zero.mp hj))
      have hoverlap : metadata.overlapsLater i later = false := by
        rw [overlapsLater, List.any_eq_false]
        intro j hj hany
        obtain ⟨hused, hover⟩ := (Bool.and_eq_true _ _).mp hany
        have hused' : metadata.sectionSizes j ≠ 0 := of_decide_eq_true hused
        have hmem : metadata.sectionRegion j ∈ metadata.usedRegions later :=
          List.mem_map.mpr ⟨j, List.mem_filter.mpr ⟨hj, hused⟩, rfl⟩
        rw [(sectionEnd_toNat hthis).1, (sectionEnd_toNat (hlater' j hj)).1] at hover
        have hno := overlaps_of_apart (hpos i hsize) (hpos j hused') (hfirst _ hmem)
        exact absurd hover (Bool.eq_false_iff.mp hno)
      rw [if_neg fun h => Bool.eq_false_iff.mp hoverlap h.2, if_neg hsize, if_neg fun h => Bool.false_ne_true h.1]
      exact ih hlater hlater' hrest

/-- Metadata is accepted, but for the hashes, if its sizes make up the package, its sections are aligned, do not
overflow and are apart, and the entrypoint is in one of them. -/
lemma validatePackage2Metadata_isSome (hmagic : metadata.magic = 0x31324B50)
    (hsize : package2HeaderSize < metadata.getPackage2Size.toNat ∧ metadata.getPackage2Size.toNat ≤ package2SizeMax)
    (hversion : ¬masterkeyRevisionMax < metadata.headerVersion) (hentry : metadata.entrypoint &&& 3 = 0)
    (hsum : (metadata.sectionSizes 0 + metadata.sectionSizes 1 + metadata.sectionSizes 2).toNat +
      package2HeaderSize = metadata.getPackage2Size.toNat)
    (haligned : ∀ i ∈ package2Sections, metadata.sectionSizes i &&& 3 = 0)
    (hoverflow : ∀ i ∈ package2Sections,
      check32bitAdditiveOverflow (metadata.sectionOffsets i) (metadata.sectionSizes i) = false)
    (hapart : (metadata.usedRegions package2Sections).Pairwise Region.Apart)
    (hfound : ∃ i ∈ package2Sections, (metadata.sectionRegion i).Contains metadata.entrypoint.toNat)
    (hversions : 0 ≤ metadata.versionMax ∧ metadata.versionMin < 0xC) :
    (validatePackage2Metadata sha256 false mem metadata).isSome = true := by
  obtain ⟨regions, hsections⟩ := @validateSections_eq sha256 mem metadata [] package2Sections false 0
    haligned hoverflow hapart
  have hany : (package2Sections.any fun i =>
      metadata.sectionOffsets i ≤ metadata.entrypoint && metadata.entrypoint < metadata.sectionEnd i) = true := by
    obtain ⟨i, hi, hstart, hstop⟩ := hfound
    refine List.any_eq_true.mpr ⟨i, hi, (Bool.and_eq_true _ _).mpr ⟨?_, ?_⟩⟩
    · exact decide_eq_true (UInt32.le_iff_toNat_le.mpr hstart)
    · refine decide_eq_true (UInt32.lt_iff_toNat_lt.mpr ?_)
      rw [(sectionEnd_toNat (hoverflow i hi)).1]
      exact hstop
  rw [hany] at hsections
  rw [validatePackage2Metadata]
  rw [if_neg (not_not.mpr hmagic), if_neg (by omega), if_neg hversion, if_neg (not_not.mpr hentry),
    if_neg (not_not.mpr hsum), hsections]
  dsimp only
  rw [if_neg (by decide), if_pos hversions]
  rfl

end Accepted

/-- Two sections with nothing between their data, and the entrypoint in the second one. -/
def examplePackage2Meta : Package2Meta where
  ctrDwords := ![0x1300, 0, 0x1000, 0]
  sectionCtrs _ := List.replicate 0x10 0
  magic := 0x31324B50
  entrypoint := 0x80060000
  versionMax := 0xD
  versionMin := 0xB
  sectionSizes := ![0x80, 0, 0x80, 0]
  sectionOffsets := ![0x60000, 0x60000, 0x80060000, 0]
  sectionHashes _ := List.replicate 0x20 0

lemma examplePackage2Meta_accepted :
    validatePackage2Metadata (fun _ => List.replicate 0x20 0) true (fun _ => 0) examplePackage2Meta =
      some [⟨0xA9800200, 0x80⟩, ⟨0xA9800280, 0x80⟩] := by
  decide

/-- The sizes of its sections and of the header add up to the size of the package. -/
theorem validatePackage2Metadata_sane_example :
    ((examplePackage2Meta.sectionSizes 0).toNat + (examplePackage2Meta.sectionSizes 1).toNat +
        (examplePackage2Meta.sectionSizes 2).toNat + package2HeaderSize = examplePackage2Meta.getPackage2Size.toNat ∧
      examplePackage2Meta.getPackage2Size.toNat ≤ package2SizeMax) :=
  (validatePackage2Metadata_sane examplePackage2Meta_accepted).1

end Package2Meta

end RajNX.Exosphere
