import RajNX.Exosphere.Package2Load

/-!
# What is hashed of package2

`validate_package2_metadata` of `package2.c` once more, now with the data that it passes to the hash engine
whether or not it returns true. The data of a section is hashed before the later sections are looked at, and
until then nothing says that the sum of the sizes, which is one of 32 bits, is the size of the data.
-/

namespace RajNX.Exosphere

open AddressSpace Regions

attribute [local instance] neZero_sections

namespace Package2Meta

/-- The loop over the sections: the flag `entrypoint_found`, or `none` if the function returns false in the
loop, and the data that `se_calculate_sha256` has got. -/
def hashSections (sha256 : List UInt8 → List UInt8) (checkHash : Bool) (mem : Nat → UInt8)
    (metadata : Package2Meta) : List (Fin 4) → Bool → Nat → Option Bool × List Region
  | [], entrypointFound, _ => (some entrypointFound, [])
  | i :: later, entrypointFound, curSectionOffset =>
    let size := metadata.sectionSizes i
    if size &&& 3 ≠ 0 then (none, [])
    else if check32bitAdditiveOverflow (metadata.sectionOffsets i) size then (none, [])
    else
      let found := entrypointFound ||
        (metadata.sectionOffsets i ≤ metadata.entrypoint && metadata.entrypoint < metadata.sectionEnd i)
      if size ≠ 0 ∧ metadata.overlapsLater i later then (none, [])
      else if size = 0 then hashSections sha256 checkHash mem metadata later found curSectionOffset
      else
        let data := metadata.dataRegion package2LoadAddress curSectionOffset i
        if checkHash ∧ sha256 (read mem data) ≠ metadata.sectionHashes i then (none, [data])
        else
          let rest := hashSections sha256 checkHash mem metadata later found (curSectionOffset + size.toNat)
          (rest.1, data :: rest.2)

/-- `validate_package2_metadata`: what it returns, and the data that `se_calculate_sha256` has got. -/
def hashPackage2Metadata (sha256 : List UInt8 → List UInt8) (checkHash : Bool) (mem : Nat → UInt8)
    (metadata : Package2Meta) : Bool × List Region :=
  let packageSize := metadata.getPackage2Size.toNat
  if metadata.magic ≠ 0x31324B50 then (false, [])
  else if packageSize ≤ package2HeaderSize ∨ package2SizeMax < packageSize then (false, [])
  else if masterkeyRevisionMax < metadata.headerVersion then (false, [])
  else if metadata.entrypoint &&& 3 ≠ 0 then (false, [])
  else if (metadata.sectionSizes 0 + metadata.sectionSizes 1 + metadata.sectionSizes 2).toNat +
      package2HeaderSize ≠ packageSize then (false, [])
  else
    let (entrypointFound, hashed) := hashSections sha256 checkHash mem metadata package2Sections false 0
    match entrypointFound with
    | none => (false, hashed)
    | some false => (false, hashed)
    | some true => (decide (0 ≤ metadata.versionMax ∧ metadata.versionMin < 0xC), hashed)

/-- The checks in front of the loop. -/
structure HeaderPasses (metadata : Package2Meta) : Prop where
  magic : metadata.magic = 0x31324B50
  size : package2HeaderSize < metadata.getPackage2Size.toNat ∧ metadata.getPackage2Size.toNat ≤ package2SizeMax
  version : metadata.headerVersion ≤ masterkeyRevisionMax
  entrypoint : metadata.entrypoint &&& 3 = 0
  sum : (metadata.sectionSizes 0 + metadata.sectionSizes 1 + metadata.sectionSizes 2).toNat +
    package2HeaderSize = metadata.getPackage2Size.toNat

/-- The checks of a section in front of its hash. -/
structure SectionPasses (metadata : Package2Meta) (i : Fin 4) (later : List (Fin 4)) : Prop where
  aligned : metadata.sectionSizes i &&& 3 = 0
  fits : check32bitAdditiveOverflow (metadata.sectionOffsets i) (metadata.sectionSizes i) = false
  apart : metadata.sectionSizes i ≠ 0 → metadata.overlapsLater i later = false

/-- The hash of a section, if it is checked, is the one of the metadata. -/
def HashMatches (sha256 : List UInt8 → List UInt8) (checkHash : Bool) (mem : Nat → UInt8)
    (metadata : Package2Meta) (i : Fin 4) (curSectionOffset : Nat) : Prop :=
  checkHash → metadata.sectionSizes i ≠ 0 →
    sha256 (read mem (metadata.dataRegion package2LoadAddress curSectionOffset i)) = metadata.sectionHashes i

/-- The loop gets past the sections `pre` and to the sections `rest`. -/
def Reaches (sha256 : List UInt8 → List UInt8) (checkHash : Bool) (mem : Nat → UInt8)
    (metadata : Package2Meta) : List (Fin 4) → List (Fin 4) → Nat → Prop
  | [], _, _ => True
  | i :: pre, rest, curSectionOffset =>
    metadata.SectionPasses i (pre ++ rest) ∧ HashMatches sha256 checkHash mem metadata i curSectionOffset ∧
      Reaches sha256 checkHash mem metadata pre rest (curSectionOffset + (metadata.sectionSizes i).toNat)

/-- The sum of the sizes is not one of 32 bits. -/
def SizesWrap (metadata : Package2Meta) : Prop := 2 ^ 32 ≤ metadata.sizeSum package2Sections

/-- Section `i` is the first one with data behind the largest package. -/
structure FirstBeyond (metadata : Package2Meta) (pre : List (Fin 4)) (i : Fin 4) : Prop where
  before : package2HeaderSize + metadata.sizeSum pre ≤ package2SizeMax
  beyond : package2SizeMax < package2HeaderSize + metadata.sizeSum (pre ++ [i])

/-- A range of the memory for package2. -/
def InPackage2 (r : Region) : Prop :=
  package2LoadAddress ≤ r.start ∧ r.stop ≤ package2LoadAddress + package2SizeMax

section Hashed

variable {sha256 : List UInt8 → List UInt8} {checkHash : Bool} {mem : Nat → UInt8} {metadata : Package2Meta}

/-- The loop of `validate_package2_metadata` and the one with the flag are the same. -/
lemma validateSections_eq_hashSections (is : List (Fin 4)) (found : Bool) (cur : Nat) (hashed : List Region) :
    validateSections sha256 checkHash mem metadata is found cur hashed =
      (hashSections sha256 checkHash mem metadata is found cur).1.map fun entrypointFound =>
        (entrypointFound, hashed ++ (hashSections sha256 checkHash mem metadata is found cur).2) := by
  induction is generalizing found cur hashed with
  | nil => rw [validateSections, hashSections, Option.map_some, List.append_nil]
  | cons i later ih =>
    rw [validateSections, hashSections]
    dsimp only [dataRegion]
    split
    · rfl
    split
    · rfl
    split
    · rfl
    split
    · exact ih _ _ _
    split
    · rfl
    · rw [ih, List.append_assoc]
      rfl

/-- What has been hashed of metadata that is accepted. -/
theorem validatePackage2Metadata_eq_hash :
    validatePackage2Metadata sha256 checkHash mem metadata =
      if (hashPackage2Metadata sha256 checkHash mem metadata).1 then
        some (hashPackage2Metadata sha256 checkHash mem metadata).2
      else none := by
  rw [validatePackage2Metadata, hashPackage2Metadata, validateSections_eq_hashSections]
  dsimp only
  split
  · rfl
  split
  · rfl
  split
  · rfl
  split
  · rfl
  split
  · rfl
  rcases hashSections sha256 checkHash mem metadata package2Sections false 0 with ⟨_ | _ | _, hashed⟩
  · rfl
  · rfl
  · dsimp only [Option.map_some, Bool.not_true]
    rw [if_neg (by decide), List.nil_append]
    simp only [decide_eq_true_eq]

/-- A section that does not pass ends the loop. -/
lemma hashSections_of_not_passes {i : Fin 4} {later : List (Fin 4)} {found : Bool} {cur : Nat}
    (h : ¬metadata.SectionPasses i later) :
    hashSections sha256 checkHash mem metadata (i :: later) found cur = (none, []) := by
  rw [hashSections]
  dsimp only
  split
  · rfl
  next haligned =>
  split
  · rfl
  next hfits =>
  split
  · rfl
  next hapart =>
  refine absurd ⟨not_not.mp haligned, Bool.eq_false_iff.mpr hfits, fun hsize => ?_⟩ h
  exact Bool.eq_false_iff.mpr fun hany => hapart ⟨hsize, hany⟩

/-- A section that passes has its data hashed, if there is any. -/
lemma mem_hashSections_cons {i : Fin 4} {later : List (Fin 4)} {found : Bool} {cur : Nat}
    (h : metadata.SectionPasses i later) :
    ∃ found', ∀ r, r ∈ (hashSections sha256 checkHash mem metadata (i :: later) found cur).2 ↔
      (metadata.sectionSizes i ≠ 0 ∧ r = metadata.dataRegion package2LoadAddress cur i) ∨
        (HashMatches sha256 checkHash mem metadata i cur ∧
          r ∈ (hashSections sha256 checkHash mem metadata later found' (cur + (metadata.sectionSizes i).toNat)).2) := by
  refine ⟨found || (metadata.sectionOffsets i ≤ metadata.entrypoint && metadata.entrypoint < metadata.sectionEnd i),
    fun r => ?_⟩
  rw [hashSections]
  dsimp only
  rw [if_neg (not_not.mpr h.aligned), if_neg (Bool.eq_false_iff.mp h.fits),
    if_neg fun hover => Bool.eq_false_iff.mp (h.apart hover.1) hover.2]
  split
  · next hzero =>
    have hmatches : HashMatches sha256 checkHash mem metadata i cur := fun _ hsize => absurd hzero hsize
    rw [toNat_eq_zero.mpr hzero, Nat.add_zero]
    exact ⟨fun hr => .inr ⟨hmatches, hr⟩, fun hr => (hr.resolve_left fun hsize => hsize.1 hzero).2⟩
  next hsize =>
  split
  · next hwrong =>
    have hmatches : ¬HashMatches sha256 checkHash mem metadata i cur := fun hm => hwrong.2 (hm hwrong.1 hsize)
    rw [List.mem_singleton]
    exact ⟨fun hr => .inl ⟨hsize, hr⟩, fun hr => (hr.resolve_right fun hm => hmatches hm.1).2⟩
  · next hright =>
    have hmatches : HashMatches sha256 checkHash mem metadata i cur := fun hcheck _ =>
      not_not.mp fun hwrong => hright ⟨hcheck, hwrong⟩
    rw [List.mem_cons]
    exact or_congr (and_iff_right hsize).symm (and_iff_right hmatches).symm

/-- The data that is hashed is the one of the sections that the loop gets to. -/
lemma mem_hashSections {is : List (Fin 4)} {found : Bool} {cur : Nat} {r : Region} :
    r ∈ (hashSections sha256 checkHash mem metadata is found cur).2 ↔
      ∃ pre i post, is = pre ++ i :: post ∧ Reaches sha256 checkHash mem metadata pre (i :: post) cur ∧
        metadata.SectionPasses i post ∧ metadata.sectionSizes i ≠ 0 ∧
        r = metadata.dataRegion package2LoadAddress (cur + metadata.sizeSum pre) i := by
  induction is generalizing found cur with
  | nil =>
    refine ⟨(nomatch ·), fun ⟨pre, i, post, hsplit, _⟩ => ?_⟩
    exact absurd hsplit (List.append_ne_nil_of_right_ne_nil _ (List.cons_ne_nil _ _)).symm
  | cons j later ih =>
    by_cases hpasses : metadata.SectionPasses j later
    · obtain ⟨found', hmem⟩ := @mem_hashSections_cons sha256 checkHash mem metadata j later found cur hpasses
      rw [hmem]
      constructor
      · rintro (⟨hsize, rfl⟩ | ⟨hmatches, hr⟩)
        · exact ⟨[], j, later, rfl, trivial, hpasses, hsize, rfl⟩
        · obtain ⟨pre, i, post, rfl, hreach, hi, hsize, rfl⟩ := ih.mp hr
          exact ⟨j :: pre, i, post, rfl, ⟨hpasses, hmatches, hreach⟩, hi, hsize, by rw [sizeSum_cons, Nat.add_assoc]⟩
      · rintro ⟨pre, i, post, hsplit, hreach, hi, hsize, rfl⟩
        cases pre with
        | nil =>
          obtain ⟨rfl, rfl⟩ := List.cons.inj hsplit
          exact .inl ⟨hsize, rfl⟩
        | cons k pre =>
          obtain ⟨rfl, rfl⟩ := List.cons.inj hsplit
          obtain ⟨-, hmatches, hreach⟩ := hreach
          refine .inr ⟨hmatches, ih.mpr ⟨pre, i, post, rfl, hreach, hi, hsize, ?_⟩⟩
          rw [sizeSum_cons, Nat.add_assoc]
    · rw [hashSections_of_not_passes hpasses]
      refine ⟨(nomatch ·), fun ⟨pre, i, post, hsplit, hreach, hi, _⟩ => absurd ?_ hpasses⟩
      cases pre with
      | nil =>
        obtain ⟨rfl, rfl⟩ := List.cons.inj hsplit
        exact hi
      | cons k pre =>
        obtain ⟨rfl, rfl⟩ := List.cons.inj hsplit
        exact hreach.1

/-- Nothing is hashed in front of the loop. -/
lemma mem_hashPackage2Metadata {r : Region} :
    r ∈ (hashPackage2Metadata sha256 checkHash mem metadata).2 ↔
      metadata.HeaderPasses ∧ r ∈ (hashSections sha256 checkHash mem metadata package2Sections false 0).2 := by
  by_cases hpasses : metadata.HeaderPasses
  · rw [hashPackage2Metadata]
    dsimp only
    rw [if_neg (not_not.mpr hpasses.magic), if_neg (by have := hpasses.size; omega),
      if_neg (UInt8.not_lt.mpr hpasses.version), if_neg (not_not.mpr hpasses.entrypoint),
      if_neg (not_not.mpr hpasses.sum), and_iff_right hpasses]
    split <;> exact Iff.rfl
  · refine ⟨fun hr => absurd ?_ hpasses, fun hr => absurd hr.1 hpasses⟩
    rw [hashPackage2Metadata] at hr
    dsimp only at hr
    split at hr
    · cases hr
    next hmagic =>
    split at hr
    · cases hr
    next hsize =>
    split at hr
    · cases hr
    next hversion =>
    split at hr
    · cases hr
    next hentry =>
    split at hr
    · cases hr
    next hsum =>
    exact ⟨not_not.mp hmagic, by omega, UInt8.not_lt.mp hversion, not_not.mp hentry, not_not.mp hsum⟩

/-- If the loop gets to a section with data behind the largest package, it gets to the first one. -/
lemma Reaches.exists_firstBeyond {pre post : List (Fin 4)} {i : Fin 4} {cur : Nat}
    (hcur : package2HeaderSize + cur ≤ package2SizeMax)
    (hreach : Reaches sha256 checkHash mem metadata pre (i :: post) cur) (hi : metadata.SectionPasses i post)
    (hbeyond : package2SizeMax < package2HeaderSize + (cur + metadata.sizeSum (pre ++ [i]))) :
    ∃ pre' j post', pre ++ i :: post = pre' ++ j :: post' ∧
      Reaches sha256 checkHash mem metadata pre' (j :: post') cur ∧ metadata.SectionPasses j post' ∧
      package2HeaderSize + (cur + metadata.sizeSum pre') ≤ package2SizeMax ∧
      package2SizeMax < package2HeaderSize + (cur + metadata.sizeSum (pre' ++ [j])) := by
  induction pre generalizing cur with
  | nil => exact ⟨[], i, post, rfl, trivial, hi, hcur, hbeyond⟩
  | cons k pre ih =>
    obtain ⟨hk, hmatches, hreach⟩ := hreach
    by_cases hfirst : package2SizeMax < package2HeaderSize + (cur + (metadata.sectionSizes k).toNat)
    · exact ⟨[], k, pre ++ i :: post, rfl, trivial, hk, hcur, hfirst⟩
    · rw [List.cons_append, sizeSum_cons, ← Nat.add_assoc cur] at hbeyond
      obtain ⟨pre', j, post', hsplit, hreach', hj, hbefore, hbeyond'⟩ :=
        ih (Nat.le_of_not_lt hfirst) hreach hbeyond
      rw [Nat.add_assoc cur] at hbefore hbeyond'
      refine ⟨k :: pre', j, post', congrArg (k :: ·) hsplit, ⟨?_, hmatches, hreach'⟩, hj, hbefore, hbeyond'⟩
      rw [← hsplit]
      exact hk

/-- The sizes that do not wrap around are the ones of the package. -/
lemma HeaderPasses.sizeSum_le (h : metadata.HeaderPasses) (hwrap : ¬metadata.SizesWrap) :
    package2HeaderSize + metadata.sizeSum package2Sections ≤ package2SizeMax := by
  have hsum := h.sum
  have hsize := h.size
  rw [UInt32.toNat_add, UInt32.toNat_add] at hsum
  simp only [SizesWrap, package2Sections, sizeSum_cons, sizeSum_nil] at hwrap ⊢
  omega

/-- All that is hashed is in the memory for package2 unless the sum of the sizes wraps around and nothing is
wrong with the metadata up to the first section that ends behind the largest package. -/
theorem hashPackage2Metadata_inside_iff :
    (∀ r ∈ (hashPackage2Metadata sha256 checkHash mem metadata).2, InPackage2 r) ↔
      (metadata.HeaderPasses → metadata.SizesWrap → ∀ pre i post, package2Sections = pre ++ i :: post →
        metadata.FirstBeyond pre i → Reaches sha256 checkHash mem metadata pre (i :: post) 0 →
          ¬metadata.SectionPasses i post) := by
  constructor
  · intro hinside hheader _ pre i post hsplit hfirst hreach hi
    have hbefore := hfirst.before
    have hbeyond := hfirst.beyond
    rw [sizeSum_append, sizeSum_cons, sizeSum_nil] at hbeyond
    have hsize : metadata.sectionSizes i ≠ 0 := by
      refine mt toNat_eq_zero.mpr ?_
      omega
    have hmem := mem_hashPackage2Metadata.mpr
      ⟨hheader, mem_hashSections.mpr ⟨pre, i, post, hsplit, hreach, hi, hsize, rfl⟩⟩
    have hstop := (hinside _ hmem).2
    rw [Region.stop, dataRegion] at hstop
    dsimp only at hstop
    omega
  · intro h r hr
    obtain ⟨hheader, hr⟩ := mem_hashPackage2Metadata.mp hr
    obtain ⟨pre, i, post, hsplit, hreach, hi, -, rfl⟩ := mem_hashSections.mp hr
    refine ⟨Nat.le_trans (Nat.le_add_right _ _) (Nat.le_add_right _ _), ?_⟩
    by_contra hstop
    rw [Region.stop, dataRegion] at hstop
    dsimp only at hstop
    have hbeyond : package2SizeMax < package2HeaderSize + (0 + metadata.sizeSum (pre ++ [i])) := by
      rw [sizeSum_append, sizeSum_cons, sizeSum_nil]
      omega
    have hwrap : metadata.SizesWrap := by
      by_contra hno
      have hle := hheader.sizeSum_le hno
      rw [hsplit, sizeSum_append, sizeSum_cons] at hle
      rw [sizeSum_append, sizeSum_cons, sizeSum_nil] at hbeyond
      omega
    obtain ⟨pre', j, post', hsplit', hreach', hj, hbefore, hbeyond'⟩ :=
      Reaches.exists_firstBeyond (by decide) hreach hi hbeyond
    rw [Nat.zero_add] at hbefore hbeyond'
    exact h hheader hwrap pre' j post' (hsplit.trans hsplit') ⟨hbefore, hbeyond'⟩ hreach' hj

end Hashed

/-- Metadata of a package of 0x300 bytes, with two sections of half of the addresses of 32 bits each. -/
def wrappingPackage2Meta : Package2Meta where
  ctrDwords := ![0x300, 0, 0, 0]
  sectionCtrs _ := List.replicate 0x10 0
  magic := 0x31324B50
  entrypoint := 0
  versionMax := 0xD
  versionMin := 0xB
  sectionSizes := ![0x80000000, 0x80000000, 0x100, 0]
  sectionOffsets := ![0, 0x80000000, 0xF0000000, 0]
  sectionHashes _ := List.replicate 0x20 0

/-- The second section wraps around and is rejected, after the first one has been hashed. -/
theorem hashPackage2Metadata_wrapping :
    (hashPackage2Metadata (fun _ => List.replicate 0x20 0) true (fun _ => 0) wrappingPackage2Meta).1 = false ∧
      ¬∀ r ∈ (hashPackage2Metadata (fun _ => List.replicate 0x20 0) true (fun _ => 0) wrappingPackage2Meta).2,
        InPackage2 r := by
  have hrun : hashPackage2Metadata (fun _ => List.replicate 0x20 0) true (fun _ => 0) wrappingPackage2Meta =
      (false, [⟨0xA9800200, 0x80000000⟩]) := by
    decide +kernel
  rw [hrun]
  exact ⟨rfl, fun h => absurd (h _ (.head _)).2 (by decide)⟩

end Package2Meta

end RajNX.Exosphere
