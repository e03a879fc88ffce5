import RajNX.Loader.MetaCache

/-!
# What the patches of `LoadMeta` write over

The `Acid` and the `Aci` are validated to lie in the file, but not to lie apart, and the patches are made
after the validation. A title id, the pool partition or a capability of the one can lie over an offset or a
size of the other. The metadata that is patched is in order iff every byte that is written over an offset or
a size is there already.
-/

namespace RajNX.Loader

open Fallible LittleEndian Splice WriteTrace

/-! ## The writes -/

/-- The title ids -/
def titleWrites (titleId : Nat) (info : Meta) : List Write :=
  [.copy (info.acid + 0x210) (leBytes 8 titleId), .copy (info.acid + 0x218) (leBytes 8 titleId),
    .copy (info.aci + 0x10) (leBytes 8 titleId)]

/-- The pool partition -/
def poolWrites (config : LoaderConfig) (info : Meta) (b : List UInt8) (original : Meta)
    (originalBuffer : List UInt8) : List Write :=
  if config.isFirmware500 then
    [.copy (info.acid + 0x20C) (leBytes 4 ((Acid.flags b info.acid &&& 0xFFFFFFC3) |||
      (Acid.flags originalBuffer original.acid &&& 0x0000003C)))]
  else []

/-- The flags that are copied from the metadata of the program that is overridden. -/
def originalFlags (original : Meta) (originalBuffer : List UInt8) : Nat :=
  getProgramInfoFlags (kacWords originalBuffer original.aciKac (Aci.kacSize originalBuffer original.aci))

/-- A list of capabilities with these flags. -/
def kacWrite (flags : Nat) (b : List UInt8) (kac size : Nat) : Write :=
  .copy kac ((setProgramInfoFlags flags (kacWords b kac size)).flatMap fun w => leBytes 4 w.toNat)

/-- What is copied from the metadata of the program that is overridden, from a buffer to itself. -/
def baseWrites (config : LoaderConfig) (info : Meta) (b : List UInt8) (original : Meta)
    (originalBuffer : List UInt8) : List Write :=
  poolWrites config info b original originalBuffer ++
    [kacWrite (originalFlags original originalBuffer) b info.acidKac (Acid.kacSize b info.acid),
      kacWrite (originalFlags original originalBuffer) b info.aciKac (Aci.kacSize b info.aci)]

section Writes

variable {config : LoaderConfig} {info original : Meta} {b b' originalBuffer : List UInt8} {flags kac size k : Nat}

lemma patchTitleIds_eq (titleId : Nat) (info : Meta) (b : List UInt8) :
    patchTitleIds titleId info b = applyAll (titleWrites titleId info) b := rfl

/-- The lists of capabilities are read after what was written before them. -/
lemma patchFromBase_eq (config : LoaderConfig) (info : Meta) (b : List UInt8) (original : Meta)
    (originalBuffer : List UInt8) :
    let flags := originalFlags original originalBuffer
    let b₁ := applyAll (poolWrites config info b original originalBuffer) b
    let b₂ := (kacWrite flags b₁ info.acidKac (Acid.kacSize b₁ info.acid)).apply b₁
    patchFromBase config info b original originalBuffer =
      (kacWrite flags b₂ info.aciKac (Aci.kacSize b₂ info.aci)).apply b₂ := by
  rw [patchFromBase, poolWrites]
  split <;> rfl

@[simp] lemma position_kacWrite : (kacWrite flags b kac size).position = kac := rfl

@[simp] lemma length_kacWords : (kacWords b kac size).length = size / 4 := by
  rw [kacWords, List.length_map, List.length_range]

@[simp] lemma size_kacWrite : (kacWrite flags b kac size).size = 4 * (size / 4) := by
  rw [kacWrite, Write.size_copy, List.length_flatMap]
  simp only [length_leBytes, List.map_const', List.sum_replicate, setProgramInfoFlags, List.length_map,
    length_kacWords, smul_eq_mul]
  exact Nat.mul_comm _ _

/-- A capability that is the same in two buffers is written the same. -/
lemma byte_kacWrite_congr (hk : k < 4 * (size / 4))
    (h : readU32 b (kac + 4 * (k / 4)) = readU32 b' (kac + 4 * (k / 4))) :
    (kacWrite flags b kac size).byte k = (kacWrite flags b' kac size).byte k := by
  have hpos : 0 < 4 := by decide
  have hword : (kacWords b kac size)[k / 4]? = (kacWords b' kac size)[k / 4]? := by
    have hin : k / 4 < size / 4 := Nat.div_lt_of_lt_mul hk
    rw [kacWords, kacWords, List.getElem?_map, List.getElem?_map, List.getElem?_range hin, Option.map_some,
      Option.map_some, h]
  have hlen : ∀ w : UInt32, (leBytes 4 w.toNat).length = 4 := fun w => length_leBytes 4 w.toNat
  rw [kacWrite, kacWrite, Write.byte, Write.byte, List.getD_eq_getElem?_getD, List.getD_eq_getElem?_getD,
    getElem?_flatMap_of_length hpos hlen, getElem?_flatMap_of_length hpos hlen, setProgramInfoFlags,
    setProgramInfoFlags, List.getElem?_map, List.getElem?_map, hword]

end Writes

/-! ## Offsets and sizes -/

/-- The places of the offsets and sizes of the `Npdm`, the `Acid` and the `Aci`. -/
def Meta.extentPlaces (info : Meta) : List Nat :=
  [info.npdm + 0x70, info.npdm + 0x74, info.npdm + 0x78, info.npdm + 0x7C,
    info.acid + 0x220, info.acid + 0x224, info.acid + 0x228, info.acid + 0x22C, info.acid + 0x230, info.acid + 0x234,
    info.aci + 0x20, info.aci + 0x24, info.aci + 0x28, info.aci + 0x2C, info.aci + 0x30, info.aci + 0x34]

/-- The offsets and sizes. -/
def Meta.extents (info : Meta) (b : List UInt8) : List Nat :=
  [Npdm.aciOffset b info.npdm, Npdm.aciSize b info.npdm, Npdm.acidOffset b info.npdm, Npdm.acidSize b info.npdm,
    Acid.facOffset b info.acid, Acid.facSize b info.acid, Acid.sacOffset b info.acid, Acid.sacSize b info.acid,
    Acid.kacOffset b info.acid, Acid.kacSize b info.acid,
    Aci.fahOffset b info.aci, Aci.fahSize b info.aci, Aci.sacOffset b info.aci, Aci.sacSize b info.aci,
    Aci.kacOffset b info.aci, Aci.kacSize b info.aci]

/-- A byte of an offset or a size. -/
def Meta.IsExtentByte (info : Meta) (x : Nat) : Prop := ∃ o ∈ info.extentPlaces, o ≤ x ∧ x < o + 4

/-- What the offsets and sizes in a buffer say is inside its first bytes. -/
def ExtentsInside (b : List UInt8) (size : Nat) : Prop :=
  (setMembers b (Npdm.acidOffset b 0) (Npdm.aciOffset b 0)).InBounds b size

/-- Where the `Acid`, the `Aci` and their lists of capabilities can be. -/
structure Meta.Placed (b : List UInt8) (info : Meta) : Prop where
  members : info = setMembers b (Npdm.acidOffset b 0) (Npdm.aciOffset b 0)
  acid : npdmSize ≤ info.acid
  aci : npdmSize ≤ info.aci
  acidKac : info.acid + acidSize ≤ info.acidKac
  aciKac : info.aci + aciSize ≤ info.aciKac

section Extents

variable {config : LoaderConfig} {info : Meta} {b b' : List UInt8} {size x : Nat}

lemma Meta.extents_eq (info : Meta) (b : List UInt8) : info.extents b = info.extentPlaces.map (readU32 b) := rfl

/-- A byte of the `Npdm`, the `Acid` or the `Aci`. -/
lemma Meta.isExtentByte_iff : info.IsExtentByte x ↔
    (info.npdm + 0x70 ≤ x ∧ x < info.npdm + 0x80) ∨ (info.acid + 0x220 ≤ x ∧ x < info.acid + 0x238) ∨
      (info.aci + 0x20 ≤ x ∧ x < info.aci + 0x38) := by
  simp only [Meta.IsExtentByte, Meta.extentPlaces, List.exists_mem_cons_iff, List.not_mem_nil, false_and,
    exists_false, or_false]
  omega

lemma readU32_eq_iff {o : Nat} (ho : o + 4 ≤ b.length) (ho' : o + 4 ≤ b'.length) :
    readU32 b' o = readU32 b o ↔ ∀ k < 4, b'[o + k]? = b[o + k]? := by
  constructor
  · intro h k hk
    have hslice : slice b' o 4 = slice b o 4 := by
      rw [← leBytes_leValue (slice b' o 4), ← leBytes_leValue (slice b o 4), length_slice ho, length_slice ho']
      exact congrArg (leBytes 4) h
    exact getElem?_of_slice_eq hslice hk
  · intro h
    rw [readU32, readU32, slice_congr h]

lemma readU32_congr {o : Nat} (h : ∀ k < 4, b[o + k]? = b'[o + k]?) : readU32 b o = readU32 b' o := by
  rw [readU32, readU32, slice_congr h]

/-- Where its bytes are the same, an offset or a size is. -/
lemma readU32_of_sameOn {o : Nat} (h : SameOn info.IsExtentByte b b') (ho : o ∈ info.extentPlaces) :
    readU32 b' o = readU32 b o :=
  readU32_congr fun k _ => h (o + k) ⟨o, ho, by omega, by omega⟩

/-- The offsets and sizes are the same iff their bytes are. -/
lemma Meta.extents_eq_iff (hlen : b'.length = b.length) (h : ∀ x, info.IsExtentByte x → x < b.length) :
    info.extents b' = info.extents b ↔ SameOn info.IsExtentByte b b' := by
  have hplace : ∀ o ∈ info.extentPlaces, o + 4 ≤ b.length := by
    intro o ho
    exact h (o + 3) ⟨o, ho, by omega, by omega⟩
  rw [Meta.extents_eq, Meta.extents_eq, List.map_inj_left]
  constructor
  · rintro hwords x ⟨o, ho, hle, hlt⟩
    have hbytes := (readU32_eq_iff (hplace o ho) (hlen ▸ hplace o ho)).mp (hwords o ho) (x - o) (by omega)
    rwa [Nat.add_sub_cancel' hle] at hbytes
  · intro hsame o ho
    refine (readU32_eq_iff (hplace o ho) (hlen ▸ hplace o ho)).mpr fun k hk => ?_
    exact hsame (o + k) ⟨o, ho, by omega, by omega⟩

lemma Meta.InBounds.extent_lt (h : info.InBounds b size) (hx : info.IsExtentByte x) : x < size := by
  have hnpdm := h.npdm
  have hacid := h.acid
  have haci := h.aci
  rw [npdmSize] at hnpdm
  rw [acidSize] at hacid
  rw [aciSize] at haci
  rcases Meta.isExtentByte_iff.mp hx with hx | hx | hx <;> omega

lemma Meta.Placed.npdm_eq (h : info.Placed b) : info.npdm = 0 := by
  rw [h.members]
  rfl

/-- In numbers. -/
lemma Meta.Placed.bounds (h : info.Placed b) :
    info.npdm = 0 ∧ 0x80 ≤ info.acid ∧ 0x80 ≤ info.aci ∧ info.acid + 0x240 ≤ info.acidKac ∧
      info.aci + 0x40 ≤ info.aciKac :=
  ⟨h.npdm_eq, h.acid, h.aci, h.acidKac, h.aciKac⟩

/-- Where the offsets and sizes are the same, so is what they say. -/
lemma Meta.InBounds.extentsInside (h : info.InBounds b size) (hplaced : info.Placed b)
    (hsame : info.extents b' = info.extents b) : ExtentsInside b' size := by
  have hnpdm := hplaced.npdm_eq
  simp only [Meta.extents, List.cons.injEq, and_true] at hsame
  obtain ⟨haciOffset, haciSize, hacidOffset, hacidSize, hfac, hfacSize, hsac, hsacSize, hkac, hkacSize, hfah,
    hfahSize, hsac', hsacSize', hkac', hkacSize'⟩ := hsame
  have hacid : Npdm.acidOffset b 0 = info.acid := by
    rw [hplaced.members]
    rfl
  have haci : Npdm.aciOffset b 0 = info.aci := by
    rw [hplaced.members]
    rfl
  rw [hnpdm] at haciOffset hacidOffset haciSize hacidSize
  have hmembers : setMembers b' (Npdm.acidOffset b' 0) (Npdm.aciOffset b' 0) = info := by
    rw [hacidOffset, haciOffset, hacid, haci, setMembers, hfac, hsac, hkac, hfah, hsac', hkac', ← setMembers,
      ← hacid, ← haci]
    exact hplaced.members.symm
  rw [ExtentsInside, hmembers]
  constructor
  · exact h.npdm
  · exact h.acid
  · rw [hnpdm, hacidSize, ← hnpdm]
    exact h.acidExtent
  · exact h.aci
  · rw [hnpdm, haciSize, ← hnpdm]
    exact h.aciExtent
  · rw [hfacSize]
    exact h.acidFac
  · rw [hsacSize]
    exact h.acidSac
  · rw [hkacSize]
    exact h.acidKac
  · rw [hfahSize]
    exact h.aciFah
  · rw [hsacSize']
    exact h.aciSac
  · rw [hkacSize']
    exact h.aciKac

lemma validateSubregion_start {allowedStart allowedEnd start n minSize : Nat}
    (h : validateSubregion allowedStart allowedEnd start n minSize = .ok ()) : allowedStart ≤ start := by
  rw [validateSubregion] at h
  split at h
  · next hregion => exact hregion.2.1
  · cases h

lemma parseMeta_placed (h : parseMeta config b size = .ok info) : info.Placed b := by
  rw [parseMeta] at h
  split at h
  · cases h
  · obtain ⟨_, hnpdm, h⟩ := bind_eq_ok h
    obtain ⟨_, hacid, h⟩ := bind_eq_ok h
    obtain ⟨_, haci, h⟩ := bind_eq_ok h
    cases h
    rw [validateNpdm] at hnpdm
    rw [validateAcid] at hacid
    rw [validateAci] at haci
    split at hnpdm
    · cases hnpdm
    split at hnpdm
    · cases hnpdm
    split at hacid
    · cases hacid
    split at haci
    · cases haci
    obtain ⟨_, hacidStart, haciStart⟩ := bind_eq_ok hnpdm
    obtain ⟨_, -, hacid⟩ := bind_eq_ok hacid
    obtain ⟨_, -, hkac⟩ := bind_eq_ok hacid
    obtain ⟨_, -, haci⟩ := bind_eq_ok haci
    obtain ⟨_, -, hkac'⟩ := bind_eq_ok haci
    constructor
    · rfl
    · exact validateSubregion_start hacidStart
    · exact validateSubregion_start haciStart
    · exact Nat.add_le_add_left (validateSubregion_start hkac) _
    · exact Nat.add_le_add_left (validateSubregion_start hkac') _

end Extents

/-! ## Patches that keep the offsets and sizes -/

/-- The condition: what is written over an offset or a size is there already. The lists of capabilities are
those of the buffer with the title ids of the title. -/
structure KeepsExtents (config : LoaderConfig) (titleId : Nat) (answers : LoadAnswers) (info : Meta)
    (b : List UInt8) (originalCache : MetaCache) : Prop where
  titleIds : ∀ w ∈ titleWrites titleId info, w.Keeps info.IsExtentByte b
  base : ∀ f original cache, answers.isHblOverride → answers.base = .ok f →
    loadMetaFromFile config f originalCache = (.ok original, cache) →
      ∀ w ∈ baseWrites config info (patchTitleIds titleId info b) original cache.buffer, w.Keeps info.IsExtentByte b

section Patches

variable {config : LoaderConfig} {titleId size : Nat} {answers : LoadAnswers} {info original : Meta}
  {b originalBuffer : List UInt8} {originalCache cache : MetaCache}

/-- What is written to the `Acid` is outside of its own offsets and sizes, and so is what is written to the
`Aci`. At an offset or a size of the one only the other can be written, and at most once. -/
lemma apart_writes {w w' : Write} (b' : List UInt8) (hplaced : info.Placed b) (hw : w.position = info.acidKac)
    (hw' : w'.position = info.aciKac) :
    Apart info.IsExtentByte
      (titleWrites titleId info ++ (poolWrites config info b' original originalBuffer ++ [w, w'])) := by
  suffices hall : ∀ pool, Apart info.IsExtentByte
      (titleWrites titleId info ++ [.copy (info.acid + 0x20C) (leBytes 4 pool), w, w']) by
    rw [poolWrites]
    split
    · exact hall _
    · exact (hall 0).sublist (List.Sublist.append_left (List.sublist_cons_self _ _) _)
  intro pool
  obtain ⟨hnpdm, hacid, haci, hacidKac, haciKac⟩ := hplaced.bounds
  intro x hx
  rw [Meta.isExtentByte_iff] at hx
  simp only [titleWrites, List.cons_append, List.nil_append, List.pairwise_cons, List.mem_cons, List.not_mem_nil,
    or_false, forall_eq_or_imp, forall_eq, IsEmpty.forall_iff, implies_true, List.Pairwise.nil, and_true,
    Write.Covers, Write.position_copy, Write.size_copy, length_leBytes, hw, hw']
  omega

/-- The pool partition is not in an offset or a size of the `Acid`, nor in its list of capabilities. -/
lemma getElem?_poolWrites {x : Nat} (hx : info.acid + 0x210 ≤ x) :
    (applyAll (poolWrites config info b original originalBuffer) b)[x]? = b[x]? := by
  apply getElem?_applyAll_of_not_covers
  intro w hw hcovers
  rw [poolWrites] at hw
  split at hw
  · cases List.mem_singleton.mp hw
    rw [Write.Covers, Write.position_copy, Write.size_copy, length_leBytes] at hcovers
    omega
  · cases hw

/-- The first list of capabilities is as it was in front of the pool partition. -/
lemma kacWrite_poolWrites (flags : Nat) (original : Meta) (originalBuffer : List UInt8)
    (hkac : info.acid + acidSize ≤ info.acidKac) :
    let b₁ := applyAll (poolWrites config info b original originalBuffer) b
    kacWrite flags b₁ info.acidKac (Acid.kacSize b₁ info.acid) =
      kacWrite flags b info.acidKac (Acid.kacSize b info.acid) := by
  intro b₁
  rw [acidSize] at hkac
  have hread : ∀ o, info.acid + 0x210 ≤ o → readU32 b₁ o = readU32 b o :=
    fun o ho => readU32_congr fun k _ => getElem?_poolWrites (by omega)
  have hsize : Acid.kacSize b₁ info.acid = Acid.kacSize b info.acid := hread _ (by omega)
  have hwords : ∀ size, kacWords b₁ info.acidKac size = kacWords b info.acidKac size := by
    intro size
    refine List.map_congr_left fun i _ => ?_
    rw [hread _ (by omega)]
  rw [kacWrite, kacWrite, hsize, hwords]

/-- The second list of capabilities can lie over the offsets and sizes of the `Acid`. What is written there
depends on the bytes close to them only. -/
lemma keeps_kacWrite_aci {bt b₂ : List UInt8} (flags : Nat) (hplaced : info.Placed b)
    (hsize : Aci.kacSize b₂ info.aci = Aci.kacSize bt info.aci)
    (hnear : ∀ x, info.acid + 0x218 ≤ x → x < info.acid + acidSize → b₂[x]? = bt[x]?) :
    (kacWrite flags b₂ info.aciKac (Aci.kacSize b₂ info.aci)).Keeps info.IsExtentByte b ↔
      (kacWrite flags bt info.aciKac (Aci.kacSize bt info.aci)).Keeps info.IsExtentByte b := by
  obtain ⟨hnpdm, -, haci, -, haciKac⟩ := hplaced.bounds
  rw [acidSize] at hnear
  rw [hsize]
  refine forall_congr' fun x => forall_congr' fun hx => ?_
  rw [Meta.isExtentByte_iff] at hx
  simp only [Write.Covers, position_kacWrite, size_kacWrite]
  refine forall_congr' fun hcovers => ?_
  have hword : readU32 b₂ (info.aciKac + 4 * ((x - info.aciKac) / 4)) =
      readU32 bt (info.aciKac + 4 * ((x - info.aciKac) / 4)) :=
    readU32_congr fun k hk => hnear _ (by omega) (by omega)
  rw [byte_kacWrite_congr (by omega) hword]

section

variable (hplaced : info.Placed b) (hlen : ∀ x, info.IsExtentByte x → x < b.length)

include hplaced hlen

/-- With what is copied from the metadata of the program that is overridden. -/
lemma sameOn_patchFromBase_iff :
    SameOn info.IsExtentByte b
        (patchFromBase config info (patchTitleIds titleId info b) original originalBuffer) ↔
      (∀ w ∈ titleWrites titleId info, w.Keeps info.IsExtentByte b) ∧
        ∀ w ∈ baseWrites config info (patchTitleIds titleId info b) original originalBuffer,
          w.Keeps info.IsExtentByte b := by
  let bt := patchTitleIds titleId info b
  let flags := originalFlags original originalBuffer
  let pools := poolWrites config info bt original originalBuffer
  let b₁ := applyAll pools bt
  let first := kacWrite flags b₁ info.acidKac (Acid.kacSize b₁ info.acid)
  let b₂ := first.apply b₁
  let second := kacWrite flags b₂ info.aciKac (Aci.kacSize b₂ info.aci)
  let second' := kacWrite flags bt info.aciKac (Aci.kacSize bt info.aci)
  have hpatched : patchFromBase config info bt original originalBuffer =
      applyAll (titleWrites titleId info ++ (pools ++ [first, second])) b := by
    rw [applyAll_append, applyAll_append]
    exact patchFromBase_eq config info bt original originalBuffer
  have hfirst : first = kacWrite flags bt info.acidKac (Acid.kacSize bt info.acid) :=
    kacWrite_poolWrites flags original originalBuffer hplaced.acidKac
  have hbase : baseWrites config info bt original originalBuffer = pools ++ [first, second'] := by
    rw [hfirst]
    rfl
  -- what is written before the second list is, too, written once at each byte
  have hb₂ : b₂ = applyAll (titleWrites titleId info ++ (pools ++ [first])) b := by
    rw [applyAll_append, applyAll_append]
    rfl
  have hapart : Apart info.IsExtentByte (titleWrites titleId info ++ (pools ++ [first, second])) :=
    apart_writes bt hplaced rfl rfl
  have hsub : (pools ++ [first]).Sublist (pools ++ [first, second]) :=
    (List.prefix_append [first] [second]).sublist.append_left pools
  -- the second list is written from a buffer that the others have changed, but not at the size of the list
  have hsecond : (∀ w ∈ titleWrites titleId info, w.Keeps info.IsExtentByte b) →
      (∀ w ∈ pools, w.Keeps info.IsExtentByte b) → first.Keeps info.IsExtentByte b →
        (second.Keeps info.IsExtentByte b ↔ second'.Keeps info.IsExtentByte b) := by
    intro htitle hpools hkeeps
    have hapart₂ := hapart.sublist (hsub.append_left (titleWrites titleId info))
    have hsame : SameOn info.IsExtentByte b bt :=
      (sameOn_applyAll_iff hlen (hapart.sublist (List.sublist_append_left _ _))).mpr htitle
    have hsame₂ : SameOn info.IsExtentByte b b₂ := by
      rw [hb₂, sameOn_applyAll_iff hlen hapart₂]
      simp only [List.forall_mem_append, List.forall_mem_cons, List.not_mem_nil, false_imp_iff, implies_true, and_true]
      exact ⟨htitle, hpools, hkeeps⟩
    have hplace : info.aci + 0x34 ∈ info.extentPlaces := by simp [Meta.extentPlaces]
    have hsize : Aci.kacSize b₂ info.aci = Aci.kacSize bt info.aci :=
      (readU32_of_sameOn hsame₂ hplace).trans (readU32_of_sameOn hsame hplace).symm
    apply keeps_kacWrite_aci flags hplaced hsize
    intro x hx hlt
    have hno : ¬first.Covers x := by
      intro hcovers
      exact Nat.not_le.mpr hlt (hplaced.acidKac.trans hcovers.1)
    rw [Write.getElem?_apply_of_not_covers hno]
    exact getElem?_poolWrites (by omega)
  rw [hbase, hpatched, sameOn_applyAll_iff hlen hapart]
  simp only [List.forall_mem_append, List.forall_mem_cons, List.not_mem_nil, false_imp_iff, implies_true, and_true]
  constructor
  · rintro ⟨htitle, hpools, hkeeps, hlast⟩
    exact ⟨htitle, hpools, hkeeps, (hsecond htitle hpools hkeeps).mp hlast⟩
  · rintro ⟨htitle, hpools, hkeeps, hlast⟩
    exact ⟨htitle, hpools, hkeeps, (hsecond htitle hpools hkeeps).mpr hlast⟩

/-- With the title ids alone. -/
lemma sameOn_patchTitleIds_iff :
    SameOn info.IsExtentByte b (patchTitleIds titleId info b) ↔
      ∀ w ∈ titleWrites titleId info, w.Keeps info.IsExtentByte b := by
  have hall := @apart_writes exampleConfig titleId info info b b (.fill info.acidKac 0 0) (.fill info.aciKac 0 0) b
    hplaced rfl rfl
  exact sameOn_applyAll_iff hlen (hall.sublist (List.sublist_append_left _ _))

/-- The patches of `LoadMeta` -/
lemma sameOn_patchMeta_iff :
    SameOn info.IsExtentByte b (patchMeta config titleId answers info b originalCache).1 ↔
      KeepsExtents config titleId answers info b originalCache := by
  have htitle := @sameOn_patchTitleIds_iff titleId info b hplaced hlen
  rw [patchMeta]
  split
  · next hoverride =>
    split
    · next hbase =>
      rw [htitle]
      constructor
      · intro h
        refine ⟨h, fun f original cache _ hf _ => ?_⟩
        rw [hf] at hbase
        cases hbase
      · exact KeepsExtents.titleIds
    · next f hbase =>
      split
      · next hload =>
        rw [htitle]
        constructor
        · intro h
          refine ⟨h, fun f' original cache _ hf hload' => ?_⟩
          rw [hf] at hbase
          cases hbase
          rw [hload'] at hload
          cases hload
        · exact KeepsExtents.titleIds
      · next hload =>
        rw [sameOn_patchFromBase_iff hplaced hlen]
        constructor
        · rintro ⟨h, hwrites⟩
          refine ⟨h, fun f' original cache _ hf hload' => ?_⟩
          rw [hf] at hbase
          cases hbase
          rw [hload'] at hload
          cases hload
          exact hwrites
        · intro h
          exact ⟨h.titleIds, h.base f _ _ hoverride hbase hload⟩
  · next hoverride =>
    rw [htitle]
    constructor
    · intro h
      exact ⟨h, fun f original cache hyes => absurd hyes hoverride⟩
    · exact KeepsExtents.titleIds

/-- An `Aci` that lies with its capabilities in front of the `Acid` is patched in order. -/
lemma keepsExtents_of_le
    (hfirst : info.aci + aciSize ≤ info.acid) (hkac : info.aciKac + Aci.kacSize b info.aci ≤ info.acid) :
    KeepsExtents config titleId answers info b originalCache := by
  obtain ⟨hnpdm, hacid, haci, hacidKac, haciKac⟩ := hplaced.bounds
  rw [aciSize] at hfirst
  have htitle : ∀ w ∈ titleWrites titleId info, w.Keeps info.IsExtentByte b := by
    intro w hw
    refine Write.keeps_of_not_covers fun x hx hcovers => ?_
    rw [Meta.isExtentByte_iff] at hx
    simp only [titleWrites, List.mem_cons, List.not_mem_nil, or_false] at hw
    rcases hw with rfl | rfl | rfl
    all_goals
      rw [Write.Covers, Write.position_copy, Write.size_copy, length_leBytes] at hcovers
      omega
  have hsame := (sameOn_patchTitleIds_iff hplaced hlen).mpr htitle
  have hplace : info.aci + 0x34 ∈ info.extentPlaces := by simp [Meta.extentPlaces]
  have hsize : Aci.kacSize (patchTitleIds titleId info b) info.aci = Aci.kacSize b info.aci :=
    readU32_of_sameOn hsame hplace
  refine ⟨htitle, fun f original cache _ _ _ w hw => ?_⟩
  refine Write.keeps_of_not_covers fun x hx hcovers => ?_
  rw [Meta.isExtentByte_iff] at hx
  rw [baseWrites, List.mem_append] at hw
  rcases hw with hpool | hkacs
  · rw [poolWrites] at hpool
    split at hpool
    · cases List.mem_singleton.mp hpool
      rw [Write.Covers, Write.position_copy, Write.size_copy, length_leBytes] at hcovers
      omega
    · cases hpool
  · rcases List.mem_pair.mp hkacs with rfl | rfl
    · rw [Write.Covers, position_kacWrite] at hcovers
      omega
    · rw [Write.Covers, position_kacWrite, size_kacWrite, hsize] at hcovers
      omega

end

/-- A title that is not overridden has its title ids patched only. -/
lemma patchMeta_of_not_override (h : answers.isHblOverride = false) :
    (patchMeta config titleId answers info b originalCache).1 = patchTitleIds titleId info b := by
  rw [patchMeta, h]
  rfl

/-- The highest title id of the `Acid`, if that of the `Aci` is not written over it. -/
lemma slice_patchTitleIds_max {i n : Nat} (hlen : info.acid + acidSize ≤ b.length) (hi : i + n ≤ 8)
    (hapart : info.aci + 0x18 ≤ info.acid + 0x218 ∨ info.acid + 0x220 ≤ info.aci + 0x10) :
    slice (patchTitleIds titleId info b) (info.acid + 0x218 + i) n = slice (leBytes 8 titleId) i n := by
  rw [acidSize] at hlen
  have hno : ∀ k < n, ¬(Write.copy (info.aci + 0x10) (leBytes 8 titleId)).Covers (info.acid + 0x218 + i + k) := by
    intro k hk
    rw [Write.Covers, Write.position_copy, Write.size_copy, length_leBytes]
    omega
  have hend : info.acid + 0x218 + (leBytes 8 titleId).length ≤
      (writeBytes b (info.acid + 0x210) 8 titleId).length := by
    rw [length_leBytes, length_writeBytes]
    omega
  rw [patchTitleIds, writeBytes, slice_apply_of_not_covers hno, writeBytes, slice_apply_copy (by rwa [length_leBytes])
    hend]

/-- A part in front of the title ids. -/
lemma slice_patchTitleIds_of_le {i n : Nat} (hacid : i + n ≤ info.acid + 0x210) (haci : i + n ≤ info.aci + 0x10) :
    slice (patchTitleIds titleId info b) i n = slice b i n := by
  refine slice_congr fun k hk => ?_
  rw [patchTitleIds_eq]
  apply getElem?_applyAll_of_not_covers
  intro w hw hcovers
  simp only [titleWrites, List.mem_cons, List.not_mem_nil, or_false] at hw
  rcases hw with rfl | rfl | rfl
  all_goals
    rw [Write.Covers, Write.position_copy] at hcovers
    omega

/-- What a load leaves in the buffer. -/
lemma loadMeta_buffer {s s' : LoaderState} {f : CodeFile} (hcode : answers.code = .ok f)
    (h : loadMeta config s titleId answers = (.ok (some info), s')) :
    let b := splice s.metaCache.buffer 0 f.contents
    parseMeta config b f.contents.length = .ok info ∧ f.contents.length ≤ b.length ∧
      s'.metaCache.buffer = (patchMeta config titleId answers info b s.originalMetaCache).1 := by
  intro b
  rw [loadMeta, hcode] at h
  dsimp only at h
  split at h
  · cases h
  · next info' cache hload =>
    obtain ⟨-, hsize, hbuffer, hparse⟩ := loadMetaFromFile_eq_ok hload
    have hb : b = cache.buffer := hbuffer.symm
    cases h
    refine ⟨?_, ?_, ?_⟩
    · rw [agree_splice.parseMeta]
      exact hparse
    · rw [hb, cache.length_buffer]
      exact hsize
    · rw [hb]

/-- The offsets and sizes that were patched say what they said iff nothing else is written over them. -/
lemma extents_loadMeta_iff {s s' : LoaderState} {f : CodeFile} (hcode : answers.code = .ok f)
    (h : loadMeta config s titleId answers = (.ok (some info), s')) :
    let b := splice s.metaCache.buffer 0 f.contents
    info.extents s'.metaCache.buffer = info.extents b ↔
      KeepsExtents config titleId answers info b s.originalMetaCache := by
  intro b
  obtain ⟨hparse, hsize, hbuffer⟩ := loadMeta_buffer hcode h
  have hlen : ∀ x, info.IsExtentByte x → x < b.length :=
    fun x hx => ((parseMeta_inBounds hparse).extent_lt hx).trans_le hsize
  rw [hbuffer, Meta.extents_eq_iff (length_patchMeta _ _ _ _ _ _) hlen]
  exact sameOn_patchMeta_iff (parseMeta_placed hparse) hlen

end Patches

/-- If `LoadMeta` succeeds, its patches change no offset or size of the `Npdm`, the `Acid` and the `Aci`, and
what these say is inside the file, iff every byte that is written over one of them is there already. -/
theorem patches_keep_extents_iff (config : LoaderConfig) (s s' : LoaderState) (titleId : Nat)
    (answers : LoadAnswers) (f : CodeFile) (info : Meta) (hcode : answers.code = .ok f)
    (h : loadMeta config s titleId answers = (.ok (some info), s')) :
    (info.extents s'.metaCache.buffer = info.extents (splice s.metaCache.buffer 0 f.contents) ∧
        ExtentsInside s'.metaCache.buffer f.contents.length) ↔
      KeepsExtents config titleId answers info (splice s.metaCache.buffer 0 f.contents) s.originalMetaCache := by
  have hextents := extents_loadMeta_iff hcode h
  obtain ⟨hparse, -, -⟩ := loadMeta_buffer hcode h
  constructor
  · rintro ⟨hsame, -⟩
    exact hextents.mp hsame
  · intro hkeeps
    have hsame := hextents.mpr hkeeps
    exact ⟨hsame, (parseMeta_inBounds hparse).extentsInside (parseMeta_placed hparse) hsame⟩

section Example

/-- A title that is overridden, with the example as both files. -/
def overrideAnswers : LoadAnswers := ⟨.ok ⟨exampleNpdm, 0x300⟩, true, .ok ⟨exampleNpdm, 0x300⟩⟩

/-- An `Aci` that starts 0x1E8 bytes behind the start of the `Acid`, so that the highest title id of the `Acid`
is where the `Aci` says which capabilities it has. -/
def overlappingNpdm : List UInt8 :=
  leBytes 4 Npdm.magicValue ++ List.replicate 0x6C 0 ++
    leBytes 4 0x268 ++ leBytes 4 0x40 ++ leBytes 4 0x80 ++ leBytes 4 0x240 ++
  List.replicate 0x1E8 0 ++ leBytes 4 Aci.magicValue ++ List.replicate 0x14 0 ++
    leBytes 4 Acid.magicValue ++ List.replicate 4 0 ++
    leBytes 4 0x40 ++ leBytes 4 0 ++ leBytes 4 0x40 ++ leBytes 4 0 ++ leBytes 4 0x40 ++ leBytes 4 0 ++
    leBytes 4 0x240 ++ leBytes 4 0 ++ leBytes 4 0x240 ++ leBytes 4 0 ++ leBytes 4 0x240 ++ leBytes 4 0 ++
    List.replicate 8 0

/-- What it is parsed to. -/
def overlappingMeta : Meta where
  npdm := 0
  acid := 0x80
  aci := 0x268
  acidFac := 0x2C0
  acidSac := 0x2C0
  acidKac := 0x2C0
  aciFah := 0x2A8
  aciSac := 0x2A8
  aciKac := 0x2A8

/-- A title that has it as its file. -/
def overlappingAnswers : LoadAnswers := ⟨.ok ⟨overlappingNpdm, 0x2C0⟩, false, .error 0⟩

/-- A title id -/
def exampleTitleId : Nat := 0x0100000000001000

lemma overlappingNpdm_parse : parseMeta exampleConfig overlappingNpdm 0x2C0 = .ok overlappingMeta := by
  decide +kernel

lemma overlappingNpdm_length : overlappingNpdm.length = 0x2C0 := by decide +kernel

end Example

/-- The example is patched with its `Aci` in front of its `Acid`. -/
theorem patches_keep_extents_iff_example :
    ∃ s', loadMeta exampleConfig loaderStart exampleTitleId overrideAnswers = (.ok (some exampleMeta), s') ∧
      exampleMeta.extents s'.metaCache.buffer =
        exampleMeta.extents (splice loaderStart.metaCache.buffer 0 exampleNpdm) ∧
      ExtentsInside s'.metaCache.buffer exampleNpdm.length := by
  have hlen := exampleNpdm_length
  have hparse := exampleNpdm_parse
  rw [← hlen] at hparse
  obtain ⟨s', hload, -⟩ := @loadMeta_of_parse exampleConfig loaderStart exampleTitleId overrideAnswers
    ⟨exampleNpdm, 0x300⟩ exampleMeta rfl (hlen.trans_le (by decide)) (hlen.trans_ne (by decide)) hlen.le hparse
  obtain ⟨hparse', hsize, -⟩ := loadMeta_buffer rfl hload
  have hin : ∀ x, exampleMeta.IsExtentByte x → x < (splice loaderStart.metaCache.buffer 0 exampleNpdm).length :=
    fun x hx => ((parseMeta_inBounds hparse').extent_lt hx).trans_le hsize
  have hagree : Agree exampleNpdm.length (splice loaderStart.metaCache.buffer 0 exampleNpdm) exampleNpdm := agree_splice
  have hkac : Aci.kacSize (splice loaderStart.metaCache.buffer 0 exampleNpdm) exampleMeta.aci = 0 := by
    rw [Aci.kacSize, hagree.readU32 (by rw [hlen]; decide)]
    decide +kernel
  have hkeeps : KeepsExtents exampleConfig exampleTitleId overrideAnswers exampleMeta
      (splice loaderStart.metaCache.buffer 0 exampleNpdm) loaderStart.originalMetaCache :=
    keepsExtents_of_le (parseMeta_placed hparse') hin (by decide) (by rw [hkac]; decide)
  have hiff := patches_keep_extents_iff exampleConfig loaderStart s' exampleTitleId overrideAnswers
    ⟨exampleNpdm, 0x300⟩ exampleMeta rfl hload
  exact ⟨s', hload, hiff.mpr hkeeps⟩

/-- The title id is written over the size of the capabilities of the `Aci`, which are far outside of the file
then. -/
theorem not_patches_keep_extents :
    ∃ s', loadMeta exampleConfig loaderStart exampleTitleId overlappingAnswers = (.ok (some overlappingMeta), s') ∧
      overlappingMeta.extents s'.metaCache.buffer ≠
        overlappingMeta.extents (splice loaderStart.metaCache.buffer 0 overlappingNpdm) ∧
      ¬ExtentsInside s'.metaCache.buffer overlappingNpdm.length := by
  have hlen := overlappingNpdm_length
  have hparse := overlappingNpdm_parse
  rw [← hlen] at hparse
  obtain ⟨s', hload, -⟩ := @loadMeta_of_parse exampleConfig loaderStart exampleTitleId overlappingAnswers
    ⟨overlappingNpdm, 0x2C0⟩ overlappingMeta rfl (hlen.trans_le (by decide)) (hlen.trans_ne (by decide)) hlen.le
    hparse
  obtain ⟨hparse', hsize, hbuffer⟩ := loadMeta_buffer rfl hload
  have hsplice : Agree overlappingNpdm.length (splice loaderStart.metaCache.buffer 0 overlappingNpdm)
    overlappingNpdm := agree_splice
  rw [patchMeta_of_not_override rfl] at hbuffer
  have hkac : Aci.kacSize s'.metaCache.buffer 0x268 = 0x01000000 := by
    have hid := @slice_patchTitleIds_max exampleTitleId overlappingMeta _ 4 4 (hlen.ge.trans hsize) (by decide)
      (by decide)
    rw [← hbuffer] at hid
    exact congrArg leValue hid
  have haci : Npdm.aciOffset s'.metaCache.buffer 0 = 0x268 := by
    obtain ⟨-, -, -, -, hoffset, -⟩ := hsplice.npdm (by rw [hlen]; decide)
    have hsame : Npdm.aciOffset s'.metaCache.buffer 0 = Npdm.aciOffset overlappingNpdm 0 := by
      rw [← hoffset, Npdm.aciOffset, Npdm.aciOffset, readU32, readU32, hbuffer,
        slice_patchTitleIds_of_le (by decide) (by decide)]
    rw [hsame]
    decide +kernel
  have hout : ¬ExtentsInside s'.metaCache.buffer overlappingNpdm.length := by
    intro hinside
    have hle := hinside.aciKac
    dsimp only [setMembers] at hle
    rw [haci, hkac, hlen] at hle
    omega
  refine ⟨s', hload, fun hsame => hout ?_, hout⟩
  exact (parseMeta_inBounds hparse').extentsInside (parseMeta_placed hparse') hsame

end RajNX.Loader
