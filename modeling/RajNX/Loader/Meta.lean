import RajNX.Lib.Fallible
import RajNX.Lib.LittleEndian
import RajNX.Lib.WriteTrace
import RajNX.Loader.Capabilities

/-!
# Program metadata

`LoadMetaFromFile`, `LoadMeta` and `LoadMetaFromCache` of `ldr_meta.cpp`. The metadata of a program, its
NPDM, is read into a buffer of a fixed size. An `Npdm` at the start of the buffer says where the `Acid` and
the `Aci` are, and these say where the file access, service access and kernel capabilities are. Pointers
into the buffer are offsets.

Everything that a `Meta` points to is inside the bytes that were read.
-/

namespace RajNX.Loader

open Fallible LittleEndian Splice WriteTrace

/-- `MetaCacheBufferSize` -/
def metaCacheBufferSize : Nat := 0x8000

/-- A number of 32 bits in a buffer. -/
def readU32 (b : List UInt8) (o : Nat) : Nat := leValue (slice b o 4)

/-- A number written to a buffer. -/
def writeBytes (b : List UInt8) (o width v : Nat) : List UInt8 := (Write.copy o (leBytes width v)).apply b

/-! ## The structures -/

/-- `sizeof(Npdm)` -/
def npdmSize : Nat := 0x80

/-- `sizeof(Acid)` -/
def acidSize : Nat := 0x240

/-- `sizeof(Aci)` -/
def aciSize : Nat := 0x40

namespace Npdm

/-- `Magic` -/
def magicValue : Nat := 0x4154454D

variable (b : List UInt8) (npdm : Nat)

def magic : Nat := readU32 b npdm
def flags : Nat := (b.getD (npdm + 0xC) 0).toNat
def aciOffset : Nat := readU32 b (npdm + 0x70)
def aciSize : Nat := readU32 b (npdm + 0x74)
def acidOffset : Nat := readU32 b (npdm + 0x78)
def acidSize : Nat := readU32 b (npdm + 0x7C)

end Npdm

namespace Acid

/-- `Magic` -/
def magicValue : Nat := 0x44494341

variable (b : List UInt8) (acid : Nat)

def magic : Nat := readU32 b (acid + 0x200)
def flags : Nat := readU32 b (acid + 0x20C)
def facOffset : Nat := readU32 b (acid + 0x220)
def facSize : Nat := readU32 b (acid + 0x224)
def sacOffset : Nat := readU32 b (acid + 0x228)
def sacSize : Nat := readU32 b (acid + 0x22C)
def kacOffset : Nat := readU32 b (acid + 0x230)
def kacSize : Nat := readU32 b (acid + 0x234)

end Acid

namespace Aci

/-- `Magic` -/
def magicValue : Nat := 0x30494341

variable (b : List UInt8) (aci : Nat)

def magic : Nat := readU32 b aci
def fahOffset : Nat := readU32 b (aci + 0x20)
def fahSize : Nat := readU32 b (aci + 0x24)
def sacOffset : Nat := readU32 b (aci + 0x28)
def sacSize : Nat := readU32 b (aci + 0x2C)
def kacOffset : Nat := readU32 b (aci + 0x30)
def kacSize : Nat := readU32 b (aci + 0x34)

end Aci

/-- `Meta`, with offsets for pointers -/
structure Meta where
  npdm : Nat
  acid : Nat
  aci : Nat
  acidFac : Nat
  acidSac : Nat
  acidKac : Nat
  aciFah : Nat
  aciSac : Nat
  aciKac : Nat
deriving Repr, DecidableEq

/-- `MetaCache`. A meta of null pointers is none. -/
structure MetaCache where
  info : Option Meta
  buffer : List UInt8
  length_buffer : buffer.length = metaCacheBufferSize

/-- The results that the loader can fail with. -/
inductive LoaderError
  | invalidMeta
  | tooLargeMeta
  | invalidNso
  | fileSystem (result : Nat)
  | kernel (result : Nat)
deriving Repr, DecidableEq

/-- What the loader is told about the firmware. -/
structure LoaderConfig where
  isFirmware500 : Bool
  isFirmware700 : Bool

/-- A file that was opened. Reading it may fail before its end. -/
structure CodeFile where
  contents : List UInt8
  readable : Nat

/-! ## Validation -/

/-- `ValidateSubregion` -/
def validateSubregion (allowedStart allowedEnd start size minSize : Nat) : Except LoaderError Unit :=
  if minSize ≤ size ∧ allowedStart ≤ start ∧ start ≤ allowedEnd ∧ start + size ≤ allowedEnd then .ok ()
  else .error .invalidMeta

/-- The flags of an `Npdm` that are valid. 7.0.0 added 0x10. -/
def validNpdmFlags (config : LoaderConfig) : Nat := if config.isFirmware700 then 0x1F else 0xF

/-- `ValidateNpdm` -/
def validateNpdm (config : LoaderConfig) (b : List UInt8) (npdm size : Nat) : Except LoaderError Unit :=
  if Npdm.magic b npdm ≠ Npdm.magicValue then .error .invalidMeta
  else if validNpdmFlags config < Npdm.flags b npdm then .error .invalidMeta
  else do
    validateSubregion npdmSize size (Npdm.acidOffset b npdm) (Npdm.acidSize b npdm) acidSize
    validateSubregion npdmSize size (Npdm.aciOffset b npdm) (Npdm.aciSize b npdm) aciSize

/-- `ValidateAcid` -/
def validateAcid (b : List UInt8) (acid size : Nat) : Except LoaderError Unit :=
  if Acid.magic b acid ≠ Acid.magicValue then .error .invalidMeta
  else do
    validateSubregion acidSize size (Acid.facOffset b acid) (Acid.facSize b acid) 0
    validateSubregion acidSize size (Acid.sacOffset b acid) (Acid.sacSize b acid) 0
    validateSubregion acidSize size (Acid.kacOffset b acid) (Acid.kacSize b acid) 0

/-- `ValidateAci` -/
def validateAci (b : List UInt8) (aci size : Nat) : Except LoaderError Unit :=
  if Aci.magic b aci ≠ Aci.magicValue then .error .invalidMeta
  else do
    validateSubregion aciSize size (Aci.fahOffset b aci) (Aci.fahSize b aci) 0
    validateSubregion aciSize size (Aci.sacOffset b aci) (Aci.sacSize b aci) 0
    validateSubregion aciSize size (Aci.kacOffset b aci) (Aci.kacSize b aci) 0

/-- The members of the `Meta`. -/
def setMembers (b : List UInt8) (acid aci : Nat) : Meta where
  npdm := 0
  acid := acid
  aci := aci
  acidFac := acid + Acid.facOffset b acid
  acidSac := acid + Acid.sacOffset b acid
  acidKac := acid + Acid.kacOffset b acid
  aciFah := aci + Aci.fahOffset b aci
  aciSac := aci + Aci.sacOffset b aci
  aciKac := aci + Aci.kacOffset b aci

/-- The part of `LoadMetaFromFile` that validates what was read and sets the members of the `Meta`. -/
def parseMeta (config : LoaderConfig) (b : List UInt8) (size : Nat) : Except LoaderError Meta :=
  if size < npdmSize then .error .invalidMeta
  else do
    validateNpdm config b 0 size
    validateAcid b (Npdm.acidOffset b 0) (Npdm.acidSize b 0)
    validateAci b (Npdm.aciOffset b 0) (Npdm.aciSize b 0)
    return setMembers b (Npdm.acidOffset b 0) (Npdm.aciOffset b 0)

/-- `fread` of a file into the buffer, which writes what it could read. -/
def MetaCache.fread (cache : MetaCache) (f : CodeFile) (h : f.contents.length ≤ metaCacheBufferSize) :
    MetaCache where
  info := none
  buffer := splice cache.buffer 0 (f.contents.take f.readable)
  length_buffer := by
    have htake := List.length_take_le' f.readable f.contents
    rw [length_splice (by rw [cache.length_buffer]; omega), cache.length_buffer]

/-- `LoadMetaFromFile`, with the `Meta` that it sets. A file of no bytes cannot be read as one item. -/
def loadMetaFromFile (config : LoaderConfig) (f : CodeFile) (cache : MetaCache) : Except LoaderError Meta × MetaCache :=
  if h : metaCacheBufferSize < f.contents.length then
    (.error .tooLargeMeta, { cache with info := none })
  else
    let cache := cache.fread f (Nat.le_of_not_lt h)
    if f.contents.length = 0 ∨ f.readable < f.contents.length then (.error .tooLargeMeta, cache)
    else
      match parseMeta config cache.buffer f.contents.length with
      | .error e => (.error e, cache)
      | .ok info => (.ok info, { cache with info := some info })

/-! ## Bounds -/

section Bounds

variable {config : LoaderConfig} {b b' : List UInt8} {size : Nat} {info : Meta} {f : CodeFile}
  {cache cache' : MetaCache}

lemma validateSubregion_eq_ok {allowedStart allowedEnd start n minSize : Nat}
    (h : validateSubregion allowedStart allowedEnd start n minSize = .ok ()) :
    minSize ≤ n ∧ start + n ≤ allowedEnd := by
  rw [validateSubregion] at h
  split at h
  · next hregion => exact ⟨hregion.1, hregion.2.2.2⟩
  · cases h

lemma validateNpdm_eq_ok {npdm : Nat} (h : validateNpdm config b npdm size = .ok ()) :
    acidSize ≤ Npdm.acidSize b npdm ∧ Npdm.acidOffset b npdm + Npdm.acidSize b npdm ≤ size ∧
      aciSize ≤ Npdm.aciSize b npdm ∧ Npdm.aciOffset b npdm + Npdm.aciSize b npdm ≤ size := by
  rw [validateNpdm] at h
  split at h
  · cases h
  · split at h
    · cases h
    · obtain ⟨_, hacid, haci⟩ := bind_eq_ok h
      obtain ⟨hmin, hend⟩ := validateSubregion_eq_ok hacid
      obtain ⟨hmin', hend'⟩ := validateSubregion_eq_ok haci
      exact ⟨hmin, hend, hmin', hend'⟩

lemma validateAcid_eq_ok {acid : Nat} (h : validateAcid b acid size = .ok ()) :
    Acid.facOffset b acid + Acid.facSize b acid ≤ size ∧
      Acid.sacOffset b acid + Acid.sacSize b acid ≤ size ∧
      Acid.kacOffset b acid + Acid.kacSize b acid ≤ size := by
  rw [validateAcid] at h
  split at h
  · cases h
  · obtain ⟨_, hfac, h⟩ := bind_eq_ok h
    obtain ⟨_, hsac, hkac⟩ := bind_eq_ok h
    exact ⟨(validateSubregion_eq_ok hfac).2, (validateSubregion_eq_ok hsac).2, (validateSubregion_eq_ok hkac).2⟩

lemma validateAci_eq_ok {aci : Nat} (h : validateAci b aci size = .ok ()) :
    Aci.fahOffset b aci + Aci.fahSize b aci ≤ size ∧ Aci.sacOffset b aci + Aci.sacSize b aci ≤ size ∧
      Aci.kacOffset b aci + Aci.kacSize b aci ≤ size := by
  rw [validateAci] at h
  split at h
  · cases h
  · obtain ⟨_, hfah, h⟩ := bind_eq_ok h
    obtain ⟨_, hsac, hkac⟩ := bind_eq_ok h
    exact ⟨(validateSubregion_eq_ok hfah).2, (validateSubregion_eq_ok hsac).2, (validateSubregion_eq_ok hkac).2⟩

/-- Everything that a `Meta` points to is inside the first bytes of the buffer. -/
structure Meta.InBounds (b : List UInt8) (size : Nat) (info : Meta) : Prop where
  npdm : info.npdm + npdmSize ≤ size
  acid : info.acid + acidSize ≤ size
  acidExtent : info.acid + Npdm.acidSize b info.npdm ≤ size
  aci : info.aci + aciSize ≤ size
  aciExtent : info.aci + Npdm.aciSize b info.npdm ≤ size
  acidFac : info.acidFac + Acid.facSize b info.acid ≤ size
  acidSac : info.acidSac + Acid.sacSize b info.acid ≤ size
  acidKac : info.acidKac + Acid.kacSize b info.acid ≤ size
  aciFah : info.aciFah + Aci.fahSize b info.aci ≤ size
  aciSac : info.aciSac + Aci.sacSize b info.aci ≤ size
  aciKac : info.aciKac + Aci.kacSize b info.aci ≤ size

lemma parseMeta_inBounds (h : parseMeta config b size = .ok info) : info.InBounds b size := by
  rw [parseMeta] at h
  split at h
  · cases h
  · next hsize =>
    obtain ⟨_, hnpdm, h⟩ := bind_eq_ok h
    obtain ⟨_, hacid, h⟩ := bind_eq_ok h
    obtain ⟨_, haci, h⟩ := bind_eq_ok h
    cases h
    obtain ⟨hacidMin, hacidEnd, haciMin, haciEnd⟩ := validateNpdm_eq_ok hnpdm
    obtain ⟨hfac, hsac, hkac⟩ := validateAcid_eq_ok hacid
    obtain ⟨hfah, hsac', hkac'⟩ := validateAci_eq_ok haci
    simp only [setMembers]
    constructor <;> dsimp only <;> omega

/-- Two buffers that start with the same bytes. -/
def Agree (size : Nat) (b b' : List UInt8) : Prop := ∀ k < size, b[k]? = b'[k]?

section

variable (h : Agree size b b')

include h

lemma Agree.readU32 {o : Nat} (ho : o + 4 ≤ size) : readU32 b o = readU32 b' o := by
  have hslice : slice b o 4 = slice b' o 4 := slice_congr fun k hk => h _ (by omega)
  rw [Loader.readU32, Loader.readU32, hslice]

/-- The fields of the `Npdm` -/
lemma Agree.npdm (hsize : npdmSize ≤ size) :
    Npdm.magic b 0 = Npdm.magic b' 0 ∧ Npdm.flags b 0 = Npdm.flags b' 0 ∧
      Npdm.acidOffset b 0 = Npdm.acidOffset b' 0 ∧ Npdm.acidSize b 0 = Npdm.acidSize b' 0 ∧
      Npdm.aciOffset b 0 = Npdm.aciOffset b' 0 ∧ Npdm.aciSize b 0 = Npdm.aciSize b' 0 := by
  unfold npdmSize at hsize
  have hflags : Npdm.flags b 0 = Npdm.flags b' 0 := by
    rw [Npdm.flags, Npdm.flags, List.getD_eq_getElem?_getD, List.getD_eq_getElem?_getD, h _ (by omega)]
  exact ⟨h.readU32 (by omega), hflags, h.readU32 (by omega), h.readU32 (by omega), h.readU32 (by omega),
    h.readU32 (by omega)⟩

/-- The fields of the `Acid` -/
lemma Agree.acid {acid : Nat} (hacid : acid + acidSize ≤ size) :
    Acid.magic b acid = Acid.magic b' acid ∧
      (Acid.facOffset b acid = Acid.facOffset b' acid ∧ Acid.facSize b acid = Acid.facSize b' acid) ∧
      (Acid.sacOffset b acid = Acid.sacOffset b' acid ∧ Acid.sacSize b acid = Acid.sacSize b' acid) ∧
      Acid.kacOffset b acid = Acid.kacOffset b' acid ∧ Acid.kacSize b acid = Acid.kacSize b' acid := by
  unfold acidSize at hacid
  exact ⟨h.readU32 (by omega), ⟨h.readU32 (by omega), h.readU32 (by omega)⟩,
    ⟨h.readU32 (by omega), h.readU32 (by omega)⟩, h.readU32 (by omega), h.readU32 (by omega)⟩

/-- The fields of the `Aci` -/
lemma Agree.aci {aci : Nat} (haci : aci + aciSize ≤ size) :
    Aci.magic b aci = Aci.magic b' aci ∧
      (Aci.fahOffset b aci = Aci.fahOffset b' aci ∧ Aci.fahSize b aci = Aci.fahSize b' aci) ∧
      (Aci.sacOffset b aci = Aci.sacOffset b' aci ∧ Aci.sacSize b aci = Aci.sacSize b' aci) ∧
      Aci.kacOffset b aci = Aci.kacOffset b' aci ∧ Aci.kacSize b aci = Aci.kacSize b' aci := by
  unfold aciSize at haci
  exact ⟨h.readU32 (by omega), ⟨h.readU32 (by omega), h.readU32 (by omega)⟩,
    ⟨h.readU32 (by omega), h.readU32 (by omega)⟩, h.readU32 (by omega), h.readU32 (by omega)⟩

lemma Agree.validateNpdm (hsize : npdmSize ≤ size) :
    validateNpdm config b 0 size = validateNpdm config b' 0 size := by
  obtain ⟨hmagic, hflags, hacid, hacidSize, haci, haciSize⟩ := h.npdm hsize
  rw [Loader.validateNpdm, Loader.validateNpdm, hmagic, hflags, hacid, hacidSize, haci, haciSize]

lemma Agree.validateAcid {acid n : Nat} (hacid : acid + acidSize ≤ size) :
    validateAcid b acid n = validateAcid b' acid n := by
  obtain ⟨hmagic, ⟨hfac, hfacSize⟩, ⟨hsac, hsacSize⟩, hkac, hkacSize⟩ := h.acid hacid
  rw [Loader.validateAcid, Loader.validateAcid, hmagic, hfac, hfacSize, hsac, hsacSize, hkac, hkacSize]

lemma Agree.validateAci {aci n : Nat} (haci : aci + aciSize ≤ size) :
    validateAci b aci n = validateAci b' aci n := by
  obtain ⟨hmagic, ⟨hfah, hfahSize⟩, ⟨hsac, hsacSize⟩, hkac, hkacSize⟩ := h.aci haci
  rw [Loader.validateAci, Loader.validateAci, hmagic, hfah, hfahSize, hsac, hsacSize, hkac, hkacSize]

lemma Agree.setMembers {acid aci : Nat} (hacid : acid + acidSize ≤ size)
    (haci : aci + aciSize ≤ size) : setMembers b acid aci = setMembers b' acid aci := by
  obtain ⟨-, ⟨hfac, -⟩, ⟨hsac, -⟩, hkac, -⟩ := h.acid hacid
  obtain ⟨-, ⟨hfah, -⟩, ⟨hsac', -⟩, hkac', -⟩ := h.aci haci
  rw [Loader.setMembers, Loader.setMembers, hfac, hsac, hkac, hfah, hsac', hkac']

/-- What is parsed depends only on the bytes that were read. -/
lemma Agree.parseMeta : parseMeta config b size = parseMeta config b' size := by
  rw [Loader.parseMeta, Loader.parseMeta]
  split
  · rfl
  · next hsize =>
    have hsize := Nat.le_of_not_lt hsize
    rw [h.validateNpdm hsize]
    cases hnpdm : Loader.validateNpdm config b' 0 size with
    | error e => rfl
    | ok _ =>
      obtain ⟨hacidMin, hacidEnd, haciMin, haciEnd⟩ := validateNpdm_eq_ok hnpdm
      obtain ⟨-, -, hacid, hacidSize, haci, haciSize⟩ := h.npdm hsize
      rw [hacid, hacidSize, haci, haciSize, h.validateAcid (by omega), h.validateAci (by omega),
        h.setMembers (by omega) (by omega)]

end

/-- A file in the buffer. -/
lemma agree_splice {l xs : List UInt8} : Agree xs.length (splice l 0 xs) xs := by
  intro k hk
  rw [splice, List.take_zero, List.nil_append, List.getElem?_append_left hk]

/-- A file that is read whole. -/
lemma fread_buffer (cache : MetaCache) (hsize : f.contents.length ≤ metaCacheBufferSize)
    (hread : f.contents.length ≤ f.readable) : (cache.fread f hsize).buffer = splice cache.buffer 0 f.contents :=
  congrArg (splice cache.buffer 0) (List.take_of_length_le hread)

/-- A file that was loaded is in the buffer, and the `Meta` was made from it. -/
lemma loadMetaFromFile_eq_ok (h : loadMetaFromFile config f cache = (.ok info, cache')) :
    cache'.info = some info ∧ f.contents.length ≤ metaCacheBufferSize ∧
      cache'.buffer = splice cache.buffer 0 f.contents ∧
      parseMeta config f.contents f.contents.length = .ok info := by
  rw [loadMetaFromFile] at h
  split at h
  · cases h
  · next hsize =>
    dsimp only at h
    split at h
    · cases h
    · next hread =>
      split at h
      · cases h
      · next hparse =>
        cases h
        have hsize := Nat.le_of_not_lt hsize
        have hbuffer := fread_buffer cache hsize (by omega)
        rw [hbuffer, agree_splice.parseMeta] at hparse
        exact ⟨rfl, hsize, hbuffer, hparse⟩

/-- A file that can be read and parsed is loaded. -/
lemma loadMetaFromFile_of_parse (hsize : f.contents.length ≤ metaCacheBufferSize) (hpos : f.contents.length ≠ 0)
    (hread : f.contents.length ≤ f.readable) (hparse : parseMeta config f.contents f.contents.length = .ok info) :
    ∃ cache', loadMetaFromFile config f cache = (.ok info, cache') ∧ cache'.info = some info ∧
      cache'.buffer = splice cache.buffer 0 f.contents := by
  have hbuffer := fread_buffer cache hsize hread
  have hno : ¬(f.contents.length = 0 ∨ f.readable < f.contents.length) := by omega
  refine ⟨{ cache.fread f hsize with info := some info }, ?_, rfl, hbuffer⟩
  rw [loadMetaFromFile, dif_neg (Nat.not_lt.mpr hsize)]
  simp only [if_neg hno, hbuffer, agree_splice.parseMeta, hparse]

end Bounds

/-- If `LoadMetaFromFile` succeeds, the `Npdm`, the `Acid` and the `Aci` with all their extents are inside
the bytes that were read. -/
theorem meta_in_bounds (config : LoaderConfig) (f : CodeFile) (cache cache' : MetaCache) (info : Meta)
    (h : loadMetaFromFile config f cache = (.ok info, cache')) :
    cache'.info = some info ∧ cache'.buffer.take f.contents.length = f.contents ∧
      info.InBounds cache'.buffer f.contents.length := by
  obtain ⟨hinfo, -, hbuffer, hparse⟩ := loadMetaFromFile_eq_ok h
  rw [← agree_splice.parseMeta, ← hbuffer] at hparse
  refine ⟨hinfo, ?_, parseMeta_inBounds hparse⟩
  rw [hbuffer, take_splice_zero]

section Example

/-- A cache that nothing was loaded into. -/
def emptyMetaCache : MetaCache where
  info := none
  buffer := List.replicate metaCacheBufferSize 0
  length_buffer := List.length_replicate

/-- An `Aci` at 0x80 and an `Acid` at 0xC0, which grant nothing. -/
def exampleNpdm : List UInt8 :=
  leBytes 4 Npdm.magicValue ++ List.replicate 0x6C 0 ++
    leBytes 4 0x80 ++ leBytes 4 0x40 ++ leBytes 4 0xC0 ++ leBytes 4 0x240 ++
  leBytes 4 Aci.magicValue ++ List.replicate 0x1C 0 ++
    leBytes 4 0x40 ++ leBytes 4 0 ++ leBytes 4 0x40 ++ leBytes 4 0 ++ leBytes 4 0x40 ++ leBytes 4 0 ++
    List.replicate 8 0 ++
  List.replicate 0x200 0 ++ leBytes 4 Acid.magicValue ++ List.replicate 0x1C 0 ++
    leBytes 4 0x240 ++ leBytes 4 0 ++ leBytes 4 0x240 ++ leBytes 4 0 ++ leBytes 4 0x240 ++ leBytes 4 0 ++
    List.replicate 8 0

/-- What it is parsed to. -/
def exampleMeta : Meta where
  npdm := 0
  acid := 0xC0
  aci := 0x80
  acidFac := 0x300
  acidSac := 0x300
  acidKac := 0x300
  aciFah := 0xC0
  aciSac := 0xC0
  aciKac := 0xC0

/-- A firmware of 7.0.0 or later. -/
def exampleConfig : LoaderConfig := ⟨true, true⟩

lemma exampleNpdm_parse : parseMeta exampleConfig exampleNpdm 0x300 = .ok exampleMeta := by
  decide +kernel

lemma exampleNpdm_length : exampleNpdm.length = 0x300 := by decide +kernel

end Example

/-- The example is loaded. -/
theorem meta_in_bounds_example :
    ∃ cache', loadMetaFromFile exampleConfig ⟨exampleNpdm, 0x300⟩ emptyMetaCache = (.ok exampleMeta, cache') ∧
      cache'.buffer.take 0x300 = exampleNpdm ∧ exampleMeta.InBounds cache'.buffer 0x300 := by
  have hlen := exampleNpdm_length
  have hparse := exampleNpdm_parse
  rw [← hlen] at hparse
  obtain ⟨cache', hload, -, -⟩ := loadMetaFromFile_of_parse
    (f := ⟨exampleNpdm, 0x300⟩) (hlen.trans_le (by decide)) (hlen.trans_ne (by decide)) hlen.le hparse
  obtain ⟨-, htake, hbounds⟩ := meta_in_bounds exampleConfig _ _ cache' _ hload
  rw [hlen] at htake hbounds
  exact ⟨cache', hload, htake, hbounds⟩

end RajNX.Loader
