import RajNX.Lib.Fallible
import RajNX.Lib.SectorMap

/-!
# Device partitions

`device_partition_read_data` and `device_partition_write_data` of fusee's `device_partition.c`. A partition comes with
functions that initialize it, that read and write its sectors and that decrypt and encrypt the sectors in its work
buffer. Encrypted sectors go through the work buffer, in pieces of its size.

The reader and the writer may be any functions. `PlainCopies` says that they copy sectors, and `Crypts` that the
ciphers map each sector by its number; then a read gives the decrypted sectors, and a write leaves the encrypted ones.
-/

namespace RajNX.Fusee

open Splice

/-- `DevicePartitionCryptoMode`. -/
inductive DevicePartitionCryptoMode where
  | none
  | ctr
  | xts
deriving DecidableEq

/-- `device_partition_t`, without its functions, keys and buffers. -/
structure DevicePartition where
  sectorSize : Nat
  startSector : Nat
  numSectors : Nat
  cryptoMode : DevicePartitionCryptoMode
  cryptoWorkBufferNumSectors : Nat
  initialized : Bool
  emuFilePath : List UInt8
  emuUseFile : Bool

/-- The functions that work on a device. They give their result code, and what they leave in the buffer. A function
that does not return gives nothing. -/
structure DeviceFunctions (σ : Type) where
  initializer : DevicePartition → σ → Int × DevicePartition × σ
  reader : DevicePartition → Nat → Nat → σ → Option (Int × List UInt8 × σ)
  writer : DevicePartition → List UInt8 → Nat → Nat → σ → Option (Int × σ)

/-- `device_partition_cipher_t`, with the work buffer before and after. -/
abbrev DeviceCipher := DevicePartition → Nat → Nat → List UInt8 → Int × List UInt8

/-- The ciphers of a partition, if it has them. -/
structure DeviceCiphers where
  readCipher : Option DeviceCipher
  writeCipher : Option DeviceCipher

section Code

variable {σ : Type} (fns : DeviceFunctions σ) (ciphers : DeviceCiphers)

variable (devpart : DevicePartition)

/-- The test for a cipher that is used. -/
def usedCipher (cipher : Option DeviceCipher) : Option DeviceCipher :=
  if devpart.cryptoMode = .none then none else cipher

/-- The initialization steps, if necessary. -/
def ensureInitialized (s : σ) : Int × DevicePartition × σ :=
  if devpart.initialized then (0, devpart, s) else fns.initializer devpart s

/-- How many sectors go through the work buffer next. -/
def chunkSectors (num_sectors i : Nat) : Nat :=
  if i + devpart.cryptoWorkBufferNumSectors > num_sectors then num_sectors - i
  else devpart.cryptoWorkBufferNumSectors

/-- The loop that reads encrypted sectors. Lengths are of type `size_t`, which has 32 bits. With a work buffer of no
sectors the loop does not end; else it ends after at most `num_sectors` rounds. -/
def readCrypted (cipher : DeviceCipher) (devpart : DevicePartition) (sector num_sectors : Nat) :
    Nat → Nat → List UInt8 → σ → Option (Int × List UInt8 × σ)
  | rounds, i, dst, s =>
    if i < num_sectors then
      match rounds with
      | 0 => none
      | rounds + 1 => do
        let n := chunkSectors devpart num_sectors i
        let (rc, work, s) ← fns.reader devpart (sector + i) n s
        if rc ≠ 0 then return (rc, dst, s)
        let (rc, work) := cipher devpart (sector + i) n work
        if rc ≠ 0 then return (rc, dst, s)
        let dst := splice dst (devpart.sectorSize * i % 2 ^ 32) (work.take (devpart.sectorSize * n % 2 ^ 32))
        readCrypted cipher devpart sector num_sectors rounds (i + devpart.cryptoWorkBufferNumSectors) dst s
    else some (0, dst, s)

/-- The loop that writes encrypted sectors. -/
def writeCrypted (cipher : DeviceCipher) (devpart : DevicePartition) (src : List UInt8) (sector num_sectors : Nat) :
    Nat → Nat → σ → Option (Int × σ)
  | rounds, i, s =>
    if i < num_sectors then
      match rounds with
      | 0 => none
      | rounds + 1 => do
        let n := chunkSectors devpart num_sectors i
        let work := (src.drop (devpart.sectorSize * i % 2 ^ 32)).take (devpart.sectorSize * n % 2 ^ 32)
        let (rc, work) := cipher devpart (sector + i) n work
        if rc ≠ 0 then return (rc, s)
        let (rc, s) ← fns.writer devpart work (sector + i) n s
        if rc ≠ 0 then return (rc, s)
        writeCrypted cipher devpart src sector num_sectors rounds (i + devpart.cryptoWorkBufferNumSectors) s
    else some (0, s)

/-- Read sectors of an initialized partition. -/
def readSectors (dst : List UInt8) (sector num_sectors : Nat) (s : σ) : Option (Int × List UInt8 × σ) :=
  match usedCipher devpart ciphers.readCipher with
  | some cipher => readCrypted fns cipher devpart sector num_sectors num_sectors 0 dst s
  | none => do
    let (rc, data, s) ← fns.reader devpart sector num_sectors s
    return (rc, splice dst 0 data, s)

/-- Write sectors of an initialized partition. -/
def writeSectors (src : List UInt8) (sector num_sectors : Nat) (s : σ) : Option (Int × σ) :=
  match usedCipher devpart ciphers.writeCipher with
  | some cipher => writeCrypted fns cipher devpart src sector num_sectors num_sectors 0 s
  | none => fns.writer devpart src sector num_sectors s

/-- `device_partition_read_data`, with the partition, the destination and the device afterwards. -/
def devicePartitionReadData (dst : List UInt8) (sector num_sectors : Nat) (s : σ) :
    Option (Int × List UInt8 × DevicePartition × σ) := do
  let (rc, devpart, s) := ensureInitialized fns devpart s
  if rc ≠ 0 then return (rc, dst, devpart, s)
  let (rc, dst, s) ← readSectors fns ciphers devpart dst sector num_sectors s
  return (rc, dst, devpart, s)

/-- `device_partition_write_data`, with the partition and the device afterwards. -/
def devicePartitionWriteData (src : List UInt8) (sector num_sectors : Nat) (s : σ) :
    Option (Int × DevicePartition × σ) := do
  let (rc, devpart, s) := ensureInitialized fns devpart s
  if rc ≠ 0 then return (rc, devpart, s)
  let (rc, s) ← writeSectors fns ciphers devpart src sector num_sectors s
  return (rc, devpart, s)

end Code

/-! ## What the functions of a partition are meant to do -/

/-- Where a device keeps the bytes that a partition works on: in the file of a path, or in one place for all paths. -/
structure ByteStore (σ : Type) where
  get : List UInt8 → σ → Option (List UInt8)
  set : List UInt8 → σ → List UInt8 → σ
  get_set {path : List UInt8} {s : σ} {bytes bytes' : List UInt8} :
    get path s = some bytes → get path (set path s bytes') = some bytes'
  set_set {path : List UInt8} {s : σ} {bytes bytes' : List UInt8} :
    set path (set path s bytes) bytes' = set path s bytes'
  set_get {path : List UInt8} {s : σ} {bytes : List UInt8} : get path s = some bytes → set path s bytes = s

/-- The position of a sector in the device. -/
def DevicePartition.position (devpart : DevicePartition) (sector : Nat) : Nat :=
  devpart.sectorSize * (devpart.startSector + sector)

/-- Readers and writers that copy sectors. To copy no sector, there need not be any. -/
structure PlainCopies {σ : Type} (fns : DeviceFunctions σ) (store : ByteStore σ) : Prop where
  reader {devpart : DevicePartition} {s : σ} {bytes : List UInt8} {sector n : Nat} :
    store.get devpart.emuFilePath s = some bytes → n = 0 ∨ devpart.position (sector + n) ≤ bytes.length →
    fns.reader devpart sector n s = some (0, slice bytes (devpart.position sector) (devpart.sectorSize * n), s)
  writer {devpart : DevicePartition} {s : σ} {bytes src : List UInt8} {sector n : Nat} :
    store.get devpart.emuFilePath s = some bytes → n = 0 ∨ devpart.position (sector + n) ≤ bytes.length →
    devpart.sectorSize * n ≤ src.length →
    fns.writer devpart src sector n s = some (0, store.set devpart.emuFilePath s
        (splice bytes (devpart.position sector) (src.take (devpart.sectorSize * n))))

/-- A partition once it is initialized, with a work buffer of a number of sectors. -/
def DevicePartition.ready (devpart : DevicePartition) (sectors : Nat) : DevicePartition :=
  { devpart with initialized := true, cryptoWorkBufferNumSectors := sectors }

/-- Sectors of the partition go through the work buffer. -/
def UsesCipher (ciphers : DeviceCiphers) (devpart : DevicePartition) : Prop :=
  usedCipher devpart ciphers.readCipher ≠ none ∨ usedCipher devpart ciphers.writeCipher ≠ none

/-- A partition that needs a work buffer has one of at least one sector, or gets it when it is initialized. -/
structure Prepared {σ : Type} (fns : DeviceFunctions σ) (ciphers : DeviceCiphers) (devpart : DevicePartition) :
    Prop where
  workBuffer : devpart.initialized → UsesCipher ciphers devpart → 0 < devpart.cryptoWorkBufferNumSectors
  initializer (s : σ) : ¬devpart.initialized →
    ∃ sectors, (UsesCipher ciphers devpart → 0 < sectors) ∧ fns.initializer devpart s = (0, devpart.ready sectors, s)

/-- A cipher that maps the sectors of the work buffer one by one. -/
def DeviceCipher.Maps (cipher : DeviceCipher) (size : Nat) (f : Nat → List UInt8 → List UInt8) : Prop :=
  ∀ (devpart : DevicePartition) (sector n : Nat) (work : List UInt8), devpart.sectorSize = size →
    work.length = size * n → cipher devpart sector n work = (0, mapSectors size f sector n work)

/-- The ciphers of a device that map each sector by its number. -/
def mappingCiphers {size : Nat} (k : SectorCipher UInt8 size) : DeviceCiphers where
  readCipher := some fun devpart sector n work => (0, mapSectors devpart.sectorSize k.dec sector n work)
  writeCipher := some fun devpart sector n work => (0, mapSectors devpart.sectorSize k.enc sector n work)

/-- The partition has no cipher, or one that maps each sector by its number. -/
inductive Crypts (ciphers : DeviceCiphers) (devpart : DevicePartition) {size : Nat} : SectorCipher UInt8 size →
    Prop where
  | plain (hread : usedCipher devpart ciphers.readCipher = none)
    (hwrite : usedCipher devpart ciphers.writeCipher = none) : Crypts ciphers devpart (.plain UInt8 size)
  | mapped {k : SectorCipher UInt8 size} {readCipher writeCipher : DeviceCipher}
    (hread : usedCipher devpart ciphers.readCipher = some readCipher)
    (hwrite : usedCipher devpart ciphers.writeCipher = some writeCipher)
    (hdec : readCipher.Maps size k.dec) (henc : writeCipher.Maps size k.enc) : Crypts ciphers devpart k

/-! ## The loops -/

section Loops

variable {σ : Type} {fns : DeviceFunctions σ} {store : ByteStore σ} {ciphers : DeviceCiphers} {cipher : DeviceCipher}
  {devpart : DevicePartition} {bytes dst src : List UInt8} {sector num_sectors rounds i : Nat} {s : σ}
  {k : SectorCipher UInt8 devpart.sectorSize}

lemma position_add (sector n : Nat) :
    devpart.position (sector + n) = devpart.position sector + devpart.sectorSize * n := by
  rw [DevicePartition.position, DevicePartition.position, ← Nat.add_assoc, Nat.mul_add]

lemma position_le {n : Nat} (hn : i + n ≤ num_sectors) :
    devpart.position (sector + i + n) ≤ devpart.position (sector + num_sectors) :=
  Nat.mul_le_mul_left _ (by omega)

/-- The next piece ends with the work buffer or with the range. -/
lemma add_chunkSectors (hi : i < num_sectors) :
    i + chunkSectors devpart num_sectors i = min (i + devpart.cryptoWorkBufferNumSectors) num_sectors := by
  rw [chunkSectors]
  split <;> omega

variable (hplain : PlainCopies fns store) (hwork : 0 < devpart.cryptoWorkBufferNumSectors)
  (hstore : store.get devpart.emuFilePath s = some bytes)
  (hrange : devpart.position (sector + num_sectors) ≤ bytes.length)
  (hsize : devpart.sectorSize * num_sectors < 2 ^ 32) (hrounds : num_sectors ≤ i + rounds)

include hplain hwork hstore hrange hsize hrounds

/-- What the loop has read before round `i` is the map of the first `i` sectors. -/
lemma readCrypted_eq (hmaps : cipher.Maps devpart.sectorSize k.dec)
    (hdst : devpart.sectorSize * num_sectors ≤ dst.length) :
    readCrypted fns cipher devpart sector num_sectors rounds i
        (splice dst 0 (mapSectors devpart.sectorSize k.dec sector (min i num_sectors)
          (bytes.drop (devpart.position sector)))) s =
      some (0, splice dst 0 (mapSectors devpart.sectorSize k.dec sector num_sectors
        (bytes.drop (devpart.position sector))), s) := by
  induction rounds generalizing i with
  | zero =>
    have hle : num_sectors ≤ i := hrounds
    unfold readCrypted
    rw [if_neg (Nat.not_lt.mpr hle), Nat.min_eq_right hle]
  | succ rounds ih =>
    unfold readCrypted
    rcases Nat.lt_or_ge i num_sectors with hi | hi
    · obtain ⟨n, hn⟩ : ∃ n, chunkSectors devpart num_sectors i = n := ⟨_, rfl⟩
      have hnext := @add_chunkSectors devpart num_sectors i hi
      rw [hn] at hnext
      have hin : i + n ≤ num_sectors := hnext.trans_le (Nat.min_le_right _ _)
      have hread := hplain.reader hstore (.inr ((position_le hin).trans hrange))
      have hdata : slice bytes (devpart.position (sector + i)) (devpart.sectorSize * n) =
          slice (bytes.drop (devpart.position sector)) (devpart.sectorSize * i) (devpart.sectorSize * n) := by
        rw [slice_drop, position_add]
      have hbase : devpart.sectorSize * num_sectors ≤ (bytes.drop (devpart.position sector)).length := by
        rw [position_add] at hrange
        rw [List.length_drop]
        omega
      have hbytes : devpart.sectorSize * (i + n) ≤ devpart.sectorSize * num_sectors := Nat.mul_le_mul_left _ hin
      have hparts := Nat.mul_add devpart.sectorSize i n
      have hlen : (slice (bytes.drop (devpart.position sector)) (devpart.sectorSize * i)
          (devpart.sectorSize * n)).length = devpart.sectorSize * n := length_slice (by omega)
      have hmap := hmaps devpart (sector + i) n _ rfl hlen
      have hwork' := length_mapSectors (k := sector + i) k.length_dec hlen.ge
      have hdst' : 0 + devpart.sectorSize * (i + n) ≤ dst.length := by omega
      have hsplice := splice_mapSectors_add (k := sector) k.length_dec (hbytes.trans hbase) hdst'
      rw [Nat.zero_add] at hsplice
      rw [if_pos hi, hn, Nat.min_eq_left hi.le]
      dsimp only
      rw [hread, hdata, Fallible.some_bind]
      dsimp only
      rw [if_neg (not_not.mpr rfl), hmap]
      dsimp only
      rw [if_neg (not_not.mpr rfl), Nat.mod_eq_of_lt (by omega), Nat.mod_eq_of_lt (by omega),
        List.take_of_length_le hwork'.le, hsplice, hnext]
      exact ih (by omega)
    · rw [if_neg (Nat.not_lt.mpr hi), Nat.min_eq_right hi]

/-- What the loop has written before round `i` is the map of the first `i` sectors. -/
lemma writeCrypted_eq (hmaps : cipher.Maps devpart.sectorSize k.enc)
    (hsrc : devpart.sectorSize * num_sectors ≤ src.length) :
    writeCrypted fns cipher devpart src sector num_sectors rounds i
        (store.set devpart.emuFilePath s (splice bytes (devpart.position sector)
          (mapSectors devpart.sectorSize k.enc sector (min i num_sectors) src))) =
      some (0, store.set devpart.emuFilePath s (splice bytes (devpart.position sector)
        (mapSectors devpart.sectorSize k.enc sector num_sectors src))) := by
  induction rounds generalizing i with
  | zero =>
    have hle : num_sectors ≤ i := hrounds
    unfold writeCrypted
    rw [if_neg (Nat.not_lt.mpr hle), Nat.min_eq_right hle]
  | succ rounds ih =>
    unfold writeCrypted
    rcases Nat.lt_or_ge i num_sectors with hi | hi
    · obtain ⟨n, hn⟩ : ∃ n, chunkSectors devpart num_sectors i = n := ⟨_, rfl⟩
      have hnext := @add_chunkSectors devpart num_sectors i hi
      rw [hn] at hnext
      have hin : i + n ≤ num_sectors := hnext.trans_le (Nat.min_le_right _ _)
      have hbytes : devpart.sectorSize * (i + n) ≤ devpart.sectorSize * num_sectors := Nat.mul_le_mul_left _ hin
      have hparts := Nat.mul_add devpart.sectorSize i n
      have hwork' : (slice src (devpart.sectorSize * i) (devpart.sectorSize * n)).length = devpart.sectorSize * n :=
        length_slice (by omega)
      have hmap := hmaps devpart (sector + i) n _ rfl hwork'
      have hlen := length_mapSectors (k := sector + i) k.length_enc hwork'.ge
      have hfront : (mapSectors devpart.sectorSize k.enc sector i src).length = devpart.sectorSize * i :=
        length_mapSectors k.length_enc (by omega)
      have hend : devpart.position sector + devpart.sectorSize * num_sectors ≤ bytes.length := position_add _ _ ▸ hrange
      have hold : (splice bytes (devpart.position sector) (mapSectors devpart.sectorSize k.enc sector i src)).length =
          bytes.length := length_splice (by omega)
      have hwrite := hplain.writer (store.get_set hstore)
        (.inr (((position_le hin).trans hrange).trans_eq hold.symm)) hlen.ge
      have hbytes' : devpart.position sector + devpart.sectorSize * (i + n) ≤ bytes.length := by omega
      have hsplice := splice_mapSectors_add (k := sector) k.length_enc (hbytes.trans hsrc) hbytes'
      rw [if_pos hi, hn, Nat.min_eq_left hi.le]
      dsimp only
      rw [Nat.mod_eq_of_lt (by omega), Nat.mod_eq_of_lt (by omega)]
      rw [slice] at hmap hwrite
      rw [hmap]
      dsimp only
      rw [if_neg (not_not.mpr rfl), hwrite, Fallible.some_bind]
      dsimp only
      rw [if_neg (not_not.mpr rfl), ← slice, List.take_of_length_le hlen.le, position_add, hsplice, store.set_set,
        hnext]
      exact ih (by omega)
    · rw [if_neg (Nat.not_lt.mpr hi), Nat.min_eq_right hi]

end Loops

/-! ## Reads and writes -/

section Specs

variable {σ : Type} {fns : DeviceFunctions σ} {store : ByteStore σ} {ciphers : DeviceCiphers}
  {devpart : DevicePartition}
  {bytes dst src : List UInt8} {size sector num_sectors : Nat} {s : σ} {k : SectorCipher UInt8 size}

lemma maps_mapping (size : Nat) (f : Nat → List UInt8 → List UInt8) :
    DeviceCipher.Maps (fun devpart sector n work => (0, mapSectors devpart.sectorSize f sector n work)) size f := by
  rintro devpart sector n work rfl _
  rfl

/-- A partition with a crypto mode and mapping ciphers. -/
lemma crypts_mapping {size : Nat} (k : SectorCipher UInt8 size) (hmode : devpart.cryptoMode ≠ .none) :
    Crypts (mappingCiphers k) devpart k :=
  .mapped (if_neg hmode) (if_neg hmode) (maps_mapping size k.dec) (maps_mapping size k.enc)

lemma Prepared.ensureInitialized (hprepared : Prepared fns ciphers devpart) (s : σ) :
    ∃ sectors, (UsesCipher ciphers devpart → 0 < sectors) ∧
      ensureInitialized fns devpart s = (0, devpart.ready sectors, s) := by
  rcases hinit : devpart.initialized with _ | _
  · obtain ⟨sectors, hpos, hcall⟩ := hprepared.initializer s (Bool.eq_false_iff.mp hinit)
    refine ⟨sectors, hpos, ?_⟩
    rw [Fusee.ensureInitialized, hinit, if_neg Bool.false_ne_true, hcall]
  · refine ⟨_, hprepared.workBuffer hinit, ?_⟩
    rw [Fusee.ensureInitialized, if_pos hinit, DevicePartition.ready, ← hinit]

/-- An initialized partition is still prepared. -/
lemma prepared_ready {sectors : Nat} (hpos : UsesCipher ciphers devpart → 0 < sectors) :
    Prepared fns ciphers (devpart.ready sectors) where
  workBuffer _ := hpos
  initializer _ h := absurd rfl h

lemma Crypts.ready {size : Nat} {k : SectorCipher UInt8 size} (hcrypts : Crypts ciphers devpart k) (sectors : Nat) :
    Crypts ciphers (devpart.ready sectors) k := by
  cases hcrypts with
  | plain hread hwrite => exact .plain hread hwrite
  | mapped hread hwrite hdec henc => exact .mapped hread hwrite hdec henc

variable (hss : devpart.sectorSize = size) (hplain : PlainCopies fns store) (hcrypts : Crypts ciphers devpart k)
  (hstore : store.get devpart.emuFilePath s = some bytes)
  (hrange : num_sectors = 0 ∨ devpart.position (sector + num_sectors) ≤ bytes.length)
  (hlt : size * num_sectors < 2 ^ 32)

include hss hplain hcrypts hstore hrange hlt

/-- Sectors are read decrypted. -/
lemma readSectors_eq (hwork : UsesCipher ciphers devpart → 0 < devpart.cryptoWorkBufferNumSectors)
    (hdst : size * num_sectors ≤ dst.length) :
    readSectors fns ciphers devpart dst sector num_sectors s =
      some (0, splice dst 0 (mapSectors size k.dec sector num_sectors
        (bytes.drop (devpart.position sector))), s) := by
  subst hss
  cases hcrypts with
  | plain hread hwrite =>
    rw [readSectors, hread]
    dsimp only
    rw [hplain.reader hstore hrange, SectorCipher.plain, mapSectors_id]
    rfl
  | mapped hread hwrite hdec henc =>
    rw [readSectors, hread]
    dsimp only
    rcases hrange with rfl | hrange
    · rw [mapSectors, splice_nil]
      unfold readCrypted
      exact if_neg (Nat.lt_irrefl 0)
    · have hused : UsesCipher ciphers devpart := .inl (hread ▸ Option.some_ne_none _)
      have hloop := readCrypted_eq (i := 0) hplain (hwork hused) hstore hrange hlt (Nat.zero_add _).ge hdec hdst
      rwa [Nat.zero_min, mapSectors, splice_nil] at hloop

/-- Sectors are left encrypted. -/
lemma writeSectors_eq (hwork : UsesCipher ciphers devpart → 0 < devpart.cryptoWorkBufferNumSectors)
    (hsrc : size * num_sectors ≤ src.length) :
    writeSectors fns ciphers devpart src sector num_sectors s =
      some (0, store.set devpart.emuFilePath s (splice bytes (devpart.position sector)
        (mapSectors size k.enc sector num_sectors src))) := by
  subst hss
  cases hcrypts with
  | plain hread hwrite =>
    rw [writeSectors, hwrite]
    dsimp only
    rw [hplain.writer hstore hrange hsrc, SectorCipher.plain, mapSectors_id]
  | mapped hread hwrite hdec henc =>
    rw [writeSectors, hwrite]
    dsimp only
    rcases hrange with rfl | hrange
    · rw [mapSectors, splice_nil, store.set_get hstore]
      unfold writeCrypted
      exact if_neg (Nat.lt_irrefl 0)
    · have hused : UsesCipher ciphers devpart := .inr (hwrite ▸ Option.some_ne_none _)
      have hloop := writeCrypted_eq (i := 0) hplain (hwork hused) hstore hrange hlt (Nat.zero_add _).ge henc hsrc
      rwa [Nat.zero_min, mapSectors, splice_nil, store.set_get hstore] at hloop

/-- A read gives the decrypted sectors. -/
theorem devicePartitionReadData_eq (hprepared : Prepared fns ciphers devpart) (hdst : size * num_sectors ≤ dst.length) :
    ∃ sectors, (UsesCipher ciphers devpart → 0 < sectors) ∧
      devicePartitionReadData fns ciphers devpart dst sector num_sectors s =
      some (0, splice dst 0 (mapSectors size k.dec sector num_sectors
        (bytes.drop (devpart.position sector))), devpart.ready sectors, s) := by
  obtain ⟨sectors, hpos, hinit⟩ := hprepared.ensureInitialized s
  have hread := @readSectors_eq σ fns store ciphers (devpart.ready sectors) bytes dst size sector num_sectors
    s k hss hplain (hcrypts.ready sectors) hstore hrange hlt hpos hdst
  refine ⟨sectors, hpos, ?_⟩
  rw [devicePartitionReadData, hinit]
  dsimp only
  rw [if_neg (not_not.mpr rfl), hread]
  rfl

/-- A write leaves the encrypted sectors. -/
theorem devicePartitionWriteData_eq (hprepared : Prepared fns ciphers devpart)
    (hsrc : size * num_sectors ≤ src.length) :
    ∃ sectors, (UsesCipher ciphers devpart → 0 < sectors) ∧
      devicePartitionWriteData fns ciphers devpart src sector num_sectors s =
      some (0, devpart.ready sectors, store.set devpart.emuFilePath s (splice bytes (devpart.position sector)
        (mapSectors size k.enc sector num_sectors src))) := by
  obtain ⟨sectors, hpos, hinit⟩ := hprepared.ensureInitialized s
  have hwrite := @writeSectors_eq σ fns store ciphers (devpart.ready sectors) bytes src size sector num_sectors
    s k hss hplain (hcrypts.ready sectors) hstore hrange hlt hpos hsrc
  refine ⟨sectors, hpos, ?_⟩
  rw [devicePartitionWriteData, hinit]
  dsimp only
  rw [if_neg (not_not.mpr rfl), hwrite]
  rfl

end Specs

end RajNX.Fusee
