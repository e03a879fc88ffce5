import RajNX.Fusee.DevicePartition

/-!
# Raw block devices

`rawdev_read`, `rawdev_write` and `rawdev_seek` of fusee's `raw_dev.c`, files whose bytes are the sectors of a device
partition. A range of bytes consists of a part of a sector, of whole sectors and of a part of a sector again, each of
which may be missing; a part of a sector goes through `tmp_sector`. `Holds` says which bytes a device stands for, and
`callAll_flat` that every sequence of reads, writes and seeks does what it does on these bytes.
-/

namespace RajNX.Fusee

open Splice

/-- `rawdev_file_t` with what is used of its `rawdev_device_t`, and the device that the partition is on. -/
structure RawdevFile (σ : Type) where
  devpart : DevicePartition
  tmpSector : List UInt8
  offset : Nat
  storage : σ

/-- The sectors of a range of bytes, and its length up to the end of the partition. -/
structure RawdevRange where
  sectorBegin : Nat
  sectorEnd : Nat
  sectorEndAligned : Nat
  len : Nat

section Code

variable {σ : Type} (fns : DeviceFunctions σ) (ciphers : DeviceCiphers)

variable (f : RawdevFile σ)

/-- How `rawdev_read` and `rawdev_write` start. A range that reaches the last sector goes on to the end of it. -/
def rawdevRange (len : Nat) : RawdevRange :=
  let sector_size := f.devpart.sectorSize
  let sector_begin := f.offset / sector_size
  let sector_end := (f.offset + len + sector_size - 1) % 2 ^ 64 / sector_size
  let (len, sector_end) :=
    if sector_end ≥ f.devpart.numSectors then
      ((sector_size * f.devpart.numSectors + 2 ^ 64 - f.offset) % 2 ^ 32, f.devpart.numSectors)
    else (len, sector_end)
  let sector_end_aligned :=
    (sector_end + 2 ^ 64 - if (f.offset + len) % 2 ^ 64 % sector_size ≠ 0 then 1 else 0) % 2 ^ 64
  ⟨sector_begin, sector_end, sector_end_aligned, len⟩

/-- Go on behind what was transferred. -/
def RawdevFile.advance (len : Nat) : RawdevFile σ := { f with offset := (f.offset + len) % 2 ^ 64 }

/-- Read a sector to `tmp_sector`. -/
def RawdevFile.readTmp (sector : Nat) : Option (Int × RawdevFile σ) := do
  let (no, tmp_sector, devpart, s) ← devicePartitionReadData fns ciphers f.devpart f.tmpSector sector 1 f.storage
  return (no, { f with devpart := devpart, tmpSector := tmp_sector, storage := s })

/-- Write a sector from `tmp_sector`. -/
def RawdevFile.writeTmp (sector : Nat) : Option (Int × RawdevFile σ) := do
  let (no, devpart, s) ← devicePartitionWriteData fns ciphers f.devpart f.tmpSector sector 1 f.storage
  return (no, { f with devpart := devpart, storage := s })

/-- Read whole sectors to the buffer from `data` on. -/
def RawdevFile.readAligned (ptr : List UInt8) (data sector num_sectors : Nat) :
    Option (Int × List UInt8 × RawdevFile σ) := do
  let (no, dst, devpart, s) ←
    devicePartitionReadData fns ciphers f.devpart (ptr.drop data) sector num_sectors f.storage
  return (no, ptr.take data ++ dst, { f with devpart := devpart, storage := s })

/-- Write whole sectors from the buffer from `data` on. -/
def RawdevFile.writeAligned (ptr : List UInt8) (data sector num_sectors : Nat) : Option (Int × RawdevFile σ) := do
  let (no, devpart, s) ← devicePartitionWriteData fns ciphers f.devpart (ptr.drop data) sector num_sectors f.storage
  return (no, { f with devpart := devpart, storage := s })

/-- Read `nb` bytes of a sector, from `first` on, to the buffer from `data` on. -/
def RawdevFile.readPart (ptr : List UInt8) (data sector first nb : Nat) :
    Option (Int × List UInt8 × RawdevFile σ) := do
  let (no, f) ← f.readTmp fns ciphers sector
  if no ≠ 0 then return (no, ptr, f)
  return (0, splice ptr data (slice f.tmpSector first nb), f)

/-- Write `nb` bytes of a sector, from `first` on, from the buffer from `data` on. -/
def RawdevFile.writePart (ptr : List UInt8) (data sector first nb : Nat) : Option (Int × RawdevFile σ) := do
  let (no, f) ← f.readTmp fns ciphers sector
  if no ≠ 0 then return (no, f)
  { f with tmpSector := splice f.tmpSector first (slice ptr data nb) }.writeTmp fns ciphers sector

/-- The rest of `rawdev_read`, from the sector-aligned data on. -/
def RawdevFile.readRest (ptr : List UInt8) (range : RawdevRange) (data current_sector : Nat) :
    Option (Except Int Nat × List UInt8 × RawdevFile σ) := do
  let sector_size := f.devpart.sectorSize
  let len := range.len
  let num_sectors := (range.sectorEndAligned + 2 ^ 64 - current_sector) % 2 ^ 64
  let (no, ptr, f) ←
    (if current_sector ≠ range.sectorEndAligned then f.readAligned fns ciphers ptr data current_sector num_sectors
    else some (0, ptr, f))
  if no ≠ 0 then return (.error no, ptr, f)
  let data := data + sector_size * num_sectors
  let (no, ptr, f) ←
    (if range.sectorEnd ≠ range.sectorEndAligned then
      f.readPart fns ciphers ptr data range.sectorEndAligned 0 ((f.offset + len) % 2 ^ 64 % sector_size)
    else some (0, ptr, f))
  if no ≠ 0 then return (.error no, ptr, f)
  return (.ok len, ptr, f.advance len)

/-- `rawdev_read`, with the buffer and the file afterwards. An error is the `errno`. -/
def rawdevRead (ptr : List UInt8) (len : Nat) : Option (Except Int Nat × List UInt8 × RawdevFile σ) := do
  let sector_size := f.devpart.sectorSize
  let range := rawdevRange f len
  let len := range.len
  if len = 0 then return (.ok 0, ptr, f)
  let unaligned := f.offset % sector_size
  if unaligned ≠ 0 then
    let nb := if len ≤ sector_size - unaligned then len else sector_size - unaligned
    let (no, ptr, f) ← f.readPart fns ciphers ptr 0 range.sectorBegin unaligned nb
    if no ≠ 0 then return (.error no, ptr, f)
    -- A range inside of one sector ends here.
    if range.sectorBegin + 1 = range.sectorEnd then return (.ok len, ptr, f.advance len)
    f.readRest fns ciphers ptr range (sector_size - unaligned) (range.sectorBegin + 1)
  else if range.sectorBegin = range.sectorEnd then return (.ok len, ptr, f.advance len)
  else f.readRest fns ciphers ptr range 0 range.sectorBegin

/-- The rest of `rawdev_write`, from the sector-aligned data on. -/
def RawdevFile.writeRest (ptr : List UInt8) (range : RawdevRange) (data current_sector : Nat) :
    Option (Except Int Nat × RawdevFile σ) := do
  let sector_size := f.devpart.sectorSize
  let len := range.len
  let num_sectors := (range.sectorEndAligned + 2 ^ 64 - current_sector) % 2 ^ 64
  let (no, f) ←
    (if current_sector ≠ range.sectorEndAligned then f.writeAligned fns ciphers ptr data current_sector num_sectors
    else some (0, f))
  if no ≠ 0 then return (.error no, f)
  let data := data + sector_size * num_sectors
  let (no, f) ←
    (if range.sectorEnd ≠ range.sectorEndAligned then
      f.writePart fns ciphers ptr data range.sectorEndAligned 0 ((f.offset + len) % 2 ^ 64 % sector_size)
    else some (0, f))
  if no ≠ 0 then return (.error no, f)
  return (.ok len, f.advance len)

/-- `rawdev_write`, with the file afterwards. -/
def rawdevWrite (ptr : List UInt8) (len : Nat) : Option (Except Int Nat × RawdevFile σ) := do
  let sector_size := f.devpart.sectorSize
  let range := rawdevRange f len
  let len := range.len
  if len = 0 then return (.ok 0, f)
  let unaligned := f.offset % sector_size
  if unaligned ≠ 0 then
    let nb := if len ≤ sector_size - unaligned then len else sector_size - unaligned
    let (no, f) ← f.writePart fns ciphers ptr 0 range.sectorBegin unaligned nb
    if no ≠ 0 then return (.error no, f)
    if range.sectorBegin + 1 = range.sectorEnd then return (.ok len, f.advance len)
    f.writeRest fns ciphers ptr range (sector_size - unaligned) (range.sectorBegin + 1)
  else if range.sectorBegin = range.sectorEnd then return (.ok len, f.advance len)
  else f.writeRest fns ciphers ptr range 0 range.sectorBegin

/-- `whence` of a seek. -/
inductive Whence where
  | seekSet
  | seekCur
  | seekEnd

/-- `rawdev_seek`. Positions are unsigned, so that none is before the start of the file. -/
def rawdevSeek (pos : Int) (whence : Whence) : RawdevFile σ :=
  let off := match whence with
    | .seekSet => 0
    | .seekCur => f.offset
    | .seekEnd => f.devpart.numSectors * f.devpart.sectorSize
  { f with offset := ((pos + off) % 2 ^ 64).toNat }

end Code

/-! ## One sector, and whole sectors -/

/-- A device whose bytes are the contents, whatever the path. -/
def imageStore : ByteStore (List UInt8) where
  get _ s := some s
  set _ _ bytes := bytes
  get_set _ := rfl
  set_set := rfl
  set_get h := (Option.some.inj h).symm

/-- Functions that copy the sectors of a device, with a work buffer of one sector. -/
def imageFunctions : DeviceFunctions (List UInt8) where
  initializer devpart s := (0, devpart.ready 1, s)
  reader devpart sector n s := some (0, slice s (devpart.position sector) (devpart.sectorSize * n), s)
  writer devpart src sector n s := some (0, splice s (devpart.position sector) (src.take (devpart.sectorSize * n)))

lemma plainCopies_image : PlainCopies imageFunctions imageStore where
  reader hstore _ := by
    obtain rfl := Option.some.inj hstore
    rfl
  writer hstore _ _ := by
    obtain rfl := Option.some.inj hstore
    rfl

/-- The bytes of a device outside of a range are the same. -/
structure SameOutside (first last : Nat) (s s' : List UInt8) : Prop where
  length : s'.length = s.length
  getElem? (i : Nat) : i < first ∨ last ≤ i → s'[i]? = s[i]?

/-- A file of a device partition whose sectors hold some bytes. -/
structure Holds (fns : DeviceFunctions (List UInt8)) (ciphers : DeviceCiphers) {size : Nat}
    (k : SectorCipher UInt8 size) (first total : Nat) (f : RawdevFile (List UInt8)) (flat : List UInt8) : Prop where
  sectorSize : f.devpart.sectorSize = size
  startSector : f.devpart.startSector = first
  numSectors : f.devpart.numSectors = total
  crypts : Crypts ciphers f.devpart k
  prepared : Prepared fns ciphers f.devpart
  tmpSector : f.tmpSector.length = size
  room : size * (first + total) ≤ f.storage.length
  flat_eq : mapSectors size k.dec 0 total (f.storage.drop (size * first)) = flat

section Sectors

variable {fns : DeviceFunctions (List UInt8)} {ciphers : DeviceCiphers} {size first total : Nat}
  {k : SectorCipher UInt8 size} {f : RawdevFile (List UInt8)} {flat ptr s s' s'' : List UInt8}
  {sector n data nb i : Nat}

lemma SameOutside.refl (first last : Nat) (s : List UInt8) : SameOutside first last s s := ⟨rfl, fun _ _ => rfl⟩

lemma SameOutside.trans {last : Nat} (h : SameOutside first last s s') (h' : SameOutside first last s' s'') :
    SameOutside first last s s'' :=
  ⟨h'.length.trans h.length, fun i hi => (h'.getElem? i hi).trans (h.getElem? i hi)⟩

section

variable (hf : Holds fns ciphers k first total f flat)

include hf

/-- The bytes of the partition, and what is behind it. -/
lemma Holds.length_drop : size * total ≤ (f.storage.drop (size * first)).length := by
  have hroom := hf.room
  rw [Nat.mul_add] at hroom
  rw [List.length_drop]
  omega

lemma Holds.length : flat.length = size * total := by
  rw [← hf.flat_eq]
  exact length_mapSectors k.length_dec hf.length_drop

/-- Sectors of the partition are inside of the storage. -/
lemma Holds.position_le (hn : sector + n ≤ total) : f.devpart.position (sector + n) ≤ f.storage.length := by
  obtain ⟨rfl, rfl, rfl, -, -, -, hroom, -⟩ := hf
  exact (Nat.mul_le_mul_left _ (Nat.add_le_add_left hn _)).trans hroom

/-- Sectors are read as they are held. -/
lemma Holds.readData (hplain : PlainCopies fns imageStore)
    {dst : List UInt8} (hn : sector + n ≤ total) (hlt : size * n < 2 ^ 32) (hdst : size * n ≤ dst.length) :
    ∃ sectors, (UsesCipher ciphers f.devpart → 0 < sectors) ∧
      devicePartitionReadData fns ciphers f.devpart dst sector n f.storage =
      some (0, splice dst 0 (slice flat (size * sector) (size * n)), f.devpart.ready sectors, f.storage) := by
  have hposition := hf.position_le hn
  have hback := hf.length_drop
  obtain ⟨devpart, tmp_sector, offset, s⟩ := f
  obtain ⟨rfl, rfl, rfl, hcrypts, hprepared, -, hroom, rfl⟩ := hf
  dsimp only at *
  have hstore : imageStore.get devpart.emuFilePath s = some s := rfl
  obtain ⟨sectors, hpos, hread⟩ :=
    devicePartitionReadData_eq rfl hplain hcrypts hstore (.inr hposition) hlt hprepared hdst
  refine ⟨sectors, hpos, ?_⟩
  rw [hread, slice_mapSectors k.length_dec hn hback, Nat.zero_add, slice_drop, slice, mapSectors_take, ← Nat.mul_add]
  rfl

/-- Sectors that are written are held, and nothing outside of the partition is changed. -/
lemma Holds.writeData (hplain : PlainCopies fns imageStore)
    {src : List UInt8} (hn : sector + n ≤ total) (hlt : size * n < 2 ^ 32) (hsrc : size * n ≤ src.length) :
    ∃ sectors s, (UsesCipher ciphers f.devpart → 0 < sectors) ∧
      devicePartitionWriteData fns ciphers f.devpart src sector n f.storage =
      some (0, f.devpart.ready sectors, s) ∧ SameOutside (size * first) (size * (first + total)) f.storage s ∧
      mapSectors size k.dec 0 total (s.drop (size * first)) = splice flat (size * sector) (src.take (size * n)) := by
  have hposition := hf.position_le hn
  have hback := hf.length_drop
  obtain ⟨devpart, tmp_sector, offset, s⟩ := f
  obtain ⟨rfl, rfl, rfl, hcrypts, hprepared, -, hroom, rfl⟩ := hf
  dsimp only at *
  have hstore : imageStore.get devpart.emuFilePath s = some s := rfl
  have henc : (mapSectors devpart.sectorSize k.enc sector n src).length = devpart.sectorSize * n :=
    length_mapSectors k.length_enc hsrc
  obtain ⟨sectors, hpos, hwrite⟩ :=
    devicePartitionWriteData_eq rfl hplain hcrypts hstore (.inr hposition) hlt hprepared hsrc
  have hend : devpart.position sector + devpart.sectorSize * n ≤ s.length := position_add _ _ ▸ hposition
  have hfirst : devpart.position sector = devpart.sectorSize * devpart.startSector + devpart.sectorSize * sector :=
    Nat.mul_add ..
  refine ⟨sectors, _, hpos, hwrite, ⟨length_splice (by rwa [henc]), fun i hi => ?_⟩, ?_⟩
  · have hlast : devpart.position sector + devpart.sectorSize * n ≤
        devpart.sectorSize * (devpart.startSector + devpart.numSectors) := by
      rw [← position_add]
      exact Nat.mul_le_mul_left _ (Nat.add_le_add_left hn _)
    exact getElem?_splice_of_notMem (by rwa [henc]) (by rw [henc]; omega)
  · have hinverse := mapSectors_mapSectors (k := sector) (n := n) k.length_enc (fun _ _ => k.dec_enc) hsrc
    rw [hfirst]
    refine (congrArg _ (drop_splice (by omega) _ _)).trans ?_
    rw [mapSectors_splice k.length_dec hn hback henc, Nat.zero_add, hinverse]

/-- A file after sectors were transferred. -/
lemma Holds.after {sectors : Nat} {tmp_sector flat' : List UInt8} (hpos : UsesCipher ciphers f.devpart → 0 < sectors)
    (htmp : tmp_sector.length = size) (hsame : s.length = f.storage.length)
    (hflat : mapSectors size k.dec 0 total (s.drop (size * first)) = flat') :
    Holds fns ciphers k first total
      { f with devpart := f.devpart.ready sectors, tmpSector := tmp_sector, storage := s } flat' where
  sectorSize := hf.sectorSize
  startSector := hf.startSector
  numSectors := hf.numSectors
  crypts := hf.crypts.ready sectors
  prepared := prepared_ready hpos
  tmpSector := htmp
  room := hf.room.trans_eq hsame.symm
  flat_eq := hflat

lemma Holds.advance (len : Nat) : Holds fns ciphers k first total (f.advance len) flat :=
  { hf with }

lemma Holds.sector_le (hn : sector + n ≤ total) : size * sector + size * n ≤ flat.length := by
  rw [hf.length, ← Nat.mul_add]
  exact Nat.mul_le_mul_left _ hn

section

variable (hplain : PlainCopies fns imageStore)

include hplain

lemma Holds.readTmp (hlt : size < 2 ^ 32) (hsector : sector < total) :
    ∃ f', f.readTmp fns ciphers sector = some (0, f') ∧ Holds fns ciphers k first total f' flat ∧
      f'.tmpSector = slice flat (size * sector) size ∧ f'.storage = f.storage ∧ f'.offset = f.offset := by
  have htmp := hf.tmpSector
  have hslice : (slice flat (size * sector) size).length = size :=
    length_slice (by have := hf.sector_le (n := 1) hsector; rwa [Nat.mul_one] at this)
  obtain ⟨sectors, hpos, hread⟩ :=
    hf.readData hplain hsector (by rwa [Nat.mul_one]) (by rw [Nat.mul_one]; exact htmp.ge)
  rw [Nat.mul_one, splice, hslice, List.take_zero, List.nil_append, Nat.zero_add, List.drop_of_length_le htmp.le,
    List.append_nil] at hread
  refine ⟨_, ?_, hf.after hpos hslice rfl hf.flat_eq, rfl, rfl, rfl⟩
  rw [RawdevFile.readTmp, hread]
  rfl

lemma Holds.writeTmp (hlt : size < 2 ^ 32) (hsector : sector < total) :
    ∃ f', f.writeTmp fns ciphers sector = some (0, f') ∧
      Holds fns ciphers k first total f' (splice flat (size * sector) f.tmpSector) ∧
      SameOutside (size * first) (size * (first + total)) f.storage f'.storage ∧ f'.offset = f.offset := by
  have htmp := hf.tmpSector
  obtain ⟨sectors, s, hpos, hwrite, hsame, hflat⟩ :=
    hf.writeData hplain hsector (by rwa [Nat.mul_one]) (by rw [Nat.mul_one]; exact htmp.ge)
  rw [Nat.mul_one, List.take_of_length_le htmp.le] at hflat
  refine ⟨_, ?_, hf.after hpos htmp hsame.length hflat, hsame, rfl⟩
  rw [RawdevFile.writeTmp, hwrite]
  rfl

/-- A part of a sector is read. -/
lemma Holds.readPart
    (ptr : List UInt8) (data : Nat) (hlt : size < 2 ^ 32) (hsector : sector < total) (hnb : i + nb ≤ size) :
    ∃ f', f.readPart fns ciphers ptr data sector i nb =
        some (0, splice ptr data (slice flat (size * sector + i) nb), f') ∧
      Holds fns ciphers k first total f' flat ∧ f'.storage = f.storage ∧ f'.offset = f.offset := by
  obtain ⟨f', hread, hf', htmp, hstorage, hoffset⟩ := hf.readTmp hplain hlt hsector
  refine ⟨f', ?_, hf', hstorage, hoffset⟩
  rw [RawdevFile.readPart, hread, Fallible.some_bind]
  dsimp only
  rw [if_neg (not_not.mpr rfl), htmp, slice_slice hnb]
  rfl

/-- A part of a sector is written. -/
lemma Holds.writePart
    (hlt : size < 2 ^ 32) (hsector : sector < total) (hnb : i + nb ≤ size) (hptr : data + nb ≤ ptr.length) :
    ∃ f', f.writePart fns ciphers ptr data sector i nb = some (0, f') ∧
      Holds fns ciphers k first total f' (splice flat (size * sector + i) (slice ptr data nb)) ∧
      SameOutside (size * first) (size * (first + total)) f.storage f'.storage ∧ f'.offset = f.offset := by
  obtain ⟨f₁, hread, hf₁, htmp, hstorage, hoffset⟩ := hf.readTmp hplain hlt hsector
  have hslice : (slice ptr data nb).length = nb := length_slice hptr
  have hsize := hf₁.tmpSector
  have hlen : (splice f₁.tmpSector i (slice ptr data nb)).length = size := by
    rw [length_splice (by rwa [hslice, hsize]), hsize]
  have hin := hf.sector_le (n := 1) hsector
  rw [Nat.mul_one] at hin
  have hf₂ : Holds fns ciphers k first total { f₁ with tmpSector := splice f₁.tmpSector i (slice ptr data nb) } flat :=
    { hf₁ with tmpSector := hlen }
  obtain ⟨f', hwrite, hf', hsame, hoffset'⟩ := hf₂.writeTmp hplain hlt hsector
  rw [htmp, splice_splice_slice hin (by rwa [hslice])] at hf'
  refine ⟨f', ?_, hf', hstorage ▸ hsame, hoffset'.trans hoffset⟩
  rw [RawdevFile.writePart, hread, Fallible.some_bind]
  exact hwrite

/-- Whole sectors are read. -/
lemma Holds.readAligned (hn : sector + n ≤ total) (hlt : size * n < 2 ^ 32) (hptr : data + size * n ≤ ptr.length) :
    ∃ f', f.readAligned fns ciphers ptr data sector n =
        some (0, splice ptr data (slice flat (size * sector) (size * n)), f') ∧
      Holds fns ciphers k first total f' flat ∧ f'.storage = f.storage ∧ f'.offset = f.offset := by
  have hdst : size * n ≤ (ptr.drop data).length := by
    rw [List.length_drop]
    omega
  obtain ⟨sectors, hpos, hread⟩ := hf.readData hplain hn hlt hdst
  refine ⟨_, ?_, hf.after hpos hf.tmpSector rfl hf.flat_eq, rfl, rfl⟩
  rw [RawdevFile.readAligned, hread, ← take_append_splice_drop (show data ≤ ptr.length by omega)]
  rfl

/-- Whole sectors are written. -/
lemma Holds.writeAligned (hn : sector + n ≤ total) (hlt : size * n < 2 ^ 32) (hptr : data + size * n ≤ ptr.length) :
    ∃ f', f.writeAligned fns ciphers ptr data sector n = some (0, f') ∧
      Holds fns ciphers k first total f' (splice flat (size * sector) (slice ptr data (size * n))) ∧
      SameOutside (size * first) (size * (first + total)) f.storage f'.storage ∧ f'.offset = f.offset := by
  have hsrc : size * n ≤ (ptr.drop data).length := by
    rw [List.length_drop]
    omega
  obtain ⟨sectors, s, hpos, hwrite, hsame, hflat⟩ := hf.writeData hplain hn hlt hsrc
  refine ⟨_, ?_, hf.after hpos hf.tmpSector hsame.length hflat, hsame, rfl⟩
  rw [RawdevFile.writeAligned, hwrite]
  rfl

end

end

end Sectors

/-! ## Ranges of bytes -/

section Ranges

variable {fns : DeviceFunctions (List UInt8)} {ciphers : DeviceCiphers} {size first total : Nat}
  {k : SectorCipher UInt8 size} {f : RawdevFile (List UInt8)} {flat ptr : List UInt8} {len : Nat}

/-- How many sectors a number of bytes touches. -/
lemma ceil_div (hpos : 0 < size) (a : Nat) : (a + size - 1) / size = a / size + if a % size ≠ 0 then 1 else 0 := by
  have hsplit := Nat.div_add_mod a size
  have hlt := Nat.mod_lt a hpos
  split
  · have heq : a + size - 1 = (a % size - 1) + size * (a / size + 1) := by
      rw [Nat.mul_add, Nat.mul_one]
      omega
    rw [heq, Nat.add_mul_div_left _ _ hpos, Nat.div_eq_of_lt (by omega), Nat.zero_add]
  · have heq : a + size - 1 = (size - 1) + size * (a / size) := by omega
    rw [heq, Nat.add_mul_div_left _ _ hpos, Nat.div_eq_of_lt (by omega), Nat.zero_add, Nat.add_zero]

/-- A difference that is not negative does not wrap. -/
lemma wrap_sub {a b : Nat} (hle : b ≤ a) (hlt : a < 2 ^ 64) : (a + 2 ^ 64 - b) % 2 ^ 64 = a - b := by omega

/-- The sectors of a range, and its length. -/
def flatRange (size offset len : Nat) : RawdevRange :=
  ⟨offset / size, (offset + len) / size + (if (offset + len) % size ≠ 0 then 1 else 0), (offset + len) / size, len⟩

/-- A range that ends before the last sector is not cut. -/
lemma rawdevRange_eq (hsize : f.devpart.sectorSize = size) (htotal : f.devpart.numSectors = total) (hpos : 0 < size)
    (hrange : f.offset + len + size ≤ size * total) (hmax : size * total ≤ 2 ^ 64) :
    rawdevRange f len = flatRange size f.offset len := by
  have hwrap : (f.offset + len + size - 1) % 2 ^ 64 = f.offset + len + size - 1 := Nat.mod_eq_of_lt (by omega)
  have hnowrap : (f.offset + len) % 2 ^ 64 = f.offset + len := Nat.mod_eq_of_lt (by omega)
  have hlt : (f.offset + len + size - 1) / size < total := by
    rw [Nat.div_lt_iff_lt_mul hpos, Nat.mul_comm]
    omega
  have htotal' : total ≤ 2 ^ 64 := (Nat.le_mul_of_pos_left total hpos).trans hmax
  rw [ceil_div hpos] at hlt
  rw [rawdevRange, hsize, htotal]
  dsimp only
  rw [hwrap, ceil_div hpos, if_neg (Nat.not_le.mpr hlt)]
  dsimp only
  rw [hnowrap, wrap_sub (Nat.le_add_left _ _) (hlt.trans_le htotal'), Nat.add_sub_cancel, flatRange]

/-- What is left of a range behind `data` bytes that end with a sector: whole sectors, and a part of a sector. -/
lemma rest_length {offset data current : Nat} (hdata : offset + data = size * current)
    (hle : current ≤ (offset + len) / size) :
    data + size * ((offset + len) / size - current) + (offset + len) % size = len := by
  have hsplit := Nat.div_add_mod (offset + len) size
  have hmul := Nat.mul_le_mul_left size hle
  rw [Nat.mul_sub]
  omega

/-- The bytes of the partition are in its sectors. -/
lemma sector_lt {a : Nat} (hpos : 0 < size) (hrange : a < size * total) : a / size < total := by
  rwa [Nat.div_lt_iff_lt_mul hpos, Nat.mul_comm]

/-- More bytes are read behind those that were read. -/
lemma splice_slice_add {offset d m : Nat} (hflat : offset + (d + m) ≤ flat.length) (hptr : d + m ≤ ptr.length) :
    splice (splice ptr 0 (slice flat offset d)) d (slice flat (offset + d) m) =
      splice ptr 0 (slice flat offset (d + m)) := by
  have hd : (slice flat offset d).length = d := length_slice (by omega)
  have hm : (slice flat (offset + d) m).length = m := length_slice (by omega)
  have happend := @splice_splice_append _ ptr (slice flat offset d) (slice flat (offset + d) m) 0
    (by rw [hd, hm, Nat.zero_add]; exact hptr)
  rwa [slice_append_slice, Nat.zero_add, hd] at happend

/-- More bytes are written behind those that were written. -/
lemma splice_take_add {offset d m : Nat} (hflat : offset + (d + m) ≤ flat.length) (hptr : d + m ≤ ptr.length) :
    splice (splice flat offset (ptr.take d)) (offset + d) (slice ptr d m) = splice flat offset (ptr.take (d + m)) := by
  have hd : (ptr.take d).length = d := List.length_take_of_le (by omega)
  have hm : (slice ptr d m).length = m := length_slice hptr
  have happend := @splice_splice_append _ flat (ptr.take d) (slice ptr d m) offset (by rw [hd, hm]; exact hflat)
  rwa [hd, slice, ← List.take_add] at happend

/-- How far the first sector of a range goes. -/
lemma unaligned_add {offset : Nat} (hpos : 0 < size) :
    offset + (size - offset % size) = size * (offset / size + 1) := by
  have hsplit := Nat.div_add_mod offset size
  have hlt := Nat.mod_lt offset hpos
  rw [Nat.mul_add, Nat.mul_one]
  omega

/-- A range that ends in or with its first sector is not longer than what is left of the sector; else it is longer. -/
lemma le_unaligned_iff {offset : Nat} (hpos : 0 < size) (hlen : 0 < len) :
    offset / size + 1 = (offset + len) / size + (if (offset + len) % size ≠ 0 then 1 else 0) ↔
      len ≤ size - offset % size := by
  have hsplit := Nat.div_add_mod offset size
  have hlt := Nat.mod_lt offset hpos
  have hnext : (offset / size + 1) * size = size * (offset / size) + size := by
    rw [Nat.add_mul, Nat.one_mul, Nat.mul_comm]
  rw [← ceil_div hpos, eq_comm, Nat.div_eq_iff hpos, hnext]
  omega

/-- A range that is longer than what is left of its first sector goes on in the next one. -/
lemma next_le_div {offset : Nat} (hpos : 0 < size) (hlen : size - offset % size < len) :
    offset / size + 1 ≤ (offset + len) / size := by
  have hnext := @unaligned_add size offset hpos
  rw [Nat.le_div_iff_mul_le hpos, Nat.mul_comm, ← hnext]
  omega

/-- A range that starts with a sector. -/
lemma aligned_add {offset : Nat} (hzero : offset % size = 0) : offset + 0 = size * (offset / size) := by
  have hsplit := Nat.div_add_mod offset size
  omega

lemma aligned_ne {offset : Nat} (hpos : 0 < size) (hzero : offset % size = 0) (hlen : 0 < len) :
    offset / size ≠ (offset + len) / size + (if (offset + len) % size ≠ 0 then 1 else 0) := by
  have haligned := aligned_add hzero
  rw [← ceil_div hpos, ne_comm, ne_eq, Nat.div_eq_iff hpos, Nat.mul_comm]
  omega

section

variable (hplain : PlainCopies fns imageStore) (hpos : 0 < size) (hlt : size < 2 ^ 32)

section

variable (hlen : len < 2 ^ 32) (hptr : len ≤ ptr.length) (hrange : f.offset + len ≤ size * total)
  (hnowrap : f.offset + len < 2 ^ 64)

include hplain hpos hlt hlen hptr hrange hnowrap

/-- The rest of a read, behind `data` bytes that were read. -/
lemma Holds.readRest (hf : Holds fns ciphers k first total f flat) {data current : Nat}
    (hdata : f.offset + data = size * current) (hle : current ≤ (f.offset + len) / size) :
    ∃ f', f.readRest fns ciphers (splice ptr 0 (slice flat f.offset data)) (flatRange size f.offset len)
        data current = some (.ok len, splice ptr 0 (slice flat f.offset len), f') ∧
      Holds fns ciphers k first total f' flat ∧ f'.storage = f.storage ∧ f'.offset = f.offset + len := by
  have hrest := rest_length hdata hle
  have hlast := Nat.div_le_of_le_mul hrange
  have hflat := hf.length
  have hdiv := Nat.div_add_mod (f.offset + len) size
  have hself := Nat.div_le_self (f.offset + len) size
  have hcurrent := Nat.mul_sub size ((f.offset + len) / size) current
  have hmul := Nat.mul_le_mul_left size hle
  rw [flatRange]
  generalize he : (f.offset + len) / size = e at *
  generalize ht : (f.offset + len) % size = t at *
  have hin : t ≤ size := ht ▸ (Nat.mod_lt _ hpos).le
  -- the whole sectors, if there are any
  obtain ⟨f₁, hmiddle, hf₁, hstorage₁, hoffset₁⟩ : ∃ f₁, (if current ≠ e then
        f.readAligned fns ciphers (splice ptr 0 (slice flat f.offset data)) data current (e - current)
      else some (0, splice ptr 0 (slice flat f.offset data), f)) =
        some (0, splice ptr 0 (slice flat f.offset (data + size * (e - current))), f₁) ∧
      Holds fns ciphers k first total f₁ flat ∧ f₁.storage = f.storage ∧ f₁.offset = f.offset := by
    rcases eq_or_ne current e with rfl | hne
    · refine ⟨f, ?_, hf, rfl, rfl⟩
      rw [if_neg (not_not.mpr rfl), Nat.sub_self, Nat.mul_zero, Nat.add_zero]
    · have hbuf : data + size * (e - current) ≤ (splice ptr 0 (slice flat f.offset data)).length := by
        rw [length_splice (by rw [length_slice (by omega)]; omega)]
        omega
      obtain ⟨f₁, hread, hf₁, hstorage₁, hoffset₁⟩ :=
        hf.readAligned hplain (show current + (e - current) ≤ total by omega) (by omega) hbuf
      refine ⟨f₁, ?_, hf₁, hstorage₁, hoffset₁⟩
      rw [if_pos hne, hread, ← hdata, splice_slice_add (by omega) (by omega)]
  -- the part of the last sector, if there is one
  obtain ⟨f₂, htail, hf₂, hstorage₂, hoffset₂⟩ : ∃ f₂, (if e + (if t ≠ 0 then 1 else 0) ≠ e then
        f₁.readPart fns ciphers (splice ptr 0 (slice flat f.offset (data + size * (e - current))))
          (data + size * (e - current)) e 0 t
      else some (0, splice ptr 0 (slice flat f.offset (data + size * (e - current))), f₁)) =
        some (0, splice ptr 0 (slice flat f.offset len), f₂) ∧
      Holds fns ciphers k first total f₂ flat ∧ f₂.storage = f₁.storage ∧ f₂.offset = f₁.offset := by
    rcases Nat.eq_zero_or_pos t with rfl | htpos
    · refine ⟨f₁, ?_, hf₁, rfl, rfl⟩
      rw [if_neg (not_not.mpr rfl), Nat.add_zero, if_neg (not_not.mpr rfl), ← hrest, Nat.add_zero]
    · have hlast : e < total := Nat.lt_of_mul_lt_mul_left (a := size) (by omega)
      obtain ⟨f₂, hread, hf₂, hstorage₂, hoffset₂⟩ := hf₁.readPart hplain _ _ hlt hlast
        (show 0 + t ≤ size by rwa [Nat.zero_add])
      refine ⟨f₂, ?_, hf₂, hstorage₂, hoffset₂⟩
      rw [if_pos htpos.ne', if_pos (Nat.succ_ne_self e), hread, Nat.add_zero]
      have haddr : size * e = f.offset + (data + size * (e - current)) := by omega
      rw [haddr, splice_slice_add (by omega) (by omega), hrest]
  refine ⟨f₂.advance len, ?_, hf₂.advance len, hstorage₂.trans hstorage₁, ?_⟩
  · rw [RawdevFile.readRest]
    dsimp only
    rw [wrap_sub hle (by omega), hmiddle, Fallible.some_bind]
    dsimp only
    rw [if_neg (not_not.mpr rfl), hf.sectorSize, hoffset₁, Nat.mod_eq_of_lt hnowrap, ht, htail]
    rfl
  · rw [RawdevFile.advance, hoffset₂, hoffset₁]
    exact Nat.mod_eq_of_lt hnowrap

/-- The rest of a write, behind `data` bytes that were written. -/
lemma Holds.writeRest {old : List UInt8} {data current : Nat}
    (hf : Holds fns ciphers k first total f (splice old f.offset (ptr.take data))) (hold : old.length = size * total)
    (hdata : f.offset + data = size * current) (hle : current ≤ (f.offset + len) / size) :
    ∃ f', f.writeRest fns ciphers ptr (flatRange size f.offset len) data current = some (.ok len, f') ∧
      Holds fns ciphers k first total f' (splice old f.offset (ptr.take len)) ∧
      SameOutside (size * first) (size * (first + total)) f.storage f'.storage ∧ f'.offset = f.offset + len := by
  have hrest := rest_length hdata hle
  have hlast := Nat.div_le_of_le_mul hrange
  have hdiv := Nat.div_add_mod (f.offset + len) size
  have hself := Nat.div_le_self (f.offset + len) size
  have hcurrent := Nat.mul_sub size ((f.offset + len) / size) current
  have hmul := Nat.mul_le_mul_left size hle
  rw [flatRange]
  generalize he : (f.offset + len) / size = e at *
  generalize ht : (f.offset + len) % size = t at *
  have hin : t ≤ size := ht ▸ (Nat.mod_lt _ hpos).le
  -- the whole sectors, if there are any
  obtain ⟨f₁, hmiddle, hf₁, hsame₁, hoffset₁⟩ : ∃ f₁,
      (if current ≠ e then f.writeAligned fns ciphers ptr data current (e - current) else some (0, f)) = some (0, f₁) ∧
      Holds fns ciphers k first total f₁ (splice old f.offset (ptr.take (data + size * (e - current)))) ∧
      SameOutside (size * first) (size * (first + total)) f.storage f₁.storage ∧ f₁.offset = f.offset := by
    rcases eq_or_ne current e with rfl | hne
    · rw [Nat.sub_self, Nat.mul_zero, Nat.add_zero]
      exact ⟨f, if_neg (not_not.mpr rfl), hf, .refl _ _ _, rfl⟩
    · obtain ⟨f₁, hwrite, hf₁, hsame₁, hoffset₁⟩ :=
        hf.writeAligned hplain (show current + (e - current) ≤ total by omega) (by omega)
          (show data + size * (e - current) ≤ ptr.length by omega)
      rw [← hdata, splice_take_add (by omega) (by omega)] at hf₁
      exact ⟨f₁, (if_pos hne).trans hwrite, hf₁, hsame₁, hoffset₁⟩
  -- the part of the last sector, if there is one
  obtain ⟨f₂, htail, hf₂, hsame₂, hoffset₂⟩ : ∃ f₂, (if e + (if t ≠ 0 then 1 else 0) ≠ e then
        f₁.writePart fns ciphers ptr (data + size * (e - current)) e 0 t else some (0, f₁)) = some (0, f₂) ∧
      Holds fns ciphers k first total f₂ (splice old f.offset (ptr.take len)) ∧
      SameOutside (size * first) (size * (first + total)) f₁.storage f₂.storage ∧ f₂.offset = f₁.offset := by
    rcases Nat.eq_zero_or_pos t with rfl | htpos
    · rw [if_neg (not_not.mpr rfl), Nat.add_zero, ← hrest]
      exact ⟨f₁, if_neg (not_not.mpr rfl), hf₁, .refl _ _ _, rfl⟩
    · have hlast : e < total := Nat.lt_of_mul_lt_mul_left (a := size) (by omega)
      obtain ⟨f₂, hwrite, hf₂, hsame₂, hoffset₂⟩ :=
        hf₁.writePart hplain hlt hlast (show 0 + t ≤ size by rwa [Nat.zero_add])
          (show data + size * (e - current) + t ≤ ptr.length by omega)
      have haddr : size * e + 0 = f.offset + (data + size * (e - current)) := by omega
      rw [haddr, splice_take_add (by omega) (by omega), hrest] at hf₂
      rw [if_pos htpos.ne', if_pos (Nat.succ_ne_self e)]
      exact ⟨f₂, hwrite, hf₂, hsame₂, hoffset₂⟩
  refine ⟨f₂.advance len, ?_, hf₂.advance len, hsame₁.trans hsame₂, ?_⟩
  · rw [RawdevFile.writeRest]
    dsimp only
    rw [wrap_sub hle (by omega), hmiddle, Fallible.some_bind]
    dsimp only
    rw [if_neg (not_not.mpr rfl), hf.sectorSize, hoffset₁, Nat.mod_eq_of_lt hnowrap, ht, htail]
    rfl
  · rw [RawdevFile.advance, hoffset₂, hoffset₁]
    exact Nat.mod_eq_of_lt hnowrap

/-- A read of a range of the partition gives its bytes. -/
lemma Holds.read (hf : Holds fns ciphers k first total f flat) {asked : Nat}
    (heq : rawdevRange f asked = flatRange size f.offset len) :
    ∃ f', rawdevRead fns ciphers f ptr asked = some (.ok len, splice ptr 0 (slice flat f.offset len), f') ∧
      Holds fns ciphers k first total f' flat ∧ f'.storage = f.storage ∧ f'.offset = f.offset + len := by
  rw [rawdevRead, heq, hf.sectorSize, flatRange]
  dsimp only
  rcases Nat.eq_zero_or_pos len with rfl | hlenpos
  · refine ⟨f, ?_, hf, rfl, rfl⟩
    rw [if_pos rfl, slice, List.take_zero, splice_nil]
    rfl
  rw [if_neg hlenpos.ne']
  -- the part of the first sector, if the range starts inside of one
  rcases eq_or_ne (f.offset % size) 0 with hzero | hne
  · have hle : f.offset / size ≤ (f.offset + len) / size := Nat.div_le_div_right (Nat.le_add_right _ _)
    obtain ⟨f', hrest, hf'⟩ :=
      hf.readRest hplain hpos hlt hlen hptr hrange hnowrap (aligned_add hzero) hle
    rw [slice, List.take_zero, splice_nil] at hrest
    refine ⟨f', ?_, hf'⟩
    rw [if_neg (not_not.mpr hzero), if_neg (aligned_ne hpos hzero hlenpos)]
    exact hrest
  · rw [if_pos hne]
    have hsector : f.offset / size < total := sector_lt hpos (by omega)
    have haddr : size * (f.offset / size) + f.offset % size = f.offset := Nat.div_add_mod _ _
    have hmod := Nat.mod_lt f.offset hpos
    by_cases hshort : len ≤ size - f.offset % size
    · obtain ⟨f₁, hread, hf₁, hstorage₁, hoffset₁⟩ :=
        hf.readPart hplain ptr 0 hlt hsector (show f.offset % size + len ≤ size by omega)
      rw [haddr] at hread
      refine ⟨f₁.advance len, ?_, hf₁.advance len, hstorage₁, ?_⟩
      · rw [if_pos hshort, hread, Fallible.some_bind]
        dsimp only
        rw [if_neg (not_not.mpr rfl), if_pos ((le_unaligned_iff hpos hlenpos).mpr hshort)]
        rfl
      · rw [RawdevFile.advance, hoffset₁]
        exact Nat.mod_eq_of_lt hnowrap
    · obtain ⟨f₁, hread, hf₁, hstorage₁, hoffset₁⟩ :=
        hf.readPart hplain ptr 0 hlt hsector (show f.offset % size + (size - f.offset % size) ≤ size by omega)
      have hdata := @unaligned_add size f.offset hpos
      have hle := next_le_div hpos (Nat.not_le.mp hshort)
      rw [haddr] at hread
      rw [← hoffset₁] at hread hdata hle hrange hnowrap
      obtain ⟨f', hrest, hf', hstorage', hoffset'⟩ :=
        hf₁.readRest hplain hpos hlt hlen hptr hrange hnowrap hdata hle
      rw [hoffset₁] at hread hrest hoffset'
      refine ⟨f', ?_, hf', hstorage'.trans hstorage₁, hoffset'⟩
      rw [if_neg hshort, hread, Fallible.some_bind]
      dsimp only
      rw [if_neg (not_not.mpr rfl), if_neg (mt (le_unaligned_iff hpos hlenpos).mp hshort)]
      exact hrest

/-- A write of a range of the partition replaces its bytes, and changes no others. -/
lemma Holds.write (hf : Holds fns ciphers k first total f flat) {asked : Nat}
    (heq : rawdevRange f asked = flatRange size f.offset len) :
    ∃ f', rawdevWrite fns ciphers f ptr asked = some (.ok len, f') ∧
      Holds fns ciphers k first total f' (splice flat f.offset (ptr.take len)) ∧
      SameOutside (size * first) (size * (first + total)) f.storage f'.storage ∧ f'.offset = f.offset + len := by
  have hflat := hf.length
  rw [rawdevWrite, heq, hf.sectorSize, flatRange]
  dsimp only
  rcases Nat.eq_zero_or_pos len with rfl | hlenpos
  · rw [if_pos rfl, List.take_zero, splice_nil]
    exact ⟨f, rfl, hf, .refl _ _ _, rfl⟩
  rw [if_neg hlenpos.ne']
  -- the part of the first sector, if the range starts inside of one
  rcases eq_or_ne (f.offset % size) 0 with hzero | hne
  · have hle : f.offset / size ≤ (f.offset + len) / size := Nat.div_le_div_right (Nat.le_add_right _ _)
    have hstart : Holds fns ciphers k first total f (splice flat f.offset (ptr.take 0)) := by
      rwa [List.take_zero, splice_nil]
    obtain ⟨f', hrest, hf'⟩ :=
      hstart.writeRest hplain hpos hlt hlen hptr hrange hnowrap hflat (aligned_add hzero) hle
    refine ⟨f', ?_, hf'⟩
    rw [if_neg (not_not.mpr hzero), if_neg (aligned_ne hpos hzero hlenpos)]
    exact hrest
  · rw [if_pos hne]
    have hsector : f.offset / size < total := sector_lt hpos (by omega)
    have haddr : size * (f.offset / size) + f.offset % size = f.offset := Nat.div_add_mod _ _
    have hmod := Nat.mod_lt f.offset hpos
    by_cases hshort : len ≤ size - f.offset % size
    · obtain ⟨f₁, hwrite, hf₁, hsame₁, hoffset₁⟩ :=
        hf.writePart hplain hlt hsector (show f.offset % size + len ≤ size by omega)
          (show 0 + len ≤ ptr.length by rwa [Nat.zero_add])
      rw [haddr, slice, List.drop_zero] at hf₁
      refine ⟨f₁.advance len, ?_, hf₁.advance len, hsame₁, ?_⟩
      · rw [if_pos hshort, hwrite, Fallible.some_bind]
        dsimp only
        rw [if_neg (not_not.mpr rfl), if_pos ((le_unaligned_iff hpos hlenpos).mpr hshort)]
        rfl
      · rw [RawdevFile.advance, hoffset₁]
        exact Nat.mod_eq_of_lt hnowrap
    · obtain ⟨f₁, hwrite, hf₁, hsame₁, hoffset₁⟩ :=
        hf.writePart hplain hlt hsector (show f.offset % size + (size - f.offset % size) ≤ size by omega)
          (show 0 + (size - f.offset % size) ≤ ptr.length by omega)
      have hdata := @unaligned_add size f.offset hpos
      have hle := next_le_div hpos (Nat.not_le.mp hshort)
      rw [haddr, slice, List.drop_zero, ← hoffset₁] at hf₁
      rw [← hoffset₁] at hdata hle hrange hnowrap
      obtain ⟨f', hrest, hf', hsame', hoffset'⟩ :=
        hf₁.writeRest hplain hpos hlt hlen hptr hrange hnowrap hflat hdata hle
      rw [hoffset₁] at hrest hf' hoffset'
      refine ⟨f', ?_, hf', hsame₁.trans hsame', hoffset'⟩
      rw [if_neg hshort, hwrite, Fallible.some_bind]
      dsimp only
      rw [if_neg (not_not.mpr rfl), if_neg (mt (le_unaligned_iff hpos hlenpos).mp hshort)]
      exact hrest

end

variable (hf : Holds fns ciphers k first total f flat)

include hplain hpos hlt hf

/-- A read of a range that ends before the last sector gives its bytes. -/
theorem rawdevRead_flat (hmax : size * total ≤ 2 ^ 64) (hlen : len < 2 ^ 32)
    (hptr : len ≤ ptr.length) (hrange : f.offset + len + size ≤ size * total) :
    ∃ f', rawdevRead fns ciphers f ptr len = some (.ok len, splice ptr 0 (slice flat f.offset len), f') ∧
      Holds fns ciphers k first total f' flat ∧ f'.storage = f.storage ∧ f'.offset = f.offset + len :=
  hf.read hplain hpos hlt hlen hptr (by omega) (by omega)
    (rawdevRange_eq hf.sectorSize hf.numSectors hpos hrange hmax)

/-- A write of a range that ends before the last sector replaces its bytes, and changes no others. -/
theorem rawdevWrite_flat (hmax : size * total ≤ 2 ^ 64) (hlen : len < 2 ^ 32)
    (hptr : len ≤ ptr.length) (hrange : f.offset + len + size ≤ size * total) :
    ∃ f', rawdevWrite fns ciphers f ptr len = some (.ok len, f') ∧
      Holds fns ciphers k first total f' (splice flat f.offset (ptr.take len)) ∧
      SameOutside (size * first) (size * (first + total)) f.storage f'.storage ∧ f'.offset = f.offset + len :=
  hf.write hplain hpos hlt hlen hptr (by omega) (by omega)
    (rawdevRange_eq hf.sectorSize hf.numSectors hpos hrange hmax)

end

end Ranges

/-! ## Runs -/

/-- A call on a file. -/
inductive RawdevCall where
  | read (ptr : List UInt8) (len : Nat)
  | write (ptr : List UInt8) (len : Nat)
  | seek (pos : Int) (whence : Whence)

/-- A flat array of bytes with a position in it. -/
structure FlatFile where
  bytes : List UInt8
  offset : Nat

/-- A call on a flat array, with what it returns and the buffer. -/
def RawdevCall.onFlat (c : RawdevCall) (flat : FlatFile) : Nat × List UInt8 × FlatFile :=
  match c with
  | .read ptr len => (len, splice ptr 0 (slice flat.bytes flat.offset len), { flat with offset := flat.offset + len })
  | .write ptr len => (len, ptr, ⟨splice flat.bytes flat.offset (ptr.take len), flat.offset + len⟩)
  | .seek pos whence =>
    let off := match whence with
      | .seekSet => 0
      | .seekCur => flat.offset
      | .seekEnd => flat.bytes.length
    let offset := ((pos + off) % 2 ^ 64).toNat
    (offset, [], { flat with offset := offset })

/-- A read or a write has its buffer, and its range ends before the last sector. -/
def RawdevCall.Inside (c : RawdevCall) (size : Nat) (flat : FlatFile) : Prop :=
  match c with
  | .read ptr len | .write ptr len => len < 2 ^ 32 ∧ len ≤ ptr.length ∧ flat.offset + len + size ≤ flat.bytes.length
  | .seek _ _ => True

/-- Calls on a flat array, one after another. -/
def onFlatAll (flat : FlatFile) : List RawdevCall → List (Nat × List UInt8) × FlatFile
  | [] => ([], flat)
  | c :: cs =>
    let (ret, ptr, flat) := c.onFlat flat
    let (outs, flat) := onFlatAll flat cs
    ((ret, ptr) :: outs, flat)

/-- Each call of a sequence is inside when it is made. -/
def InsideAll (size : Nat) (flat : FlatFile) : List RawdevCall → Prop
  | [] => True
  | c :: cs => c.Inside size flat ∧ InsideAll size (c.onFlat flat).2.2 cs

section Runs

variable (fns : DeviceFunctions (List UInt8)) (ciphers : DeviceCiphers)

/-- A call on a file, with what it returns and the buffer. -/
def RawdevCall.call (c : RawdevCall) (f : RawdevFile (List UInt8)) :
    Option (Except Int Nat × List UInt8 × RawdevFile (List UInt8)) :=
  match c with
  | .read ptr len => rawdevRead fns ciphers f ptr len
  | .write ptr len => (rawdevWrite fns ciphers f ptr len).map fun (ret, f) => (ret, ptr, f)
  | .seek pos whence =>
    let f := rawdevSeek f pos whence
    some (.ok f.offset, [], f)

/-- Calls on a file, one after another. -/
def callAll (f : RawdevFile (List UInt8)) :
    List RawdevCall → Option (List (Except Int Nat × List UInt8) × RawdevFile (List UInt8))
  | [] => some ([], f)
  | c :: cs => do
    let (ret, ptr, f) ← c.call fns ciphers f
    let (outs, f) ← callAll f cs
    return ((ret, ptr) :: outs, f)

variable {fns ciphers} {size first total : Nat} {k : SectorCipher UInt8 size} {f : RawdevFile (List UInt8)}
  {flat : FlatFile} {cs : List RawdevCall}

/-- A call that is inside does what it does on the flat array. -/
lemma Holds.call (hf : Holds fns ciphers k first total f flat.bytes) (hoffset : f.offset = flat.offset)
    (hplain : PlainCopies fns imageStore) (hpos : 0 < size) (hlt : size < 2 ^ 32) (hmax : size * total ≤ 2 ^ 64)
    {c : RawdevCall} (hinside : c.Inside size flat) :
    ∃ f', c.call fns ciphers f = some (.ok (c.onFlat flat).1, (c.onFlat flat).2.1, f') ∧
      Holds fns ciphers k first total f' (c.onFlat flat).2.2.bytes ∧ f'.offset = (c.onFlat flat).2.2.offset ∧
      SameOutside (size * first) (size * (first + total)) f.storage f'.storage := by
  obtain ⟨bytes, offset⟩ := flat
  obtain rfl := hoffset
  have hlength := hf.length
  cases c with
  | read ptr len =>
    obtain ⟨hlen, hptr, hrange⟩ := hinside
    obtain ⟨f', hread, hf', hstorage, hoffset⟩ :=
      rawdevRead_flat hplain hpos hlt hf hmax hlen hptr (hrange.trans_eq hlength)
    exact ⟨f', hread, hf', hoffset, hstorage ▸ .refl _ _ _⟩
  | write ptr len =>
    obtain ⟨hlen, hptr, hrange⟩ := hinside
    obtain ⟨f', hwrite, hf', hsame, hoffset⟩ :=
      rawdevWrite_flat hplain hpos hlt hf hmax hlen hptr (hrange.trans_eq hlength)
    exact ⟨f', by rw [RawdevCall.call, hwrite]; rfl, hf', hoffset, hsame⟩
  | seek pos whence =>
    have hend : f.devpart.numSectors * f.devpart.sectorSize = bytes.length := by
      rw [hf.numSectors, hf.sectorSize, hlength, Nat.mul_comm]
    have hseek : (rawdevSeek f pos whence).offset =
        (RawdevCall.onFlat (.seek pos whence) ⟨bytes, f.offset⟩).2.2.offset := by
      cases whence with
      | seekSet => rfl
      | seekCur => rfl
      | seekEnd => rw [rawdevSeek, RawdevCall.onFlat, ← hend]
    exact ⟨rawdevSeek f pos whence, by rw [RawdevCall.call, hseek]; rfl, { hf with }, hseek, .refl _ _ _⟩

/-- Every sequence of reads, writes and seeks does what it does on one flat array of the decrypted bytes. What is not
in the partition stays as it is. -/
theorem callAll_flat (hf : Holds fns ciphers k first total f flat.bytes) (hoffset : f.offset = flat.offset)
    (hplain : PlainCopies fns imageStore) (hpos : 0 < size) (hlt : size < 2 ^ 32) (hmax : size * total ≤ 2 ^ 64)
    (hinside : InsideAll size flat cs) :
    ∃ f', callAll fns ciphers f cs = some ((onFlatAll flat cs).1.map (fun out => (.ok out.1, out.2)), f') ∧
      Holds fns ciphers k first total f' (onFlatAll flat cs).2.bytes ∧ f'.offset = (onFlatAll flat cs).2.offset ∧
      SameOutside (size * first) (size * (first + total)) f.storage f'.storage := by
  induction cs generalizing f flat with
  | nil => exact ⟨f, rfl, hf, hoffset, .refl _ _ _⟩
  | cons c cs ih =>
    obtain ⟨hcall, hrest⟩ := hinside
    obtain ⟨f₁, hcall, hf₁, hoffset₁, hsame₁⟩ := hf.call hoffset hplain hpos hlt hmax hcall
    obtain ⟨f₂, hrest, hf₂, hoffset₂, hsame₂⟩ := ih hf₁ hoffset₁ hrest
    refine ⟨f₂, ?_, hf₂, hoffset₂, hsame₁.trans hsame₂⟩
    rw [callAll, hcall, Fallible.some_bind]
    dsimp only
    rw [hrest]
    rfl

/-- A partition of three sectors of two bytes, behind one sector, with a cipher. -/
def exampleRawdev : RawdevFile (List UInt8) where
  devpart := ⟨2, 1, 3, .xts, 1, true, [], false⟩
  tmpSector := [0, 0]
  offset := 1
  storage := [1, 2, 3, 4, 5, 6, 7, 8]

def exampleCipher : SectorCipher UInt8 2 := xorCipher 2 UInt8.ofNat

/-- A write and a read that begin and end inside of encrypted sectors. -/
theorem callAll_flat_example :
    ∃ f', callAll imageFunctions (mappingCiphers exampleCipher) exampleRawdev
        [.write [9, 9] 2, .seek 0 .seekSet, .read [0, 0, 0, 0] 4] =
      some ([(.ok 2, [9, 9]), (.ok 0, []), (.ok 4, [3, 9, 9, 7])], f') := by
  have hprepared : Prepared imageFunctions (mappingCiphers exampleCipher) exampleRawdev.devpart :=
    ⟨fun _ _ => Nat.one_pos, fun _ h => absurd rfl h⟩
  have hf : Holds imageFunctions (mappingCiphers exampleCipher) exampleCipher 1 3 exampleRawdev [3, 4, 4, 7, 5, 10] :=
    ⟨rfl, rfl, rfl, crypts_mapping _ nofun, hprepared, rfl, by decide, by decide⟩
  have hinside : InsideAll 2 ⟨[3, 4, 4, 7, 5, 10], 1⟩ [.write [9, 9] 2, .seek 0 .seekSet, .read [0, 0, 0, 0] 4] :=
    ⟨⟨by decide, by decide, by decide⟩, trivial, ⟨by decide, by decide, by decide⟩, trivial⟩
  obtain ⟨f', hcall, -⟩ := callAll_flat hf rfl plainCopies_image (by decide) (by decide) (by decide) hinside
  exact ⟨f', hcall⟩

end Runs

end RajNX.Fusee
