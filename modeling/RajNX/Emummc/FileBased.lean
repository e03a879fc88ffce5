import RajNX.Lib.Fallible
import RajNX.Lib.Parts

/-!
# File-based emuMMC

`_file_based_emmc_initialize` and `emummc_read_write_inner` of emuMMC's `emummc.c`. The user partition is kept in
files, which are opened in order until one is missing. `f_lseek`, `f_read` and `f_write` are exact on one file; a file
that is opened for writing grows when it is sought or written behind its end. A transfer goes to the one file that its
first sector lies in, and its position in the file and its length are counted in bytes in 32 bits, so that the files
are one image only for the transfers that `Fits` tells.
-/

namespace RajNX.Emummc

open Splice

/-! ## Files -/

/-- `FIL`, an open file. -/
structure Fil where
  contents : List UInt8
  fptr : Nat
deriving DecidableEq

/-- `f_lseek`. What a file gets when it grows lies in its new clusters already. -/
def fLseek (clusters : Nat → UInt8) (fp : Fil) (ofs : Nat) : Fil where
  contents := fp.contents ++ (List.range' fp.contents.length (ofs - fp.contents.length)).map clusters
  fptr := ofs

/-- `f_read`. -/
def fRead (fp : Fil) (btr : Nat) : List UInt8 × Fil :=
  let data := slice fp.contents fp.fptr btr
  (data, { fp with fptr := fp.fptr + data.length })

/-- `f_write`. -/
def fWrite (fp : Fil) (buff : List UInt8) : Fil where
  contents := splice fp.contents fp.fptr buff
  fptr := fp.fptr + buff.length

/-- `file_based_ctxt`. Of the 32 file objects of the user partition, those that are open. -/
structure FileBasedCtxt where
  parts : Nat
  partSize : Nat
  fpBoot0 : Fil
  fpBoot1 : Fil
  fpGpp : List Fil
deriving DecidableEq

/-- The loop of `_file_based_emmc_initialize` over the files `01`, `02` and so on. -/
def openParts (gpp : Nat → Option (List UInt8)) : Nat → Nat → Nat × List Fil
  | 0, parts => (parts, [])
  | left + 1, parts =>
    match gpp parts with
    | none => (if parts = 1 then 0 else parts, [])
    | some contents =>
      let (total, fps) := openParts gpp left (parts + 1)
      (total, ⟨contents, 0⟩ :: fps)

/-- `_file_based_emmc_initialize`, with the files of the folder. A file that has to be there and is not is fatal. -/
def fileBasedEmmcInitialize (boot0 boot1 : Option (List UInt8)) (gpp : Nat → Option (List UInt8)) :
    Option FileBasedCtxt := do
  let boot0 ← boot0
  let boot1 ← boot1
  let first ← gpp 0
  let (parts, fps) := openParts gpp 31 1
  some ⟨parts, first.length >>> 9, ⟨boot0, 0⟩, ⟨boot1, 0⟩, ⟨first, 0⟩ :: fps⟩

/-! ## Transfers -/

/-- `emuMMC_Type`. -/
inductive EmmcType where
  | emmc
  | sd
  | sdFile
deriving DecidableEq

/-- `FS_EMMC_PARTITION`. -/
inductive EmmcPartition where
  | boot0
  | boot1
  | gpp

/-- `sdmmc_nand_get_active_partition_index`. -/
def EmmcPartition.index : EmmcPartition → UInt32
  | .gpp => 2
  | .boot1 => 1
  | .boot0 => 0

def bootPartitionSize : UInt32 := 0x2000

/-- What a transfer works on. -/
structure EmuMMC where
  emmcType : EmmcType
  emmcStoragePartitionOffset : UInt64
  activePartition : EmmcPartition
  sdStorage : List UInt8
  fEmu : FileBasedCtxt

/-- `sdmmc_storage_read` and `sdmmc_storage_write` on the sectors of the SD card. -/
def sdmmcStorageReadWrite (storage buf : List UInt8) (sector num_sectors : UInt32) (is_write : Bool) :
    Nat × List UInt8 × List UInt8 :=
  if storage.length < 512 * (sector.toNat + num_sectors.toNat) then (0, buf, storage)
  else if is_write then (1, buf, splice storage (512 * sector.toNat) (buf.take (512 * num_sectors.toNat)))
  else (1, splice buf 0 (slice storage (512 * sector.toNat) (512 * num_sectors.toNat)), storage)

/-- The file objects. -/
inductive FileSlot where
  | boot0
  | boot1
  | gpp (i : Nat)

namespace FileBasedCtxt

/-- An open file. -/
def get (f : FileBasedCtxt) : FileSlot → Option Fil
  | .boot0 => some f.fpBoot0
  | .boot1 => some f.fpBoot1
  | .gpp i => f.fpGpp[i]?

/-- A file after a transfer. -/
def set (f : FileBasedCtxt) (fp : Fil) : FileSlot → FileBasedCtxt
  | .boot0 => { f with fpBoot0 := fp }
  | .boot1 => { f with fpBoot1 := fp }
  | .gpp i => { f with fpGpp := f.fpGpp.set i fp }

/-- The file and the sector in it. Nothing when the sector is divided by zero or there is no such file object. -/
def choose (f : FileBasedCtxt) (sector : UInt32) : EmmcPartition → Option (FileSlot × UInt32)
  | .gpp =>
    if f.parts ≠ 0 then
      if f.partSize = 0 ∨ 32 ≤ sector.toNat / f.partSize then none
      else some (.gpp (sector.toNat / f.partSize), .ofNat (sector.toNat % f.partSize))
    else some (.gpp 0, sector)
  | .boot1 => some (.boot1, sector)
  | .boot0 => some (.boot0, sector)

end FileBasedCtxt

/-- `emummc_read_write_inner`, with the buffer afterwards. -/
def emummcReadWriteInner (clusters : Nat → UInt8) (emu : EmuMMC) (buf : List UInt8) (sector num_sectors : UInt32)
    (is_write : Bool) : Option (Nat × List UInt8 × EmuMMC) :=
  if emu.emmcType = .sd then
    let sector := (sector.toUInt64 + emu.emmcStoragePartitionOffset).toUInt32
    let sector := sector + emu.activePartition.index * bootPartitionSize
    let (res, buf, storage) := sdmmcStorageReadWrite emu.sdStorage buf sector num_sectors is_write
    some (res, buf, { emu with sdStorage := storage })
  else do
    let (fp_tmp, sector) ← emu.fEmu.choose sector emu.activePartition
    match emu.fEmu.get fp_tmp with
    | none => some (0, buf, emu)
    | some fp =>
      let fp := fLseek clusters fp (sector <<< 9).toNat
      if is_write then
        let fp := fWrite fp (buf.take (num_sectors <<< 9).toNat)
        some (1, buf, { emu with fEmu := emu.fEmu.set fp fp_tmp })
      else
        let (data, fp) := fRead fp (num_sectors <<< 9).toNat
        some (1, splice buf 0 data, { emu with fEmu := emu.fEmu.set fp fp_tmp })

/-- A call of `emummc_read_write_inner`. -/
structure Transfer where
  buf : List UInt8
  sector : UInt32
  numSectors : UInt32
  isWrite : Bool

/-- Transfers one after another, with the results and the buffers. -/
def transferAll (clusters : Nat → UInt8) (emu : EmuMMC) : List Transfer → Option (List (Nat × List UInt8) × EmuMMC)
  | [] => some ([], emu)
  | t :: ts => do
    let (res, buf, emu) ← emummcReadWriteInner clusters emu t.buf t.sector t.numSectors t.isWrite
    let (outs, emu) ← transferAll clusters emu ts
    some ((res, buf) :: outs, emu)

/-! ## One image -/

/-- A transfer from or to one image: the buffer and the image afterwards. -/
def Transfer.onImage (t : Transfer) (image : List UInt8) : List UInt8 × List UInt8 :=
  let first := 512 * t.sector.toNat
  let size := 512 * t.numSectors.toNat
  if t.isWrite then (t.buf, splice image first (t.buf.take size)) else (splice t.buf 0 (slice image first size), image)

/-- Transfers from and to one image, with the buffers. -/
def onImageAll (image : List UInt8) : List Transfer → List (List UInt8) × List UInt8
  | [] => ([], image)
  | t :: ts =>
    let (buf, image) := t.onImage image
    let (bufs, image) := onImageAll image ts
    (buf :: bufs, image)

/-- The files of the user partition, one after another. -/
def FileBasedCtxt.image (f : FileBasedCtxt) : List UInt8 := (f.fpGpp.map Fil.contents).flatten

/-- A transfer has its buffer and lies inside the total size. -/
structure Transfer.Inside (total : Nat) (t : Transfer) : Prop where
  buf : 512 * t.numSectors.toNat ≤ t.buf.length
  first : 512 * t.sector.toNat < total
  last : 512 * (t.sector.toNat + t.numSectors.toNat) ≤ total

/-- Files as they are meant to be: whole sectors, and all of the first one's size but the last one. -/
structure FileSizes (files : List (List UInt8)) : Prop where
  sectors : ∀ file ∈ files, 512 ∣ file.length
  sized : Parts.Sized (files.headD []).length files

/-- Where in its file a transfer starts. -/
def FileBasedCtxt.localSector (f : FileBasedCtxt) (sector : Nat) : Nat :=
  if f.parts = 0 then sector else sector % f.partSize

/-- A transfer does not cross the end of a file, and its position and its length in bytes are 32-bit values. -/
def Transfer.Fits (f : FileBasedCtxt) (t : Transfer) : Prop :=
  t.numSectors.toNat = 0 ∨
    (f.parts ≠ 0 → f.localSector t.sector.toNat + t.numSectors.toNat ≤ f.partSize) ∧
      512 * f.localSector t.sector.toNat < 2 ^ 32 ∧ 512 * t.numSectors.toNat < 2 ^ 32

/-! ## A transfer -/

section Step

variable {clusters : Nat → UInt8} {f : FileBasedCtxt} {emu : EmuMMC} {t : Transfer} {gpp : Nat → Option (List UInt8)}

/-- What the open files keep. -/
structure FileBasedCtxt.Opened (f : FileBasedCtxt) : Prop where
  sized : Parts.Sized (512 * f.partSize) (f.fpGpp.map Fil.contents)
  single : f.parts = 0 → f.fpGpp.length = 1
  few : f.fpGpp.length ≤ 32

lemma openParts_pos {left parts : Nat} (hparts : 2 ≤ parts) : (openParts gpp left parts).1 ≠ 0 := by
  induction left generalizing parts with
  | zero => exact Nat.ne_of_gt (Nat.lt_of_lt_of_le Nat.two_pos hparts)
  | succ left ih =>
    rw [openParts]
    cases gpp parts with
    | none =>
      rw [if_neg (by omega : parts ≠ 1)]
      exact Nat.ne_of_gt (Nat.lt_of_lt_of_le Nat.two_pos hparts)
    | some contents => exact ih (Nat.le_succ_of_le hparts)

lemma length_openParts_le (left parts : Nat) : (openParts gpp left parts).2.length ≤ left := by
  induction left generalizing parts with
  | zero => exact Nat.le_refl 0
  | succ left ih =>
    rw [openParts]
    cases gpp parts with
    | none => exact Nat.zero_le _
    | some contents => exact Nat.succ_le_succ (ih (parts + 1))

/-- A single file counts as no parts. -/
lemma openParts_eq_nil {left : Nat} (htotal : (openParts gpp left 1).1 = 0) : (openParts gpp left 1).2 = [] := by
  cases left with
  | zero => rfl
  | succ left =>
    rw [openParts] at htotal ⊢
    cases hfile : gpp 1 with
    | none => rfl
    | some contents =>
      rw [hfile] at htotal
      exact absurd htotal (openParts_pos (Nat.le_refl 2))

lemma opened_of_fileSizes {boot0 boot1 : Option (List UInt8)} (hinit : fileBasedEmmcInitialize boot0 boot1 gpp = some f)
    (hsizes : FileSizes (f.fpGpp.map Fil.contents)) : f.Opened := by
  unfold fileBasedEmmcInitialize at hinit
  obtain ⟨boot0, -, hinit⟩ := Option.bind_eq_some_iff.mp hinit
  obtain ⟨boot1, -, hinit⟩ := Option.bind_eq_some_iff.mp hinit
  obtain ⟨first, -, hinit⟩ := Option.bind_eq_some_iff.mp hinit
  obtain rfl := Option.some.inj hinit
  have hdvd := hsizes.sectors first (.head _)
  have hsize : 512 * (first.length >>> 9) = first.length := by
    rw [Nat.shiftRight_eq_div_pow]
    exact Nat.mul_div_cancel' hdvd
  refine ⟨?_, fun hparts => ?_, ?_⟩
  · dsimp only
    rw [hsize]
    exact hsizes.sized
  · have hnil := @openParts_eq_nil gpp 31 hparts
    exact congrArg (fun fps : List Fil => fps.length + 1) hnil
  · exact Nat.succ_le_succ (length_openParts_le 31 1)

lemma toNat_shiftLeft_nine (n : UInt32) : (n <<< 9).toNat = 512 * n.toNat % 2 ^ 32 := by
  rw [UInt32.toNat_shiftLeft, Nat.shiftLeft_eq, Nat.mul_comm]
  rfl

lemma FileBasedCtxt.Opened.partSize_ne_zero (hf : f.Opened) (ht : t.Inside f.image.length) : f.partSize ≠ 0 := by
  intro hzero
  have hempty := hf.sized.length_flatten_le
  rw [hzero] at hempty
  exact absurd (ht.first.trans_le hempty) (by simp)

/-- The file that a transfer inside of one file goes to, and where it starts there. -/
lemma FileBasedCtxt.Opened.exists_choose (hf : f.Opened) (ht : t.Inside f.image.length)
    (hfit : f.parts ≠ 0 → f.localSector t.sector.toNat + t.numSectors.toNat ≤ f.partSize) :
    ∃ i sector fp, f.choose t.sector .gpp = some (.gpp i, sector) ∧ f.fpGpp[i]? = some fp ∧
      sector.toNat = f.localSector t.sector.toNat ∧
      512 * t.sector.toNat = i * (512 * f.partSize) + 512 * sector.toNat ∧
      512 * (sector.toNat + t.numSectors.toNat) ≤ fp.contents.length := by
  rcases eq_or_ne f.parts 0 with hparts | hparts
  · obtain ⟨fp, hfp⟩ := List.length_eq_one_iff.mp (hf.single hparts)
    have himage : f.image = fp.contents := by
      rw [FileBasedCtxt.image, hfp]
      exact List.append_nil _
    refine ⟨0, t.sector, fp, ?_, by rw [hfp]; rfl, ?_, by rw [Nat.zero_mul, Nat.zero_add], himage ▸ ht.last⟩
    · rw [FileBasedCtxt.choose, if_neg (not_not.mpr hparts)]
    · rw [FileBasedCtxt.localSector, if_pos hparts]
  · have hlocal : f.localSector t.sector.toNat = t.sector.toNat % f.partSize := if_neg hparts
    have hfit := hfit hparts
    rw [hlocal] at hfit ⊢
    have hmod : 512 * t.sector.toNat % (512 * f.partSize) = 512 * (t.sector.toNat % f.partSize) :=
      Nat.mul_mod_mul_left 512 _ _
    have hdiv : 512 * t.sector.toNat / (512 * f.partSize) = t.sector.toNat / f.partSize :=
      Nat.mul_div_mul_left _ _ (by decide)
    have hlast := ht.last
    obtain ⟨part, hpart, hin⟩ := hf.sized.exists_part (n := 512 * t.numSectors.toNat) ht.first
      (by rwa [← Nat.mul_add]) (by rw [hmod, ← Nat.mul_add]; exact Nat.mul_le_mul_left 512 hfit)
    rw [hdiv, List.getElem?_map] at hpart
    obtain ⟨fp, hfp, rfl⟩ := Option.map_eq_some_iff.mp hpart
    have hindex : t.sector.toNat / f.partSize < f.fpGpp.length := (List.getElem?_eq_some_iff.mp hfp).1
    have hpos := hf.partSize_ne_zero ht
    have hsector : (UInt32.ofNat (t.sector.toNat % f.partSize)).toNat = t.sector.toNat % f.partSize :=
      UInt32.toNat_ofNat_of_lt' ((Nat.mod_le _ _).trans_lt t.sector.toNat_lt)
    refine ⟨_, _, fp, ?_, hfp, hsector, ?_, ?_⟩
    · have hfew := hf.few
      rw [FileBasedCtxt.choose, if_pos hparts, if_neg (by omega)]
    · rw [hsector, Nat.mul_left_comm, ← Nat.mul_add, Nat.div_add_mod']
    · rw [hsector, Nat.mul_add, ← hmod]
      exact hin

/-- A position inside of a file does not make it grow. -/
lemma fLseek_of_le {fp : Fil} {ofs : Nat} (h : ofs ≤ fp.contents.length) :
    fLseek clusters fp ofs = ⟨fp.contents, ofs⟩ := by
  rw [fLseek, Nat.sub_eq_zero_of_le h]
  simp

/-- A file is replaced by one as long. -/
lemma FileBasedCtxt.Opened.set (hf : f.Opened) {i : Nat} {fp fp' : Fil} (hfp : f.fpGpp[i]? = some fp)
    (hlen : fp'.contents.length = fp.contents.length) : (f.set fp' (.gpp i)).Opened := by
  have hcontents : (f.fpGpp.map Fil.contents)[i]? = some fp.contents := by rw [List.getElem?_map, hfp]; rfl
  refine ⟨?_, fun hparts => ?_, ?_⟩
  · have hsized := hf.sized.set hcontents hlen
    rwa [← List.map_set] at hsized
  · exact (List.length_set ..).trans (hf.single hparts)
  · exact (List.length_set ..).trans_le hf.few

/-- A transfer that fits does what it does on the image. -/
lemma emummcReadWriteInner_of_fits (htype : emu.emmcType ≠ .sd) (hpartition : emu.activePartition = .gpp)
    (hf : emu.fEmu.Opened) (ht : t.Inside emu.fEmu.image.length) (hfits : t.Fits emu.fEmu) :
    ∃ f, emummcReadWriteInner clusters emu t.buf t.sector t.numSectors t.isWrite =
        some (1, (t.onImage emu.fEmu.image).1, { emu with fEmu := f }) ∧
      f.Opened ∧ f.image = (t.onImage emu.fEmu.image).2 ∧ f.parts = emu.fEmu.parts ∧
        f.partSize = emu.fEmu.partSize := by
  have hfit (hparts : emu.fEmu.parts ≠ 0) :
      emu.fEmu.localSector t.sector.toNat + t.numSectors.toNat ≤ emu.fEmu.partSize := by
    rcases hfits with hzero | ⟨hfit, -, -⟩
    · rw [hzero, FileBasedCtxt.localSector, if_neg hparts]
      exact (Nat.mod_lt _ (Nat.pos_of_ne_zero (hf.partSize_ne_zero ht))).le
    · exact hfit hparts
  obtain ⟨i, sector, fp, hchoose, hfp, hlocal, haddr, hin⟩ := hf.exists_choose ht hfit
  -- the counts of bytes do not wrap, unless nothing is transferred
  have hsize : (t.numSectors <<< 9).toNat = 512 * t.numSectors.toNat := by
    rw [toNat_shiftLeft_nine]
    rcases hfits with hzero | ⟨-, -, hsize⟩
    · rw [hzero, Nat.mul_zero, Nat.zero_mod]
    · exact Nat.mod_eq_of_lt hsize
  have hofs : t.numSectors.toNat = 0 ∨ (sector <<< 9).toNat = 512 * sector.toNat := by
    rw [toNat_shiftLeft_nine, hlocal]
    exact hfits.imp_right fun h => Nat.mod_eq_of_lt h.2.1
  have hle : (sector <<< 9).toNat + 512 * t.numSectors.toNat ≤ fp.contents.length := by
    have hmod : (sector <<< 9).toNat ≤ 512 * sector.toNat := by
      rw [toNat_shiftLeft_nine]
      exact Nat.mod_le _ _
    omega
  have hcontents : (emu.fEmu.fpGpp.map Fil.contents)[i]? = some fp.contents := by rw [List.getElem?_map, hfp]; rfl
  have hget : emu.fEmu.get (.gpp i) = some fp := hfp
  have hbuf : (t.buf.take (512 * t.numSectors.toNat)).length = 512 * t.numSectors.toNat := by
    rw [List.length_take]
    exact Nat.min_eq_left ht.buf
  -- the range in the file is the range in the image
  have hread : slice fp.contents (sector <<< 9).toNat (512 * t.numSectors.toNat) =
      slice emu.fEmu.image (512 * t.sector.toNat) (512 * t.numSectors.toNat) := by
    rcases hofs with hzero | hofs
    · simp only [hzero, Nat.mul_zero, slice, List.take_zero]
    · rw [hofs, haddr]
      exact (hf.sized.slice_flatten hcontents (hofs ▸ hle)).symm
  have hwrite : ((emu.fEmu.fpGpp.map Fil.contents).set i
      (splice fp.contents (sector <<< 9).toNat (t.buf.take (512 * t.numSectors.toNat)))).flatten =
        splice emu.fEmu.image (512 * t.sector.toNat) (t.buf.take (512 * t.numSectors.toNat)) := by
    rcases hofs with hzero | hofs
    · simp only [hzero, Nat.mul_zero, List.take_zero, splice_nil]
      obtain ⟨hi, heq⟩ := List.getElem?_eq_some_iff.mp hcontents
      rw [← heq, List.set_getElem_self]
      rfl
    · rw [hofs, haddr]
      exact (hf.sized.splice_flatten hcontents (by rw [hbuf]; exact hofs ▸ hle)).symm
  rw [← hpartition] at hchoose
  unfold emummcReadWriteInner
  rw [if_neg htype, hchoose, Fallible.some_bind]
  dsimp only
  rw [hget]
  dsimp only
  rw [fLseek_of_le (by omega), hsize]
  cases hwriting : t.isWrite with
  | true =>
    let fp' := fWrite ⟨fp.contents, (sector <<< 9).toNat⟩ (t.buf.take (512 * t.numSectors.toNat))
    have hlen : fp'.contents.length = fp.contents.length := length_splice (by rwa [hbuf])
    refine ⟨emu.fEmu.set fp' (.gpp i), ?_, hf.set hfp hlen, ?_, rfl, rfl⟩
    · rw [Transfer.onImage, hwriting]
      rfl
    · rw [Transfer.onImage, hwriting, if_pos rfl, ← hwrite]
      exact congrArg List.flatten List.map_set
  | false =>
    let fp' := (fRead ⟨fp.contents, (sector <<< 9).toNat⟩ (512 * t.numSectors.toNat)).2
    refine ⟨emu.fEmu.set fp' (.gpp i), ?_, hf.set hfp rfl, ?_, rfl, rfl⟩
    · rw [Transfer.onImage, hwriting, if_neg Bool.false_ne_true, ← hread]
      rfl
    · rw [Transfer.onImage, hwriting, if_neg Bool.false_ne_true]
      refine congrArg List.flatten (List.map_set.trans ?_)
      obtain ⟨hi, heq⟩ := List.getElem?_eq_some_iff.mp hcontents
      exact heq ▸ List.set_getElem_self hi

/-- Whether a transfer fits depends on the sizes only. -/
lemma Transfer.Fits.congr {f' : FileBasedCtxt} (hparts : f'.parts = f.parts) (hsize : f'.partSize = f.partSize)
    (h : t.Fits f) : t.Fits f' := by
  have hlocal : f'.localSector = f.localSector := by
    funext sector
    rw [FileBasedCtxt.localSector, FileBasedCtxt.localSector, hparts, hsize]
  rwa [Transfer.Fits, hparts, hsize, hlocal]

lemma Transfer.Inside.length_onImage {image : List UInt8} (ht : t.Inside image.length) :
    (t.onImage image).2.length = image.length := by
  have hlast := ht.last
  rw [Nat.mul_add] at hlast
  rw [Transfer.onImage]
  split
  · apply length_splice
    rwa [List.length_take, Nat.min_eq_left ht.buf]
  · rfl

/-- Transfers that fit do what they do on the image. -/
lemma transferAll_of_fits {ts : List Transfer} (htype : emu.emmcType ≠ .sd) (hpartition : emu.activePartition = .gpp)
    (hf : emu.fEmu.Opened) (hts : ∀ t ∈ ts, t.Inside emu.fEmu.image.length ∧ t.Fits emu.fEmu) :
    ∃ f, transferAll clusters emu ts = some ((onImageAll emu.fEmu.image ts).1.map (1, ·), { emu with fEmu := f }) ∧
      f.image = (onImageAll emu.fEmu.image ts).2 := by
  induction ts generalizing emu with
  | nil => exact ⟨emu.fEmu, rfl, rfl⟩
  | cons t ts ih =>
    obtain ⟨ht, hfits⟩ := hts t (.head _)
    obtain ⟨f, hcall, hopened, himage, hparts, hsize⟩ :=
      @emummcReadWriteInner_of_fits clusters emu t htype hpartition hf ht hfits
    obtain ⟨f', hrest, himage'⟩ := @ih { emu with fEmu := f } htype hpartition hopened fun t' ht' => by
      obtain ⟨hinside, hfits'⟩ := hts t' (.tail _ ht')
      refine ⟨?_, hfits'.congr hparts hsize⟩
      rwa [himage, ht.length_onImage]
    refine ⟨f', ?_, ?_⟩
    · rw [transferAll, hcall, Fallible.some_bind]
      dsimp only
      rw [hrest, himage]
      rfl
    · rw [himage', himage]
      rfl

end Step

/-! ## Runs -/

section Runs

variable {boot0 boot1 : Option (List UInt8)} {gpp : Nat → Option (List UInt8)} {emu : EmuMMC} {ts : List Transfer}

/-- Transfers of which each one fits read and write what they read and write on one image. -/
theorem transferAll_eq_onImageAll (clusters : Nat → UInt8)
    (hinit : fileBasedEmmcInitialize boot0 boot1 gpp = some emu.fEmu)
    (hsizes : FileSizes (emu.fEmu.fpGpp.map Fil.contents)) (htype : emu.emmcType = .sdFile)
    (hpartition : emu.activePartition = .gpp) (hinside : ∀ t ∈ ts, t.Inside emu.fEmu.image.length)
    (hfits : ∀ t ∈ ts, t.Fits emu.fEmu) :
    ∃ f, transferAll clusters emu ts = some ((onImageAll emu.fEmu.image ts).1.map (1, ·), { emu with fEmu := f }) ∧
      f.image = (onImageAll emu.fEmu.image ts).2 :=
  transferAll_of_fits (by rw [htype]; exact nofun) hpartition (opened_of_fileSizes hinit hsizes)
    fun t ht => ⟨hinside t ht, hfits t ht⟩

/-- Two files of one sector each. -/
def exampleFiles : Nat → Option (List UInt8)
  | 0 => some (List.replicate 512 0)
  | 1 => some (List.replicate 512 1)
  | _ => none

def exampleEmuMMC : EmuMMC where
  emmcType := .sdFile
  emmcStoragePartitionOffset := 0
  activePartition := .gpp
  sdStorage := []
  fEmu := ⟨2, 1, ⟨[], 0⟩, ⟨[], 0⟩, [⟨List.replicate 512 0, 0⟩, ⟨List.replicate 512 1, 0⟩]⟩

lemma exampleEmuMMC_sizes : FileSizes (exampleEmuMMC.fEmu.fpGpp.map Fil.contents) := by
  have hall : ∀ file ∈ [List.replicate 512 (0 : UInt8), List.replicate 512 1], file.length = 512 := by
    intro file hfile
    rcases List.mem_pair.mp hfile with rfl | rfl
    · exact List.length_replicate
    · exact List.length_replicate
  refine ⟨fun file hfile => (hall file hfile).symm ▸ Nat.dvd_refl 512, ?_⟩
  exact Parts.sized_of_forall fun file hfile => (hall file hfile).trans List.length_replicate.symm

/-- A write to the second of two files of one sector each. -/
theorem transferAll_eq_onImageAll_example :
    ∃ f, transferAll (fun _ => 0) exampleEmuMMC [⟨List.replicate 512 2, 1, 1, true⟩] =
        some ([(1, List.replicate 512 2)], { exampleEmuMMC with fEmu := f }) ∧
      f.image = (onImageAll exampleEmuMMC.fEmu.image [⟨List.replicate 512 2, 1, 1, true⟩]).2 := by
  refine @transferAll_eq_onImageAll (some []) (some []) exampleFiles exampleEmuMMC _ (fun _ => 0) ?_
    exampleEmuMMC_sizes rfl rfl ?_ ?_
  · decide +kernel
  · intro t ht
    obtain rfl := List.mem_singleton.mp ht
    constructor <;> decide +kernel
  · intro t ht
    obtain rfl := List.mem_singleton.mp ht
    exact .inr ⟨fun _ => by decide +kernel, by decide +kernel, by decide +kernel⟩

/-- A read across the end of the first file. The second half of the buffer keeps what it held. -/
theorem transferAll_ne_onImageAll :
    fileBasedEmmcInitialize (some []) (some []) exampleFiles = some exampleEmuMMC.fEmu ∧
      FileSizes (exampleEmuMMC.fEmu.fpGpp.map Fil.contents) ∧
      (⟨List.replicate 1024 2, 0, 2, false⟩ : Transfer).Inside exampleEmuMMC.fEmu.image.length ∧
      ∀ f, transferAll (fun _ => 0) exampleEmuMMC [⟨List.replicate 1024 2, 0, 2, false⟩] ≠
        some ((onImageAll exampleEmuMMC.fEmu.image [⟨List.replicate 1024 2, 0, 2, false⟩]).1.map (1, ·),
          { exampleEmuMMC with fEmu := f }) := by
  refine ⟨?_, exampleEmuMMC_sizes, ?_, fun f heq => ?_⟩
  · decide +kernel
  · constructor <;> decide +kernel
  · have hbufs := congrArg (Option.map Prod.fst) heq
    rw [Option.map_some] at hbufs
    dsimp only at hbufs
    exact absurd hbufs (by decide +kernel)

end Runs

end RajNX.Emummc
