import RajNX.Lib.AddressSpace
import RajNX.Lib.Faults
import RajNX.Lib.LittleEndian
import RajNX.Lib.Splice

/-!
# The partitions of NAND

`updater_bis_management.cpp` and `updater_files.cpp`: reading, writing, clearing and hashing the partitions with the
boot images. The requests to the storages and to the files may fail at any time, and a write is done byte by byte, so
that it may be cut off anywhere. A loop that would not end fails with `noReturn`.
-/

namespace RajNX.Updater

open AddressSpace Interruptible Regions Splice

/-- The results that are not a success, and two ways of not returning. -/
inductive Failure
  | bootImagePackageNotFound
  | invalidBootImagePackage
  | tooSmallWorkBuffer
  | misalignedWorkBuffer
  | needsRepairBootImages
  | fsTargetNotFound
  | other (rc : Nat)
  | abort
  | noReturn
deriving Repr, DecidableEq

/-- `FsBisStorageId`, as far as boot images are there. -/
inductive FsBisStorageId
  | boot0
  | boot1
  | bootConfigAndPackage2NormalMain
  | bootConfigAndPackage2NormalSub
  | bootConfigAndPackage2SafeMain
  | bootConfigAndPackage2SafeSub
  | bootConfigAndPackage2RepairMain
  | bootConfigAndPackage2RepairSub
deriving Repr, DecidableEq

/-- The bytes of the storages. -/
abbrev Nand : Type := FsBisStorageId → Nat → UInt8

/-- A procedure on the storages. -/
abbrev BisProc := Proc Nand Failure

/-- The regular files of a mounted boot image package. -/
abbrev BootImagePackage : Type := String → Option (List UInt8)

/-- `BctSize` -/
def bctSize : Nat := 0x4000

/-- `EksSize` -/
def eksSize : Nat := 0x4000

/-- `EksEntrySize` -/
def eksEntrySize : Nat := 0x200

/-- `EksBlobSize` -/
def eksBlobSize : Nat := 0xB0

/-- Write to a storage. -/
def Nand.write (s : Nand) (id : FsBisStorageId) (offset : Nat) (src : List UInt8) : Nand :=
  Function.update s id (AddressSpace.write (s id) offset src)

/-- A request that may fail, and does nothing to NAND. -/
def request : BisProc Unit := .atomic fun s => (.ok (), s)

/-- `fsOpenBisStorage`, which is all that `BisAccessor::Initialize` does. -/
def fsOpenBisStorage (_id : FsBisStorageId) : BisProc Unit := request

/-- `fsStorageRead` -/
def fsStorageRead (id : FsBisStorageId) (offset size : Nat) : BisProc (List UInt8) :=
  .atomic fun s => (.ok (read (s id) ⟨offset, size⟩), s)

/-- The bytes of a write, one after the other. -/
def storeBytes (id : FsBisStorageId) : Nat → List UInt8 → BisProc Unit
  | _, [] => pure ()
  | offset, byte :: later => do
    .atomic fun s => (.ok (), s.write id offset [byte])
    storeBytes id (offset + 1) later

/-- `fsStorageWrite` -/
def fsStorageWrite (id : FsBisStorageId) (offset : Nat) (src : List UInt8) : BisProc Unit := do
  request
  storeBytes id offset src

/-- `fopen` -/
def fopen (bip : BootImagePackage) (path : String) : BisProc (List UInt8) :=
  .atomic fun s => ((bip path).elim (.error .invalidBootImagePackage) .ok, s)

/-- `fread` from a position on, with `ferror`. -/
def fread (file : List UInt8) (position size : Nat) : BisProc (List UInt8) :=
  .atomic fun s => (.ok (slice file position size), s)

/-! ## `updater_files.cpp` -/

/-- `ReadFile`, with what it leaves in the buffer. -/
def readFile (bip : BootImagePackage) (dstSize : Nat) (path : String) : BisProc (List UInt8) := do
  let file ← fopen bip path
  let data ← fread file 0 dstSize
  pure (data ++ List.replicate (dstSize - data.length) 0)

/-- The loop of `GetFileHash`, with what has been hashed. -/
def getFileHashLoop (file : List UInt8) (workBufferSize : Nat) : Nat → List UInt8 → BisProc (List UInt8)
  | 0, _ => .fail .noReturn
  | fuel + 1, hashed => do
    let data ← fread file hashed.length workBufferSize
    if data.length = 0 then pure hashed
    else if data.length ≠ workBufferSize then pure (hashed ++ data)
    else getFileHashLoop file workBufferSize fuel (hashed ++ data)

/-- `GetFileHash`: the size and the hash. -/
def getFileHash (sha256 : List UInt8 → List UInt8) (bip : BootImagePackage) (path : String) (workBufferSize : Nat) :
    BisProc (Nat × List UInt8) := do
  let file ← fopen bip path
  let hashed ← getFileHashLoop file workBufferSize (file.length + 1) []
  pure (hashed.length, sha256 hashed)

/-! ## `BisAccessor` -/

namespace BisAccessor

/-- `SectorAlignment` -/
def sectorAlignment : Nat := 0x200

/-- `BisAccessor::Read` -/
def read (id : FsBisStorageId) (size offset : Nat) : BisProc (List UInt8) :=
  if offset % sectorAlignment ≠ 0 then .fail .abort else fsStorageRead id offset size

/-- `BisAccessor::Write` of a buffer. -/
def write (id : FsBisStorageId) (offset : Nat) (src : List UInt8) : BisProc Unit :=
  if offset % sectorAlignment ≠ 0 then .fail .abort else fsStorageWrite id offset src

/-- The loop of `BisAccessor::Write` of a file. -/
def writeFileLoop (id : FsBisStorageId) (offset size : Nat) (file : List UInt8) (workBufferSize : Nat) :
    Nat → Nat → BisProc Unit
  | 0, _ => .fail .noReturn
  | fuel + 1, written => do
    let data ← fread file written workBufferSize
    if size < written + data.length then .fail .abort
    else do
      let alignedSize := (data.length + sectorAlignment - 1) / sectorAlignment * sectorAlignment
      write id (offset + written) (data ++ List.replicate (alignedSize - data.length) 0)
      if data.length ≠ workBufferSize then pure ()
      else writeFileLoop id offset size file workBufferSize fuel (written + data.length)

/-- `BisAccessor::Write` of a file. -/
def writeFile (id : FsBisStorageId) (offset size : Nat) (bip : BootImagePackage) (path : String)
    (workBufferSize : Nat) : BisProc Unit :=
  if offset % sectorAlignment ≠ 0 ∨ workBufferSize % sectorAlignment ≠ 0 then .fail .abort
  else do
    let file ← fopen bip path
    writeFileLoop id offset size file workBufferSize (file.length + 1) 0

/-- The loop of `BisAccessor::Clear`. -/
def clearLoop (id : FsBisStorageId) (offset size workBufferSize : Nat) : Nat → Nat → BisProc Unit
  | 0, written => if written < size then .fail .noReturn else pure ()
  | fuel + 1, written =>
    if written < size then do
      let curWriteSize := min workBufferSize (size - written)
      write id (offset + written) (List.replicate curWriteSize 0)
      clearLoop id offset size workBufferSize fuel (written + curWriteSize)
    else pure ()

/-- `BisAccessor::Clear` -/
def clear (id : FsBisStorageId) (offset size workBufferSize : Nat) : BisProc Unit :=
  if offset % sectorAlignment ≠ 0 ∨ workBufferSize % sectorAlignment ≠ 0 then .fail .abort
  else clearLoop id offset size workBufferSize size 0

/-- The loop of `BisAccessor::GetHash`, with what has been hashed. -/
def getHashLoop (id : FsBisStorageId) (offset size hashSize workBufferSize : Nat) :
    Nat → Nat → List UInt8 → BisProc (List UInt8)
  | 0, totalRead, hashed => if totalRead < hashSize then .fail .noReturn else pure hashed
  | fuel + 1, totalRead, hashed =>
    if totalRead < hashSize then do
      let curReadSize := min workBufferSize (size - totalRead)
      let curUpdateSize := min curReadSize (hashSize - totalRead)
      let data ← read id curReadSize (offset + totalRead)
      getHashLoop id offset size hashSize workBufferSize fuel (totalRead + curReadSize)
        (hashed ++ data.take curUpdateSize)
    else pure hashed

/-- `BisAccessor::GetHash` -/
def getHash (sha256 : List UInt8 → List UInt8) (id : FsBisStorageId) (offset size hashSize workBufferSize : Nat) :
    BisProc (List UInt8) :=
  if offset % sectorAlignment ≠ 0 ∨ workBufferSize % sectorAlignment ≠ 0 then .fail .abort
  else do
    let hashed ← getHashLoop id offset size hashSize workBufferSize hashSize 0 []
    pure (sha256 hashed)

end BisAccessor

/-! ## What is read -/

section Reads

variable {look : Nand → Nand → Prop} {s : Nand} {bip : BootImagePackage} {path : String} {file : List UInt8}
  {sha256 : List UInt8 → List UInt8} {id : FsBisStorageId} {offset size hashSize workBufferSize : Nat}

lemma readOnly_request : Proc.ReadOnly look request := Proc.readOnly_atomic fun _ _ _ => rfl

lemma readOnly_fsStorageRead (h : ∀ s t, look s t → ∀ x, (Region.mk offset size).Contains x → s id x = t id x) :
    Proc.ReadOnly look (fsStorageRead id offset size) :=
  Proc.readOnly_atomic fun s t hlook => congrArg Except.ok (read_congr (h s t hlook))

lemma readOnly_fopen : Proc.ReadOnly look (fopen bip path) := Proc.readOnly_atomic fun _ _ _ => rfl

lemma readOnly_fread {position : Nat} : Proc.ReadOnly look (fread file position size) :=
  Proc.readOnly_atomic fun _ _ _ => rfl

lemma readOnly_readFile : Proc.ReadOnly look (readFile bip size path) :=
  Proc.readOnly_bind readOnly_fopen fun _ => Proc.readOnly_bind readOnly_fread fun _ => Proc.readOnly_pure _

lemma readOnly_getFileHashLoop {fuel : Nat} {hashed : List UInt8} :
    Proc.ReadOnly look (getFileHashLoop file workBufferSize fuel hashed) := by
  induction fuel generalizing hashed with
  | zero => exact Proc.readOnly_fail _
  | succ fuel ih =>
    refine Proc.readOnly_bind readOnly_fread fun data => ?_
    split
    · exact Proc.readOnly_pure _
    · split
      · exact Proc.readOnly_pure _
      · exact ih

lemma readOnly_getFileHash : Proc.ReadOnly look (getFileHash sha256 bip path workBufferSize) :=
  Proc.readOnly_bind readOnly_fopen fun _ => Proc.readOnly_bind readOnly_getFileHashLoop fun _ => Proc.readOnly_pure _

namespace BisAccessor

section

variable (h : ∀ s t, look s t → ∀ x, (Region.mk offset size).Contains x → s id x = t id x)

include h

lemma readOnly_read : Proc.ReadOnly look (read id size offset) := by
  rw [read]
  split
  · exact Proc.readOnly_fail _
  · exact readOnly_fsStorageRead h

lemma readOnly_getHashLoop {fuel totalRead : Nat} {hashed : List UInt8} :
    Proc.ReadOnly look (getHashLoop id offset size hashSize workBufferSize fuel totalRead hashed) := by
  induction fuel generalizing totalRead hashed with
  | zero =>
    rw [getHashLoop]
    split
    · exact Proc.readOnly_fail _
    · exact Proc.readOnly_pure _
  | succ fuel ih =>
    rw [getHashLoop]
    split
    · refine Proc.readOnly_bind (readOnly_read fun s t hlook x hx => h s t hlook x ?_) fun data => ih
      obtain ⟨hstart, hstop⟩ := hx
      simp only [Region.stop] at hstart hstop
      refine ⟨?_, ?_⟩
      · show offset ≤ x
        omega
      · show x < offset + size
        omega
    · exact Proc.readOnly_pure _

lemma readOnly_getHash : Proc.ReadOnly look (getHash sha256 id offset size hashSize workBufferSize) := by
  rw [getHash]
  split
  · exact Proc.readOnly_fail _
  · exact Proc.readOnly_bind (readOnly_getHashLoop h) fun _ => Proc.readOnly_pure _

end

end BisAccessor

/-- What `readFile` leaves in the buffer. -/
def paddedFile (file : List UInt8) (size : Nat) : List UInt8 :=
  file.take size ++ List.replicate (size - (file.take size).length) 0

@[simp] lemma length_paddedFile : (paddedFile file size).length = size := by
  rw [paddedFile, List.length_append, List.length_replicate]
  have hlength := List.length_take_le size file
  omega

lemma readFile_result (h : bip path = some file) :
    ((readFile bip size path).run s).result = .ok (paddedFile file size) := by
  have hopen : ((fopen bip path).run s).result = .ok file := congrArg (fun file => Option.elim file _ Except.ok) h
  rw [readFile, ((show Proc.ReadOnly Eq _ from readOnly_fopen).result_bind hopen).1]
  rfl

/-- The loop hashes what is left of the file. -/
lemma getFileHashLoop_result (hsize : 0 < workBufferSize) {fuel : Nat} {hashed : List UInt8}
    (hhashed : hashed = file.take hashed.length) (hfuel : file.length < hashed.length + fuel) :
    ((getFileHashLoop file workBufferSize fuel hashed).run s).result = .ok file := by
  induction fuel generalizing hashed with
  | zero =>
    have hlength := congrArg List.length hhashed
    rw [List.length_take] at hlength
    omega
  | succ fuel ih =>
    have hnext : hashed ++ slice file hashed.length workBufferSize =
        file.take (hashed.length + workBufferSize) := by
      rw [List.take_add, ← hhashed, slice]
    have hlength : (slice file hashed.length workBufferSize).length =
        min workBufferSize (file.length - hashed.length) := by
      rw [slice, List.length_take, List.length_drop]
    rw [getFileHashLoop, ((show Proc.ReadOnly Eq _ from readOnly_fread).result_bind rfl).1]
    split
    · next hzero =>
      rw [hlength] at hzero
      show Except.ok hashed = _
      rw [hhashed, List.take_of_length_le (by omega)]
    · next hpos =>
      split
      · next hshort =>
        rw [hlength] at hshort
        show Except.ok (hashed ++ _) = _
        rw [hnext, List.take_of_length_le (by omega)]
      · next hfull =>
        rw [hlength] at hpos
        refine ih ?_ ?_
        · rw [hnext, List.length_take, List.take_eq_take_min, Nat.min_comm]
        · rw [List.length_append, hlength]
          omega

lemma getFileHash_result (hsize : 0 < workBufferSize) (h : bip path = some file) :
    ((getFileHash sha256 bip path workBufferSize).run s).result = .ok (file.length, sha256 file) := by
  have hopen : ((fopen bip path).run s).result = .ok file := congrArg (fun file => Option.elim file _ Except.ok) h
  have hloop := @getFileHashLoop_result s file workBufferSize hsize (file.length + 1) [] rfl
    (by rw [List.length_nil]; omega)
  rw [getFileHash, ((show Proc.ReadOnly Eq _ from readOnly_fopen).result_bind hopen).1,
    ((show Proc.ReadOnly Eq _ from readOnly_getFileHashLoop).result_bind hloop).1]
  rfl

namespace BisAccessor

lemma read_result (h : offset % sectorAlignment = 0) :
    ((read id size offset).run s).result = .ok (AddressSpace.read (s id) ⟨offset, size⟩) := by
  rw [read, if_neg (not_not.mpr h)]
  rfl

/-- The loop hashes what is left of the partition up to the size. -/
lemma getHashLoop_result (hoffset : offset % sectorAlignment = 0) (hwork : workBufferSize % sectorAlignment = 0)
    (hpos : 0 < workBufferSize) (hle : hashSize ≤ size) {fuel totalRead : Nat} {hashed : List UInt8}
    (haligned : totalRead % sectorAlignment = 0 ∨ hashSize ≤ totalRead)
    (hhashed : hashed = AddressSpace.read (s id) ⟨offset, min totalRead hashSize⟩)
    (hfuel : hashSize ≤ totalRead + fuel) :
    ((getHashLoop id offset size hashSize workBufferSize fuel totalRead hashed).run s).result =
      .ok (AddressSpace.read (s id) ⟨offset, hashSize⟩) := by
  induction fuel generalizing totalRead hashed with
  | zero =>
    rw [getHashLoop, if_neg (by omega), hhashed, Nat.min_eq_right (by omega)]
    rfl
  | succ fuel ih =>
    rw [getHashLoop]
    split
    · next hlt =>
      have haligned' := haligned.resolve_right (by omega)
      have hread := @read_result s id (offset + totalRead) (min workBufferSize (size - totalRead))
        (by rw [Nat.add_mod, hoffset, haligned']; rfl)
      rw [((show Proc.ReadOnly Eq _ from readOnly_read fun _ _ h _ _ => h ▸ rfl).result_bind hread).1]
      refine ih ?_ ?_ (by omega)
      · rcases Nat.le_total workBufferSize (size - totalRead) with hwhole | hlast
        · rw [Nat.min_eq_left hwhole, Nat.add_mod, haligned', hwork]
          exact .inl rfl
        · rw [Nat.min_eq_right hlast]
          exact .inr (by omega)
      · have htake : (AddressSpace.read (s id) ⟨offset + totalRead, min workBufferSize (size - totalRead)⟩).take
            (min (min workBufferSize (size - totalRead)) (hashSize - totalRead)) =
            AddressSpace.read (s id) ⟨offset + totalRead,
              min (min workBufferSize (size - totalRead)) (hashSize - totalRead)⟩ :=
          (read_part (s id) (k := 0) (by omega)).symm
        rw [htake, hhashed, Nat.min_eq_left (Nat.le_of_lt hlt), ← read_add]
        congr 2
        omega
    · next hge =>
      rw [hhashed, Nat.min_eq_right (by omega)]
      rfl

lemma getHash_result (hoffset : offset % sectorAlignment = 0) (hwork : workBufferSize % sectorAlignment = 0)
    (hpos : 0 < workBufferSize) (hle : hashSize ≤ size) :
    ((getHash sha256 id offset size hashSize workBufferSize).run s).result =
      .ok (sha256 (AddressSpace.read (s id) ⟨offset, hashSize⟩)) := by
  have hloop := @getHashLoop_result s id offset size hashSize workBufferSize hoffset hwork hpos hle hashSize 0 []
    (.inl rfl) (by rw [Nat.zero_min]; rfl) (by omega)
  rw [getHash, if_neg (by omega),
    ((show Proc.ReadOnly Eq _ from readOnly_getHashLoop fun _ _ h _ _ => h ▸ rfl).result_bind hloop).1]
  rfl

end BisAccessor

end Reads

/-! ## What is written -/

/-- A region of a storage. -/
structure Area where
  id : FsBisStorageId
  region : Region
deriving Repr, DecidableEq

/-- An address in an area. -/
def Area.Has (a : Area) (id : FsBisStorageId) (x : Nat) : Prop := id = a.id ∧ a.region.Contains x

/-- Two areas without a common address. -/
def Area.Apart (a b : Area) : Prop := a.id ≠ b.id ∨ a.region.Apart b.region

instance (a b : Area) : Decidable (a.Apart b) := inferInstanceAs (Decidable (_ ∨ _))

/-- What an area holds. -/
def Nand.content (s : Nand) (a : Area) : List UInt8 := read (s a.id) a.region

/-- Nothing has changed outside of some areas. -/
def UnchangedOutside (areas : List Area) (s t : Nand) : Prop :=
  ∀ id x, (∀ a ∈ areas, ¬a.Has id x) → t id x = s id x

section Writes

variable {areas areas' : List Area} {a b : Area} {s t u : Nand} {id : FsBisStorageId} {offset : Nat}
  {src : List UInt8}

lemma unchangedOutside_refl : UnchangedOutside areas s s := fun _ _ _ => rfl

lemma UnchangedOutside.trans (h : UnchangedOutside areas s t) (h' : UnchangedOutside areas t u) :
    UnchangedOutside areas s u :=
  fun id x hx => (h' id x hx).trans (h id x hx)

lemma UnchangedOutside.mono (h : UnchangedOutside areas s t) (hsub : areas ⊆ areas') : UnchangedOutside areas' s t :=
  fun id x hx => h id x fun a ha => hx a (hsub ha)

/-- What is apart from the areas that have changed. -/
lemma UnchangedOutside.apply_eq (h : UnchangedOutside areas s t) (hapart : ∀ a ∈ areas, a.Apart b) {x : Nat}
    (hx : b.region.Contains x) : t b.id x = s b.id x := by
  refine h b.id x fun a ha hhas => ?_
  rcases hapart a ha with hid | hregion
  · exact hid hhas.1.symm
  · exact hregion.not_contains hhas.2 hx

lemma UnchangedOutside.content_eq (h : UnchangedOutside areas s t) (hapart : ∀ a ∈ areas, a.Apart b) :
    t.content b = s.content b :=
  read_congr fun _ hx => h.apply_eq hapart hx

lemma Nand.write_nil : s.write id offset [] = s := by
  rw [Nand.write, AddressSpace.write_nil, Function.update_eq_self]

lemma Nand.write_append (later : List UInt8) :
    (s.write id offset src).write id (offset + src.length) later = s.write id offset (src ++ later) := by
  rw [Nand.write, Nand.write, Nand.write, Function.update_self, Function.update_idem, AddressSpace.write_append]

lemma Nand.write_apply_self : s.write id offset src id = AddressSpace.write (s id) offset src :=
  Function.update_self ..

/-- A write to a part of an area. -/
lemma Nand.write_unchanged (hstart : a.region.start ≤ offset) (hstop : offset + src.length ≤ a.region.stop) :
    UnchangedOutside [a] s (s.write a.id offset src) := by
  intro id x hx
  have hno := hx a (.head _)
  rcases eq_or_ne id a.id with rfl | hid
  · rw [Nand.write_apply_self]
    refine write_outside fun hin => hno ⟨rfl, Nat.le_trans hstart hin.1, Nat.lt_of_lt_of_le hin.2 hstop⟩
  · rw [Nand.write, Function.update_of_ne hid]

/-- The steps of a write that store one byte each. -/
def ByteStep (id : FsBisStorageId) (offset : Nat) (src : List UInt8) (s t u : Nand) : Prop :=
  ∃ n < src.length, t = s.write id offset (src.take n) ∧ u = s.write id offset (src.take (n + 1))

/-- The steps of a write: the request for it, and those that store its bytes. -/
def WriteStep (id : FsBisStorageId) (offset : Nat) (src : List UInt8) (s t u : Nand) : Prop :=
  (t = s ∧ u = s) ∨ ByteStep id offset src s t u

/-- How far a write has got. -/
def Written (id : FsBisStorageId) (offset : Nat) (src : List UInt8) (s t : Nand) : Prop :=
  ∃ n ≤ src.length, t = s.write id offset (src.take n)

lemma storeBytes_guards :
    (storeBytes id offset src).Guards s (ByteStep id offset src s) fun r t =>
      Written id offset src s t ∧ (r = .ok () → t = s.write id offset src) := by
  induction src generalizing s offset with
  | nil => exact Proc.guards_pure ⟨⟨0, Nat.le_refl _, Nand.write_nil.symm⟩, fun _ => Nand.write_nil.symm⟩
  | cons byte later ih =>
    have hshift (src : List UInt8) :
        (s.write id offset [byte]).write id (offset + 1) src = s.write id offset (byte :: src) :=
      Nand.write_append src
    refine Proc.guards_bind (Proc.guards_atomic ?_ ⟨fun _ _ => ?_, nofun⟩ fun e => ⟨nofun, fun e _ => ?_⟩)
    · exact ⟨0, Nat.zero_lt_succ _, Nand.write_nil.symm, rfl⟩
    · refine ih.mono ?_ ?_
      · rintro t u ⟨n, hn, rfl, rfl⟩
        exact ⟨n + 1, Nat.succ_lt_succ hn, hshift _, hshift _⟩
      · rintro r t ⟨⟨n, hn, rfl⟩, hok⟩
        exact ⟨⟨n + 1, Nat.succ_le_succ hn, hshift _⟩, fun hr => (hok hr).trans (hshift _)⟩
    · exact ⟨⟨0, Nat.zero_le _, Nand.write_nil.symm⟩, nofun⟩

lemma fsStorageWrite_guards :
    (fsStorageWrite id offset src).Guards s (WriteStep id offset src s) fun r t =>
      Written id offset src s t ∧ (r = .ok () → t = s.write id offset src) := by
  refine Proc.guards_bind (Proc.guards_atomic (.inl ⟨rfl, rfl⟩) ⟨fun _ _ => ?_, nofun⟩ fun e => ⟨nofun, fun e _ => ?_⟩)
  · exact storeBytes_guards.mono (fun _ _ h => .inr h) fun _ _ h => h
  · exact ⟨⟨0, Nat.zero_le _, Nand.write_nil.symm⟩, nofun⟩

lemma Written.unchanged (h : Written a.id offset src s t) (hstart : a.region.start ≤ offset)
    (hstop : offset + src.length ≤ a.region.stop) : UnchangedOutside [a] s t := by
  obtain ⟨n, hn, rfl⟩ := h
  exact Nand.write_unchanged hstart (by rw [List.length_take]; omega)

namespace BisAccessor

lemma write_guards :
    (write id offset src).Guards s (WriteStep id offset src s) fun r t =>
      Written id offset src s t ∧ (r = .ok () → t = s.write id offset src) := by
  rw [write]
  split
  · exact Proc.guards_fail ⟨⟨0, Nat.zero_le _, Nand.write_nil.symm⟩, nofun⟩
  · exact fsStorageWrite_guards

/-- A write to a part of an area changes nothing else. -/
lemma write_guards_inside (hstart : a.region.start ≤ offset) (hstop : offset + src.length ≤ a.region.stop) :
    (write a.id offset src).Guards s (fun _ t => UnchangedOutside [a] s t) fun r t =>
      UnchangedOutside [a] s t ∧ (r = .ok () → t = s.write a.id offset src) := by
  refine write_guards.mono ?_ ?_
  · rintro t u (⟨-, rfl⟩ | ⟨n, hn, -, rfl⟩)
    · exact unchangedOutside_refl
    · exact Written.unchanged ⟨n + 1, hn, rfl⟩ hstart hstop
  · rintro r t ⟨hwritten, hok⟩
    exact ⟨hwritten.unchanged hstart hstop, hok⟩

/-- Clearing changes nothing but what is cleared. -/
lemma clearLoop_guards {size workBufferSize fuel written : Nat} (hsame : UnchangedOutside [⟨id, ⟨offset, size⟩⟩] s t) :
    (clearLoop id offset size workBufferSize fuel written).Guards t
      (fun _ u => UnchangedOutside [⟨id, ⟨offset, size⟩⟩] s u)
      fun _ u => UnchangedOutside [⟨id, ⟨offset, size⟩⟩] s u := by
  induction fuel generalizing written t with
  | zero =>
    rw [clearLoop]
    split
    · exact Proc.guards_fail hsame
    · exact Proc.guards_pure hsame
  | succ fuel ih =>
    rw [clearLoop]
    split
    · next hlt =>
      refine Proc.guards_bind ((@write_guards_inside ⟨id, ⟨offset, size⟩⟩ t _ _ ?_ ?_).mono ?_ ?_)
      · exact Nat.le_add_right _ _
      · rw [List.length_replicate]
        show _ ≤ offset + size
        omega
      · exact fun _ _ h => hsame.trans h
      · rintro r u ⟨hu, -⟩
        exact ⟨fun _ _ => ih (hsame.trans hu), fun _ _ => hsame.trans hu⟩
    · exact Proc.guards_pure hsame

lemma clear_guards {size workBufferSize : Nat} :
    (clear id offset size workBufferSize).Guards s (fun _ t => UnchangedOutside [⟨id, ⟨offset, size⟩⟩] s t)
      fun _ t => UnchangedOutside [⟨id, ⟨offset, size⟩⟩] s t := by
  rw [clear]
  split
  · exact Proc.guards_fail unchangedOutside_refl
  · exact clearLoop_guards unchangedOutside_refl

/-- Behind what has been written, a chunk and its padding. -/
lemma read_write_chunk {written : Nat} {front data zeros : List UInt8}
    (hfront : AddressSpace.read (s id) ⟨offset, written⟩ = front) :
    AddressSpace.read (s.write id (offset + written) (data ++ zeros) id) ⟨offset, written + data.length⟩ =
      front ++ data := by
  have hbehind := read_write (s id) (offset + written) (data ++ zeros)
  have hapart : (Region.mk offset written).Apart ⟨offset + written, (data ++ zeros).length⟩ := .inl (Nat.le_refl _)
  have hpart := read_part (AddressSpace.write (s id) (offset + written) (data ++ zeros)) (a := offset + written)
    (k := 0) (n := data.length) (m := (data ++ zeros).length) (by rw [List.length_append]; omega)
  rw [hbehind, List.drop_zero, List.take_left' rfl] at hpart
  rw [Nand.write_apply_self, read_add, read_write_apart hapart, hfront]
  exact congrArg (front ++ ·) hpart

/-- Writing a file changes nothing but its area, and leaves the file there if it succeeds. -/
lemma writeFileLoop_guards {size workBufferSize fuel written : Nat} {file : List UInt8}
    (hsize : size % sectorAlignment = 0) (hwork : workBufferSize % sectorAlignment = 0)
    (haligned : written % sectorAlignment = 0) (hle : written ≤ file.length)
    (hsame : UnchangedOutside [⟨id, ⟨offset, size⟩⟩] s t)
    (hfront : AddressSpace.read (t id) ⟨offset, written⟩ = file.take written) :
    (writeFileLoop id offset size file workBufferSize fuel written).Guards t
      (fun _ u => UnchangedOutside [⟨id, ⟨offset, size⟩⟩] s u)
      fun r u => UnchangedOutside [⟨id, ⟨offset, size⟩⟩] s u ∧
        (r = .ok () → file.length ≤ size ∧ AddressSpace.read (u id) ⟨offset, file.length⟩ = file) := by
  induction fuel generalizing written t with
  | zero => exact Proc.guards_fail ⟨hsame, by rintro ⟨⟩⟩
  | succ fuel ih =>
    refine (show Proc.ReadOnly Eq _ from @readOnly_fread _ file workBufferSize written).bind_guards hsame
      (fun _ => ⟨hsame, by rintro ⟨⟩⟩) fun data hdata => ?_
    have hslice : slice file written workBufferSize = data := Except.ok.inj hdata
    have hlength : data.length = min workBufferSize (file.length - written) := by
      rw [← hslice, slice, List.length_take, List.length_drop]
    split
    · exact Proc.guards_fail ⟨hsame, by rintro ⟨⟩⟩
    · next hfits =>
      unfold sectorAlignment at hsize hwork haligned ⊢
      have hchunk : (data ++ List.replicate ((data.length + 0x200 - 1) / 0x200 * 0x200 - data.length) 0).length =
          (data.length + 0x200 - 1) / 0x200 * 0x200 := by
        rw [List.length_append, List.length_replicate]
        omega
      refine Proc.guards_bind ((@write_guards_inside ⟨id, ⟨offset, size⟩⟩ t _ _ ?_ ?_).mono ?_ ?_)
      · exact Nat.le_add_right _ _
      · rw [hchunk]
        show _ ≤ offset + size
        omega
      · exact fun _ _ h => hsame.trans h
      · rintro r' v ⟨hv, hok⟩
        refine ⟨fun _ hr' => ?_, fun _ _ => ⟨hsame.trans hv, by rintro ⟨⟩⟩⟩
        have hfront' : AddressSpace.read (v id) ⟨offset, written + data.length⟩ =
            file.take (written + data.length) := by
          rw [hok hr', read_write_chunk hfront, ← hslice, slice, ← List.take_add, List.length_take,
            List.length_drop, List.take_eq_take_min]
          congr 1
          omega
        split
        · next hshort =>
          have hall : written + data.length = file.length := by omega
          rw [hall, List.take_length] at hfront'
          exact Proc.guards_pure ⟨hsame.trans hv, fun _ => ⟨by omega, hfront'⟩⟩
        · next hfull =>
          have hwhole := not_not.mp hfull
          have haligned' : (written + data.length) % sectorAlignment = 0 := by
            unfold sectorAlignment
            omega
          exact ih haligned' (by omega) (hsame.trans hv) hfront'

lemma writeFile_guards {size workBufferSize : Nat} {bip : BootImagePackage} {path : String}
    (hsize : size % sectorAlignment = 0) :
    (writeFile id offset size bip path workBufferSize).Guards s (fun _ t => UnchangedOutside [⟨id, ⟨offset, size⟩⟩] s t)
      fun r t => UnchangedOutside [⟨id, ⟨offset, size⟩⟩] s t ∧
        (r = .ok () → ∃ file, bip path = some file ∧ file.length ≤ size ∧
          AddressSpace.read (t id) ⟨offset, file.length⟩ = file) := by
  rw [writeFile]
  split
  · exact Proc.guards_fail ⟨unchangedOutside_refl, nofun⟩
  · next haligned =>
    refine (show Proc.ReadOnly Eq _ from @readOnly_fopen _ bip path).bind_guards unchangedOutside_refl
      (fun _ => ⟨unchangedOutside_refl, nofun⟩) fun file hfile => ?_
    have hbip : bip path = some file := by
      have hresult := hfile
      cases hpath : bip path with
      | none =>
        rw [fopen, hpath] at hresult
        cases hresult
      | some file' =>
        rw [fopen, hpath] at hresult
        rw [Except.ok.inj hresult]
    refine (writeFileLoop_guards hsize (by omega) (Nat.zero_mod _) (Nat.zero_le _) unchangedOutside_refl rfl).mono
      (fun _ _ h => h) ?_
    rintro r' u ⟨hu, hok⟩
    exact ⟨hu, fun hr' => ⟨file, hbip, hok hr'⟩⟩

end BisAccessor

end Writes

end RajNX.Updater
