import RajNX.Updater.BisManagement

/-!
# Verifying and updating boot images

`updater_api.cpp` with the accessors of the partitions and `updater_paths.cpp`. The functions for normal mode and for
safe mode differ in the partitions only. A boot image package is mounted for as long as they need it. The work buffer is
not kept: what one of its parts is used for is read into it before.
-/

namespace RajNX.Updater

open Interruptible LittleEndian Regions Splice

/-! ## The partitions -/

/-- `Boot0Partition` -/
inductive Boot0Partition
  | bctNormalMain
  | bctSafeMain
  | bctNormalSub
  | bctSafeSub
  | bctSave
  | package1NormalMain
  | package1NormalSub
  | eks
deriving Repr, DecidableEq

/-- `Boot1Partition` -/
inductive Boot1Partition
  | package1SafeMain
  | package1SafeSub
  | package1RepairMain
  | package1RepairSub
deriving Repr, DecidableEq

/-- `Package2Partition` -/
inductive Package2Partition
  | bootConfig
  | package2
deriving Repr, DecidableEq

/-- `Package2Type` -/
inductive Package2Type
  | normalMain
  | normalSub
  | safeMain
  | safeSub
  | repairMain
  | repairSub
deriving Repr, DecidableEq

/-- `Boot0Meta` -/
def boot0Meta : Boot0Partition → Region
  | .bctNormalMain => ⟨0 * bctSize, bctSize⟩
  | .bctSafeMain => ⟨1 * bctSize, bctSize⟩
  | .bctNormalSub => ⟨2 * bctSize, bctSize⟩
  | .bctSafeSub => ⟨3 * bctSize, bctSize⟩
  | .bctSave => ⟨63 * bctSize, bctSize⟩
  | .package1NormalMain => ⟨0x100000, 0x40000⟩
  | .package1NormalSub => ⟨0x140000, 0x40000⟩
  | .eks => ⟨0x180000, eksSize⟩

/-- `Boot1Meta` -/
def boot1Meta : Boot1Partition → Region
  | .package1SafeMain => ⟨0x00000, 0x40000⟩
  | .package1SafeSub => ⟨0x40000, 0x40000⟩
  | .package1RepairMain => ⟨0x80000, 0x40000⟩
  | .package1RepairSub => ⟨0xC0000, 0x40000⟩

/-- `Package2Meta` -/
def package2Meta : Package2Partition → Region
  | .bootConfig => ⟨0x0000, 0x004000⟩
  | .package2 => ⟨0x4000, 0x7FC000⟩

/-- `GetPackage2StorageId` -/
def getPackage2StorageId : Package2Type → FsBisStorageId
  | .normalMain => .bootConfigAndPackage2NormalMain
  | .normalSub => .bootConfigAndPackage2NormalSub
  | .safeMain => .bootConfigAndPackage2SafeMain
  | .safeSub => .bootConfigAndPackage2SafeSub
  | .repairMain => .bootConfigAndPackage2RepairMain
  | .repairSub => .bootConfigAndPackage2RepairSub

/-- Where a partition of `Boot0Accessor` is. -/
def Boot0Partition.area (which : Boot0Partition) : Area := ⟨.boot0, boot0Meta which⟩

/-- Where a partition of `Boot1Accessor` is. -/
def Boot1Partition.area (which : Boot1Partition) : Area := ⟨.boot1, boot1Meta which⟩

/-- Where a partition of `Package2Accessor` is. -/
def Package2Type.area (which : Package2Type) (partition : Package2Partition) : Area :=
  ⟨getPackage2StorageId which, package2Meta partition⟩

namespace PartitionAccessor

/-- `PartitionAccessor::Read` -/
def read (a : Area) (size : Nat) : BisProc (List UInt8) :=
  if size < a.region.size then .fail .abort else BisAccessor.read a.id a.region.size a.region.start

/-- `PartitionAccessor::Write` of a buffer. -/
def write (a : Area) (src : List UInt8) : BisProc Unit :=
  if a.region.size < src.length ∨ src.length % BisAccessor.sectorAlignment ≠ 0 then .fail .abort
  else BisAccessor.write a.id a.region.start src

/-- `PartitionAccessor::Write` of a file. -/
def writeFile (a : Area) (bip : BootImagePackage) (path : String) (workBufferSize : Nat) : BisProc Unit :=
  BisAccessor.writeFile a.id a.region.start a.region.size bip path workBufferSize

/-- `PartitionAccessor::Clear` -/
def clear (a : Area) (workBufferSize : Nat) : BisProc Unit :=
  BisAccessor.clear a.id a.region.start a.region.size workBufferSize

/-- `PartitionAccessor::GetHash` -/
def getHash (sha256 : List UInt8 → List UInt8) (a : Area) (hashSize workBufferSize : Nat) :
    BisProc (List UInt8) :=
  BisAccessor.getHash sha256 a.id a.region.start a.region.size hashSize workBufferSize

end PartitionAccessor

namespace Boot0Accessor

/-- `BctPubkOffset` -/
def bctPubkOffset : Nat := 0x210

/-- `BctPubkSize` -/
def bctPubkSize : Nat := 0x100

/-- `BctEksOffset` -/
def bctEksOffset : Nat := 0x450

/-- `BctVersionOffset` -/
def bctVersionOffset : Nat := 0x2330

/-- `BctVersionMax` -/
def bctVersionMax : Nat := 0x20

/-- The version that is in a BCT. -/
def bctVersion (bct : List UInt8) : Nat := leValue (slice bct bctVersionOffset 4)

/-- `GetEksIndex` -/
def getEksIndex (bootloaderVersion : Nat) : Nat := if 0 < bootloaderVersion then bootloaderVersion - 1 else 0

/-- `CopyEks` -/
def copyEks (dstBct srcEks : List UInt8) (eksIndex : Nat) : List UInt8 :=
  splice dstBct bctEksOffset (slice srcEks (eksIndex * eksEntrySize) eksBlobSize)

/-- `UpdateEksManually`, with the check of `GetBootloaderVersion`. -/
def updateEksManually (dstBct srcEks : List UInt8) : BisProc (List UInt8) :=
  if bctVersionMax < bctVersion dstBct then .fail .abort
  else pure (copyEks dstBct srcEks (getEksIndex (bctVersion dstBct)))

/-- `UpdateEks` -/
def updateEks (dstBct : List UInt8) : BisProc (List UInt8) := do
  let eks ← PartitionAccessor.read Boot0Partition.eks.area eksSize
  updateEksManually dstBct eks

/-- The copy that `PreserveAutoRcm` makes. -/
def copyPubk (dstBct srcBct : List UInt8) : List UInt8 :=
  splice dstBct bctPubkOffset (slice srcBct bctPubkOffset bctPubkSize)

/-- `PreserveAutoRcm` -/
def preserveAutoRcm (dstBct : List UInt8) (which : Boot0Partition) : BisProc (List UInt8) := do
  let srcBct ← PartitionAccessor.read which.area bctSize
  pure (copyPubk dstBct srcBct)

end Boot0Accessor

/-! ## Paths -/

/-- `BootImageUpdateType` -/
inductive BootImageUpdateType
  | erista
  | mariko
deriving Repr, DecidableEq

/-- `BootModeType` -/
inductive BootModeType
  | normal
  | safe
deriving Repr, DecidableEq

/-- `ChooseCandidatePath`, of the first candidate and those behind it. -/
def chooseCandidatePath (bip : BootImagePackage) : String → List String → String
  | candidate, [] => candidate
  | candidate, next :: later => if (bip candidate).isSome then candidate else chooseCandidatePath bip next later

/-- `GetBctPath` -/
def getBctPath (bip : BootImagePackage) : BootImageUpdateType → String
  | .erista => chooseCandidatePath bip "bip:/nx/bct" []
  | .mariko => chooseCandidatePath bip "bip:/a/bct" ["bip:/nx/bct"]

/-- `GetPackage1Path` -/
def getPackage1Path (bip : BootImagePackage) : BootImageUpdateType → String
  | .erista => chooseCandidatePath bip "bip:/nx/package1" []
  | .mariko => chooseCandidatePath bip "bip:/a/package1" ["bip:/nx/package1"]

/-- `GetPackage2Path` -/
def getPackage2Path (bip : BootImagePackage) : BootImageUpdateType → String
  | .erista => chooseCandidatePath bip "bip:/nx/package2" []
  | .mariko => chooseCandidatePath bip "bip:/a/package2" ["bip:/nx/package2"]

/-- `HasEks` -/
def hasEks : BootImageUpdateType → Bool
  | .erista => true
  | .mariko => false

/-- `HasAutoRcmPreserve` -/
def hasAutoRcmPreserve : BootImageUpdateType → Bool
  | .erista => true
  | .mariko => false

/-! ## Verification and update -/

/-- `NcmMetaRecord`, with whether its attributes have `NcmContentMetaAttribute_Exfat`. -/
structure NcmMetaRecord where
  titleId : Nat
  isExfat : Bool

/-- The machine that the functions run on, and the arguments that they pass on. -/
structure Console where
  sha256 : List UInt8 → List UInt8
  contentMetas : BootModeType → List NcmMetaRecord
  archives : Nat → Option BootImagePackage
  isRcmBugPatched : Bool
  workBuffer : Nat
  workBufferSize : Nat
  bootImageUpdateType : BootImageUpdateType

/-- The partitions with the images of a boot mode, and the storages that are opened for them first. -/
structure BootImages where
  storages : List FsBisStorageId
  bctMain : Boot0Partition
  bctSub : Boot0Partition
  package1Main : Area
  package1Sub : Area
  package2Main : Package2Type
  package2Sub : Package2Type

/-- The partitions of `VerifyBootImagesNormal` and `UpdateBootImagesNormal`. -/
def normalImages : BootImages where
  storages := [.boot0]
  bctMain := .bctNormalMain
  bctSub := .bctNormalSub
  package1Main := Boot0Partition.package1NormalMain.area
  package1Sub := Boot0Partition.package1NormalSub.area
  package2Main := .normalMain
  package2Sub := .normalSub

/-- The partitions of `VerifyBootImagesSafe` and `UpdateBootImagesSafe`. -/
def safeImages : BootImages where
  storages := [.boot0, .boot1]
  bctMain := .bctSafeMain
  bctSub := .bctSafeSub
  package1Main := Boot1Partition.package1SafeMain.area
  package1Sub := Boot1Partition.package1SafeSub.area
  package2Main := .safeMain
  package2Sub := .safeSub

/-- Open storages one after the other. -/
def openStorages : List FsBisStorageId → BisProc Unit
  | [] => pure ()
  | id :: later => do
    fsOpenBisStorage id
    openStorages later

/-- The comparison of two hashes. -/
def compareHashes (fileHash nandHash : List UInt8) : BisProc Unit :=
  if fileHash ≠ nandHash then .fail .needsRepairBootImages else pure ()

section Api

variable (c : Console)

/-- `ValidateWorkBuffer` -/
def validateWorkBuffer : BisProc Unit :=
  if c.workBufferSize < bctSize + eksSize then .fail .tooSmallWorkBuffer
  else if c.workBuffer % 0x1000 ≠ 0 then .fail .misalignedWorkBuffer
  else if c.workBufferSize % 0x200 ≠ 0 then .fail .misalignedWorkBuffer
  else pure ()

/-- `romfsMountFromDataArchive` -/
def romfsMountFromDataArchive (dataId : Nat) : BisProc BootImagePackage :=
  .atomic fun s => ((c.archives dataId).elim (.error .fsTargetNotFound) .ok, s)

/-- Mount the boot image package, and unmount it at the end. -/
def withPackage (dataId : Nat) (body : BootImagePackage → BisProc Unit) : BisProc Unit := do
  let bip ← (romfsMountFromDataArchive c dataId).mapError fun e =>
    if e = .fsTargetNotFound then .bootImagePackageNotFound else e
  (body bip).followedBy (request.mapError fun _ => .abort)

/-- `UpdateEks`, if the hardware has EKS. -/
def insertEks (bct : List UInt8) : BisProc (List UInt8) :=
  if hasEks c.bootImageUpdateType then Boot0Accessor.updateEks bct else pure bct

/-- `PreserveAutoRcm`, if the hardware has it. -/
def insertPubk (bct : List UInt8) (which : Boot0Partition) : BisProc (List UInt8) :=
  if hasAutoRcmPreserve c.bootImageUpdateType then Boot0Accessor.preserveAutoRcm bct which else pure bct

/-- `ValidateBctFileHash` -/
def validateBctFileHash (bip : BootImagePackage) (which : Boot0Partition) (storedHash : List UInt8) :
    BisProc Unit := do
  validateWorkBuffer c
  let bct ← readFile bip bctSize (getBctPath bip c.bootImageUpdateType)
  let bct ← insertEks c bct
  let bct ← insertPubk c bct which
  compareHashes (c.sha256 bct) storedHash

/-- `GetPackage2Hash` -/
def getPackage2Hash (which : Package2Type) (package2Size : Nat) : BisProc (List UInt8) := do
  fsOpenBisStorage (getPackage2StorageId which)
  PartitionAccessor.getHash c.sha256 (which.area .package2) package2Size c.workBufferSize

/-- `WritePackage2` -/
def writePackage2 (bip : BootImagePackage) (which : Package2Type) : BisProc Unit := do
  fsOpenBisStorage (getPackage2StorageId which)
  PartitionAccessor.writeFile (which.area .package2) bip (getPackage2Path bip c.bootImageUpdateType) c.workBufferSize

/-- The comparison of a BCT. -/
def verifyBct (bip : BootImagePackage) (which : Boot0Partition) : BisProc Unit := do
  let nandHash ← PartitionAccessor.getHash c.sha256 which.area bctSize c.workBufferSize
  validateBctFileHash c bip which nandHash

/-- The comparison of the copies of package1. -/
def verifyPackage1 (bip : BootImagePackage) (main sub : Area) : BisProc Unit := do
  let (size, fileHash) ← getFileHash c.sha256 bip (getPackage1Path bip c.bootImageUpdateType) c.workBufferSize
  let nandHash ← PartitionAccessor.getHash c.sha256 main size c.workBufferSize
  compareHashes fileHash nandHash
  let nandHash ← PartitionAccessor.getHash c.sha256 sub size c.workBufferSize
  compareHashes fileHash nandHash

/-- The comparison of the copies of package2. -/
def verifyPackage2 (bip : BootImagePackage) (main sub : Package2Type) : BisProc Unit := do
  let (size, fileHash) ← getFileHash c.sha256 bip (getPackage2Path bip c.bootImageUpdateType) c.workBufferSize
  let nandHash ← getPackage2Hash c main size
  compareHashes fileHash nandHash
  let nandHash ← getPackage2Hash c sub size
  compareHashes fileHash nandHash

/-- The verification of the images in some partitions. -/
def verifyImages (images : BootImages) (dataId : Nat) : BisProc Unit := do
  validateWorkBuffer c
  withPackage c dataId fun bip => do
    openStorages images.storages
    verifyBct c bip images.bctMain
    verifyBct c bip images.bctSub
    verifyPackage1 c bip images.package1Main images.package1Sub
    verifyPackage2 c bip images.package2Main images.package2Sub

/-- `VerifyBootImagesNormal` -/
def verifyBootImagesNormal (dataId : Nat) : BisProc Unit := verifyImages c normalImages dataId

/-- `VerifyBootImagesSafe` -/
def verifyBootImagesSafe (dataId : Nat) : BisProc Unit := verifyImages c safeImages dataId

/-- `VerifyBootImages` -/
def verifyBootImages (dataId : Nat) : BootModeType → BisProc Unit
  | .normal => verifyBootImagesNormal c dataId
  | .safe => verifyBootImagesSafe c dataId

/-- Clear a copy of package1 and write it. -/
def writePackage1 (bip : BootImagePackage) (a : Area) : BisProc Unit := do
  PartitionAccessor.clear a c.workBufferSize
  PartitionAccessor.writeFile a bip (getPackage1Path bip c.bootImageUpdateType) c.workBufferSize

/-- Write the BCTs, the sub one first. -/
def writeBcts (bip : BootImagePackage) (sub main : Boot0Partition) : BisProc Unit := do
  let bct ← readFile bip bctSize (getBctPath bip c.bootImageUpdateType)
  let bct ← insertEks c bct
  if hasAutoRcmPreserve c.bootImageUpdateType && !c.isRcmBugPatched then do
    let bct ← Boot0Accessor.preserveAutoRcm bct sub
    PartitionAccessor.write sub.area bct
    let bct ← Boot0Accessor.preserveAutoRcm bct main
    PartitionAccessor.write main.area bct
  else do
    PartitionAccessor.write sub.area bct
    PartitionAccessor.write main.area bct

/-- The update of the images in some partitions. -/
def updateImages (images : BootImages) (dataId : Nat) : BisProc Unit := do
  validateWorkBuffer c
  withPackage c dataId fun bip => do
    openStorages images.storages
    writePackage1 c bip images.package1Sub
    writePackage2 c bip images.package2Sub
    writeBcts c bip images.bctSub images.bctMain
    writePackage2 c bip images.package2Main
    writePackage1 c bip images.package1Main

/-- `UpdateBootImagesNormal` -/
def updateBootImagesNormal (dataId : Nat) : BisProc Unit := updateImages c normalImages dataId

/-- `UpdateBootImagesSafe` -/
def updateBootImagesSafe (dataId : Nat) : BisProc Unit := updateImages c safeImages dataId

/-- `UpdateBootImages` -/
def updateBootImages (dataId : Nat) : BootModeType → BisProc Unit
  | .normal => updateBootImagesNormal c dataId
  | .safe => updateBootImagesSafe c dataId

end Api

end RajNX.Updater
