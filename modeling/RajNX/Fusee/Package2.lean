import RajNX.Fusee.KernelPatches
import RajNX.Fusee.MergeInis

/-!
# Rebuilding package2

`package2_rebuild_and_copy` of fusee's `package2.c`, with the functions that it calls in that file. The package is
checked and decrypted, then put together again with a kernel that may come from the SD card and the merged INI1. What
the security engine, the kernel patches and the merge of the INI1s do is given; the merged INI1 is not larger than a
package, and patches leave the kernel its size. `kernelPatcher` and `iniMerger` are those of fusee.

`rebuiltAccepted_iff` says for which packages, kernels and INI1s `validate_package2_metadata` of exosphere accepts what
is left for it.
-/

namespace RajNX.Fusee.Package2

open AddressSpace Exosphere KernelPatches LittleEndian Regions Splice WriteTrace

attribute [local instance] neZero_sections

/-- `align_to_4`, of sizes of 32 bits. -/
def alignTo4 (s : Nat) : Nat := (s + 3) % 2 ^ 32 / 4 * 4

/-- `package2_header_t` with its data, and what its metadata is when it is decrypted for a master key revision. -/
structure Package2Header where
  signature : List UInt8
  metadata : Package2Meta
  decrypted : Nat → Package2Meta
  data : List UInt8

/-- What `stratosphere_merge_inis` makes of the other INI1s and the original one. -/
structure IniMerger where
  merge : List UInt8 → Option (List UInt8)
  length_le {ini merged : List UInt8} : merge ini = some merged → merged.length ≤ package2SizeMax

/-- `package2_patch_kernel`: the patched kernel, and where the INI1 is in it. -/
structure KernelPatcher where
  patch : List UInt8 → Bool → Option (List UInt8 × Option Nat)
  length_eq {kernel patched : List UInt8} {isSdKernel : Bool} {ini : Option Nat} :
    patch kernel isSdKernel = some (patched, ini) → patched.length = kernel.length

/-- An INI1 in memory. -/
def ini1Of (data : List UInt8) : Ini1 :=
  ⟨leValue (slice data 0 4), leValue (slice data 4 4), leValue (slice data 8 4), data.drop ini1HeaderSize⟩

/-- The bytes of an INI1. -/
def ini1Bytes (ini : Ini1) : List UInt8 :=
  (leBytes 4 ini.magic ++ leBytes 4 ini.size ++ leBytes 4 ini.numProcesses ++ leBytes 4 0 ++ ini.kipData).take ini.size

/-- `package2_rebuild_ini1`, with the INI1s of the SD card and of fusee. -/
def iniMerger (files : BootFiles) (emummc : Option (List UInt8)) (others : List Ini1) : IniMerger where
  merge orig := (stratosphereMergeInis files emummc (List.replicate (package2SizeMax - ini1HeaderSize) 0)
    (others ++ [ini1Of orig])).toOption.map ini1Bytes
  length_le {orig merged} h := by
    obtain ⟨ini, hini, rfl⟩ := Option.map_eq_some_iff.mp h
    cases hmerge : stratosphereMergeInis files emummc (List.replicate (package2SizeMax - ini1HeaderSize) 0)
      (others ++ [ini1Of orig]) with
    | error e =>
      rw [hmerge] at hini
      cases hini
    | ok ini' =>
      rw [hmerge] at hini
      cases hini
      exact (List.length_take_le _ _).trans (size_stratosphereMergeInis hmerge)

/-- A kernel of the table, with the offsets of its INI1 and of the pointer to it. -/
structure KnownKernel where
  info : KernelInfo
  embeddedIniOffset : Nat
  embeddedIniPtr : Nat

/-- The pointer to an INI1 in a kernel. -/
def KnownKernel.iniStores (known : KnownKernel) (size : Nat) : List Write :=
  if known.embeddedIniOffset ≠ 0 then [.copy known.embeddedIniPtr (leBytes 8 size)] else []

/-- `package2_patch_kernel`, without IPS patches. -/
def kernelPatcher (getKernelInfo : List UInt8 → Option KnownKernel) : KernelPatcher where
  patch kernel isSdKernel :=
    match getKernelInfo kernel with
    | none => if isSdKernel then some (kernel, none) else none
    | some known => do
      let placed ← storeAll kernel (known.iniStores kernel.length)
      let patched ← known.info.package2PatchKernel placed
      return (patched, if known.embeddedIniOffset ≠ 0 then some known.embeddedIniOffset else none)
  length_eq {kernel patched isSdKernel ini} h := by
    cases hknown : getKernelInfo kernel with
    | none =>
      rw [hknown] at h
      cases isSdKernel with
      | false => cases h
      | true =>
        cases h
        rfl
    | some known =>
      rw [hknown] at h
      obtain ⟨placed, hplaced, h⟩ := Option.bind_eq_some_iff.mp h
      obtain ⟨patched', hpatched, h⟩ := Option.bind_eq_some_iff.mp h
      cases h
      exact (length_package2PatchKernel hpatched).trans (length_storeAll hplaced)

/-- `ATMOSPHERE_TARGET_FIRMWARE_800` -/
def targetFirmware800 : Nat := 9

section Decrypt

variable (sha256 : List UInt8 → List UInt8) (crypt : Nat → List UInt8 → List UInt8 → List UInt8)

/-- The loop over the sections, with the flag `entrypoint_found` and the offset `cur_section_offset`. -/
def validateSections (metadata : Package2Meta) (data : List UInt8) : List (Fin 4) → Bool → Nat → Option Bool
  | [], entrypointFound, _ => some entrypointFound
  | i :: later, entrypointFound, curSectionOffset =>
    let size := metadata.sectionSizes i
    if size &&& 3 ≠ 0 then none
    else if check32bitAdditiveOverflow (metadata.sectionOffsets i) size then none
    else
      let found := entrypointFound ||
        (metadata.sectionOffsets i ≤ metadata.entrypoint && metadata.entrypoint < metadata.sectionEnd i)
      if size ≠ 0 ∧ metadata.overlapsLater i later then none
      else if size = 0 then validateSections metadata data later found curSectionOffset
      else if sha256 (slice data curSectionOffset size.toNat) ≠ metadata.sectionHashes i then none
      else validateSections metadata data later found (curSectionOffset + size.toNat)

/-- `package2_validate_metadata` -/
def package2ValidateMetadata (metadata : Package2Meta) (data : List UInt8) : Bool :=
  let packageSize := metadata.getPackage2Size
  if metadata.magic ≠ 0x31324B50 then false
  else if packageSize.toNat ≤ package2HeaderSize ∨ package2SizeMax < packageSize.toNat then false
  else if masterkeyRevisionMax < metadata.headerVersion then false
  else if metadata.entrypoint &&& 3 ≠ 0 then false
  else if metadata.sectionSizes 0 + metadata.sectionSizes 1 + metadata.sectionSizes 2 + 0x200 ≠ packageSize then false
  else
    match validateSections sha256 metadata data package2Sections false 0 with
    | none => false
    | some entrypointFound => entrypointFound && (0 ≤ metadata.versionMax && metadata.versionMin < 0xC)

/-- The loop that tries the master keys, from a revision on. -/
def findRevision (p : Package2Header) : Nat → Nat → Option (Nat × Package2Meta)
  | 0, _ => none
  | tries + 1, rev =>
    if package2ValidateMetadata sha256 (p.decrypted rev) p.data then some (rev, p.decrypted rev)
    else findRevision p tries (rev + 1)

/-- `package2_decrypt_and_validate_header`, which may not return. -/
def decryptAndValidateHeader (mkeyRevision : Nat) (p : Package2Header) (isPlaintext : Bool) :
    Option (Nat × Package2Meta) :=
  if !isPlaintext then findRevision sha256 p (mkeyRevision + 1) 0
  else if package2ValidateMetadata sha256 p.metadata p.data then some (0, p.metadata)
  else none

/-- The loop that decrypts the sections in their places. -/
def decryptSections (rev : Nat) (isPlaintext : Bool) (metadata : Package2Meta) :
    List (Fin 4) → Nat → List UInt8 → List UInt8
  | [], _, data => data
  | i :: later, curSectionOffset, data =>
    let size := (metadata.sectionSizes i).toNat
    if size = 0 then decryptSections rev isPlaintext metadata later curSectionOffset data
    else
      let src := slice data curSectionOffset size
      let dst := if isPlaintext then src else crypt rev (metadata.sectionCtrs i) src
      decryptSections rev isPlaintext metadata later (curSectionOffset + size) (splice data curSectionOffset dst)

/-- Whether the signature is one byte that is repeated, and not zero, in front of metadata that is not encrypted. -/
def isPlaintext (p : Package2Header) : Bool :=
  p.signature.headD 0 ≠ 0 && p.signature.dropLast = p.signature.tail && p.metadata.magic = 0x31324B50

/-- `package2_decrypt`: the metadata and the data. -/
def package2Decrypt (mkeyRevision : Nat) (p : Package2Header) : Option (Package2Meta × List UInt8) := do
  let (rev, metadata) ← decryptAndValidateHeader sha256 mkeyRevision p (isPlaintext p)
  return (metadata, decryptSections crypt rev (isPlaintext p) metadata package2Sections 0 p.data)

end Decrypt

/-- Where a section of the data starts, behind the sections in front of it. -/
def sectionStart (metadata : Package2Meta) (i : Fin 4) : Nat :=
  ([0, 1, 2, 3].take i.val).foldl (fun offset j => offset + (metadata.sectionSizes j).toNat) 0

/-- `package2_get_src_section`: the data from a section on, and its size. -/
def package2GetSrcSection (metadata : Package2Meta) (data : List UInt8) (i : Fin 4) : List UInt8 × Nat :=
  (data.drop (sectionStart metadata i), (metadata.sectionSizes i).toNat)

/-- A package that is built: its metadata, the bytes from its start on with those behind the header, and all that has
been written to. -/
structure Building where
  metadata : Package2Meta
  mem : Nat → UInt8
  writes : List Region

/-- `package2_append_section` -/
def package2AppendSection (i : Fin 4) (data : List UInt8) (b : Building) : Building :=
  let dst := package2HeaderSize + sectionStart b.metadata i
  { metadata := { b.metadata with
      sectionSizes := Function.update b.metadata.sectionSizes i (.ofNat (alignTo4 data.length)) }
    mem := write b.mem dst data
    writes := b.writes ++ [⟨dst, data.length⟩] }

/-- The loop of `package2_fixup_header_and_section_hashes`. -/
def fixupHashes (sha256 : List UInt8 → List UInt8) (mem : Nat → UInt8) :
    List (Fin 4) → Nat → Package2Meta → Package2Meta
  | [], _, metadata => metadata
  | i :: later, offset, metadata =>
    let sz := (metadata.sectionSizes i).toNat
    if sz = 0 then fixupHashes sha256 mem later offset metadata
    else
      fixupHashes sha256 mem later (offset + sz) { metadata with
        sectionHashes := Function.update metadata.sectionHashes i
          (sha256 (read mem ⟨package2HeaderSize + offset, sz⟩)) }

/-- `package2_fixup_header_and_section_hashes` -/
def package2FixupHeaderAndSectionHashes (sha256 : List UInt8 → List UInt8) (size : Nat) (b : Building) : Building :=
  let metadata := fixupHashes sha256 b.mem package2Sections 0 b.metadata
  let packageSize := metadata.getPackage2Size
  { b with
    metadata := { metadata with
      ctrDwords := Function.update metadata.ctrDwords 3 (metadata.ctrDwords 3 ^^^ (packageSize ^^^ .ofNat size)) }
    writes := b.writes ++ [⟨0, package2HeaderSize⟩] }

/-- What `package2_rebuild_and_copy` has made: the kernel and the INI1 that it chose, the size that it allocated, the
metadata, all that it has written to in the memory that it allocated, and the memory with the package at its load
address. -/
structure Rebuilt where
  kernel : List UInt8
  ini1 : List UInt8
  size : Nat
  metadata : Package2Meta
  writes : List Region
  dram : Nat → UInt8

/-- The part of `package2_rebuild_and_copy` that puts the package together, in memory `mem`. There is no
Thermosphère. -/
def package2Rebuild (sha256 : List UInt8 → List UInt8) (metadata : Package2Meta) (kernel ini1 : List UInt8)
    (mem dram : Nat → UInt8) : Option Rebuilt :=
  let size := (package2HeaderSize + kernel.length + alignTo4 0 + alignTo4 ini1.length) % 2 ^ 32
  if package2SizeMax < size then none
  else
    let b : Building := ⟨metadata, mem, [⟨0, package2HeaderSize⟩]⟩
    let b := package2AppendSection 0 kernel b
    let b := package2AppendSection 1 ini1 b
    let b := package2AppendSection 2 [] b
    let b := package2FixupHeaderAndSectionHashes sha256 size b
    some ⟨kernel, ini1, size, b.metadata, b.writes, write dram (package2LoadAddress + package2HeaderSize)
        (read b.mem ⟨package2HeaderSize, size - package2HeaderSize⟩)⟩

/-- What the functions that are given do, and the state of the machine. -/
structure Environment where
  sha256 : List UInt8 → List UInt8
  crypt : Nat → List UInt8 → List UInt8 → List UInt8
  mkeyRevision : Nat
  sdKernel : List UInt8
  patcher : KernelPatcher
  merger : IniMerger
  mem : Nat → UInt8
  dram : Nat → UInt8

/-- The kernel: `atmosphere/kernel.bin` if there is such a file, or that of the package. -/
def chooseKernel (env : Environment) (metadata : Package2Meta) (data : List UInt8) : Option (List UInt8 × Bool) :=
  if env.sdKernel.length ≠ 0 then
    if package2SizeMax < env.sdKernel.length then none else some (env.sdKernel, true)
  else
    let (kernel, size) := package2GetSrcSection metadata data 0
    some (kernel.take size, false)

/-- The original INI1 and the metadata, in which the INI1 has its place right behind the kernel from 8.0.0 on. -/
def chooseIni (targetFirmware : Nat) (metadata : Package2Meta) (data kernel : List UInt8) (ini : Option Nat) :
    Option (List UInt8 × Package2Meta) :=
  match ini with
  | none =>
    if targetFirmware < targetFirmware800 then some ((package2GetSrcSection metadata data 1).1, metadata) else none
  | some offset =>
    if targetFirmware < targetFirmware800 then none
    else some (kernel.drop offset, { metadata with
      sectionOffsets := Function.update metadata.sectionOffsets 1 (metadata.sectionEnd 0) })

/-- `package2_rebuild_and_copy`, or nothing if an error is fatal. -/
def package2RebuildAndCopy (env : Environment) (targetFirmware : Nat) (p : Package2Header) : Option Rebuilt := do
  let (metadata, data) ← package2Decrypt env.sha256 env.crypt env.mkeyRevision p
  let (kernel, isSdKernel) ← chooseKernel env metadata data
  let (kernel, ini) ← env.patcher.patch kernel isSdKernel
  let (origIni1, metadata) ← chooseIni targetFirmware metadata data kernel ini
  let ini1 ← env.merger.merge origIni1
  package2Rebuild env.sha256 metadata kernel ini1 env.mem env.dram

/-! ## The metadata -/

section Metadata

variable {sha256 : List UInt8 → List UInt8} {crypt : Nat → List UInt8 → List UInt8 → List UInt8}
  {metadata : Package2Meta} {data : List UInt8} {p : Package2Header} {mkeyRevision : Nat}

/-- What is checked of the metadata besides its sections. -/
structure HeaderValid (metadata : Package2Meta) : Prop where
  magic : metadata.magic = 0x31324B50
  headerVersion : ¬masterkeyRevisionMax < metadata.headerVersion
  entrypoint : metadata.entrypoint &&& 3 = 0
  versions : 0 ≤ metadata.versionMax ∧ metadata.versionMin < 0xC

lemma headerValid_of_validate (h : package2ValidateMetadata sha256 metadata data = true) : HeaderValid metadata := by
  rw [package2ValidateMetadata] at h
  split at h
  · cases h
  next hmagic =>
  split at h
  · cases h
  split at h
  · cases h
  next hversion =>
  split at h
  · cases h
  next hentry =>
  split at h
  · cases h
  split at h
  · cases h
  next found hsections =>
  obtain ⟨-, hversions⟩ := (Bool.and_eq_true _ _).mp h
  obtain ⟨hmax, hmin⟩ := (Bool.and_eq_true _ _).mp hversions
  exact ⟨not_not.mp hmagic, hversion, not_not.mp hentry, of_decide_eq_true hmax, of_decide_eq_true hmin⟩

lemma findRevision_valid {tries rev : Nat} {found : Nat × Package2Meta}
    (h : findRevision sha256 p tries rev = some found) : package2ValidateMetadata sha256 found.2 p.data = true := by
  induction tries generalizing rev with
  | zero => cases h
  | succ tries ih =>
    rw [findRevision] at h
    split at h
    · next hvalid =>
      rw [← Option.some.inj h]
      exact hvalid
    · exact ih h

/-- The metadata of a package that is decrypted has been accepted. -/
lemma validate_of_decrypt (h : package2Decrypt sha256 crypt mkeyRevision p = some (metadata, data)) :
    package2ValidateMetadata sha256 metadata p.data = true := by
  obtain ⟨⟨rev, m⟩, hheader, h⟩ := Option.bind_eq_some_iff.mp h
  obtain ⟨rfl, -⟩ := Prod.mk.inj (Option.some.inj h)
  rw [decryptAndValidateHeader] at hheader
  split at hheader
  · exact findRevision_valid hheader
  · split at hheader
    · next hvalid =>
      obtain ⟨-, rfl⟩ := Prod.mk.inj (Option.some.inj hheader)
      exact hvalid
    · cases hheader

/-- Only the hashes are fixed up. -/
lemma fixupHashes_eq (mem : Nat → UInt8) (is : List (Fin 4)) (offset : Nat) (metadata : Package2Meta) :
    ∃ hashes, fixupHashes sha256 mem is offset metadata = { metadata with sectionHashes := hashes } := by
  induction is generalizing offset metadata with
  | nil => exact ⟨metadata.sectionHashes, rfl⟩
  | cons i later ih =>
    rw [fixupHashes]
    split
    · exact ih _ _
    · obtain ⟨hashes, hfix⟩ := ih (offset + (metadata.sectionSizes i).toNat) { metadata with
        sectionHashes := Function.update metadata.sectionHashes i
          (sha256 (read mem ⟨package2HeaderSize + offset, (metadata.sectionSizes i).toNat⟩)) }
      exact ⟨hashes, hfix⟩

/-- A section that fusee accepts is one that exosphere accepts, but for its hash. -/
lemma validateSections_monitor {is : List (Fin 4)} {found result : Bool} {cur : Nat} {hashed : List Region}
    (mem : Nat → UInt8) (h : validateSections sha256 metadata data is found cur = some result) :
    ∃ regions, Package2Meta.validateSections sha256 false mem metadata is found cur hashed =
      some (result, regions) := by
  induction is generalizing found cur hashed with
  | nil =>
    obtain rfl := Option.some.inj h
    exact ⟨hashed, rfl⟩
  | cons i later ih =>
    rw [validateSections] at h
    rw [Package2Meta.validateSections]
    dsimp only at h ⊢
    split at h
    · cases h
    next haligned =>
    split at h
    · cases h
    next hoverflow =>
    split at h
    · cases h
    next hoverlap =>
    rw [if_neg haligned, if_neg hoverflow, if_neg hoverlap]
    split at h
    · next hzero =>
      rw [if_pos hzero]
      exact ih h
    · next hsize =>
      split at h
      · cases h
      · rw [if_neg hsize, if_neg fun h => Bool.false_ne_true h.1]
        exact ih h

/-- Metadata that fusee accepts is accepted by exosphere, but for the hashes. -/
lemma monitor_of_validate (mem : Nat → UInt8) (h : package2ValidateMetadata sha256 metadata data = true) :
    ∃ hashed, Package2Meta.validatePackage2Metadata sha256 false mem metadata = some hashed := by
  have hvalid := headerValid_of_validate h
  rw [package2ValidateMetadata] at h
  split at h
  · cases h
  split at h
  · cases h
  next hsize =>
  split at h
  · cases h
  split at h
  · cases h
  split at h
  · cases h
  next hsum =>
  split at h
  · cases h
  next found hsections =>
  obtain ⟨hfound, -⟩ := (Bool.and_eq_true _ _).mp h
  obtain ⟨regions, hmonitor⟩ := @validateSections_monitor sha256 metadata data package2Sections false found 0 []
    mem hsections
  have hsum' : (metadata.sectionSizes 0 + metadata.sectionSizes 1 + metadata.sectionSizes 2).toNat +
      package2HeaderSize = metadata.getPackage2Size.toNat := by
    have heq := congrArg UInt32.toNat (not_not.mp hsum)
    have hlt := (metadata.sectionSizes 0 + metadata.sectionSizes 1 + metadata.sectionSizes 2).toNat_lt
    have hheader : (0x200 : UInt32).toNat = 512 := rfl
    rw [UInt32.toNat_add, hheader] at heq
    rw [package2HeaderSize] at hsize ⊢
    omega
  rw [Package2Meta.validatePackage2Metadata, if_neg (not_not.mpr hvalid.magic), if_neg hsize,
    if_neg hvalid.headerVersion, if_neg (not_not.mpr hvalid.entrypoint), if_neg (not_not.mpr hsum'), hmonitor]
  dsimp only
  rw [hfound, if_neg (by decide), if_pos hvalid.versions]
  exact ⟨regions, rfl⟩

lemma alignTo4_eq {s : Nat} (h : s + 3 < 2 ^ 32) : alignTo4 s = (s + 3) / 4 * 4 := by
  rw [alignTo4, Nat.mod_eq_of_lt h]

end Metadata

/-! ## What is built -/

section Build

variable {sha256 : List UInt8 → List UInt8} {metadata : Package2Meta} {kernel ini1 data : List UInt8}
  {mem dram : Nat → UInt8} {r : Rebuilt}

/-- A package as it is built from a kernel and an INI1. -/
structure Built (metadata : Package2Meta) (kernel ini1 : List UInt8) (mem dram : Nat → UInt8) (r : Rebuilt) :
    Prop where
  kernel_eq : r.kernel = kernel
  ini1_eq : r.ini1 = ini1
  size_eq : r.size = package2HeaderSize + kernel.length + (ini1.length + 3) / 4 * 4
  size_le : r.size ≤ package2SizeMax
  package2Size : r.metadata.getPackage2Size.toNat = r.size
  header : HeaderValid metadata → HeaderValid r.metadata
  entrypoint : r.metadata.entrypoint = metadata.entrypoint
  offsets : r.metadata.sectionOffsets = metadata.sectionOffsets
  kernelSize : (r.metadata.sectionSizes 0).toNat = (kernel.length + 3) / 4 * 4
  iniSize : (r.metadata.sectionSizes 1).toNat = (ini1.length + 3) / 4 * 4
  unusedSize : r.metadata.sectionSizes 2 = 0
  writes : r.writes = [⟨0, package2HeaderSize⟩, ⟨package2HeaderSize, kernel.length⟩,
    ⟨package2HeaderSize + (kernel.length + 3) / 4 * 4, ini1.length⟩,
    ⟨package2HeaderSize + ((kernel.length + 3) / 4 * 4 + (ini1.length + 3) / 4 * 4), 0⟩, ⟨0, package2HeaderSize⟩]
  dram_eq : r.dram = write dram (package2LoadAddress + package2HeaderSize)
    (read (write (write mem package2HeaderSize kernel) (package2HeaderSize + (kernel.length + 3) / 4 * 4) ini1)
      ⟨package2HeaderSize, r.size - package2HeaderSize⟩)

lemma toNat_alignTo4 {s : Nat} (h : s ≤ package2SizeMax) : (UInt32.ofNat (alignTo4 s)).toNat = (s + 3) / 4 * 4 := by
  rw [package2SizeMax] at h
  rw [alignTo4_eq (by omega)]
  exact UInt32.toNat_ofNat_of_lt' (show (s + 3) / 4 * 4 < 2 ^ 32 by omega)

/-- The sizes of the sections that are appended. -/
def appendedSizes (metadata : Package2Meta) (kernel ini1 : List UInt8) : Fin 4 → UInt32 :=
  Function.update (Function.update (Function.update metadata.sectionSizes 0 (.ofNat (alignTo4 kernel.length))) 1
    (.ofNat (alignTo4 ini1.length))) 2 (.ofNat (alignTo4 0))

/-- The three sections that are appended. -/
lemma appendSections_eq (hkernel : kernel.length ≤ package2SizeMax) (hini1 : ini1.length ≤ package2SizeMax) :
    package2AppendSection 2 [] (package2AppendSection 1 ini1 (package2AppendSection 0 kernel
        ⟨metadata, mem, [⟨0, package2HeaderSize⟩]⟩)) =
      ⟨{ metadata with sectionSizes := appendedSizes metadata kernel ini1 },
        write (write mem package2HeaderSize kernel) (package2HeaderSize + (kernel.length + 3) / 4 * 4) ini1,
        [⟨0, package2HeaderSize⟩, ⟨package2HeaderSize, kernel.length⟩,
          ⟨package2HeaderSize + (kernel.length + 3) / 4 * 4, ini1.length⟩,
          ⟨package2HeaderSize + ((kernel.length + 3) / 4 * 4 + (ini1.length + 3) / 4 * 4), 0⟩]⟩ := by
  have hfirst (m : Package2Meta) : sectionStart m 1 = (m.sectionSizes 0).toNat := Nat.zero_add _
  have hsecond (m : Package2Meta) : sectionStart m 2 = (m.sectionSizes 0).toNat + (m.sectionSizes 1).toNat :=
    congrArg (· + _) (Nat.zero_add _)
  have hzero (m : Package2Meta) : sectionStart m 0 = 0 := rfl
  simp only [package2AppendSection, hfirst, hsecond, hzero, Nat.add_zero, Function.update_self, write_nil,
    Function.update_of_ne (show (0 : Fin 4) ≠ 1 by decide), toNat_alignTo4 hkernel, toNat_alignTo4 hini1,
    List.length_nil, List.cons_append, List.nil_append]
  rfl

/-- The size that is stored in the counter. -/
lemma xor_size (x c size : UInt32) : x ^^^ (c ^^^ (x ^^^ c ^^^ size)) = size := by
  rw [← UInt32.xor_assoc x c, ← UInt32.xor_assoc (x ^^^ c) (x ^^^ c), UInt32.xor_self, UInt32.zero_xor]

/-- The package is built if it is not too large. -/
lemma built_of_rebuild (hkernel : kernel.length ≤ package2SizeMax) (hini1 : ini1.length ≤ package2SizeMax)
    (h : package2Rebuild sha256 metadata kernel ini1 mem dram = some r) : Built metadata kernel ini1 mem dram r := by
  have hsizes := And.intro hkernel hini1
  rw [package2SizeMax] at hsizes
  have hsize : (package2HeaderSize + kernel.length + alignTo4 0 + alignTo4 ini1.length) % 2 ^ 32 =
      package2HeaderSize + kernel.length + (ini1.length + 3) / 4 * 4 := by
    have hzero : alignTo4 0 = 0 := rfl
    rw [hzero, alignTo4_eq (by omega), package2HeaderSize]
    exact Nat.mod_eq_of_lt (by omega)
  rw [package2Rebuild, hsize] at h
  dsimp only at h
  split at h
  · cases h
  next hle =>
  rw [appendSections_eq hkernel hini1, package2FixupHeaderAndSectionHashes] at h
  dsimp only at h
  obtain ⟨hashes, hfix⟩ := @fixupHashes_eq sha256
    (write (write mem package2HeaderSize kernel) (package2HeaderSize + (kernel.length + 3) / 4 * 4) ini1)
    package2Sections 0 { metadata with sectionSizes := appendedSizes metadata kernel ini1 }
  rw [hfix] at h
  obtain rfl := Option.some.inj h
  have hle' := Nat.not_lt.mp hle
  rw [package2SizeMax] at hle'
  exact {
    kernel_eq := rfl
    ini1_eq := rfl
    size_eq := rfl
    size_le := Nat.not_lt.mp hle
    package2Size := by
      refine (congrArg UInt32.toNat (xor_size _ _ _)).trans (UInt32.toNat_ofNat_of_lt' ?_)
      show package2HeaderSize + kernel.length + (ini1.length + 3) / 4 * 4 < 2 ^ 32
      omega
    header := fun hvalid => ⟨hvalid.magic, hvalid.headerVersion, hvalid.entrypoint, hvalid.versions⟩
    entrypoint := rfl
    offsets := rfl
    kernelSize := toNat_alignTo4 hkernel
    iniSize := toNat_alignTo4 hini1
    unusedSize := rfl
    writes := rfl
    dram_eq := rfl }

/-! ## What is accepted -/

/-- The package that is left is accepted, but for its hashes and its signature, all writes to it are inside of what was
allocated, and its sections begin with the kernel and the INI1 that were chosen. -/
structure RebuiltAccepted (sha256 : List UInt8 → List UInt8) (r : Rebuilt) : Prop where
  monitor : (Package2Meta.validatePackage2Metadata sha256 false r.dram r.metadata).isSome = true
  writes : ∀ w ∈ r.writes, w.size = 0 ∨ w.stop ≤ r.size
  kernel : read r.dram ⟨package2LoadAddress + package2HeaderSize, r.kernel.length⟩ = r.kernel
  ini1 : read r.dram ⟨package2LoadAddress + package2HeaderSize + (r.metadata.sectionSizes 0).toNat, r.ini1.length⟩ =
    r.ini1

/-- A kernel and an INI1 of some sizes fit the addresses that they are loaded to, that of the INI1 being given. -/
structure SectionsFit (metadata : Package2Meta) (iniOffset : UInt32) (kernelSize iniSize : Nat) : Prop where
  aligned : kernelSize % 4 = 0
  kernel_lt : (metadata.sectionOffsets 0).toNat + kernelSize < 2 ^ 32
  ini_lt : iniOffset.toNat + (iniSize + 3) / 4 * 4 < 2 ^ 32
  apart : kernelSize = 0 ∨ iniSize = 0 ∨ (metadata.sectionOffsets 0).toNat + kernelSize ≤ iniOffset.toNat ∨
    iniOffset.toNat + (iniSize + 3) / 4 * 4 ≤ (metadata.sectionOffsets 0).toNat
  entrypoint :
    ((metadata.sectionOffsets 0).toNat ≤ metadata.entrypoint.toNat ∧
      metadata.entrypoint.toNat < (metadata.sectionOffsets 0).toNat + kernelSize) ∨
    (iniOffset.toNat ≤ metadata.entrypoint.toNat ∧
      metadata.entrypoint.toNat < iniOffset.toNat + (iniSize + 3) / 4 * 4)

/-- Where the INI1 is loaded to. -/
def iniOffset (targetFirmware : Nat) (metadata : Package2Meta) : UInt32 :=
  if targetFirmware < targetFirmware800 then metadata.sectionOffsets 1 else metadata.sectionEnd 0

/-- The metadata with the place of the INI1. -/
def placedMeta (targetFirmware : Nat) (metadata : Package2Meta) : Package2Meta :=
  { metadata with
    sectionOffsets := Function.update metadata.sectionOffsets 1 (iniOffset targetFirmware metadata) }

lemma chooseIni_eq {targetFirmware : Nat} {ini : Option Nat} {origIni1 : List UInt8} {placed : Package2Meta}
    (h : chooseIni targetFirmware metadata data kernel ini = some (origIni1, placed)) :
    placed = placedMeta targetFirmware metadata := by
  cases ini with
  | none =>
    change (if targetFirmware < targetFirmware800 then _ else _) = _ at h
    rw [placedMeta, iniOffset]
    split at h
    · next hlt =>
      obtain ⟨-, rfl⟩ := Prod.mk.inj (Option.some.inj h)
      rw [if_pos hlt, Function.update_eq_self]
    · cases h
  | some offset =>
    change (if targetFirmware < targetFirmware800 then _ else _) = _ at h
    rw [placedMeta, iniOffset]
    split at h
    · cases h
    · next hge =>
      obtain ⟨-, rfl⟩ := Prod.mk.inj (Option.some.inj h)
      rw [if_neg hge]

/-- The start of what is copied. -/
lemma read_write_read {b c n m : Nat} (h : n ≤ m) : read (write dram b (read mem ⟨c, m⟩)) ⟨b, n⟩ = read mem ⟨c, n⟩ := by
  have htake (space : Nat → UInt8) (start : Nat) : read space ⟨start, n⟩ = (read space ⟨start, m⟩).take n :=
    read_part space (k := 0) (by omega)
  have hcopied := read_write dram b (read mem ⟨c, m⟩)
  rw [length_read] at hcopied
  rw [htake, hcopied, htake mem c]

lemma forall_package2Sections {P : Fin 4 → Prop} (hkernel : P 0) (hini : P 1) (hunused : P 2) :
    ∀ i ∈ package2Sections, P i := by
  intro i hi
  cases hi with
  | head => exact hkernel
  | tail _ hi =>
    cases hi with
    | head => exact hini
    | tail _ hi =>
      rw [List.mem_singleton.mp hi]
      exact hunused

variable (h : Built metadata kernel ini1 mem dram r)

include h

lemma Built.regions :
    r.metadata.sectionRegion 0 = ⟨(metadata.sectionOffsets 0).toNat, (kernel.length + 3) / 4 * 4⟩ ∧
      r.metadata.sectionRegion 1 = ⟨(metadata.sectionOffsets 1).toNat, (ini1.length + 3) / 4 * 4⟩ ∧
      r.metadata.sectionRegion 2 = ⟨(metadata.sectionOffsets 2).toNat, 0⟩ := by
  rw [Package2Meta.sectionRegion, Package2Meta.sectionRegion, Package2Meta.sectionRegion, h.offsets, h.kernelSize,
    h.iniSize, h.unusedSize]
  exact ⟨rfl, rfl, rfl⟩

/-- Where the kernel and the INI1 are to be found at the load address, if nothing is between them. -/
lemma Built.dram_sections (haligned : kernel.length % 4 = 0) :
    read r.dram ⟨package2LoadAddress + package2HeaderSize, kernel.length⟩ = kernel ∧
      read r.dram ⟨package2LoadAddress + package2HeaderSize + kernel.length, ini1.length⟩ = ini1 := by
  have hround : (kernel.length + 3) / 4 * 4 = kernel.length := by omega
  have hroom : kernel.length + ini1.length ≤ r.size - package2HeaderSize := by
    rw [h.size_eq]
    omega
  have hdram := h.dram_eq
  rw [hround, write_append] at hdram
  have hwhole := @read_write_read (write mem package2HeaderSize (kernel ++ ini1)) dram
    (package2LoadAddress + package2HeaderSize) package2HeaderSize _ _ hroom
  have hboth := read_write mem package2HeaderSize (kernel ++ ini1)
  rw [List.length_append] at hboth
  rw [← hdram, hboth, read_add] at hwhole
  exact List.append_inj hwhole length_read

/-- The checks of exosphere say that the sections fit. -/
lemma Built.fit_of_accepted
    (hmonitor : (Package2Meta.validatePackage2Metadata sha256 false r.dram r.metadata).isSome = true) :
    SectionsFit metadata (metadata.sectionOffsets 1) kernel.length ini1.length := by
  obtain ⟨hashed, hsome⟩ := Option.isSome_iff_exists.mp hmonitor
  obtain ⟨-, -, -, hsections⟩ := Package2Meta.validatePackage2Metadata_checks hsome
  have hsum := Package2Meta.validatePackage2Metadata_size hsome
  have hapart := Package2Meta.validateSections_pairwise hsections
  have hstops (i : Fin 4) (hi : i ∈ package2Sections) :=
    (Package2Meta.sectionEnd_toNat (Package2Meta.validateSections_stop_lt hsections i hi)).2
  have hfound := (Package2Meta.validateSections_entrypoint hsections rfl).resolve_left Bool.false_ne_true
  obtain ⟨hkernel, hini, hunused⟩ := h.regions
  have haligned : kernel.length % 4 = 0 := by
    rw [h.package2Size, h.size_eq, h.kernelSize, h.iniSize, h.unusedSize, UInt32.toNat_zero] at hsum
    omega
  have hround : (kernel.length + 3) / 4 * 4 = kernel.length := by omega
  rw [hround] at hkernel
  refine ⟨haligned, ?_, ?_, ?_, ?_⟩
  · have hstop := hstops 0 (.head _)
    rw [hkernel] at hstop
    exact hstop
  · have hstop := hstops 1 (.tail _ (.head _))
    rw [hini] at hstop
    exact hstop
  · rcases Nat.eq_zero_or_pos kernel.length with hzero | hpos
    · exact .inl hzero
    rcases Nat.eq_zero_or_pos ini1.length with hzero' | hpos'
    · exact .inr (.inl hzero')
    have hused : r.metadata.sectionSizes 0 ≠ 0 := by
      refine mt Package2Meta.toNat_eq_zero.mpr ?_
      rw [h.kernelSize]
      omega
    have hused' : r.metadata.sectionSizes 1 ≠ 0 := by
      refine mt Package2Meta.toNat_eq_zero.mpr ?_
      rw [h.iniSize]
      omega
    rw [package2Sections, Package2Meta.usedRegions_of_ne hused, Package2Meta.usedRegions_of_ne hused', hkernel,
      hini] at hapart
    exact .inr (.inr ((List.pairwise_cons.mp hapart).1 _ (.head _)))
  · obtain ⟨i, hi, hin⟩ := hfound
    rw [h.entrypoint] at hin
    cases hi with
    | head =>
      rw [hkernel] at hin
      exact .inl hin
    | tail _ hi =>
      cases hi with
      | head =>
        rw [hini] at hin
        exact .inr hin
      | tail _ hi =>
        rw [List.mem_singleton.mp hi, hunused] at hin
        exact absurd hin.2 (Nat.not_lt.mpr hin.1)

/-- If the sections fit, exosphere accepts what is built. -/
lemma Built.accepted_of_fit (hvalid : HeaderValid metadata)
    (hfit : SectionsFit metadata (metadata.sectionOffsets 1) kernel.length ini1.length) :
    (Package2Meta.validatePackage2Metadata sha256 false r.dram r.metadata).isSome = true := by
  obtain ⟨hkernel, hini, hunused⟩ := h.regions
  have hvalid' := h.header hvalid
  have hround : (kernel.length + 3) / 4 * 4 = kernel.length := by
    have haligned := hfit.aligned
    omega
  rw [hround] at hkernel
  have hsize := h.size_eq
  have hmax := h.size_le
  have hpackage := h.package2Size
  have hkernelSize := h.kernelSize
  have hiniSize := h.iniSize
  rw [hround] at hkernelSize
  rw [package2SizeMax] at hmax
  rw [package2HeaderSize] at hsize
  have hentry := hfit.entrypoint
  have hmask {n : UInt32} {k : Nat} (hn : n.toNat = k / 4 * 4) : n &&& 3 = 0 := by
    refine UInt32.toNat_inj.mp ?_
    rw [UInt32.toNat_and, hn]
    exact (Nat.and_two_pow_sub_one_eq_mod _ 2).trans (Nat.mul_mod_left _ _)
  refine Package2Meta.validatePackage2Metadata_isSome hvalid'.magic ⟨?_, h.package2Size ▸ h.size_le⟩
    hvalid'.headerVersion hvalid'.entrypoint ?_ ?_ ?_ ?_ ?_ hvalid'.versions
  · rw [hpackage, hsize, package2HeaderSize]
    omega
  · rw [h.unusedSize, UInt32.add_zero, UInt32.toNat_add, hkernelSize, hiniSize, hpackage, hsize, package2HeaderSize]
    omega
  · refine forall_package2Sections (hmask (hkernelSize.trans hround.symm)) (hmask hiniSize) ?_
    rw [h.unusedSize]
    rfl
  · have hoverflow {i : Fin 4} (hstop : (r.metadata.sectionRegion i).stop < 2 ^ 32) :
        check32bitAdditiveOverflow (r.metadata.sectionOffsets i) (r.metadata.sectionSizes i) = false :=
      decide_eq_false (Nat.not_le.mpr hstop)
    refine forall_package2Sections (hoverflow ?_) (hoverflow ?_) (hoverflow ?_)
    · rw [hkernel]
      exact hfit.kernel_lt
    · rw [hini]
      exact hfit.ini_lt
    · rw [hunused]
      exact (metadata.sectionOffsets 2).toNat_lt
  · rw [Package2Meta.usedRegions, Package2Meta.usedSections, List.pairwise_map, List.pairwise_filter]
    have hpos {i : Fin 4} (hused : decide (r.metadata.sectionSizes i ≠ 0) = true) :
        (r.metadata.sectionRegion i).size ≠ 0 := mt Package2Meta.toNat_eq_zero.mp (of_decide_eq_true hused)
    -- the third section has no size, so only the first two can overlap
    have hlast {i : Fin 4} : decide (r.metadata.sectionSizes i ≠ 0) = true →
        decide (r.metadata.sectionSizes 2 ≠ 0) = true →
        (r.metadata.sectionRegion i).Apart (r.metadata.sectionRegion 2) :=
      fun _ hused => absurd h.unusedSize (of_decide_eq_true hused)
    refine .cons (fun j hj => ?_) (.cons (fun j hj => ?_) (.cons (by rintro _ ⟨⟩) .nil))
    · cases hj with
      | head =>
        intro hused hused'
        have hkernelPos := hpos hused
        have hiniPos := hpos hused'
        rw [hkernel] at hkernelPos ⊢
        rw [hini] at hiniPos ⊢
        rcases hfit.apart with hzero | hzero | happart
        · exact absurd hzero hkernelPos
        · exact absurd (by rw [hzero]) hiniPos
        · exact happart
      | tail _ hj =>
        rw [List.mem_singleton.mp hj]
        exact hlast
    · rw [List.mem_singleton.mp hj]
      exact hlast
  · rw [h.entrypoint]
    rcases hfit.entrypoint with hin | hin
    · refine ⟨0, .head _, ?_⟩
      rw [hkernel]
      exact hin
    · refine ⟨1, .tail _ (.head _), ?_⟩
      rw [hini]
      exact hin

end Build

/-! ## What is left -/

section Run

variable {env : Environment} {targetFirmware : Nat} {p : Package2Header} {metadata : Package2Meta}
  {data kernel : List UInt8} {r : Rebuilt}

/-- The kernel image: that on the SD card, if there is one, or that in the package. -/
def kernelImage (env : Environment) (metadata : Package2Meta) (data : List UInt8) : List UInt8 :=
  if env.sdKernel.length ≠ 0 then env.sdKernel else data.take (metadata.sectionSizes 0).toNat

lemma chooseKernel_eq {isSdKernel : Bool} (h : chooseKernel env metadata data = some (kernel, isSdKernel)) :
    kernel = kernelImage env metadata data := by
  rw [chooseKernel] at h
  rw [kernelImage]
  split at h
  · next hsd =>
    split at h
    · cases h
    · obtain ⟨rfl, -⟩ := Prod.mk.inj (Option.some.inj h)
      rw [if_pos hsd]
  · next hsd =>
    obtain ⟨rfl, -⟩ := Prod.mk.inj (Option.some.inj h)
    rw [if_neg hsd]
    rfl

/-- The kernel that is chosen is not larger than a package. -/
lemma chooseKernel_length {isSdKernel : Bool} (hsize : (metadata.sectionSizes 0).toNat ≤ package2SizeMax)
    (h : chooseKernel env metadata data = some (kernel, isSdKernel)) : kernel.length ≤ package2SizeMax := by
  rw [chooseKernel] at h
  split at h
  · split at h
    · cases h
    · next hle =>
      obtain ⟨rfl, -⟩ := Prod.mk.inj (Option.some.inj h)
      exact Nat.not_lt.mp hle
  · obtain ⟨rfl, -⟩ := Prod.mk.inj (Option.some.inj h)
    exact Nat.le_trans (List.length_take_le _ _) hsize

/-- The kernel section of a package that is accepted. -/
lemma kernelSize_le {sha256 : List UInt8 → List UInt8} (h : package2ValidateMetadata sha256 metadata data = true) :
    (metadata.sectionSizes 0).toNat ≤ package2SizeMax := by
  obtain ⟨hashed, hmonitor⟩ := monitor_of_validate (fun _ => 0) h
  obtain ⟨hmax, -⟩ := Package2Meta.validatePackage2Metadata_checks hmonitor
  have hsum := Package2Meta.validatePackage2Metadata_size hmonitor
  omega

/-- A run that completes has built a package from the kernel and the INI1 that it chose. -/
lemma built_of_run (hdecrypt : package2Decrypt env.sha256 env.crypt env.mkeyRevision p = some (metadata, data))
    (hrun : package2RebuildAndCopy env targetFirmware p = some r) :
    Built (placedMeta targetFirmware metadata) r.kernel r.ini1 env.mem env.dram r ∧
      r.kernel.length = (kernelImage env metadata data).length := by
  obtain ⟨decrypted, hdecrypt', hrun⟩ := Option.bind_eq_some_iff.mp hrun
  obtain rfl := Option.some.inj (hdecrypt.symm.trans hdecrypt')
  obtain ⟨⟨chosen, isSdKernel⟩, hchosen, hrun⟩ := Option.bind_eq_some_iff.mp hrun
  obtain ⟨⟨kernel, ini⟩, hpatch, hrun⟩ := Option.bind_eq_some_iff.mp hrun
  obtain ⟨⟨origIni1, placed⟩, hini, hrun⟩ := Option.bind_eq_some_iff.mp hrun
  obtain ⟨ini1, hmerge, hrun⟩ := Option.bind_eq_some_iff.mp hrun
  obtain rfl := chooseIni_eq hini
  have hkernel : kernel.length ≤ package2SizeMax := by
    rw [env.patcher.length_eq hpatch]
    exact chooseKernel_length (kernelSize_le (validate_of_decrypt hdecrypt)) hchosen
  have hbuilt := built_of_rebuild hkernel (env.merger.length_le hmerge) hrun
  rw [hbuilt.kernel_eq, hbuilt.ini1_eq, env.patcher.length_eq hpatch, chooseKernel_eq hchosen]
  exact ⟨hbuilt, rfl⟩

/-- All that is written to is inside of what was allocated, if the kernel is aligned. -/
lemma Built.writes_inside {kernel ini1 : List UInt8} {mem dram : Nat → UInt8}
    (h : Built metadata kernel ini1 mem dram r) (haligned : kernel.length % 4 = 0) :
    ∀ w ∈ r.writes, w.size = 0 ∨ w.stop ≤ r.size := by
  rw [h.writes, h.size_eq]
  intro w hw
  simp only [List.mem_cons, List.not_mem_nil, or_false] at hw
  rcases hw with rfl | rfl | rfl | rfl | rfl
  · exact .inr (show 0 + package2HeaderSize ≤ _ by omega)
  · exact .inr (show package2HeaderSize + kernel.length ≤ _ by omega)
  · exact .inr (show package2HeaderSize + (kernel.length + 3) / 4 * 4 + ini1.length ≤ _ by omega)
  · exact .inl rfl
  · exact .inr (show 0 + package2HeaderSize ≤ _ by omega)

/-- When a package is rebuilt, what is left is accepted by exosphere, has been written inside of what was allocated and
has the kernel and the INI1 in it exactly if these fit the addresses that the sections are loaded to. -/
theorem rebuiltAccepted_iff (env : Environment) (targetFirmware : Nat) (p : Package2Header) {metadata : Package2Meta}
    {data : List UInt8} {r : Rebuilt}
    (hdecrypt : package2Decrypt env.sha256 env.crypt env.mkeyRevision p = some (metadata, data))
    (hrun : package2RebuildAndCopy env targetFirmware p = some r) :
    RebuiltAccepted env.sha256 r ↔
      SectionsFit metadata (iniOffset targetFirmware metadata) (kernelImage env metadata data).length
        r.ini1.length := by
  obtain ⟨hbuilt, hlength⟩ := built_of_run hdecrypt hrun
  have hplaced : (placedMeta targetFirmware metadata).sectionOffsets 1 = iniOffset targetFirmware metadata := by
    rw [placedMeta]
    dsimp only
    rw [Function.update_self]
  have hkeep : SectionsFit (placedMeta targetFirmware metadata) (iniOffset targetFirmware metadata) r.kernel.length
      r.ini1.length ↔
        SectionsFit metadata (iniOffset targetFirmware metadata) r.kernel.length r.ini1.length := by
    constructor
    · exact fun h => ⟨h.aligned, h.kernel_lt, h.ini_lt, h.apart, h.entrypoint⟩
    · exact fun h => ⟨h.aligned, h.kernel_lt, h.ini_lt, h.apart, h.entrypoint⟩
  rw [← hlength, ← hkeep, ← hplaced]
  constructor
  · exact fun h => hbuilt.fit_of_accepted h.monitor
  · intro hfit
    have hround : (r.kernel.length + 3) / 4 * 4 = r.kernel.length := by
      have haligned := hfit.aligned
      omega
    obtain ⟨hkernel, hini1⟩ := hbuilt.dram_sections hfit.aligned
    have hvalid := headerValid_of_validate (validate_of_decrypt hdecrypt)
    refine ⟨hbuilt.accepted_of_fit
      ⟨hvalid.magic, hvalid.headerVersion, hvalid.entrypoint, hvalid.versions⟩ hfit,
      hbuilt.writes_inside hfit.aligned, hkernel, ?_⟩
    rw [hbuilt.kernelSize, hround]
    exact hini1

end Run

/-! ## A package with another kernel -/

/-- An INI1 without processes. -/
def exampleIni1 : List UInt8 := [0x49, 0x4E, 0x49, 0x31, 0x10, 0, 0, 0, 0, 0, 0, 0, 0, 0, 0, 0]

/-- A kernel of four bytes, and an INI1 that is loaded 0x100 bytes behind its start. -/
def exampleMeta : Package2Meta where
  ctrDwords := ![0x214, 0, 0, 0]
  sectionCtrs _ := List.replicate 0x10 0
  magic := 0x31324B50
  entrypoint := 0x60000
  versionMax := 0xD
  versionMin := 0xB
  sectionSizes := ![4, 0x10, 0, 0]
  sectionOffsets := ![0x60000, 0x60100, 0, 0]
  sectionHashes _ := List.replicate 0x20 0

def examplePackage : Package2Header where
  signature := List.replicate 0x100 1
  metadata := exampleMeta
  decrypted _ := exampleMeta
  data := List.replicate 4 0 ++ exampleIni1

/-- A kernel on the SD card that is not known, and no processes to merge. -/
def exampleEnvironment (sdKernel : List UInt8) : Environment where
  sha256 _ := List.replicate 0x20 0
  crypt _ _ src := src
  mkeyRevision := 0
  sdKernel := sdKernel
  patcher := kernelPatcher fun _ => none
  merger := iniMerger (patchFiles []) none []
  mem _ := 0
  dram _ := 0

lemma exampleDecrypt (sdKernel : List UInt8) :
    ∃ data, package2Decrypt (exampleEnvironment sdKernel).sha256 (exampleEnvironment sdKernel).crypt
      (exampleEnvironment sdKernel).mkeyRevision examplePackage = some (exampleMeta, data) := by
  have hvalid : package2ValidateMetadata (fun _ => List.replicate 0x20 0) exampleMeta examplePackage.data = true := by
    decide
  have hplaintext : isPlaintext examplePackage = true := by decide +kernel
  have hheader : decryptAndValidateHeader (exampleEnvironment sdKernel).sha256 0 examplePackage true =
      some (0, exampleMeta) := by
    rw [decryptAndValidateHeader, Bool.not_true, if_neg Bool.false_ne_true]
    exact if_pos hvalid
  rw [package2Decrypt, hplaintext]
  exact ⟨_, Option.bind_eq_some_iff.mpr ⟨_, hheader, rfl⟩⟩

/-- A run on 7.0.0 with some kernel on the SD card. -/
lemma exampleRun {n : Nat}
    (h : ((package2RebuildAndCopy (exampleEnvironment (List.replicate n 0)) 8 examplePackage).map fun r =>
      (r.kernel.length, r.ini1.length)) = some (n, 0x10)) :
    ∃ r, package2RebuildAndCopy (exampleEnvironment (List.replicate n 0)) 8 examplePackage = some r ∧
      r.kernel.length = n ∧ r.ini1.length = 0x10 := by
  obtain ⟨r, hrun, hlengths⟩ := Option.map_eq_some_iff.mp h
  obtain ⟨hkernel, hini1⟩ := Prod.mk.inj hlengths
  exact ⟨r, hrun, hkernel, hini1⟩

/-- A kernel that fits. -/
theorem rebuiltAccepted_example :
    ∃ r, package2RebuildAndCopy (exampleEnvironment (List.replicate 8 0)) 8 examplePackage = some r ∧
      RebuiltAccepted (exampleEnvironment (List.replicate 8 0)).sha256 r := by
  obtain ⟨r, hrun, hkernel, hini1⟩ := @exampleRun 8 (by decide +kernel)
  obtain ⟨data, hdecrypt⟩ := exampleDecrypt (List.replicate 8 0)
  refine ⟨r, hrun, (rebuiltAccepted_iff _ _ _ hdecrypt hrun).mpr ?_⟩
  rw [← (built_of_run hdecrypt hrun).2, hkernel, hini1]
  exact ⟨by decide, by decide, by decide, .inr (.inr (.inl (by decide))), .inl (by decide)⟩

/-- A kernel whose size is not a multiple of 4, and one that does not end in front of the INI1. -/
theorem not_rebuiltAccepted :
    (∃ r, package2RebuildAndCopy (exampleEnvironment (List.replicate 5 0)) 8 examplePackage = some r ∧
      ¬RebuiltAccepted (exampleEnvironment (List.replicate 5 0)).sha256 r) ∧
    ∃ r, package2RebuildAndCopy (exampleEnvironment (List.replicate 0x104 0)) 8 examplePackage = some r ∧
      ¬RebuiltAccepted (exampleEnvironment (List.replicate 0x104 0)).sha256 r := by
  obtain ⟨r, hrun, hkernel, -⟩ := @exampleRun 5 (by decide +kernel)
  obtain ⟨r', hrun', hkernel', hini1'⟩ := @exampleRun 0x104 (by decide +kernel)
  obtain ⟨data, hdecrypt⟩ := exampleDecrypt (List.replicate 5 0)
  obtain ⟨data', hdecrypt'⟩ := exampleDecrypt (List.replicate 0x104 0)
  refine ⟨⟨r, hrun, fun haccepted => ?_⟩, r', hrun', fun haccepted => ?_⟩
  · have hfit := (built_of_run hdecrypt hrun).1.fit_of_accepted haccepted.monitor
    rw [hkernel] at hfit
    exact absurd hfit.aligned (by decide)
  · have hfit := (built_of_run hdecrypt' hrun').1.fit_of_accepted haccepted.monitor
    rw [hkernel', hini1'] at hfit
    rcases hfit.apart with hzero | hzero | hbefore | hbehind
    · cases hzero
    · cases hzero
    · exact absurd hbefore (by decide)
    · exact absurd hbehind (by decide)

end RajNX.Fusee.Package2
