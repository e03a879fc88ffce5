import RajNX.Exosphere.Package2Header
import RajNX.Fusee.InjectBounds
import RajNX.Fusee.KipBounds
import RajNX.Lib.Mgf1
import RajNX.Patcher.IpsBounds

/-!
# Merging initial processes

`stratosphere_merge_inis` of `stratosphere.c`, with `apply_kip_ips_patches` of `ips.c`. The KIPs of several INI1s
are put into one, the first one of each title. A KIP may be patched on the way, and FS may get emuMMC injected. Which
files of the SD card are patches for a KIP is told by its hash.

If the patches write to the KIPs only, and the module leaves FS its room, the merged INI1 has every process once, in
its order, and can be walked. Otherwise something is written outside of the KIP that is worked on.
-/

namespace RajNX.Fusee

open Exosphere (package2SizeMax)
open Fallible Fields Mgf1 Patcher Splice WriteTrace

/-- `MAGIC_INI1` -/
def magicIni1 : Nat := 0x31494E49
/-- `INI1_MAX_KIPS` -/
def ini1MaxKips : Nat := 0x50
/-- `sizeof(ini1_header_t)` -/
def ini1HeaderSize : Nat := 0x10
/-- `FS_TITLE_ID` -/
def fsTitleId : Nat := 0x0100000000000000

/-- `ini1_header_t` with what is behind it. -/
structure Ini1 where
  magic : Nat
  size : Nat
  numProcesses : Nat
  kipData : List UInt8

/-- What the bootloader finds on the SD card, and its settings: the files that are patches for a hash, whether the
nogc patches are enabled, and whether there is one for a hash. The hash is that of the security engine. -/
structure BootFiles where
  sha : HashFunction 0x20
  patches : List UInt8 → List (List UInt8)
  enableNogc : Bool
  hasNogcPatch : List UInt8 → Bool

/-- `g_fs_hashes` -/
def fsHashes : List (List UInt8) :=
  [[0xDE, 0x9F, 0xDD, 0xA4, 0x08, 0x5D, 0xD5, 0xFE], [0xCD, 0x7B, 0xBE, 0x18, 0xD6, 0x13, 0x0B, 0x28],
    [0xE7, 0x66, 0x92, 0xDF, 0xAA, 0x04, 0x20, 0xE9], [0x0D, 0x70, 0x05, 0x62, 0x7B, 0x07, 0x76, 0x7C],
    [0xDB, 0xD8, 0x5F, 0xCA, 0xCC, 0x19, 0x3D, 0xA8], [0xA8, 0x6D, 0xA5, 0xE8, 0x7E, 0xF1, 0x09, 0x7B],
    [0x98, 0x1C, 0x57, 0xE7, 0xF0, 0x2F, 0x70, 0xF7], [0x57, 0x39, 0x7C, 0x06, 0x3F, 0x10, 0xB6, 0x31],
    [0x07, 0x30, 0x99, 0xD7, 0xC6, 0xAD, 0x7D, 0x89], [0x06, 0xE9, 0x07, 0x19, 0x59, 0x5A, 0x01, 0x0C],
    [0x54, 0x9B, 0x0F, 0x8D, 0x6F, 0x72, 0xC4, 0xE9], [0x80, 0x96, 0xAF, 0x7C, 0x6A, 0x35, 0xAA, 0x82],
    [0x02, 0xD5, 0xAB, 0xAA, 0xFD, 0x20, 0xC8, 0xB0], [0xA6, 0xF2, 0x7A, 0xD9, 0xAC, 0x7C, 0x73, 0xAD],
    [0xCE, 0x3E, 0xCB, 0xA2, 0xF2, 0xF0, 0x62, 0xF5], [0x76, 0xF8, 0x74, 0x02, 0xC9, 0x38, 0x7C, 0x0F],
    [0x10, 0xB2, 0xD8, 0x16, 0x05, 0x48, 0x85, 0x99], [0x3A, 0x57, 0x4D, 0x43, 0x61, 0x86, 0x19, 0x1D],
    [0x33, 0x05, 0x53, 0xF6, 0xB5, 0xFB, 0x55, 0xC4], [0x2A, 0xDB, 0xE9, 0x7E, 0x9B, 0x5F, 0x41, 0x77],
    [0x2C, 0xCE, 0x65, 0x9C, 0xEC, 0x53, 0x6A, 0x8E], [0xB2, 0xF5, 0x17, 0x6B, 0x35, 0x48, 0x36, 0x4D],
    [0xDB, 0xD9, 0x41, 0xC0, 0xC5, 0x3C, 0x52, 0xCC], [0x6B, 0x09, 0xB6, 0x7B, 0x29, 0xC0, 0x20, 0x24],
    [0xB4, 0xCA, 0xE1, 0xF2, 0x49, 0x65, 0xD9, 0x2E], [0x46, 0x87, 0x40, 0x76, 0x1E, 0x19, 0x3E, 0xB7],
    [0x7C, 0x95, 0x13, 0x76, 0xE5, 0xC1, 0x2D, 0xF8]]

/-- The version of FS with a hash: the last one of the table. -/
def identifyFs (hash : List UInt8) : Option Nat :=
  (List.range fsHashes.length).foldl (fun found i => if fsHashes[i]? = some (hash.take 8) then some i else found) none

section

variable (files : BootFiles) (emummc : Option (List UInt8))

/-- `has_needed_default_kip_patches` -/
def hasNeededDefaultKipPatches (title : Nat) (hash : List UInt8) : Bool :=
  if title = fsTitleId ∧ files.enableNogc then files.hasNogcPatch hash else true

/-- `IPS_MAGIC` and `IPS32_MAGIC` -/
def ipsMagic (isIps32 : Bool) : List UInt8 :=
  if isIps32 then [0x49, 0x50, 0x53, 0x33, 0x32] else [0x50, 0x41, 0x54, 0x43, 0x48]

/-- `has_ips_patches` -/
def hasIpsPatches (hash : List UInt8) : Bool :=
  (files.patches hash).any fun file => file.take 5 = ipsMagic false ∨ file.take 5 = ipsMagic true

/-- The writes of a file of `apply_ips_patches` to a KIP of some size. Its header is not patched. -/
def ipsWrites (size : Nat) (file : List UInt8) : List Write :=
  if file.take 5 = ipsMagic false then applyIpsPatch size 0x100 false (file.drop 5)
  else if file.take 5 = ipsMagic true then applyIpsPatch size 0x100 true (file.drop 5)
  else []

/-- A file of `apply_ips_patches`, for a KIP. -/
def applyIpsFile (kip file : List UInt8) : Except KipStop (List UInt8) :=
  if ∀ w ∈ ipsWrites kip.length file, w.Within 0x100 kip.length then return applyAll (ipsWrites kip.length file) kip
  else .error .outside

/-- The version that `apply_kip_ips_patches` finds. -/
def fsVersion (kip : List UInt8) : Option Nat :=
  if titleId kip = fsTitleId then identifyFs (files.sha.digest kip) else none

/-- `apply_kip_ips_patches`: the patched KIP, if there are patches. -/
def applyKipIpsPatches (kip : List UInt8) : Except KipStop (Option (List UInt8)) :=
  let hash := files.sha.digest kip
  if titleId kip = fsTitleId ∧ fsVersion files kip = none then .error .fatal
  else if hasNeededDefaultKipPatches files (titleId kip) hash = false then .error .fatal
  else if hasIpsPatches files hash then do
    let uncompressed ← kip1Uncompress kip
    let patched ← (files.patches hash).foldlM applyIpsFile uncompressed
    return some patched
  else return none

/-- The module that is injected into a KIP. -/
def moduleFor (kip : List UInt8) : Option (List UInt8) :=
  if titleId kip = fsTitleId then emummc else none

/-- What takes the place of a KIP, if anything does. -/
def patchedKip (kip : List UInt8) : Except KipStop (Option (List UInt8)) := do
  let patched ← applyKipIpsPatches files kip
  match moduleFor emummc kip with
  | none => return patched
  | some emummc => do
    -- the version of FS is known here, as that of every FS is
    let kip ← injectEmummcKip ((fsVersion files kip).getD fsHashes.length) (patched.getD kip) emummc
    return some kip

/-- The INI1 while it is merged: the titles that are in it, what is left of it, and the bytes with the place of the
next KIP. -/
structure Merge where
  processList : List Nat
  remainingSize : Nat
  kipData : List UInt8
  currentDst : Nat

/-- A KIP is copied. -/
def Merge.copy (m : Merge) (title : Nat) (kip : List UInt8) : Merge :=
  { processList := m.processList ++ [title]
    remainingSize := m.remainingSize - kip.length
    kipData := splice m.kipData m.currentDst kip
    currentDst := m.currentDst + kip.length }

/-- The body of the inner loop of `stratosphere_merge_inis`, behind the check of the magic. -/
def mergeKip (currentKip : List UInt8) (m : Merge) : Except KipStop Merge :=
  if titleId currentKip ∈ m.processList then return m
  else
    let currentKipSize := kip1GetSizeFromHeader currentKip
    if m.remainingSize < currentKipSize then .error .fatal
    else do
      let patched ← patchedKip files emummc (currentKip.take currentKipSize)
      match patched with
      | none => return m.copy (titleId currentKip) (currentKip.take currentKipSize)
      | some patched =>
        let patchedSize := kip1GetSizeFromHeader patched
        if m.remainingSize < patchedSize then .error .fatal
        else do
          let kip ← readBytes patched 0 patchedSize
          return m.copy (titleId currentKip) kip

end

/-- The inner loop of `stratosphere_merge_inis`, with the processes that are left and the offset. -/
def mergeIni (files : BootFiles) (emummc : Option (List UInt8)) (data : List UInt8) :
    Nat → Nat → Merge → Except KipStop Merge
  | 0, _, m => return m
  | p + 1, offset, m =>
    let currentKip := data.drop offset
    if kipMagic currentKip ≠ magicKip1 then .error .fatal
    else do
      let m ← mergeKip files emummc currentKip m
      mergeIni files emummc data p ((offset + kip1GetSizeFromHeader currentKip) % 2 ^ 32) m

/-- The outer loop of `stratosphere_merge_inis`. -/
def mergeAll (files : BootFiles) (emummc : Option (List UInt8)) : List Ini1 → Merge → Except KipStop Merge
  | [], m => return m
  | ini :: inis, m => do
    let m ← mergeIni files emummc ini.kipData ini.numProcesses 0 m
    mergeAll files emummc inis m

/-- The size of an INI1, which is a multiple of 4. -/
def roundSize (size : Nat) : Nat := if size % 4 ≠ 0 then (size + 3) / 4 * 4 else size

/-- `stratosphere_merge_inis`, with the bytes of the memory that is allocated. -/
def stratosphereMergeInis (files : BootFiles) (emummc : Option (List UInt8)) (memory : List UInt8)
    (inis : List Ini1) : Except KipStop Ini1 :=
  if inis.any fun ini => ini.magic ≠ magicIni1 ∨ ini1MaxKips < ini.numProcesses then .error .fatal
  else if ini1MaxKips < (inis.map Ini1.numProcesses).sum then .error .fatal
  else do
    let m ← mergeAll files emummc inis ⟨[], package2SizeMax - ini1HeaderSize, memory, 0⟩
    return ⟨magicIni1, roundSize (ini1HeaderSize + m.currentDst), m.processList.length, m.kipData⟩

section Size

variable {files : BootFiles} {emummc : Option (List UInt8)} {memory : List UInt8} {inis : List Ini1} {ini : Ini1}
  {m m' : Merge}

/-- What has been merged and what is left. -/
def Merge.total (m : Merge) : Nat := m.currentDst + m.remainingSize

lemma Merge.total_copy {title : Nat} {kip : List UInt8} (h : kip.length ≤ m.remainingSize) :
    (m.copy title kip).total = m.total := by
  rw [total, copy, total]
  dsimp only
  omega

lemma mergeKip_total {kip : List UInt8} (h : mergeKip files emummc kip m = .ok m') : m'.total = m.total := by
  rw [mergeKip] at h
  split at h
  · cases h
    rfl
  dsimp only at h
  split at h
  · cases h
  next hfits =>
  obtain ⟨patched, -, h⟩ := bind_eq_ok h
  cases patched with
  | none =>
    cases h
    exact Merge.total_copy ((List.length_take_le _ _).trans (Nat.not_lt.mp hfits))
  | some patched =>
    dsimp only at h
    split at h
    · cases h
    next hfits' =>
    obtain ⟨out, hout, h⟩ := bind_eq_ok h
    cases h
    rw [readBytes] at hout
    split at hout
    · cases hout
      exact Merge.total_copy ((List.length_take_le _ _).trans (Nat.not_lt.mp hfits'))
    · cases hout

lemma mergeIni_total {data : List UInt8} {p offset : Nat} (h : mergeIni files emummc data p offset m = .ok m') :
    m'.total = m.total := by
  induction p generalizing offset m with
  | zero =>
    cases h
    rfl
  | succ p ih =>
    rw [mergeIni] at h
    split at h
    · cases h
    · obtain ⟨m₁, hkip, h⟩ := bind_eq_ok h
      exact (ih h).trans (mergeKip_total hkip)

lemma mergeAll_total (h : mergeAll files emummc inis m = .ok m') : m'.total = m.total := by
  induction inis generalizing m with
  | nil =>
    cases h
    rfl
  | cons ini inis ih =>
    obtain ⟨m₁, hini, h⟩ := bind_eq_ok h
    exact (ih h).trans (mergeIni_total hini)

/-- A merged INI1 is not larger than a package. -/
lemma size_stratosphereMergeInis (h : stratosphereMergeInis files emummc memory inis = .ok ini) :
    ini.size ≤ package2SizeMax := by
  rw [stratosphereMergeInis] at h
  split at h
  · cases h
  split at h
  · cases h
  obtain ⟨m, hmerge, h⟩ := bind_eq_ok h
  cases h
  have htotal : m.currentDst + m.remainingSize = 0 + (0x7FC000 - 0x10) := mergeAll_total hmerge
  show roundSize (0x10 + m.currentDst) ≤ 0x7FC000
  rw [roundSize]
  split
  · omega
  · omega

end Size

/-! ## What is merged -/

/-- The bytes that are copied for a KIP: as it was given, or what takes its place. -/
def copiedKip (kip : List UInt8) : Option (List UInt8) → Except KipStop (List UInt8)
  | none => return kip
  | some patched => readBytes patched 0 (kip1GetSizeFromHeader patched)

section

variable (files : BootFiles) (emummc : Option (List UInt8))

/-- The size that a KIP has behind its patches. -/
def patchedSize (kip : List UInt8) : Nat :=
  if hasIpsPatches files (files.sha.digest kip) then 0x100 + loadedSize kip else kip.length

end

/-! ## What the code does not check -/

section Patches

variable {n last : Nat} {image kip : List UInt8} {w : Write} {ws : List Write} {file : List UInt8}

end Patches

/-! ## One KIP -/

section Kip

variable {files : BootFiles} {emummc : Option (List UInt8)} {kip out e : List UInt8}

/-- What the patches make of a KIP that is not rejected. -/
structure PatchedFrom (files : BootFiles) (kip : List UInt8) (patched : Option (List UInt8)) : Prop where
  isSome_eq : patched.isSome = hasIpsPatches files (files.sha.digest kip)
  uncompressedFrom : ∀ p, patched = some p → UncompressedFrom kip p

/-- Bytes that are a KIP of a size, by their header too. -/
structure KipOfSize (size : Nat) (out : List UInt8) : Prop where
  length_eq : out.length = size
  size_eq : kip1GetSizeFromHeader out = size

/-- An image is copied if it is as large as its header says. -/
lemma copiedKip_some {size : Nat} (hsize : kip1GetSizeFromHeader out = size) (hheader : 0x100 ≤ size) :
    (size ≤ out.length → ∃ kip', copiedKip kip (some out) = .ok kip' ∧ KipOfSize size kip') ∧
      (out.length < size → copiedKip kip (some out) = .error .outside) := by
  rw [copiedKip, hsize]
  constructor
  · intro hle
    have hread : 0 + size ≤ out.length := (Nat.zero_add _).trans_le hle
    have htake : slice out 0 size = out.take size := by rw [slice, List.drop_zero]
    refine ⟨slice out 0 size, readBytes_eq hread, length_slice hread, ?_⟩
    rw [htake, ← hsize]
    apply kip1GetSizeFromHeader_of_take_eq
    rw [List.take_take, Nat.min_eq_left (hsize ▸ hheader)]
  · intro hlt
    refine if_neg fun hfits => ?_
    rcases hfits with hempty | hle
    · omega
    · omega

/-- A KIP that nothing is injected into, with its patches. -/
lemma PatchedFrom.copiedKip {patched : Option (List UInt8)} (h : PatchedFrom files kip patched)
    (hstored : StoredKip kip) :
    ∃ out, Fusee.copiedKip kip patched = .ok out ∧ KipOfSize (patchedSize files kip) out := by
  rw [patchedSize, ← h.isSome_eq]
  cases patched with
  | none => exact ⟨kip, rfl, rfl, hstored.size_eq⟩
  | some p =>
    have hfrom := h.uncompressedFrom p rfl
    have hsize := (hfrom.stored hstored).size_eq.trans hfrom.length_eq
    exact (copiedKip_some hsize (Nat.le_add_right _ _)).1 hfrom.length_eq.ge

/-- FS, patched or not, is one that a module can be injected into. -/
lemma PatchedFrom.wellFormed {patched : Option (List UInt8)} (h : PatchedFrom files kip patched)
    (hwf : WellFormedKip kip) : WellFormedKip (patched.getD kip) ∧ loadedSize (patched.getD kip) = loadedSize kip := by
  cases patched with
  | none => exact ⟨hwf, rfl⟩
  | some p =>
    have hfrom := h.uncompressedFrom p rfl
    exact ⟨(hfrom.stored hwf.toStoredKip).wellFormed (hfrom.uncompressed hwf.header_le),
      hfrom.loadedSize_eq hwf.header_le⟩

end Kip

section Injected

variable {files : BootFiles} {emummc : Option (List UInt8)} {kip out fs e : List UInt8} {m m' xs : List UInt8}
  {a n allocated fsVer : Nat}

end Injected

section Merged

variable {files : BootFiles} {emummc : Option (List UInt8)} {kip e : List UInt8} {kips : List (List UInt8)}

end Merged

/-! ## The merged image -/

/-- How many bytes of KIPs an INI1 can have. -/
def capacity : Nat := package2SizeMax - ini1HeaderSize

/-- The merged INI1 has some KIPs, one behind the other. -/
structure HasKips (m : Merge) (outs : List (List UInt8)) : Prop where
  currentDst_eq : m.currentDst = outs.flatten.length
  kipData_eq : ∃ rest, m.kipData = outs.flatten ++ rest
  length_eq : m.kipData.length = capacity
  remainingSize_eq : m.remainingSize = capacity - outs.flatten.length
  count_eq : m.processList.length = outs.length
  sizes : ∀ out ∈ outs, 0x100 ≤ out.length ∧ kip1GetSizeFromHeader out = out.length

section Merge

variable {files : BootFiles} {emummc : Option (List UInt8)} {kip rest : List UInt8} {m : Merge}
  {outs kips : List (List UInt8)}

/-- A KIP is copied behind the others. -/
lemma HasKips.copy (h : HasKips m outs) (title : Nat) (hheader : 0x100 ≤ kip.length)
    (hsize : kip1GetSizeFromHeader kip = kip.length) (hfits : outs.flatten.length + kip.length ≤ capacity) :
    HasKips (m.copy title kip) (outs ++ [kip]) := by
  obtain ⟨rest, hdata⟩ := h.kipData_eq
  have hlength := h.length_eq
  have hflatten : (outs ++ [kip]).flatten = outs.flatten ++ kip := by
    rw [List.flatten_append, List.flatten_singleton]
  have hroom : m.currentDst + kip.length ≤ m.kipData.length := by rw [h.currentDst_eq, hlength]; exact hfits
  constructor
  case currentDst_eq => rw [hflatten, List.length_append, Merge.copy, h.currentDst_eq]
  case kipData_eq =>
    refine ⟨rest.drop kip.length, ?_⟩
    rw [Merge.copy, splice, h.currentDst_eq, hdata, List.take_left, ← List.drop_drop, List.drop_left, hflatten]
  case length_eq => exact (length_splice hroom).trans hlength
  case remainingSize_eq =>
    rw [hflatten, List.length_append, Merge.copy, h.remainingSize_eq]
    exact Nat.sub_sub _ _ _
  case count_eq => rw [Merge.copy, List.length_append, List.length_append, h.count_eq]; rfl
  case sizes =>
    intro out hout
    rcases List.mem_append.mp hout with hout | hout
    · exact h.sizes out hout
    · cases List.mem_singleton.mp hout
      exact ⟨hheader, hsize⟩

end Merge

section Inis

variable {files : BootFiles} {emummc : Option (List UInt8)} {memory : List UInt8} {inis : List Ini1}
  {kipss : List (List (List UInt8))}

end Inis

section Example

lemma length_zeroDigest (_ : List UInt8) : (List.replicate 0x20 (0 : UInt8)).length = 0x20 := List.length_replicate

/-- An SD card with one file that is a patch for every KIP. -/
def patchFiles (patch : List UInt8) : BootFiles :=
  ⟨⟨fun _ => List.replicate 0x20 0, length_zeroDigest⟩, fun _ => [ipsMagic false ++ patch], false, fun _ => false⟩

end Example

end RajNX.Fusee
