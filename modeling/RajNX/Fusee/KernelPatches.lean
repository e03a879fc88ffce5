import RajNX.Fusee.SearchPattern
import RajNX.Lib.LittleEndian
import RajNX.Lib.Regions
import RajNX.Lib.WriteTrace

/-!
# Kernel patches

What `package2_patch_kernel` of `kernel_patches.c` does with the table of a kernel. A patch with an offset is
written in place. Any other one is a hook: the instruction behind a pattern is replaced by a branch to a block of
the free space behind the code, which holds the payload and, if need be, a branch back. The blocks are taken one
behind the other.

IPS patches and the pointer to the embedded INI1 are not looked at.
-/

namespace RajNX.Fusee.KernelPatches

open LittleEndian Occurrence Regions Splice WriteTrace

/-- `kernel_patch_t` -/
structure KernelPatch where
  pattern : List UInt8
  patternHookOffset : Nat
  branchBackOffset : Nat
  patchOffset : Nat
  payload : List UInt32
deriving Repr, DecidableEq

/-- `kernel_info_t`, with what the patches need of it. -/
structure KernelInfo where
  freeCodeSpaceOffset : Nat
  patches : List KernelPatch
deriving Repr, DecidableEq

/-- `MAKE_BRANCH` -/
def makeBranch (a o : UInt32) : UInt32 := (0x14000000 : UInt32) ||| ((o - a) >>> 2 &&& 0x3FFFFFF)

/-- An instruction is stored. -/
def store (offset : Nat) (instruction : UInt32) : Write := .copy offset (leBytes 4 instruction.toNat)

namespace KernelPatch

/-- `hook_size` -/
def hookSize (patch : KernelPatch) : Nat :=
  4 * patch.payload.length + if patch.branchBackOffset ≠ 0 then 4 else 0

/-- The loop over the payload of a patch that is written in place. Its index is not part of the address. -/
def inPlaceStores (patch : KernelPatch) : List Write := patch.payload.map (store patch.patchOffset)

/-- The loop over the payload of a hook, and the branch back. -/
def blockStores (patch : KernelPatch) (hookStart freeSpaceOffset : Nat) : List Write :=
  let back := freeSpaceOffset + 4 * patch.payload.length
  (patch.payload.mapIdx fun p instruction => store (freeSpaceOffset + 4 * p) instruction) ++
    if patch.branchBackOffset ≠ 0 then
      [store back (makeBranch (.ofNat back) (.ofNat (patch.branchBackOffset + hookStart)))]
    else []

/-- All that is stored for a hook. -/
def hookStores (patch : KernelPatch) (hookStart freeSpaceOffset : Nat) : List Write :=
  store hookStart (makeBranch (.ofNat hookStart) (.ofNat freeSpaceOffset)) ::
    patch.blockStores hookStart freeSpaceOffset

end KernelPatch

/-- Stores to the kernel, if all of them are inside. -/
def storeAll (kernel : List UInt8) (stores : List Write) : Option (List UInt8) :=
  if ∀ w ∈ stores, w.Within 0 kernel.length then some (applyAll stores kernel) else none

/-- The variables of the loop over the patches. -/
structure PatchState where
  kernel : List UInt8
  freeSpaceOffset : Nat
  freeSpaceSize : Nat

/-- A turn of the loop over the patches. It gives nothing if it ends with a fatal error or leaves the kernel. -/
def applyPatch : PatchState → KernelPatch → Option PatchState
  | ⟨kernel, freeSpaceOffset, freeSpaceSize⟩, patch =>
    if patch.patchOffset ≠ 0 then
      (storeAll kernel patch.inPlaceStores).map fun kernel => ⟨kernel, freeSpaceOffset, freeSpaceSize⟩
    else if freeSpaceSize < patch.hookSize then none
    else
      match searchPattern kernel patch.pattern (kernel.length + 2) with
      | some (.found patternLoc) =>
        (storeAll kernel (patch.hookStores (patternLoc + patch.patternHookOffset) freeSpaceOffset)).map fun kernel =>
          ⟨kernel, freeSpaceOffset + patch.hookSize, freeSpaceSize - patch.hookSize⟩
      | some .null => some ⟨kernel, freeSpaceOffset, freeSpaceSize⟩
      | _ => none

namespace KernelInfo

/-- `free_space_size`, up to the end of the page. -/
def freeSpaceSize (info : KernelInfo) : Nat :=
  (info.freeCodeSpaceOffset + 0xFFF) / 0x1000 * 0x1000 - info.freeCodeSpaceOffset

/-- `package2_patch_kernel`, for a kernel that has been found in the table. -/
def package2PatchKernel (info : KernelInfo) (kernel : List UInt8) : Option (List UInt8) :=
  (info.patches.foldlM applyPatch ⟨kernel, info.freeCodeSpaceOffset, info.freeSpaceSize⟩).map PatchState.kernel

end KernelInfo

section Length

variable {kernel kernel' : List UInt8}

/-- Stores leave a kernel its size. -/
lemma length_storeAll {stores : List Write} (h : storeAll kernel stores = some kernel') :
    kernel'.length = kernel.length := by
  rw [storeAll] at h
  split at h
  · cases h
    exact length_applyAll _ _
  · cases h

lemma length_applyPatch {s t : PatchState} {patch : KernelPatch} (h : applyPatch s patch = some t) :
    t.kernel.length = s.kernel.length := by
  rw [applyPatch] at h
  split at h
  · obtain ⟨_, hstore, rfl⟩ := Option.map_eq_some_iff.mp h
    exact length_storeAll hstore
  split at h
  · cases h
  split at h
  · obtain ⟨_, hstore, rfl⟩ := Option.map_eq_some_iff.mp h
    exact length_storeAll hstore
  · cases h
    rfl
  · cases h

/-- The loop over the patches leaves it its size. -/
lemma length_package2PatchKernel {info : KernelInfo} (h : info.package2PatchKernel kernel = some kernel') :
    kernel'.length = kernel.length := by
  obtain ⟨t, hloop, rfl⟩ := Option.map_eq_some_iff.mp h
  have hfold (patches : List KernelPatch) : ∀ s : PatchState, patches.foldlM applyPatch s = some t →
      t.kernel.length = s.kernel.length := by
    induction patches with
    | nil =>
      rintro s ⟨⟩
      rfl
    | cons patch patches ih =>
      intro s hloop
      rw [List.foldlM_cons] at hloop
      obtain ⟨s', hturn, hrest⟩ := Option.bind_eq_some_iff.mp hloop
      exact (ih s' hrest).trans (length_applyPatch hturn)
  exact hfold _ _ hloop

end Length

/-! ## Where patches go -/

/-- Where a patch goes in a kernel: to its offset, to the first place of its pattern, or nowhere. -/
inductive Place
  | inPlace
  | hook (patternLoc : Nat)
  | nowhere
deriving Repr, DecidableEq

namespace KernelPatch

/-- Where a patch goes in a kernel. -/
def place (patch : KernelPatch) (kernel : List UInt8) : Place :=
  if patch.patchOffset ≠ 0 then .inPlace
  else
    match firstMatch patch.pattern kernel with
    | some patternLoc => .hook patternLoc
    | none => .nowhere

/-- The range of a patch that is written in place, or the one of a hook. -/
def range (hookRange : KernelPatch → Nat → Region) (kernel : List UInt8) (patch : KernelPatch) : Option Region :=
  match patch.place kernel with
  | .inPlace => some ⟨patch.patchOffset, 4 * patch.payload.length⟩
  | .hook patternLoc => some (hookRange patch patternLoc)
  | .nowhere => none

/-- The pattern of a hook. -/
def matchRange (patch : KernelPatch) (patternLoc : Nat) : Region := ⟨patternLoc, patch.pattern.length⟩

/-- The instruction that is hooked. -/
def hookedRange (patch : KernelPatch) (patternLoc : Nat) : Region := ⟨patternLoc + patch.patternHookOffset, 4⟩

/-- The room that a patch takes of the free space. -/
def blockSize (kernel : List UInt8) (patch : KernelPatch) : Nat :=
  match patch.place kernel with
  | .hook _ => patch.hookSize
  | _ => 0

/-- What is stored for a patch. -/
def stores (kernel : List UInt8) (patch : KernelPatch) (freeSpaceOffset : Nat) : List Write :=
  match patch.place kernel with
  | .inPlace => patch.inPlaceStores
  | .hook patternLoc => patch.hookStores (patternLoc + patch.patternHookOffset) freeSpaceOffset
  | .nowhere => []

end KernelPatch

/-- The room that some patches take. -/
def blockSum (kernel : List UInt8) (patches : List KernelPatch) : Nat :=
  (patches.map (KernelPatch.blockSize kernel)).sum

/-- What is stored for some patches. -/
def allStores (kernel : List UInt8) : List KernelPatch → Nat → List Write
  | [], _ => []
  | patch :: patches, freeSpaceOffset =>
    patch.stores kernel freeSpaceOffset ++ allStores kernel patches (freeSpaceOffset + patch.blockSize kernel)

/-- No address is in two of some ranges, and all addresses are inside. -/
structure Separate (size : Nat) (ranges : List Region) : Prop where
  apart : ranges.Pairwise fun r r' => ∀ a, r.Contains a → ¬r'.Contains a
  inside : ∀ r ∈ ranges, ∀ a, r.Contains a → a < size

namespace KernelInfo

/-- The free space. -/
def freeSpace (info : KernelInfo) : Region := ⟨info.freeCodeSpaceOffset, info.freeSpaceSize⟩

variable (kernel : List UInt8) (info : KernelInfo)

/-- The part of the free space that the hooks take. -/
def taken : Region :=
  ⟨info.freeCodeSpaceOffset, blockSum kernel info.patches⟩

/-- The ranges of the patches. -/
def ranges (hookRange : KernelPatch → Nat → Region) (kernel : List UInt8) (info : KernelInfo) : List Region :=
  info.patches.filterMap (KernelPatch.range hookRange kernel)

/-- The patches in front of patch number `n`. -/
def upTo (n : Nat) : KernelInfo := { info with patches := info.patches.take n }

/-- The free space that is left for patch number `n`. -/
def cursor (n : Nat) : Nat :=
  info.freeCodeSpaceOffset + blockSum kernel (info.patches.take n)

/-- Patch number `n` is a hook with a pattern that occurs. -/
def HookAt (n : Nat) (patch : KernelPatch) (patternLoc : Nat) : Prop :=
  info.patches[n]? = some patch ∧ patch.place kernel = .hook patternLoc

/-- The tables that are looked at: the ranges that are patched, the patterns that occur and the free space are
separate, and there is room for all hooks. -/
structure Sane : Prop where
  size_lt : kernel.length < 2 ^ 32
  pattern_lt : ∀ patch ∈ info.patches, patch.pattern.length < 2 ^ 32
  pattern_ne : ∀ patch ∈ info.patches, patch.patchOffset = 0 → patch.pattern ≠ []
  separate : Separate kernel.length (info.freeSpace :: info.ranges KernelPatch.matchRange kernel)
  fits : (info.patches.map fun patch => if patch.patchOffset = 0 then patch.hookSize else 0).sum ≤ info.freeSpaceSize

/-- A pattern fits in the kernel. -/
def PatternsFit : Prop :=
  ∀ patch ∈ info.patches, patch.patchOffset = 0 → patch.pattern.length ≤ kernel.length

/-- An instruction that a table has at an offset: the last one of a patch that is written in place, the branch of a
hook, and the instructions of its block. -/
inductive Leaves (kernel : List UInt8) (info : KernelInfo) : Nat → UInt32 → Prop
  | inPlace {n : Nat} {patch : KernelPatch} {i : UInt32} (hn : info.patches[n]? = some patch)
    (hin : patch.patchOffset ≠ 0) (hi : patch.payload.getLast? = some i) : Leaves kernel info patch.patchOffset i
  | hooked {n m : Nat} {patch : KernelPatch} (hhook : info.HookAt kernel n patch m) :
    Leaves kernel info (m + patch.patternHookOffset)
      (makeBranch (.ofNat (m + patch.patternHookOffset)) (.ofNat (info.cursor kernel n)))
  | payload {n m p : Nat} {patch : KernelPatch} {i : UInt32} (hhook : info.HookAt kernel n patch m)
    (hp : patch.payload[p]? = some i) : Leaves kernel info (info.cursor kernel n + 4 * p) i
  | branchBack {n m : Nat} {patch : KernelPatch} (hhook : info.HookAt kernel n patch m)
    (hback : patch.branchBackOffset ≠ 0) :
    Leaves kernel info (info.cursor kernel n + 4 * patch.payload.length)
      (makeBranch (.ofNat (info.cursor kernel n + 4 * patch.payload.length))
        (.ofNat (patch.branchBackOffset + (m + patch.patternHookOffset))))

/-- A pattern lies at `j` if the instructions of the table are taken where it has them, and the kernel elsewhere. -/
def Looks (pattern : List UInt8) (j : Nat) : Prop :=
  j + pattern.length ≤ kernel.length ∧ ∀ k < pattern.length,
    (∀ o i, info.Leaves kernel o i → o ≤ j + k → j + k < o + 4 → (leBytes 4 i.toNat)[j + k - o]? = pattern[k]?) ∧
    ((∀ o i, info.Leaves kernel o i → ¬(o ≤ j + k ∧ j + k < o + 4)) → kernel[j + k]? = pattern[k]?)

/-- The hooked instructions are separate, too: from each other, the patches that are written in place and the
blocks. -/
def HooksSeparate : Prop :=
  Separate kernel.length (info.taken kernel :: info.ranges KernelPatch.hookedRange kernel)

/-- The hooked instructions are separate, and the patches in front of a hook neither change its pattern nor bring it
about at a place in front of it. -/
structure HooksFound : Prop where
  separate : info.HooksSeparate kernel
  kept : ∀ n patch m, info.HookAt kernel n patch m → (info.upTo n).Looks kernel patch.pattern m
  first : ∀ n patch, info.patches[n]? = some patch → patch.patchOffset = 0 →
    ∀ j, (∀ m, firstMatch patch.pattern kernel = some m → j < m) → ¬(info.upTo n).Looks kernel patch.pattern j

/-- What `package2_patch_kernel` stores. -/
def patched : List UInt8 :=
  applyAll (allStores kernel info.patches info.freeCodeSpaceOffset) kernel

end KernelInfo

/-! ## Stores -/

section Stores

variable {kernel : List UInt8} {patch : KernelPatch} {patches patches' : List KernelPatch} {c a : Nat} {w : Write}

lemma covers_store {offset : Nat} {i : UInt32} : (store offset i).Covers a ↔ offset ≤ a ∧ a < offset + 4 := by
  rw [store, Write.Covers, Write.position_copy, Write.size_copy, length_leBytes]

/-- A store of a block is one of its instructions. -/
lemma mem_blockStores {hookStart : Nat} (h : w ∈ patch.blockStores hookStart c) :
    ∃ k i, w = store (c + 4 * k) i ∧ 4 * k + 4 ≤ patch.hookSize := by
  rw [KernelPatch.hookSize]
  rcases List.mem_append.mp h with h | h
  · obtain ⟨k, hk, rfl⟩ := List.mem_mapIdx.mp h
    exact ⟨k, _, rfl, by omega⟩
  · split at h
    · next hback =>
      rw [if_pos hback]
      exact ⟨_, _, List.mem_singleton.mp h, by omega⟩
    · cases h

/-- What a patch stores is in its range or in its block. -/
lemma covers_stores (h : w ∈ patch.stores kernel c) (ha : w.Covers a) :
    (∃ r, patch.range KernelPatch.hookedRange kernel = some r ∧ r.Contains a) ∨
      (c ≤ a ∧ a < c + patch.blockSize kernel) := by
  rw [KernelPatch.stores] at h
  rw [KernelPatch.range, KernelPatch.blockSize]
  cases hplace : patch.place kernel with
  | inPlace =>
    rw [hplace] at h
    obtain ⟨i, hi, rfl⟩ := List.mem_map.mp h
    obtain ⟨hstart, hstop⟩ := covers_store.mp ha
    have hpos := List.length_pos_of_mem hi
    exact .inl ⟨_, rfl, hstart, by rw [Region.stop]; dsimp only; omega⟩
  | hook m =>
    rw [hplace] at h
    rcases List.mem_cons.mp h with rfl | h
    · exact .inl ⟨_, rfl, covers_store.mp ha⟩
    · obtain ⟨k, i, rfl, hk⟩ := mem_blockStores h
      obtain ⟨hstart, hstop⟩ := covers_store.mp ha
      exact .inr ⟨by omega, by dsimp only; omega⟩
  | nowhere =>
    rw [hplace] at h
    cases h

/-- Every store is one of an instruction. -/
lemma size_stores (h : w ∈ patch.stores kernel c) : w.size = 4 := by
  rw [KernelPatch.stores] at h
  split at h
  · obtain ⟨i, -, rfl⟩ := List.mem_map.mp h
    exact length_leBytes _ _
  · rcases List.mem_cons.mp h with rfl | h
    · exact length_leBytes _ _
    · obtain ⟨k, i, rfl, -⟩ := mem_blockStores h
      exact length_leBytes _ _
  · cases h

lemma covers_allStores (h : w ∈ allStores kernel patches c) (ha : w.Covers a) :
    (∃ r ∈ patches.filterMap (KernelPatch.range KernelPatch.hookedRange kernel), r.Contains a) ∨
      (c ≤ a ∧ a < c + blockSum kernel patches) := by
  induction patches generalizing c with
  | nil => cases h
  | cons patch patches ih =>
    rw [blockSum, List.map_cons, List.sum_cons, ← blockSum]
    rcases List.mem_append.mp h with h | h
    · rcases covers_stores h ha with ⟨r, hr, hin⟩ | hblock
      · exact .inl ⟨r, List.mem_filterMap.mpr ⟨patch, .head _, hr⟩, hin⟩
      · exact .inr (by omega)
    · rcases ih h with ⟨r, hr, hin⟩ | hblock
      · obtain ⟨patch', hpatch', hr⟩ := List.mem_filterMap.mp hr
        exact .inl ⟨r, List.mem_filterMap.mpr ⟨patch', .tail _ hpatch', hr⟩, hin⟩
      · exact .inr (by omega)

lemma blockSum_cons : blockSum kernel (patch :: patches) = patch.blockSize kernel + blockSum kernel patches := by
  rw [blockSum, List.map_cons, List.sum_cons, blockSum]

lemma blockSum_append : blockSum kernel (patches ++ patches') = blockSum kernel patches + blockSum kernel patches' := by
  rw [blockSum, List.map_append, List.sum_append]
  rfl

lemma allStores_append : allStores kernel (patches ++ patches') c =
    allStores kernel patches c ++ allStores kernel patches' (c + blockSum kernel patches) := by
  induction patches generalizing c with
  | nil => rfl
  | cons patch patches ih =>
    rw [List.cons_append, allStores, ih, allStores, List.append_assoc, Nat.add_assoc]
    rfl

end Stores

/-! ## The loop over the patches -/

namespace KernelPatch

variable {kernel : List UInt8} {patch : KernelPatch}

lemma place_of_ne (h : patch.patchOffset ≠ 0) : patch.place kernel = .inPlace := if_pos h

lemma place_of_eq (h : patch.patchOffset = 0) : patch.place kernel =
    match firstMatch patch.pattern kernel with
    | some patternLoc => .hook patternLoc
    | none => .nowhere := if_neg (not_not.mpr h)

lemma place_eq_hook {m : Nat} (h : patch.place kernel = .hook m) : patch.patchOffset = 0 := by
  by_contra hne
  rw [place_of_ne hne] at h
  cases h

/-- Only hooks take room. -/
lemma blockSize_le : patch.blockSize kernel ≤ if patch.patchOffset = 0 then patch.hookSize else 0 := by
  rw [blockSize]
  split
  · next m hplace =>
    rw [if_pos (place_eq_hook hplace)]
  · exact Nat.zero_le _

lemma stores_of_ne (h : patch.patchOffset ≠ 0) (c : Nat) :
    patch.stores kernel c = patch.inPlaceStores ∧ patch.blockSize kernel = 0 := by
  rw [stores, blockSize, place_of_ne h]
  exact ⟨rfl, rfl⟩

lemma stores_of_some {m : Nat} (h : patch.patchOffset = 0) (hm : firstMatch patch.pattern kernel = some m) (c : Nat) :
    patch.stores kernel c = patch.hookStores (m + patch.patternHookOffset) c ∧
      patch.blockSize kernel = patch.hookSize := by
  rw [stores, blockSize, place_of_eq h, hm]
  exact ⟨rfl, rfl⟩

lemma stores_of_none (h : patch.patchOffset = 0) (hm : firstMatch patch.pattern kernel = none) (c : Nat) :
    patch.stores kernel c = [] ∧ patch.blockSize kernel = 0 := by
  rw [stores, blockSize, place_of_eq h, hm]
  exact ⟨rfl, rfl⟩

end KernelPatch

/-- The search finds the first place of a pattern that fits. -/
lemma searchPattern_eq {kernel pattern : List UInt8} (hsize : kernel.length < 2 ^ 32) (hne : pattern ≠ [])
    (hle : pattern.length ≤ kernel.length) :
    searchPattern kernel pattern (kernel.length + 2) =
      some (match firstMatch pattern kernel with
        | some patternLoc => .found patternLoc
        | none => .null) := by
  obtain ⟨r, hends, hexact⟩ := searchPattern_exact hne hsize hle
  rw [hends _ (by omega)]
  cases r with
  | found i => rw [firstMatch_eq_some_iff.mpr hexact]
  | null => rw [firstMatch_eq_none_iff.mpr hexact]
  | outside => exact hexact.elim

namespace KernelInfo

section Run

variable {kernel : List UInt8} {info : KernelInfo} {n : Nat} {patch : KernelPatch} {pre post : List KernelPatch}

lemma patches_split (hn : info.patches[n]? = some patch) :
    info.patches = info.patches.take n ++ patch :: info.patches.drop (n + 1) := by
  obtain ⟨hlt, rfl⟩ := List.getElem?_eq_some_iff.mp hn
  rw [List.getElem_cons_drop, List.take_append_drop]

lemma blockSum_le (kernel : List UInt8) (patches : List KernelPatch) : blockSum kernel patches ≤
    (patches.map fun patch => if patch.patchOffset = 0 then patch.hookSize else 0).sum :=
  List.sum_le_sum fun _ _ => KernelPatch.blockSize_le

/-- The hooks do not take more than there is. -/
lemma Sane.room (h : info.Sane kernel) (hsplit : info.patches = pre ++ patch :: post)
    (hhook : patch.patchOffset = 0) : blockSum kernel pre + patch.hookSize ≤ info.freeSpaceSize := by
  have hfits := h.fits
  rw [hsplit, List.map_append, List.sum_append, List.map_cons, List.sum_cons, if_pos hhook] at hfits
  have hpre := blockSum_le kernel pre
  omega

/-- All is stored inside of the kernel. -/
lemma HooksSeparate.stores_within (hsep : info.HooksSeparate kernel) (hsplit : info.patches = pre ++ patch :: post) :
    ∀ w ∈ patch.stores kernel (info.freeCodeSpaceOffset + blockSum kernel pre), w.Within 0 kernel.length := by
  intro w hw
  have hsize := size_stores hw
  have hlast : w.Covers (w.position + 3) := ⟨Nat.le_add_right _ _, by omega⟩
  rw [Write.within_iff (Nat.zero_le _)]
  refine .inr ?_
  rw [hsize]
  rcases covers_stores hw hlast with ⟨r, hr, hin⟩ | ⟨hstart, hstop⟩
  · refine hsep.inside r (.tail _ (List.mem_filterMap.mpr ⟨patch, ?_, hr⟩)) _ hin
    rw [hsplit]
    exact List.mem_append_right _ (.head _)
  · refine hsep.inside (info.taken kernel) (.head _) _ ⟨Nat.le_trans (Nat.le_add_right _ _) hstart, ?_⟩
    rw [taken, Region.stop, hsplit, blockSum_append, blockSum_cons]
    dsimp only
    omega

lemma storeAll_eq {stores : List Write} {kernel : List UInt8} (h : ∀ w ∈ stores, w.Within 0 kernel.length) :
    storeAll kernel stores = some (applyAll stores kernel) := if_pos h

/-- A turn of the loop on what has been patched: the pattern is searched where it has been. -/
lemma applyPatch_eq {current : List UInt8} {c size : Nat} (hlength : current.length = kernel.length)
    (hsize : kernel.length < 2 ^ 32)
    (hhook : patch.patchOffset = 0 → patch.pattern ≠ [] ∧ patch.pattern.length ≤ kernel.length ∧
      patch.hookSize ≤ size ∧ firstMatch patch.pattern current = firstMatch patch.pattern kernel)
    (hwithin : ∀ w ∈ patch.stores kernel c, w.Within 0 kernel.length) :
    applyPatch ⟨current, c, size⟩ patch =
      some ⟨applyAll (patch.stores kernel c) current, c + patch.blockSize kernel, size - patch.blockSize kernel⟩ := by
  rw [applyPatch]
  by_cases hin : patch.patchOffset = 0
  · obtain ⟨hne, hfit, hroom, hstable⟩ := hhook hin
    rw [if_neg (not_not.mpr hin), if_neg (Nat.not_lt.mpr hroom),
      searchPattern_eq (hlength ▸ hsize) hne (hlength ▸ hfit), hstable]
    cases hm : firstMatch patch.pattern kernel with
    | some m =>
      obtain ⟨hstores, hblock⟩ := patch.stores_of_some hin hm c
      rw [hstores] at hwithin
      rw [hstores, hblock]
      dsimp only
      rw [storeAll_eq (hlength ▸ hwithin), Option.map_some]
    | none =>
      obtain ⟨hstores, hblock⟩ := patch.stores_of_none hin hm c
      rw [hstores, hblock]
      rfl
  · obtain ⟨hstores, hblock⟩ := @KernelPatch.stores_of_ne kernel patch hin c
    rw [hstores] at hwithin
    rw [if_pos hin, hstores, hblock, storeAll_eq (hlength ▸ hwithin)]
    rfl

/-- The loop stores what is to be stored for all patches. -/
lemma package2PatchKernel_eq_patched (h : info.Sane kernel) (hsep : info.HooksSeparate kernel)
    (hfit : info.PatternsFit kernel) (hfirst : ∀ n patch, info.patches[n]? = some patch → patch.patchOffset = 0 →
      firstMatch patch.pattern ((info.upTo n).patched kernel) = firstMatch patch.pattern kernel) :
    info.package2PatchKernel kernel = some (info.patched kernel) := by
  have hloop : ∀ post pre, info.patches = pre ++ post →
      (post.foldlM applyPatch ⟨applyAll (allStores kernel pre info.freeCodeSpaceOffset) kernel,
        info.freeCodeSpaceOffset + blockSum kernel pre, info.freeSpaceSize - blockSum kernel pre⟩) =
      some ⟨applyAll (allStores kernel info.patches info.freeCodeSpaceOffset) kernel,
        info.freeCodeSpaceOffset + blockSum kernel info.patches,
        info.freeSpaceSize - blockSum kernel info.patches⟩ := by
    intro post
    induction post with
    | nil =>
      intro pre hsplit
      rw [hsplit, List.append_nil]
      rfl
    | cons patch post ih =>
      intro pre hsplit
      have hmem : patch ∈ info.patches := by
        rw [hsplit]
        exact List.mem_append_right _ (.head _)
      have hn : info.patches[pre.length]? = some patch := by
        rw [hsplit, List.getElem?_append_right le_rfl, Nat.sub_self]
        rfl
      have hhook (hin : patch.patchOffset = 0) : patch.pattern ≠ [] ∧ patch.pattern.length ≤ kernel.length ∧
          patch.hookSize ≤ info.freeSpaceSize - blockSum kernel pre ∧
          firstMatch patch.pattern (applyAll (allStores kernel pre info.freeCodeSpaceOffset) kernel) =
            firstMatch patch.pattern kernel := by
        have hstable := hfirst pre.length patch hn hin
        rw [patched, upTo, hsplit, List.take_left] at hstable
        exact ⟨h.pattern_ne patch hmem hin, hfit patch hmem hin, Nat.le_sub_of_add_le' (h.room hsplit hin), hstable⟩
      have hone (c : Nat) : allStores kernel [patch] c = patch.stores kernel c := List.append_nil _
      have hsum : blockSum kernel [patch] = patch.blockSize kernel := Nat.add_zero _
      have hrest := ih (pre ++ [patch]) (by rw [hsplit, List.append_assoc]; rfl)
      rw [allStores_append, applyAll_append, blockSum_append, hone, hsum, ← Nat.add_assoc, ← Nat.sub_sub] at hrest
      rw [List.foldlM_cons, applyPatch_eq (length_applyAll _ _) h.size_lt hhook (hsep.stores_within hsplit)]
      exact hrest
  have hrun := hloop info.patches [] rfl
  rw [package2PatchKernel]
  exact congrArg (Option.map PatchState.kernel) hrun

end Run

end KernelInfo

end RajNX.Fusee.KernelPatches
