import RajNX.Fusee.KernelPatches
import RajNX.Lib.Branch

/-!
# The patched kernel

What `package2_patch_kernel` leaves of a kernel, instruction by instruction, and what the patches of its table are
for: instructions in a row for a patch that is written in place, and for a hook a branch to a block that ends with
a branch back.

The loop over the payload of a patch that is written in place stores all of it to one offset.
-/

namespace RajNX.Fusee.KernelPatches

open LittleEndian Occurrence Regions Splice WriteTrace

/-- An instruction of a kernel. -/
def instructionAt (kernel : List UInt8) (offset : Nat) : UInt32 := .ofNat (leValue (slice kernel offset 4))

/-- A hook: a branch to a block with the payload, and behind it a branch back. -/
structure Hooked (kernel' : List UInt8) (patch : KernelPatch) (hookStart : Nat) (block : Int) : Prop where
  branch : Branch.target (instructionAt kernel' hookStart) hookStart = some block
  payload : ∀ (p : Nat) (i : UInt32), patch.payload[p]? = some i → instructionAt kernel' (block + 4 * p).toNat = i
  branchBack : patch.branchBackOffset ≠ 0 →
    Branch.target (instructionAt kernel' (block + 4 * patch.payload.length).toNat) (block + 4 * patch.payload.length) =
      some ((hookStart : Int) + patch.branchBackOffset)

/-- A kernel with all patches of a table, and the blocks of the hooks. -/
structure Applied (info : KernelInfo) (kernel kernel' : List UInt8) (block : Nat → Int) : Prop where
  length_eq : kernel'.length = kernel.length
  inPlace : ∀ patch ∈ info.patches, patch.patchOffset ≠ 0 → ∀ p i, patch.payload[p]? = some i →
    instructionAt kernel' (patch.patchOffset + 4 * p) = i
  hooked : ∀ n patch m, info.HookAt kernel n patch m → Hooked kernel' patch (m + patch.patternHookOffset) (block n)
  inside : ∀ n patch m, info.HookAt kernel n patch m → ∀ k < patch.hookSize,
    info.freeCodeSpaceOffset ≤ block n + k ∧ block n + k < info.freeCodeSpaceOffset + info.freeSpaceSize
  apart : ∀ n patch m n' patch' m', info.HookAt kernel n patch m → info.HookAt kernel n' patch' m' → n < n' →
    ∀ k < patch.hookSize, ∀ k' < patch'.hookSize, block n + k ≠ block n' + k'
  unchanged : ∀ a : Nat, (∀ r ∈ info.patches.filterMap (KernelPatch.range KernelPatch.hookedRange kernel),
      ¬r.Contains a) →
    (∀ n patch m, info.HookAt kernel n patch m → ∀ k < patch.hookSize, block n + k ≠ a) → kernel'[a]? = kernel[a]?

namespace KernelInfo

/-- All instructions of a patch are stored to its offset: the first one is the last one, and the others have been
there before. -/
def InPlaceHolds (kernel : List UInt8) (info : KernelInfo) : Prop :=
  ∀ patch ∈ info.patches, patch.patchOffset ≠ 0 → ∀ p i, patch.payload[p]? = some i →
    (p = 0 → patch.payload.getLast? = some i) ∧ (p ≠ 0 → instructionAt kernel (patch.patchOffset + 4 * p) = i)

/-- The branches of a hook can have their targets. -/
def BranchesReach (kernel : List UInt8) (info : KernelInfo) : Prop :=
  ∀ n patch m, info.HookAt kernel n patch m →
    (patch.hookSize ≠ 0 → Branch.Reaches (m + patch.patternHookOffset : Nat) (info.cursor kernel n)) ∧
    (patch.branchBackOffset ≠ 0 → Branch.Reaches (info.cursor kernel n + 4 * patch.payload.length : Nat)
      (m + patch.patternHookOffset + patch.branchBackOffset : Nat))

end KernelInfo

/-! ## Branches and instructions -/

/-- The opcode and the low bits of a number. -/
lemma toNat_makeBranch (a o : UInt32) :
    (makeBranch a o).toNat = 2 ^ 26 * Branch.opcode + (o - a).toNat / 4 % 2 ^ 26 := by
  have hlow : ((o - a) >>> 2 &&& 0x3FFFFFF).toNat = (o - a).toNat / 4 % 2 ^ 26 := by
    rw [UInt32.toNat_and, UInt32.toNat_shiftRight]
    exact (Nat.and_two_pow_sub_one_eq_mod _ 26).trans (by rw [Nat.shiftRight_eq_div_pow]; rfl)
  rw [makeBranch, UInt32.toNat_or, hlow]
  exact (Nat.two_pow_add_eq_or_of_lt (Nat.mod_lt _ (Nat.two_pow_pos 26)) Branch.opcode).symm

/-- `MAKE_BRANCH` keeps 26 bits of the distance in instructions. -/
lemma target_makeBranch (a o : Nat) (pc : Int) :
    Branch.target (makeBranch (.ofNat a) (.ofNat o)) pc = some (Branch.landing pc (((o : Int) - a) / 4)) := by
  refine Branch.target_of_toNat_eq (toNat_makeBranch _ _) ?_
  rw [UInt32.toNat_sub, UInt32.toNat_ofNat', UInt32.toNat_ofNat']
  omega

lemma instructionAt_of_slice_eq {kernel : List UInt8} {offset : Nat} {i : UInt32}
    (h : slice kernel offset 4 = leBytes 4 i.toNat) : instructionAt kernel offset = i := by
  have hlt : i.toNat < 256 ^ 4 := i.toNat_lt
  rw [instructionAt, h, leValue_leBytes, Nat.mod_eq_of_lt hlt, UInt32.ofNat_toNat]

namespace KernelInfo

/-! ## What is left of each patch -/

section Patched

variable {kernel : List UInt8} {info : KernelInfo} {n m a o : Nat} {patch : KernelPatch} {i : UInt32}

/-- The stores in front of those of a patch, and behind them. -/
lemma allStores_split (hn : info.patches[n]? = some patch) :
    allStores kernel info.patches info.freeCodeSpaceOffset =
      allStores kernel (info.patches.take n) info.freeCodeSpaceOffset ++ (patch.stores kernel (info.cursor kernel n) ++
          allStores kernel (info.patches.drop (n + 1)) (info.cursor kernel n + patch.blockSize kernel)) := by
  conv_lhs => rw [patches_split hn]
  rw [allStores_append]
  rfl

/-- The blocks up to that of a patch, and the ones behind it, are what is taken of the free space. -/
lemma cursor_add (hn : info.patches[n]? = some patch) :
    info.cursor kernel n + patch.blockSize kernel + blockSum kernel (info.patches.drop (n + 1)) =
      info.freeCodeSpaceOffset + blockSum kernel info.patches := by
  conv_rhs => rw [patches_split hn, blockSum_append, blockSum_cons]
  rw [cursor, Nat.add_assoc, Nat.add_assoc]

lemma contains_taken (hn : info.patches[n]? = some patch) (hstart : info.cursor kernel n ≤ a)
    (hstop : a < info.cursor kernel n + patch.blockSize kernel) : (info.taken kernel).Contains a := by
  have hadd := @cursor_add kernel info n patch hn
  refine ⟨(Nat.le_add_right _ _).trans hstart, ?_⟩
  rw [taken, Region.stop]
  dsimp only
  omega

/-- What the hooks take of the free space fits. -/
lemma Sane.taken_le (h : info.Sane kernel) : blockSum kernel info.patches ≤ info.freeSpaceSize :=
  (blockSum_le kernel info.patches).trans h.fits

/-- The patches in front of one are separate. -/
lemma HooksSeparate.upTo (hsep : info.HooksSeparate kernel) (n : Nat) : (info.upTo n).HooksSeparate kernel := by
  have hsub : ((info.upTo n).ranges KernelPatch.hookedRange kernel).Sublist
      (info.ranges KernelPatch.hookedRange kernel) := (List.take_sublist _ _).filterMap _
  have htaken {a : Nat} (ha : ((info.upTo n).taken kernel).Contains a) : (info.taken kernel).Contains a := by
    refine ⟨ha.1, ha.2.trans_le (Nat.add_le_add_left ?_ _)⟩
    conv_rhs => rw [taken, ← List.take_append_drop n info.patches, blockSum_append]
    exact Nat.le_add_right _ _
  obtain ⟨hblocks, hranges⟩ := List.pairwise_cons.mp hsep.apart
  obtain ⟨hin, hins⟩ := List.forall_mem_cons.mp hsep.inside
  exact ⟨List.pairwise_cons.mpr ⟨fun r hr a ha => hblocks r (hsub.subset hr) a (htaken ha), hranges.sublist hsub⟩,
    List.forall_mem_cons.mpr ⟨fun a ha => hin a (htaken ha), fun r hr => hins r (hsub.subset hr)⟩⟩

section

variable (hsep : info.HooksSeparate kernel) (hn : info.patches[n]? = some patch)

include hsep hn

/-- An address in a range is not one of a block, and not one of the ranges of the other patches. -/
lemma HooksSeparate.apart {r : Region} (hr : patch.range KernelPatch.hookedRange kernel = some r) (ha : r.Contains a) :
    ¬(info.taken kernel).Contains a ∧
      (∀ r' ∈ (info.patches.take n).filterMap (KernelPatch.range KernelPatch.hookedRange kernel), ¬r'.Contains a) ∧
      ∀ r' ∈ (info.patches.drop (n + 1)).filterMap (KernelPatch.range KernelPatch.hookedRange kernel),
        ¬r'.Contains a := by
  obtain ⟨htaken, hranges⟩ := List.pairwise_cons.mp (Separate.apart hsep)
  have hmem : r ∈ info.ranges KernelPatch.hookedRange kernel :=
    List.mem_filterMap.mpr ⟨patch, List.mem_of_getElem? hn, hr⟩
  rw [ranges, patches_split hn, List.filterMap_append, List.filterMap_cons, hr] at hranges
  obtain ⟨-, hlater, hbefore⟩ := List.pairwise_append.mp hranges
  refine ⟨fun hin => htaken r hmem a hin ha, fun r' hr' hin => ?_, fun r' hr' => ?_⟩
  · exact hbefore r' hr' r (.head _) a hin ha
  · exact (List.pairwise_cons.mp hlater).1 r' hr' a ha

/-- What is stored for the other patches is not in the range of a patch. -/
lemma HooksSeparate.not_covers_of_range
    {r : Region} (hr : patch.range KernelPatch.hookedRange kernel = some r) (ha : r.Contains a) :
    (∀ w ∈ allStores kernel (info.patches.take n) info.freeCodeSpaceOffset, ¬w.Covers a) ∧
      ∀ w ∈ allStores kernel (info.patches.drop (n + 1)) (info.cursor kernel n + patch.blockSize kernel),
        ¬w.Covers a := by
  obtain ⟨htaken, hbefore, hlater⟩ := hsep.apart hn hr ha
  have hadd := @cursor_add kernel info n patch hn
  have hcursor : info.cursor kernel n = info.freeCodeSpaceOffset + blockSum kernel (info.patches.take n) := rfl
  have hout : ¬(info.freeCodeSpaceOffset ≤ a ∧ a < info.freeCodeSpaceOffset + blockSum kernel info.patches) := htaken
  constructor
  · intro w hw hcovers
    rcases covers_allStores hw hcovers with ⟨r', hr', hin⟩ | ⟨hstart, hstop⟩
    · exact hbefore r' hr' hin
    · omega
  · intro w hw hcovers
    rcases covers_allStores hw hcovers with ⟨r', hr', hin⟩ | ⟨hstart, hstop⟩
    · exact hlater r' hr' hin
    · omega

/-- What is stored behind a hook is not in its block. -/
lemma HooksSeparate.not_covers_of_block
    (hstart : info.cursor kernel n ≤ a) (hstop : a < info.cursor kernel n + patch.blockSize kernel) :
    ∀ w ∈ allStores kernel (info.patches.drop (n + 1)) (info.cursor kernel n + patch.blockSize kernel),
      ¬w.Covers a := by
  intro w hw hcovers
  rcases covers_allStores hw hcovers with ⟨r, hr, hr'⟩ | ⟨hbehind, -⟩
  · have hmem : r ∈ info.ranges KernelPatch.hookedRange kernel :=
      ((List.drop_sublist _ _).filterMap _).subset hr
    exact (List.pairwise_cons.mp (Separate.apart hsep)).1 r hmem a (contains_taken hn hstart hstop) hr'
  · omega

end

/-- An instruction that no later store of the patch covers. -/
lemma slice_patched {before after : List Write} (hn : info.patches[n]? = some patch)
    (hsplit : patch.stores kernel (info.cursor kernel n) = before ++ store o i :: after)
    (hafter : ∀ w ∈ after, ∀ k < 4, ¬w.Covers (o + k))
    (hlater : ∀ k < 4, ∀ w ∈ allStores kernel (info.patches.drop (n + 1))
      (info.cursor kernel n + patch.blockSize kernel), ¬w.Covers (o + k))
    (hin : o + 4 ≤ kernel.length) : slice (info.patched kernel) o 4 = leBytes 4 i.toNat := by
  have hdata : (leBytes 4 i.toNat).length = 4 := length_leBytes _ _
  have hlast := @slice_applyAll_of_last kernel
    (allStores kernel (info.patches.take n) info.freeCodeSpaceOffset ++ before)
    (after ++ allStores kernel (info.patches.drop (n + 1)) (info.cursor kernel n + patch.blockSize kernel))
    o (leBytes 4 i.toNat) (by omega) (fun w hw k hk => by
      rcases List.mem_append.mp hw with hw | hw
      · exact hafter w hw k (by omega)
      · exact hlater k (by omega) w hw)
  rw [hdata] at hlast
  rw [patched, allStores_split hn, hsplit]
  simpa only [List.append_assoc, List.cons_append, store] using hlast

lemma range_inPlace (hin : patch.patchOffset ≠ 0) : patch.range KernelPatch.hookedRange kernel =
    some ⟨patch.patchOffset, 4 * patch.payload.length⟩ := by
  rw [KernelPatch.range, KernelPatch.place_of_ne hin]

lemma HookAt.range_eq (hhook : info.HookAt kernel n patch m) :
    patch.range KernelPatch.hookedRange kernel = some ⟨m + patch.patternHookOffset, 4⟩ := by
  rw [KernelPatch.range, hhook.2]
  rfl

lemma HookAt.stores_eq (hhook : info.HookAt kernel n patch m) (c : Nat) :
    patch.stores kernel c = patch.hookStores (m + patch.patternHookOffset) c ∧
      patch.blockSize kernel = patch.hookSize := by
  rw [KernelPatch.stores, KernelPatch.blockSize, hhook.2]
  exact ⟨rfl, rfl⟩

section

variable (hsep : info.HooksSeparate kernel)

include hsep

lemma HooksSeparate.inside (hn : info.patches[n]? = some patch) {r : Region}
    (hr : patch.range KernelPatch.hookedRange kernel = some r) (ha : r.Contains a) : a < kernel.length :=
  Separate.inside hsep r (.tail _ (List.mem_filterMap.mpr ⟨patch, List.mem_of_getElem? hn, hr⟩)) a ha

/-- The last instruction of a patch that is written in place is left at its offset. -/
lemma HooksSeparate.slice_inPlace (hn : info.patches[n]? = some patch)
    (hin : patch.patchOffset ≠ 0) (hi : patch.payload.getLast? = some i) :
    slice (info.patched kernel) patch.patchOffset 4 = leBytes 4 i.toNat := by
  obtain ⟨before, hpayload⟩ := List.getLast?_eq_some_iff.mp hi
  have hrange : ∀ k < 4, Region.Contains ⟨patch.patchOffset, 4 * patch.payload.length⟩ (patch.patchOffset + k) := by
    intro k hk
    refine ⟨Nat.le_add_right _ _, ?_⟩
    rw [Region.stop, hpayload, List.length_append, List.length_singleton]
    dsimp only
    omega
  have hstores : patch.stores kernel (info.cursor kernel n) =
      before.map (store patch.patchOffset) ++ store patch.patchOffset i :: [] := by
    rw [(KernelPatch.stores_of_ne hin _).1, KernelPatch.inPlaceStores, hpayload, List.map_append]
    rfl
  have hlast := hsep.inside hn (range_inPlace hin) (hrange 3 (by decide))
  exact slice_patched hn hstores (by rintro _ ⟨⟩)
    (fun k hk => (hsep.not_covers_of_range hn (range_inPlace hin) (hrange k hk)).2) (by omega)

/-- The others are not stored to where they belong. -/
lemma HooksSeparate.instructionAt_inPlace_succ (hn : info.patches[n]? = some patch)
    (hin : patch.patchOffset ≠ 0) {p : Nat} (hp : p ≠ 0) (hlt : p < patch.payload.length) :
    instructionAt (info.patched kernel) (patch.patchOffset + 4 * p) =
      instructionAt kernel (patch.patchOffset + 4 * p) := by
  have hsame : slice (info.patched kernel) (patch.patchOffset + 4 * p) 4 =
      slice kernel (patch.patchOffset + 4 * p) 4 := by
    rw [patched]
    apply slice_applyAll_of_not_covers
    intro w hw k hk hcovers
    have ha : Region.Contains ⟨patch.patchOffset, 4 * patch.payload.length⟩ (patch.patchOffset + 4 * p + k) :=
      ⟨by dsimp only; omega, by rw [Region.stop]; dsimp only; omega⟩
    obtain ⟨hbefore, hlater⟩ := hsep.not_covers_of_range hn (range_inPlace hin) ha
    rw [allStores_split hn] at hw
    rcases List.mem_append.mp hw with hw | hw
    · exact hbefore w hw hcovers
    rcases List.mem_append.mp hw with hw | hw
    · rw [(KernelPatch.stores_of_ne hin _).1] at hw
      obtain ⟨i, -, rfl⟩ := List.mem_map.mp hw
      have hstore := covers_store.mp hcovers
      omega
    · exact hlater w hw hcovers
  rw [instructionAt, hsame, instructionAt]

/-- The hooked instruction is the branch to the block. -/
lemma HooksSeparate.slice_hooked (hhook : info.HookAt kernel n patch m) :
    slice (info.patched kernel) (m + patch.patternHookOffset) 4 = leBytes 4
      (makeBranch (.ofNat (m + patch.patternHookOffset)) (.ofNat (info.cursor kernel n))).toNat := by
  have hrange : ∀ k < 4, Region.Contains ⟨m + patch.patternHookOffset, 4⟩ (m + patch.patternHookOffset + k) := by
    intro k hk
    exact ⟨Nat.le_add_right _ _, Nat.add_lt_add_left hk _⟩
  have hstores : patch.stores kernel (info.cursor kernel n) =
      [] ++ store (m + patch.patternHookOffset) (makeBranch (.ofNat (m + patch.patternHookOffset))
        (.ofNat (info.cursor kernel n))) :: patch.blockStores (m + patch.patternHookOffset) (info.cursor kernel n) :=
    (hhook.stores_eq _).1
  have hsize := (hhook.stores_eq 0).2
  refine slice_patched hhook.1 hstores (fun w hw k hk hcovers => ?_)
    (fun k hk => (hsep.not_covers_of_range hhook.1 hhook.range_eq (hrange k hk)).2) ?_
  · -- a store to the block is one to what is taken of the free space
    obtain ⟨j, i, rfl, hj⟩ := mem_blockStores hw
    obtain ⟨hstart, hstop⟩ := covers_store.mp hcovers
    exact (hsep.apart hhook.1 hhook.range_eq (hrange k hk)).1 (contains_taken hhook.1 (by omega) (by omega))
  · have hlast := hsep.inside hhook.1 hhook.range_eq (hrange 3 (by decide))
    omega

/-- An instruction of a block that no later store to the block covers. -/
lemma HooksSeparate.slice_block (hhook : info.HookAt kernel n patch m)
    {before after : List Write} {k : Nat}
    (hsplit : patch.blockStores (m + patch.patternHookOffset) (info.cursor kernel n) =
      before ++ store (info.cursor kernel n + 4 * k) i :: after)
    (hafter : ∀ w ∈ after, ∃ k' i', k < k' ∧ w = store (info.cursor kernel n + 4 * k') i')
    (hk : 4 * k + 4 ≤ patch.hookSize) :
    slice (info.patched kernel) (info.cursor kernel n + 4 * k) 4 = leBytes 4 i.toNat := by
  obtain ⟨hstores, hsize⟩ := hhook.stores_eq (info.cursor kernel n)
  have hin := Separate.inside hsep _ (.head _) (info.cursor kernel n + 4 * k + 3)
    (contains_taken hhook.1 (by omega) (by omega))
  rw [KernelPatch.hookStores, hsplit, ← List.cons_append] at hstores
  refine slice_patched hhook.1 hstores (fun w hw j hj hcovers => ?_)
    (fun j hj => hsep.not_covers_of_block hhook.1 (by omega) (by omega)) (by omega)
  obtain ⟨k', i', hlt, rfl⟩ := hafter w hw
  have hstore := covers_store.mp hcovers
  omega

/-- The payload is in the block. -/
lemma HooksSeparate.slice_payload (hhook : info.HookAt kernel n patch m) {p : Nat} (hp : patch.payload[p]? = some i) :
    slice (info.patched kernel) (info.cursor kernel n + 4 * p) 4 = leBytes 4 i.toNat := by
  obtain ⟨hlt, rfl⟩ := List.getElem?_eq_some_iff.mp hp
  have hsize : 4 * p + 4 ≤ patch.hookSize := by
    rw [KernelPatch.hookSize]
    omega
  have hsplit : patch.payload = patch.payload.take p ++ patch.payload[p] :: patch.payload.drop (p + 1) := by
    rw [List.getElem_cons_drop, List.take_append_drop]
  have htake : (patch.payload.take p).length = p := by
    rw [List.length_take]
    omega
  have hstores := congrArg (List.mapIdx fun p i => store (info.cursor kernel n + 4 * p) i) hsplit
  rw [List.mapIdx_append, List.mapIdx_cons, htake, Nat.zero_add] at hstores
  refine hsep.slice_block hhook (by
    rw [KernelPatch.blockStores, hstores, List.append_assoc, List.cons_append]) (fun w hw => ?_) hsize
  rcases List.mem_append.mp hw with hw | hw
  · obtain ⟨j, hj, rfl⟩ := List.mem_mapIdx.mp hw
    exact ⟨_, _, by omega, rfl⟩
  · split at hw
    · rw [List.mem_singleton] at hw
      exact ⟨_, _, hlt, hw⟩
    · cases hw

/-- The instructions of a table are where it has them. -/
lemma HooksSeparate.slice_of_leaves (h : info.Leaves kernel o i) :
    slice (info.patched kernel) o 4 = leBytes 4 i.toNat := by
  cases h with
  | inPlace hn hin hi => exact hsep.slice_inPlace hn hin hi
  | hooked hhook => exact hsep.slice_hooked hhook
  | payload hhook hp => exact hsep.slice_payload hhook hp
  | branchBack hhook hback =>
    refine hsep.slice_block hhook (by rw [KernelPatch.blockStores, if_pos hback]) (by rintro _ ⟨⟩) ?_
    rw [KernelPatch.hookSize, if_pos hback]

lemma HooksSeparate.instructionAt_of_leaves (h : info.Leaves kernel o i) :
    instructionAt (info.patched kernel) o = i := instructionAt_of_slice_eq (hsep.slice_of_leaves h)

end

/-- Every store is one for a patch. -/
lemma mem_allStores {patches : List KernelPatch} {c : Nat} {w : Write} (h : w ∈ allStores kernel patches c) :
    ∃ (n : Nat) (patch : KernelPatch), patches[n]? = some patch ∧
      w ∈ patch.stores kernel (c + blockSum kernel (patches.take n)) := by
  induction patches generalizing c with
  | nil => cases h
  | cons patch patches ih =>
    rcases List.mem_append.mp h with h | h
    · exact ⟨0, patch, rfl, h⟩
    · obtain ⟨n, patch', hn, hw⟩ := ih h
      rw [Nat.add_assoc, ← blockSum_cons] at hw
      exact ⟨n + 1, patch', hn, hw⟩

/-- What is stored to is an instruction of the table. -/
lemma exists_leaves {w : Write} (h : w ∈ allStores kernel info.patches info.freeCodeSpaceOffset) (ha : w.Covers a) :
    ∃ o i, info.Leaves kernel o i ∧ o ≤ a ∧ a < o + 4 := by
  obtain ⟨n, patch, hn, hw⟩ := mem_allStores h
  rw [← cursor, KernelPatch.stores] at hw
  split at hw
  · next hplace =>
    obtain ⟨i, hi, rfl⟩ := List.mem_map.mp hw
    have hin : patch.patchOffset ≠ 0 := fun hzero => by
      rw [KernelPatch.place_of_eq hzero] at hplace
      split at hplace <;> cases hplace
    exact ⟨_, _, .inPlace hn hin (List.getLast?_eq_some_getLast (List.ne_nil_of_mem hi)), covers_store.mp ha⟩
  · next m hplace =>
    rcases List.mem_cons.mp hw with rfl | hw
    · exact ⟨_, _, .hooked ⟨hn, hplace⟩, covers_store.mp ha⟩
    · rcases List.mem_append.mp hw with hw | hw
      · obtain ⟨p, hp, rfl⟩ := List.mem_mapIdx.mp hw
        exact ⟨_, _, .payload ⟨hn, hplace⟩ (List.getElem?_eq_getElem hp), covers_store.mp ha⟩
      · split at hw
        · next hback =>
          obtain rfl := List.mem_singleton.mp hw
          exact ⟨_, _, .branchBack ⟨hn, hplace⟩ hback, covers_store.mp ha⟩
        · cases hw
  · cases hw

/-- A pattern lies in the kernel with the patches exactly where it does with the instructions of the table. -/
lemma HooksSeparate.looks_iff (hsep : info.HooksSeparate kernel) {pattern : List UInt8} {j : Nat} :
    info.Looks kernel pattern j ↔ OccursAt pattern (info.patched kernel) j := by
  have hleaves {a o : Nat} {i : UInt32} (hl : info.Leaves kernel o i) (hstart : o ≤ a) (hstop : a < o + 4) :
      (info.patched kernel)[a]? = (leBytes 4 i.toNat)[a - o]? := by
    have hget := congrArg (fun part => part[a - o]?) (hsep.slice_of_leaves hl)
    simp only [getElem?_slice, if_pos (show a - o < 4 by omega), Nat.add_sub_cancel' hstart] at hget
    exact hget
  have hrest {a : Nat} (hno : ∀ o i, info.Leaves kernel o i → ¬(o ≤ a ∧ a < o + 4)) :
      (info.patched kernel)[a]? = kernel[a]? := by
    refine getElem?_applyAll_of_not_covers fun w hw hcovers => ?_
    obtain ⟨o, i, hl, hin⟩ := exists_leaves hw hcovers
    exact hno o i hl hin
  rw [Looks, OccursAt, patched, length_applyAll, ← patched]
  refine and_congr_right fun _ => ⟨fun h => List.ext_getElem? fun k => ?_, fun h k hk => ?_⟩
  · rw [getElem?_slice]
    split
    · next hk =>
      by_cases hex : ∃ o i, info.Leaves kernel o i ∧ o ≤ j + k ∧ j + k < o + 4
      · obtain ⟨o, i, hl, hstart, hstop⟩ := hex
        rw [hleaves hl hstart hstop, (h k hk).1 o i hl hstart hstop]
      · have hno : ∀ o i, info.Leaves kernel o i → ¬(o ≤ j + k ∧ j + k < o + 4) :=
          fun o i hl hin => hex ⟨o, i, hl, hin⟩
        rw [hrest hno, (h k hk).2 hno]
    · next hk => rw [List.getElem?_eq_none (Nat.le_of_not_lt hk)]
  · have hget := congrArg (fun part => part[k]?) h
    simp only [getElem?_slice, if_pos hk] at hget
    exact ⟨fun o i hl hstart hstop => (hleaves hl hstart hstop).symm.trans hget, fun hno => (hrest hno).symm.trans hget⟩

/-- When a hook has its turn, its pattern is found where it is in the kernel. -/
lemma HooksFound.firstMatch_eq (hfound : info.HooksFound kernel) (hn : info.patches[n]? = some patch)
    (hhook : patch.patchOffset = 0) :
    firstMatch patch.pattern ((info.upTo n).patched kernel) = firstMatch patch.pattern kernel := by
  have hlooks {j : Nat} := @HooksSeparate.looks_iff kernel (info.upTo n) (hfound.separate.upTo n) patch.pattern j
  have hfirst := hfound.first n patch hn hhook
  cases hm : firstMatch patch.pattern kernel with
  | none =>
    rw [hm] at hfirst
    exact firstMatch_eq_none_iff.mpr fun j => mt hlooks.mpr (hfirst j nofun)
  | some m =>
    rw [hm] at hfirst
    have hkept := hfound.kept n patch m ⟨hn, by rw [KernelPatch.place_of_eq hhook, hm]⟩
    exact firstMatch_eq_some_iff.mpr ⟨hlooks.mp hkept,
      fun j hj => mt hlooks.mpr (hfirst j fun m' hm' => Option.some.inj hm' ▸ hj)⟩

/-- The loop stores what is to be stored for all patches. -/
lemma HooksFound.package2PatchKernel_eq (hfound : info.HooksFound kernel) (h : info.Sane kernel)
    (hfit : info.PatternsFit kernel) : info.package2PatchKernel kernel = some (info.patched kernel) :=
  package2PatchKernel_eq_patched h hfound.separate hfit fun _ _ hn hhook => hfound.firstMatch_eq hn hhook

end Patched

end KernelInfo

/-! ## When the patches are applied -/

namespace KernelInfo

/-- Where the branch of a hook leads. -/
def blockOf (kernel : List UInt8) (info : KernelInfo) (n : Nat) : Int :=
  match info.patches[n]? with
  | none => 0
  | some patch =>
    match patch.place kernel with
    | .hook m => Branch.landing (m + patch.patternHookOffset : Nat)
        (((info.cursor kernel n : Int) - (m + patch.patternHookOffset : Nat)) / 4)
    | _ => 0

section Applied

variable {kernel kernel' : List UInt8} {info : KernelInfo} {n m a : Nat} {patch : KernelPatch} {block : Nat → Int}

lemma HookAt.blockOf_eq (hhook : info.HookAt kernel n patch m) : info.blockOf kernel n =
    Branch.landing (m + patch.patternHookOffset : Nat)
      (((info.cursor kernel n : Int) - (m + patch.patternHookOffset : Nat)) / 4) := by
  rw [blockOf, hhook.1]
  dsimp only
  rw [hhook.2]

/-- The part of the free space that has been taken consists of blocks. -/
lemma exists_block (hstart : info.freeCodeSpaceOffset ≤ a) (hstop : a < info.cursor kernel n) :
    ∃ n' < n, ∃ patch m, info.HookAt kernel n' patch m ∧ info.cursor kernel n' ≤ a ∧
      a < info.cursor kernel n' + patch.hookSize := by
  induction n with
  | zero =>
    rw [cursor, List.take_zero] at hstop
    exact absurd hstart (Nat.not_le.mpr hstop)
  | succ n ih =>
    by_cases hbefore : a < info.cursor kernel n
    · obtain ⟨n', hn', hblock⟩ := ih hbefore
      exact ⟨n', Nat.lt_succ_of_lt hn', hblock⟩
    · rw [cursor, List.take_add_one, blockSum_append, ← Nat.add_assoc, ← cursor] at hstop
      cases hn : info.patches[n]? with
      | none =>
        rw [hn] at hstop
        exact absurd hstop hbefore
      | some patch =>
        have hsum : blockSum kernel [patch] = patch.blockSize kernel := Nat.add_zero _
        rw [hn, Option.toList_some, hsum, KernelPatch.blockSize] at hstop
        split at hstop
        · next m hplace => exact ⟨n, Nat.lt_succ_self n, patch, m, ⟨hn, hplace⟩, Nat.le_of_not_lt hbefore, hstop⟩
        · exact absurd hstop hbefore

/-- The room of a patch is taken when a later one has its turn. -/
lemma cursor_add_le {n' : Nat} (hn : info.patches[n]? = some patch) (hlt : n < n') :
    info.cursor kernel n + patch.blockSize kernel ≤ info.cursor kernel n' := by
  induction n', hlt using Nat.le_induction with
  | base =>
    rw [cursor, cursor, List.take_add_one, hn, blockSum_append, Nat.add_assoc]
    exact Nat.le_refl _
  | succ n' _ ih =>
    refine ih.trans ?_
    rw [cursor, cursor, List.take_add_one, blockSum_append, ← Nat.add_assoc]
    exact Nat.le_add_right _ _

/-- A block that does not begin where the free space has been used up to would be in one that is in front of it. -/
lemma block_eq_cursor (h : info.Sane kernel) (hsep : info.HooksSeparate kernel)
    (happlied : Applied info kernel (info.patched kernel) block) (hhook : info.HookAt kernel n patch m)
    (hne : patch.hookSize ≠ 0) : block n = info.cursor kernel n := by
  induction n using Nat.strong_induction_on generalizing patch m with
  | _ n ih =>
    have hbranch := (happlied.hooked n patch m hhook).branch
    rw [hsep.instructionAt_of_leaves (.hooked hhook), target_makeBranch, Option.some_inj] at hbranch
    obtain ⟨hstart, hstop⟩ := happlied.inside n patch m hhook 0 (Nat.pos_of_ne_zero hne)
    have hend := @cursor_add kernel info n patch hhook.1
    have htaken := h.taken_le
    have hcursor : info.freeCodeSpaceOffset ≤ info.cursor kernel n := Nat.le_add_right _ _
    have hspace : info.freeSpaceSize ≤ 0xFFF := by
      rw [freeSpaceSize]
      omega
    have hclose := @Branch.landing_eq_of_close (m + patch.patternHookOffset : Nat) (info.cursor kernel n)
      (by omega) (by omega)
    rw [hbranch] at hclose
    by_contra hother
    have hrest := Int.emod_nonneg ((info.cursor kernel n : Int) - (m + patch.patternHookOffset : Nat))
      (by decide : (4 : Int) ≠ 0)
    obtain ⟨a, ha⟩ : ∃ a : Nat, (a : Int) = block n := ⟨(block n).toNat, by omega⟩
    obtain ⟨n', hlt, patch', m', hhook', hin, hout⟩ := @exists_block kernel info n a (by omega) (by omega)
    have hblock := ih n' hlt hhook' (by omega)
    refine happlied.apart n' patch' m' n patch m hhook' hhook hlt (a - info.cursor kernel n') (by omega) 0
      (Nat.pos_of_ne_zero hne) ?_
    omega

/-- The kernel with all patches, if the code does what they are for. -/
lemma applied_patched (h : info.Sane kernel) (hsep : info.HooksSeparate kernel) (hplace : info.InPlaceHolds kernel)
    (hreach : info.BranchesReach kernel) : Applied info kernel (info.patched kernel) (info.blockOf kernel) := by
  -- a block that is not empty is where the free space has been used up to
  have hblock {n : Nat} {patch : KernelPatch} {m : Nat} (hhook : info.HookAt kernel n patch m)
      (hne : patch.hookSize ≠ 0) : info.blockOf kernel n = info.cursor kernel n := by
    rw [hhook.blockOf_eq]
    exact Branch.landing_eq_iff.mpr ((hreach n patch m hhook).1 hne)
  refine ⟨length_applyAll _ _, fun patch hmem hin p i hp => ?_, fun n patch m hhook => ⟨?_, fun p i hp => ?_,
    fun hback => ?_⟩, fun n patch m hhook k hk => ?_, fun n patch m n' patch' m' hhook hhook' hlt k hk k' hk' => ?_,
    fun a hranges hblocks => ?_⟩
  · obtain ⟨n, hn⟩ := List.mem_iff_getElem?.mp hmem
    obtain ⟨hzero, hsucc⟩ := hplace patch hmem hin p i hp
    by_cases hfirst : p = 0
    · rw [hfirst]
      exact hsep.instructionAt_of_leaves (.inPlace hn hin (hzero hfirst))
    · have hlt := (List.getElem?_eq_some_iff.mp hp).1
      rw [hsep.instructionAt_inPlace_succ hn hin hfirst hlt]
      exact hsucc hfirst
  · rw [hsep.instructionAt_of_leaves (.hooked hhook), target_makeBranch, hhook.blockOf_eq]
  · have hlt := (List.getElem?_eq_some_iff.mp hp).1
    have hne : patch.hookSize ≠ 0 := by
      rw [KernelPatch.hookSize]
      omega
    rw [hblock hhook hne]
    exact hsep.instructionAt_of_leaves (.payload hhook hp)
  · have hne : patch.hookSize ≠ 0 := by
      rw [KernelPatch.hookSize, if_pos hback]
      omega
    have hplaces := Branch.landing_eq_iff.mpr ((hreach n patch m hhook).2 hback)
    have hword := hsep.instructionAt_of_leaves (.branchBack hhook hback)
    rw [hblock hhook hne]
    have hnat : ((info.cursor kernel n : Int) + 4 * patch.payload.length).toNat =
        info.cursor kernel n + 4 * patch.payload.length := by omega
    rw [hnat, hword, target_makeBranch]
    push_cast at hplaces ⊢
    rw [Int.add_comm (patch.branchBackOffset : Int), hplaces]
  · have hend := @cursor_add kernel info n patch hhook.1
    have htaken := h.taken_le
    have hcursor : info.freeCodeSpaceOffset ≤ info.cursor kernel n := Nat.le_add_right _ _
    rw [(hhook.stores_eq 0).2] at hend
    rw [hblock hhook (by omega)]
    omega
  · have hle : info.cursor kernel n + patch.blockSize kernel ≤ info.cursor kernel n' := cursor_add_le hhook.1 hlt
    rw [(hhook.stores_eq 0).2] at hle
    rw [hblock hhook (by omega), hblock hhook' (by omega)]
    omega
  · apply getElem?_applyAll_of_not_covers
    intro w hw hcovers
    rcases covers_allStores hw hcovers with ⟨r, hr, hin⟩ | ⟨hstart, hstop⟩
    · exact hranges r hr hin
    · have hcursor : info.cursor kernel info.patches.length =
          info.freeCodeSpaceOffset + blockSum kernel info.patches := by rw [cursor, List.take_length]
      obtain ⟨n, -, patch, m, hhook, hin, hout⟩ := exists_block hstart (hcursor ▸ hstop)
      refine hblocks n patch m hhook (a - info.cursor kernel n) (by omega) ?_
      rw [hblock hhook (by omega)]
      omega

/-- A turn that gives something has searched a pattern that fits. -/
lemma applyPatch_some {s t : PatchState} (hlt : patch.pattern.length < 2 ^ 32) (h : applyPatch s patch = some t)
    (hzero : patch.patchOffset = 0) : patch.pattern.length ≤ s.kernel.length := by
  obtain ⟨kernel, c, size⟩ := s
  refine Nat.le_of_not_lt fun hlong => ?_
  have hsearch : searchPattern kernel patch.pattern (kernel.length + 2) = some .outside :=
    searchPattern_outside hlt hlong _
  rw [applyPatch, if_neg (not_not.mpr hzero), hsearch] at h
  split at h
  · cases h
  · cases h

/-- A loop that gives something has. -/
lemma patternsFit_of_some (h : info.Sane kernel) (hrun : info.package2PatchKernel kernel = some kernel') :
    info.PatternsFit kernel := by
  obtain ⟨t, hloop, -⟩ := Option.map_eq_some_iff.mp hrun
  have hfold : ∀ (patches : List KernelPatch) (s : PatchState), (∀ patch ∈ patches, patch.pattern.length < 2 ^ 32) →
      patches.foldlM applyPatch s = some t →
      ∀ patch ∈ patches, patch.patchOffset = 0 → patch.pattern.length ≤ s.kernel.length := by
    intro patches
    induction patches with
    | nil => exact fun s _ _ patch hpatch => nomatch hpatch
    | cons patch patches ih =>
      intro s hlt hloop
      rw [List.foldlM_cons] at hloop
      obtain ⟨s', hturn, hrest⟩ := Option.bind_eq_some_iff.mp hloop
      refine List.forall_mem_cons.mpr ⟨applyPatch_some (hlt patch (.head _)) hturn, ?_⟩
      rw [← length_applyPatch hturn]
      exact ih s' (fun patch hpatch => hlt patch (.tail _ hpatch)) hrest
  exact hfold info.patches _ h.pattern_lt hloop

/-- What the code does, if it is what the patches are for. -/
lemma holds_of_applied (h : info.Sane kernel) (hsep : info.HooksSeparate kernel)
    (happlied : Applied info kernel (info.patched kernel) block) :
    info.InPlaceHolds kernel ∧ info.BranchesReach kernel := by
  refine ⟨fun patch hmem hin p i hp => ?_, fun n patch m hhook => ?_⟩
  · obtain ⟨n, hn⟩ := List.mem_iff_getElem?.mp hmem
    have hword := happlied.inPlace patch hmem hin p i hp
    have hlt := (List.getElem?_eq_some_iff.mp hp).1
    refine ⟨fun hfirst => ?_, fun hlater => ?_⟩
    · have hlast := List.getLast?_eq_some_getLast (List.ne_nil_of_length_pos (Nat.zero_lt_of_lt hlt))
      rw [hfirst, Nat.mul_zero, Nat.add_zero, hsep.instructionAt_of_leaves (.inPlace hn hin hlast)] at hword
      rw [hlast, hword]
    · rw [← hword, hsep.instructionAt_inPlace_succ hn hin hlater hlt]
  · have hhooked := happlied.hooked n patch m hhook
    refine ⟨fun hne => ?_, fun hback => ?_⟩
    · have hbranch := hhooked.branch
      rw [hsep.instructionAt_of_leaves (.hooked hhook), target_makeBranch, block_eq_cursor h hsep happlied hhook hne,
        Option.some_inj] at hbranch
      exact Branch.landing_eq_iff.mp hbranch
    · have hne : patch.hookSize ≠ 0 := by
        rw [KernelPatch.hookSize, if_pos hback]
        omega
      have hbranch := hhooked.branchBack hback
      have hnat : ((info.cursor kernel n : Int) + 4 * patch.payload.length).toNat =
          info.cursor kernel n + 4 * patch.payload.length := by omega
      rw [block_eq_cursor h hsep happlied hhook hne, hnat, hsep.instructionAt_of_leaves (.branchBack hhook hback),
        target_makeBranch, Option.some_inj, Nat.add_comm patch.branchBackOffset] at hbranch
      rw [← Branch.landing_eq_iff]
      push_cast at hbranch ⊢
      exact hbranch

/-- As long as the patterns are found where they are in the kernel, and what they hook is separate from the rest, all
patches are applied exactly if the patterns fit, each patch that is written in place is one that its last instruction
is enough for, and the branches can have their targets. -/
theorem package2PatchKernel_applied_iff (h : info.Sane kernel) :
    info.HooksFound kernel →
      ((∃ kernel' block, info.package2PatchKernel kernel = some kernel' ∧ Applied info kernel kernel' block) ↔
        info.PatternsFit kernel ∧ info.InPlaceHolds kernel ∧ info.BranchesReach kernel) := by
  intro hfound
  constructor
  · rintro ⟨kernel', block, hrun, happlied⟩
    have hfit := patternsFit_of_some h hrun
    cases hrun.symm.trans (hfound.package2PatchKernel_eq h hfit)
    exact ⟨hfit, holds_of_applied h hfound.separate happlied⟩
  · rintro ⟨hfit, hplace, hreach⟩
    exact ⟨_, info.blockOf kernel, hfound.package2PatchKernel_eq h hfit,
      applied_patched h hfound.separate hplace hreach⟩

end Applied

/-- A kernel of one page, with a hook and an instruction that is written in place. -/
def exampleKernel : List UInt8 := [1, 2, 3, 4] ++ List.replicate 0xFFC 0

def exampleInfo : KernelInfo where
  freeCodeSpaceOffset := 0xFF0
  patches := [⟨[1, 2, 3, 4], 0, 4, 0, [0xD503201F]⟩, ⟨[], 0, 0, 8, [0xD503201F]⟩]

lemma length_exampleKernel : exampleKernel.length = 0x1000 := by
  rw [exampleKernel, List.length_append, List.length_replicate]
  rfl

lemma firstMatch_exampleKernel : firstMatch [1, 2, 3, 4] exampleKernel = some 0 :=
  firstMatch_eq_some_iff.mpr ⟨⟨by rw [length_exampleKernel]; decide, rfl⟩, fun j hj => absurd hj (Nat.not_lt_zero j)⟩

lemma exampleInfo_cases {n : Nat} {patch : KernelPatch} (hn : exampleInfo.patches[n]? = some patch) :
    n = 0 ∧ patch = ⟨[1, 2, 3, 4], 0, 4, 0, [0xD503201F]⟩ ∧ patch.place exampleKernel = .hook 0 ∨
      n = 1 ∧ patch = ⟨[], 0, 0, 8, [0xD503201F]⟩ ∧ patch.place exampleKernel = .inPlace := by
  match n, hn with
  | 0, hn =>
    cases hn
    refine .inl ⟨rfl, rfl, ?_⟩
    rw [KernelPatch.place_of_eq rfl, firstMatch_exampleKernel]
  | 1, hn =>
    cases hn
    exact .inr ⟨rfl, rfl, KernelPatch.place_of_ne (by decide)⟩

lemma exampleInfo_hook {n m : Nat} {patch : KernelPatch} (hhook : exampleInfo.HookAt exampleKernel n patch m) :
    n = 0 ∧ m = 0 ∧ patch = ⟨[1, 2, 3, 4], 0, 4, 0, [0xD503201F]⟩ := by
  rcases exampleInfo_cases hhook.1 with ⟨hn, hpatch, hplace⟩ | ⟨-, -, hplace⟩
  · cases hplace.symm.trans hhook.2
    exact ⟨hn, rfl, hpatch⟩
  · cases hplace.symm.trans hhook.2

lemma exampleInfo_sane : exampleInfo.Sane exampleKernel := by
  have hranges : exampleInfo.freeSpace :: exampleInfo.ranges KernelPatch.matchRange exampleKernel =
      [⟨0xFF0, 0x10⟩, ⟨0, 4⟩, ⟨8, 4⟩] := by
    decide +kernel
  refine ⟨by rw [length_exampleKernel]; decide, by decide, by decide, ?_, by decide⟩
  rw [hranges, length_exampleKernel]
  constructor
  · simp only [List.pairwise_cons, List.forall_mem_cons, Region.Contains, Region.stop]
    refine ⟨⟨fun a _ => by omega, fun a _ => by omega, by rintro _ ⟨⟩⟩,
      ⟨fun a _ => by omega, by rintro _ ⟨⟩⟩, by rintro _ ⟨⟩, .nil⟩
  · simp only [List.forall_mem_cons, Region.Contains, Region.stop]
    exact ⟨fun a _ => by omega, fun a _ => by omega, fun a _ => by omega, by rintro _ ⟨⟩⟩

lemma exampleInfo_found : exampleInfo.HooksFound exampleKernel := by
  have hranges : exampleInfo.taken exampleKernel :: exampleInfo.ranges KernelPatch.hookedRange exampleKernel =
      [⟨0xFF0, 8⟩, ⟨0, 4⟩, ⟨8, 4⟩] := by
    decide +kernel
  have hnone (o : Nat) (i : UInt32) : ¬(exampleInfo.upTo 0).Leaves exampleKernel o i := by
    rintro (⟨hn, -, -⟩ | ⟨hn, -⟩ | ⟨⟨hn, -⟩, -⟩ | ⟨⟨hn, -⟩, -⟩)
    all_goals cases hn
  have hfirst := firstMatch_eq_some_iff.mp firstMatch_exampleKernel
  refine ⟨?_, fun n patch m hhook => ?_, fun n patch hn hin j hj => ?_⟩
  · rw [HooksSeparate, hranges, length_exampleKernel]
    constructor
    · simp only [List.pairwise_cons, List.forall_mem_cons, Region.Contains, Region.stop]
      exact ⟨⟨fun a _ => by omega, fun a _ => by omega, by rintro _ ⟨⟩⟩, ⟨fun a _ => by omega, by rintro _ ⟨⟩⟩,
        by rintro _ ⟨⟩, .nil⟩
    · simp only [List.forall_mem_cons, Region.Contains, Region.stop]
      exact ⟨fun a _ => by omega, fun a _ => by omega, fun a _ => by omega, by rintro _ ⟨⟩⟩
  · obtain ⟨rfl, rfl, rfl⟩ := exampleInfo_hook hhook
    exact ⟨hfirst.1.1, fun k hk => ⟨fun o i hl => absurd hl (hnone o i), fun _ => hfirst.1.getElem? hk⟩⟩
  · rcases exampleInfo_cases hn with ⟨rfl, rfl, -⟩ | ⟨-, rfl, -⟩
    · exact absurd (hj 0 firstMatch_exampleKernel) (Nat.not_lt_zero j)
    · cases hin

/-- The instruction at the front is hooked, and the one at 8 is replaced. -/
theorem package2PatchKernel_applied_example : ∃ kernel' block,
    exampleInfo.package2PatchKernel exampleKernel = some kernel' ∧
      Applied exampleInfo exampleKernel kernel' block := by
  refine (package2PatchKernel_applied_iff exampleInfo_sane exampleInfo_found).mpr
    ⟨by unfold PatternsFit; decide +kernel, fun patch hmem hin p i hp => ?_, fun n patch m hhook => ?_⟩
  · obtain ⟨n, hn⟩ := List.mem_iff_getElem?.mp hmem
    rcases exampleInfo_cases hn with ⟨-, rfl, -⟩ | ⟨-, rfl, -⟩
    · exact absurd rfl hin
    · obtain ⟨hlt, rfl⟩ := List.getElem?_eq_some_iff.mp hp
      obtain rfl := Nat.lt_one_iff.mp hlt
      exact ⟨fun _ => rfl, fun hne => absurd rfl hne⟩
  · obtain ⟨rfl, rfl, rfl⟩ := exampleInfo_hook hhook
    exact ⟨fun _ => ⟨by decide, by decide, by decide⟩, fun _ => ⟨by decide, by decide, by decide⟩⟩

/-- Two instructions at one offset: the second one is left there, and nothing behind it. -/
def twoInstructions : KernelInfo where
  freeCodeSpaceOffset := 0
  patches := [⟨[], 0, 0, 4, [0xD503201F, 0xD65F03C0]⟩]

lemma twoInstructions_sane : twoInstructions.Sane (List.replicate 0x20 0) := by
  have hranges : twoInstructions.freeSpace :: twoInstructions.ranges KernelPatch.matchRange (List.replicate 0x20 0) =
      [⟨0, 0⟩, ⟨4, 8⟩] := by
    decide
  refine ⟨by decide, by decide, by decide, ?_, by decide⟩
  rw [hranges, List.length_replicate]
  constructor
  · simp only [List.pairwise_cons, List.forall_mem_cons, Region.Contains, Region.stop]
    exact ⟨⟨fun a _ => by omega, by rintro _ ⟨⟩⟩, by rintro _ ⟨⟩, .nil⟩
  · simp only [List.forall_mem_cons, Region.Contains, Region.stop]
    exact ⟨fun a _ => by omega, fun a _ => by omega, by rintro _ ⟨⟩⟩

/-- Two instructions in place: the second one is written over the first. -/
theorem package2PatchKernel_overwrites : twoInstructions.Sane (List.replicate 0x20 0) ∧
    ¬∃ kernel' block, twoInstructions.package2PatchKernel (List.replicate 0x20 0) = some kernel' ∧
      Applied twoInstructions (List.replicate 0x20 0) kernel' block := by
  refine ⟨twoInstructions_sane, fun ⟨kernel', block, hrun, happlied⟩ => ?_⟩
  have hkernel : twoInstructions.package2PatchKernel (List.replicate 0x20 0) =
      some (List.replicate 4 0 ++ [0xC0, 0x03, 0x5F, 0xD6] ++ List.replicate 0x18 0) := by decide +kernel
  cases hrun.symm.trans hkernel
  have hword := happlied.inPlace _ (.head _) (by decide) 0 0xD503201F rfl
  exact absurd hword (by decide +kernel)

end KernelInfo

end RajNX.Fusee.KernelPatches
