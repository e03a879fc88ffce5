import RajNX.Dmnt.Manager
import RajNX.Dmnt.Registers

/-!
# Frozen addresses and writes

`DmntCheatManager` writes the value of every frozen address again and again. A write of the VM to a
frozen address is to change the frozen value too, or it would be undone: this is what the loop in
`WriteCheatProcessMemoryForVm` is for.

`FollowsWrite` says what the loop has to achieve, byte by byte, and `Keeps` that a later round of writes
leaves the bytes of this one alone. The loop only looks at frozen addresses from the start of the write
on. `frozen_follow_iff` says when that is enough: if no frozen value that starts before the write
differs from it where they overlap.
-/

namespace RajNX.Dmnt

open LittleEndian

/-- Byte `i` of a frozen value. -/
def FrozenAddressValue.byte (v : FrozenAddressValue) (i : Nat) : UInt8 :=
  (leBytes 8 v.value.toNat).getD i 0

/-- The write of `data` to `address` reaches the absolute position `x`. -/
def Covers (address : UInt64) (data : List UInt8) (x : Nat) : Prop :=
  address.toNat ≤ x ∧ x < address.toNat + data.length

instance (address : UInt64) (data : List UInt8) (x : Nat) : Decidable (Covers address data x) :=
  inferInstanceAs (Decidable (_ ∧ _))

/-- One frozen value after a write: what the write covers is written, the rest is as it was. -/
def FollowsAt (address : UInt64) (data : List UInt8) (f f' : UInt64 × FrozenAddressValue) : Prop :=
  f'.1 = f.1 ∧ f'.2.width = f.2.width ∧ ∀ i < f.2.width, f'.2.byte i =
    if Covers address data (f.1.toNat + i) then data.getD (f.1.toNat + i - address.toNat) 0
    else f.2.byte i

/-- The frozen values after a write. -/
def FollowsWrite (address : UInt64) (data : List UInt8)
    (before after : List (UInt64 × FrozenAddressValue)) : Prop :=
  List.Forall₂ (FollowsAt address data) before after

/-- Where it overlaps the write, a frozen value holds what is written. -/
def AgreesWith (address : UInt64) (data : List UInt8) (f : UInt64 × FrozenAddressValue) : Prop :=
  ∀ i < f.2.width, Covers address data (f.1.toNat + i) → f.2.byte i = data.getD (f.1.toNat + i - address.toNat) 0

/-- The frozen addresses as the map and its commands keep them: in order, and of a width the service
lets in. -/
structure FrozenMap (frozen : List (UInt64 × FrozenAddressValue)) : Prop where
  sorted : frozen.Pairwise fun f g => f.1 < g.1
  widths : ∀ f ∈ frozen, f.2.width = 1 ∨ f.2.width = 2 ∨ f.2.width = 4 ∨ f.2.width = 8

variable {frozen : List (UInt64 × FrozenAddressValue)}

lemma FrozenMap.width_le (h : FrozenMap frozen)
    {f : UInt64 × FrozenAddressValue} (hf : f ∈ frozen) : f.2.width ≤ 8 := by
  have hw := h.widths f hf
  omega

/-! ## One frozen value -/

/-- The bytes of a variable that others were written over. -/
lemma leBytes_overlay (old : UInt64) {bytes : List UInt8} (h : bytes.length ≤ 8) :
    leBytes 8 (overlay old bytes).toNat = bytes ++ (leBytes 8 old.toNat).drop bytes.length := by
  generalize hws : bytes ++ (leBytes 8 old.toNat).drop bytes.length = ws
  have hlen : ws.length = 8 := by
    rw [← hws, List.length_append, List.length_drop, length_leBytes]
    omega
  have hlt := leValue_lt ws
  rw [hlen] at hlt
  rw [overlay, hws, UInt64.toNat_ofNat_of_lt' hlt, ← hlen, leBytes_leValue]

/-- The byte that was written over, or the one that was there. -/
lemma byte_overlay (v : FrozenAddressValue) {bytes : List UInt8} (h : bytes.length ≤ 8) (i : Nat) :
    FrozenAddressValue.byte { v with value := overlay v.value bytes } i =
      if i < bytes.length then bytes.getD i 0 else v.byte i := by
  rw [FrozenAddressValue.byte, leBytes_overlay v.value h]
  by_cases hi : i < bytes.length
  · rw [if_pos hi, List.getD_append _ _ _ _ hi]
  · rw [if_neg hi, List.getD_append_right _ _ _ _ (Nat.le_of_not_lt hi), FrozenAddressValue.byte,
      List.getD_eq_getElem?_getD, List.getElem?_drop, List.getD_eq_getElem?_getD,
      Nat.add_sub_cancel' (Nat.le_of_not_lt hi)]

section Update

variable {address : UInt64} {data : List UInt8}

lemma toNat_end (hend : address.toNat + data.length < 2 ^ 64) :
    (address + .ofNat data.length).toNat = address.toNat + data.length := by
  rw [UInt64.toNat_add, UInt64.toNat_ofNat', Nat.mod_eq_of_lt (by omega : data.length < 2 ^ 64), Nat.mod_eq_of_lt hend]

/-- A frozen value at the write's address or after it, and before its end, follows it. -/
lemma followsAt_update {a : UInt64} {v : FrozenAddressValue} (hw : v.width ≤ 8) (hle : address ≤ a) :
    FollowsAt address data (a, v)
      (a, { v with value := overlay v.value ((data.drop (a - address).toNat).take 8) }) := by
  have hsub : (a - address).toNat = a.toNat - address.toNat := UInt64.toNat_sub_of_le _ _ hle
  have hle' : address.toNat ≤ a.toNat := UInt64.le_iff_toNat_le.mp hle
  refine ⟨rfl, rfl, ?_⟩
  intro i hi
  dsimp only at hi ⊢
  have hlen : ((data.drop (a.toNat - address.toNat)).take 8).length =
      min 8 (data.length - (a.toNat - address.toNat)) := by
    rw [List.length_take, List.length_drop]
  rw [hsub, byte_overlay v (by omega), hlen]
  by_cases hcovers : Covers address data (a.toNat + i)
  · obtain ⟨-, hlt⟩ := hcovers
    rw [if_pos (by omega), if_pos ⟨by omega, hlt⟩, List.getD_eq_getElem?_getD, List.getElem?_take,
      if_pos (by omega), List.getElem?_drop, List.getD_eq_getElem?_getD,
      show a.toNat - address.toNat + i = a.toNat + i - address.toNat from by omega]
  · rw [if_neg fun h => hcovers ⟨by omega, by omega⟩, if_neg hcovers]

/-- What one entry becomes. -/
def followWrite (address : UInt64) (data : List UInt8) (f : UInt64 × FrozenAddressValue) :
    UInt64 × FrozenAddressValue :=
  if address ≤ f.1 ∧ f.1 < address + .ofNat data.length then
    (f.1, { f.2 with value := overlay f.2.value ((data.drop (f.1 - address).toNat).take 8) })
  else f

/-- An entry follows the write unless it starts before it and differs from it. -/
lemma followsAt_followWrite_iff (hend : address.toNat + data.length < 2 ^ 64)
    {f : UInt64 × FrozenAddressValue} (hw : f.2.width ≤ 8) :
    FollowsAt address data f (followWrite address data f) ↔
      (f.1 < address → AgreesWith address data f) := by
  have hlt : f.1 < address + .ofNat data.length ↔ f.1.toNat < address.toNat + data.length := by
    rw [UInt64.lt_iff_toNat_lt, toNat_end hend]
  by_cases hin : address ≤ f.1 ∧ f.1 < address + .ofNat data.length
  · rw [followWrite, if_pos hin]
    exact iff_of_true (followsAt_update hw hin.1) fun h =>
      absurd h (UInt64.not_lt.mpr hin.1)
  · rw [followWrite, if_neg hin]
    constructor
    · intro h _ i hi hcovers
      rw [h.2.2 i hi, if_pos hcovers]
    · intro h
      refine ⟨rfl, rfl, ?_⟩
      intro i hi
      by_cases hcovers : Covers address data (f.1.toNat + i)
      · rw [if_pos hcovers]
        -- an entry that is covered and was not updated starts before the write
        have hbefore : f.1 < address := by
          by_contra hnot
          have hle := UInt64.not_lt.mp hnot
          exact hin ⟨hle, hlt.mpr (Nat.lt_of_le_of_lt (Nat.le_add_right _ _) hcovers.2)⟩
        exact h hbefore i hi hcovers
      · rw [if_neg hcovers]

end Update

/-- The map is in order, so nothing is missed behind the entry the loop stops at. -/
lemma updateFrozen_eq_map (address : UInt64) (data : List UInt8) (h : frozen.Pairwise fun f g => f.1 < g.1) :
    updateFrozen address data frozen = frozen.map (followWrite address data) := by
  induction frozen with
  | nil => rfl
  | cons f rest ih =>
    obtain ⟨hf, hrest⟩ := List.pairwise_cons.mp h
    rw [updateFrozen, List.map_cons, followWrite, ← ih hrest]
    by_cases hbehind : f.1 ≥ address + .ofNat data.length
    · rw [if_pos hbehind, if_neg fun h => absurd h.2 (UInt64.not_lt.mpr hbehind), ih hrest]
      have hsame : ∀ g ∈ rest, g = followWrite address data g := by
        intro g hg
        rw [followWrite, if_neg]
        intro hin
        have hfg := UInt64.lt_iff_toNat_lt.mp (hf g hg)
        have hge := UInt64.le_iff_toNat_le.mp hbehind
        have hlt := UInt64.lt_iff_toNat_lt.mp hin.2
        omega
      exact congrArg (f :: ·) ((List.map_id rest).symm.trans (List.map_congr_left hsame))
    · rw [if_neg hbehind]
      by_cases hle : address ≤ f.1
      · rw [if_pos hle, if_pos ⟨hle, UInt64.not_le.mp hbehind⟩]
      · rw [if_neg hle, if_neg fun h => hle h.1]

variable {address : UInt64} {data : List UInt8}

/-- The frozen values follow a write exactly if those that start before it agree with it. -/
lemma followsWrite_updateFrozen_iff (hend : address.toNat + data.length < 2 ^ 64) (h : FrozenMap frozen) :
    FollowsWrite address data frozen (updateFrozen address data frozen) ↔
      ∀ f ∈ frozen, f.1 < address → AgreesWith address data f := by
  rw [updateFrozen_eq_map address data h.sorted, FollowsWrite, List.forall₂_map_right_iff, List.forall₂_same]
  constructor
  · intro hall f hf
    exact (followsAt_followWrite_iff hend (h.width_le hf)).mp (hall f hf)
  · intro hall f hf
    exact (followsAt_followWrite_iff hend (h.width_le hf)).mpr (hall f hf)

/-- An entry that follows a write agrees with it. -/
lemma FollowsAt.agreesWith {f f' : UInt64 × FrozenAddressValue}
    (h : FollowsAt address data f f') : AgreesWith address data f' := by
  obtain ⟨haddress, hwidth, hbyte⟩ := h
  intro i hi hcovers
  rw [hwidth] at hi
  rw [haddress] at hcovers ⊢
  rw [hbyte i hi, if_pos hcovers]

/-! ## Writing the frozen values again -/

section Reapply

variable {ε : Type} {K : Kernel ε}

/-- `mem` is the memory of the process: a write that succeeds changes the bytes it covers, one that
fails may have changed some of them, and asking for the process id changes nothing. -/
structure MemoryOf (K : Kernel ε) (mem : ε → Nat → UInt8) : Prop where
  written : ∀ e address data, (K.writeMemory e address data).1 = resultSuccess → ∀ x, Covers address data x →
    mem (K.writeMemory e address data).2 x = data.getD (x - address.toNat) 0
  failed : ∀ e address data x, Covers address data x → mem (K.writeMemory e address data).2 x = mem e x ∨
      mem (K.writeMemory e address data).2 x = data.getD (x - address.toNat) 0
  outside : ∀ e address data x, ¬ Covers address data x → mem (K.writeMemory e address data).2 x = mem e x
  pid : ∀ e x, mem (K.applicationPid e).2 x = mem e x

variable {mem : ε → Nat → UInt8} {address : UInt64} {data : List UInt8}

/-- The bytes of a write, and all frozen values over them, are as they were written. -/
structure Holds (mem : ε → Nat → UInt8) (address : UInt64) (data : List UInt8)
    (s : CheatManager × ε) : Prop where
  memory : ∀ x, Covers address data x → mem s.2 x = data.getD (x - address.toNat) 0
  frozen : ∀ f ∈ s.1.frozenAddresses, f.2.width ≤ 8 ∧ AgreesWith address data f

variable {s : CheatManager × ε}

lemma Holds.hasActive (hmem : MemoryOf K mem)
    (h : Holds mem address data s) : Holds mem address data (hasActiveCheatProcess K s).2 := by
  have hclosed : ∀ f ∈ (closeActiveCheatProcess s.1).frozenAddresses, f ∈ s.1.frozenAddresses := by
    intro f hf
    unfold closeActiveCheatProcess at hf
    split at hf
    · cases hf
    · exact hf
  unfold hasActiveCheatProcess
  split
  · dsimp only
    split
    · exact ⟨fun x hx => (hmem.pid _ x).trans (h.memory x hx), h.frozen⟩
    · exact ⟨fun x hx => (hmem.pid _ x).trans (h.memory x hx), fun f hf => h.frozen f (hclosed f hf)⟩
  · exact ⟨h.memory, fun f hf => h.frozen f (hclosed f hf)⟩

variable {frozen : List (UInt64 × FrozenAddressValue)}

/-- Every entry after an update was there before, or one at the write's address or behind it was
written over. -/
lemma mem_updateFrozen {a : UInt64} {bytes : List UInt8}
    {f' : UInt64 × FrozenAddressValue} (h : f' ∈ updateFrozen a bytes frozen) :
    f' ∈ frozen ∨ ∃ f ∈ frozen, a ≤ f.1 ∧ f' = (f.1, { f.2 with
      value := overlay f.2.value ((bytes.drop (f.1 - a).toNat).take 8) }) := by
  induction frozen with
  | nil => cases h
  | cons f rest ih =>
    rw [updateFrozen] at h
    split at h
    · exact .inl h
    · split at h
      · rename_i hle
        obtain rfl | h := List.mem_cons.mp h
        · exact .inr ⟨f, List.mem_cons_self, hle, rfl⟩
        · obtain h | ⟨g, hg, hle, rfl⟩ := ih h
          · exact .inl (List.mem_cons_of_mem _ h)
          · exact .inr ⟨g, List.mem_cons_of_mem _ hg, hle, rfl⟩
      · obtain rfl | h := List.mem_cons.mp h
        · exact .inl List.mem_cons_self
        · obtain h | ⟨g, hg, hle, rfl⟩ := ih h
          · exact .inl (List.mem_cons_of_mem _ h)
          · exact .inr ⟨g, List.mem_cons_of_mem _ hg, hle, rfl⟩

variable {v : FrozenAddressValue}

/-- The bytes a frozen value is written as. -/
lemma getD_leBytes_width (hw : v.width ≤ 8) {i : Nat} (hi : i < v.width) :
    (leBytes v.width v.value.toNat).getD i 0 = v.byte i := by
  obtain ⟨k, hk⟩ := Nat.exists_eq_add_of_le hw
  rw [FrozenAddressValue.byte, hk, leBytes_add, List.getD_append _ _ _ _ (by rw [length_leBytes]; exact hi)]

/-- Writing a frozen value that agrees keeps everything as it was written. -/
lemma Holds.managerWrite (hmem : MemoryOf K mem) (h : Holds mem address data s) {a : UInt64} (hw : v.width ≤ 8)
    (hv : AgreesWith address data (a, v)) :
    Holds mem address data (managerWrite K s a (leBytes v.width v.value.toNat)).2 := by
  have hactive := h.hasActive hmem
  -- what is written at a byte of the write is what the write put there
  have hbyte : ∀ x, Covers a (leBytes v.width v.value.toNat) x → Covers address data x →
      (leBytes v.width v.value.toNat).getD (x - a.toNat) 0 = data.getD (x - address.toNat) 0 := by
    intro x hx hcovers
    obtain ⟨hle, hlt⟩ := hx
    rw [length_leBytes] at hlt
    have hi : x - a.toNat < v.width := by omega
    have hsum : a.toNat + (x - a.toNat) = x := by omega
    have hagree := hv (x - a.toNat) hi
    dsimp only at hagree
    rw [hsum] at hagree
    rw [getD_leBytes_width hw hi, hagree hcovers]
  have hmemory : ∀ e, (∀ x, Covers address data x → mem e x = data.getD (x - address.toNat) 0) →
      ∀ x, Covers address data x → mem (K.writeMemory e a (leBytes v.width v.value.toNat)).2 x =
        data.getD (x - address.toNat) 0 := by
    intro e he x hcovers
    by_cases hx : Covers a (leBytes v.width v.value.toNat) x
    · obtain h | h := hmem.failed e a (leBytes v.width v.value.toNat) x hx
      · exact h.trans (he x hcovers)
      · exact h.trans (hbyte x hx hcovers)
    · exact (hmem.outside e a _ x hx).trans (he x hcovers)
  have hfrozen : ∀ m : CheatManager, (∀ f ∈ m.frozenAddresses, f.2.width ≤ 8 ∧ AgreesWith address data f) →
      ∀ f' ∈ updateFrozen a (leBytes v.width v.value.toNat) m.frozenAddresses,
        f'.2.width ≤ 8 ∧ AgreesWith address data f' := by
    intro m hm f' hf'
    obtain hf' | ⟨f, hf, hle, rfl⟩ := mem_updateFrozen hf'
    · exact hm f' hf'
    · obtain ⟨hwidth, hagree⟩ := hm f hf
      obtain ⟨-, -, hfollows⟩ :=
        @followsAt_update a (leBytes v.width v.value.toNat) f.1 f.2 hwidth hle
      refine ⟨hwidth, ?_⟩
      intro i hi hcovers
      refine (hfollows i hi).trans ?_
      split
      · exact hbyte _ ‹_› hcovers
      · exact hagree i hi hcovers
  unfold Dmnt.managerWrite
  dsimp only
  split
  · split
    · exact ⟨hmemory _ hactive.memory, hfrozen _ hactive.frozen⟩
    · exact ⟨hmemory _ hactive.memory, hactive.frozen⟩
  · exact hactive

lemma mem_of_lookup {a : UInt64} (h : frozen.lookup a = some v) : (a, v) ∈ frozen := by
  induction frozen with
  | nil => cases h
  | cons f rest ih =>
    rw [List.lookup] at h
    split at h
    · rename_i heq
      cases h
      rw [eq_of_beq heq]
      exact List.mem_cons_self
    · exact List.mem_cons_of_mem _ (ih h)

/-- A round of writes of the frozen values keeps everything as it was written. -/
lemma Holds.applyFrozenAddresses (hmem : MemoryOf K mem)
    (h : Holds mem address data s) : Holds mem address data (applyFrozenAddresses K s) := by
  unfold Dmnt.applyFrozenAddresses
  generalize s.1.frozenAddresses.map Prod.fst = addresses
  induction addresses generalizing s with
  | nil => exact h
  | cons a addresses ih =>
    refine ih ?_
    dsimp only
    split
    · rename_i v hv
      obtain ⟨hw, hagree⟩ := h.frozen _ (mem_of_lookup hv)
      exact h.managerWrite hmem hw hagree
    · exact h

end Reapply

/-- A write that succeeds has changed the memory, and the frozen values as the loop does. -/
lemma managerWrite_success {ε : Type} {K : Kernel ε} {mem : ε → Nat → UInt8} (hmem : MemoryOf K mem)
    {s : CheatManager × ε} (h : (managerWrite K s address data).1 = resultSuccess) :
    (managerWrite K s address data).2.1.frozenAddresses = updateFrozen address data s.1.frozenAddresses ∧
    ∀ x, Covers address data x →
      mem (managerWrite K s address data).2.2 x = data.getD (x - address.toNat) 0 := by
  unfold managerWrite at h ⊢
  dsimp only at h ⊢
  split at h
  · rename_i hactive
    obtain ⟨-, hsame⟩ := hasActiveCheatProcess_true hactive
    rw [if_pos hactive]
    split at h
    · rename_i hok
      rw [if_pos hok, hsame]
      exact ⟨rfl, hmem.written _ _ _ hok⟩
    · exact absurd h ‹_›
  · cases h

/-- After a write that succeeds, the frozen values have followed it, and a round of writes of the frozen
values leaves it alone, exactly if no frozen value that starts before the write differs from it where
they overlap. -/
theorem frozen_follow_iff {ε : Type} (K : Kernel ε) (mem : ε → Nat → UInt8) (hmem : MemoryOf K mem)
    (s : CheatManager × ε) (hmap : FrozenMap s.1.frozenAddresses) (address : UInt64) (data : List UInt8)
    (hend : address.toNat + data.length < 2 ^ 64) (hok : (managerWrite K s address data).1 = resultSuccess) :
    (FollowsWrite address data s.1.frozenAddresses
        (managerWrite K s address data).2.1.frozenAddresses ∧
      ∀ x, Covers address data x → mem (applyFrozenAddresses K (managerWrite K s address data).2).2 x =
          data.getD (x - address.toNat) 0) ↔
    ∀ f ∈ s.1.frozenAddresses, f.1 < address → AgreesWith address data f := by
  obtain ⟨hfrozen, hwritten⟩ := managerWrite_success hmem hok
  constructor
  · rintro ⟨hfollows, -⟩
    rw [hfrozen] at hfollows
    exact (followsWrite_updateFrozen_iff hend hmap).mp hfollows
  · intro hagree
    have hfollows := (followsWrite_updateFrozen_iff hend hmap).mpr hagree
    have hholds : Holds mem address data (managerWrite K s address data).2 := by
      refine ⟨hwritten, ?_⟩
      rw [hfrozen, updateFrozen_eq_map address data hmap.sorted]
      intro f' hf'
      obtain ⟨f, hf, rfl⟩ := List.mem_map.mp hf'
      have hff' := (followsAt_followWrite_iff hend (hmap.width_le hf)).mpr (hagree f hf)
      exact ⟨hff'.2.1.trans_le (hmap.width_le hf), hff'.agreesWith⟩
    rw [hfrozen]
    refine ⟨hfollows, ?_⟩
    exact (hholds.applyFrozenAddresses hmem).memory

/-! ## A process of its own -/

/-- A process whose memory can be written everywhere. -/
def flatKernel : Kernel (Nat → UInt8) where
  applicationPid e := (some 0, e)
  readMemory e address size := ((List.range size |>.map fun i => e (address.toNat + i), resultSuccess), e)
  writeMemory e address data := (resultSuccess, fun x =>
    if Covers address data x then data.getD (x - address.toNat) 0 else e x)

lemma memoryOf_flatKernel : MemoryOf flatKernel fun e x => e x where
  written _ _ _ _ _ hx := if_pos hx
  failed _ _ _ _ hx := .inr (if_pos hx)
  outside _ _ _ _ hx := if_neg hx
  pid _ _ := rfl

/-- Four bytes are frozen at 0x1000. -/
def frozenAt0x1000 : CheatManager × (Nat → UInt8) :=
  ({ attached := true, frozenAddresses := [(0x1000, { value := 0x11223344, width := 4 })] },
    fun _ => 0)

/-- Four bytes written from 0xFFF on, three of them frozen, stay. -/
theorem frozen_follow_front :
    (FollowsWrite 0xFFF [1, 2, 3, 4] frozenAt0x1000.1.frozenAddresses
        (managerWrite flatKernel frozenAt0x1000 0xFFF [1, 2, 3, 4]).2.1.frozenAddresses ∧
      ∀ x, Covers 0xFFF [1, 2, 3, 4] x → (applyFrozenAddresses flatKernel
            (managerWrite flatKernel frozenAt0x1000 0xFFF [1, 2, 3, 4]).2).2 x =
          [1, 2, 3, 4].getD (x - 0xFFF) 0) :=
  (frozen_follow_iff flatKernel (fun e x => e x) memoryOf_flatKernel frozenAt0x1000
    ⟨List.pairwise_singleton _ _, by decide⟩ 0xFFF [1, 2, 3, 4] (by decide) rfl).mpr
    fun f hf hlt => by
      obtain rfl := List.mem_singleton.mp hf
      exact absurd hlt (by decide)

/-- A byte written to 0x1001, inside the frozen value, is not taken over by it, and is gone after the
next round. -/
theorem frozen_undoes_write :
    let s := (managerWrite flatKernel frozenAt0x1000 0x1001 [0xAA]).2
    (managerWrite flatKernel frozenAt0x1000 0x1001 [0xAA]).1 = resultSuccess ∧
    s.2 0x1001 = 0xAA ∧ s.1.frozenAddresses = frozenAt0x1000.1.frozenAddresses ∧
    ¬ FollowsWrite 0x1001 [0xAA] frozenAt0x1000.1.frozenAddresses s.1.frozenAddresses ∧
    (applyFrozenAddresses flatKernel s).2 0x1001 = 0x33 := by
  refine ⟨rfl, rfl, rfl, ?_, rfl⟩
  intro h
  obtain ⟨⟨-, -, hbyte⟩, -⟩ := List.forall₂_cons.mp h
  exact absurd (hbyte 1 (by decide)) (by decide)

end RajNX.Dmnt
