import RajNX.Lib.Splice

/-!
# The list of the least recently used keys

`LruList` of `kvdb_file_key_value_cache.hpp`: an array of keys with the number of those in use, the least
recently used one first. The number has 32 bits. The operations are said by what they do to the keys in
use; nothing stands for the end of the process, and for an operation whose behaviour is undefined.
-/

namespace RajNX.Kvdb

open Splice

variable {κ : Type}

/-- `LruList`: the memory for the keys, as many as the capacity is, and the header -/
structure LruList (κ : Type) where
  keys : List κ
  entryCount : Nat

namespace LruList

variable (l : LruList κ)

/-- `Capacity` -/
def capacity : Nat := l.keys.length

/-- The keys in use. -/
def live : List κ := l.keys.take l.entryCount

/-- `GetCount` -/
def getCount : Nat := l.entryCount

/-- `IsEmpty` -/
def isEmpty : Bool := l.getCount = 0

/-- `IsFull` -/
def isFull : Bool := l.capacity ≤ l.getCount

/-- `RemoveIndex` -/
def removeIndex (i : Nat) : Option (LruList κ) :=
  if l.getCount ≤ i then none
  else some ⟨splice l.keys i (slice l.keys (i + 1) (l.getCount - (i + 1))), l.entryCount - 1⟩

/-- `Get` -/
def get (i : Nat) : Option κ := if l.getCount ≤ i then none else l.keys[i]?

/-- `Peek` -/
def peek : Option κ := if l.isEmpty then none else l.get 0

/-- `Push` -/
def push (key : κ) : Option (LruList κ) :=
  if l.isFull then none
  else some ⟨l.keys.set l.getCount key, (l.entryCount + 1) % 2 ^ 32⟩

/-- `Pop`. It is declared to return a key and has no `return`: once the first key is removed it runs off its end,
which is undefined behaviour. -/
def pop : Option (LruList κ) :=
  if l.isEmpty then none else (l.removeIndex 0).bind fun _ => none

/-- Nothing goes on after `Pop`. -/
@[simp] lemma pop_eq_none : l.pop = none := by
  rw [pop]
  split
  · rfl
  · exact Option.bind_fun_none _

variable [DecidableEq κ]

/-- The loop of `Remove`: the last index below `n` at which the key stands. -/
def lastIndex (l : LruList κ) (key : κ) : Nat → Option Nat
  | 0 => none
  | n + 1 => if l.keys[n]? = some key then some n else l.lastIndex key n

/-- `Remove` -/
def remove (key : κ) : Option (Bool × LruList κ) :=
  match l.lastIndex key l.getCount with
  | none => some (false, l)
  | some i => (l.removeIndex i).map fun l => (true, l)

/-- `Contains`, whose loop is that of `Remove` -/
def contains (key : κ) : Bool := (l.lastIndex key l.getCount).isSome

/-- `Update` -/
def update (key : κ) : Option (Bool × LruList κ) := do
  let (removed, l) ← l.remove key
  if removed then (l.push key).map fun l => (true, l) else some (false, l)

end LruList

/-! ## The keys in use -/

namespace LruList

/-- The number of the keys fits the memory and 32 bits. -/
structure Valid (l : LruList κ) : Prop where
  count_le : l.entryCount ≤ l.capacity
  count_lt : l.entryCount < 2 ^ 32

section Live

variable {l : LruList κ} {key : κ}

lemma Valid.length_live (h : l.Valid) : l.live.length = l.entryCount := by
  rw [live, List.length_take]
  exact Nat.min_eq_left h.count_le

lemma Valid.isEmpty_iff (h : l.Valid) : l.isEmpty = true ↔ l.live = [] := by
  rw [isEmpty, decide_eq_true_iff, getCount, ← h.length_live, List.length_eq_zero_iff]

/-- A key is removed by moving those behind it. -/
lemma Valid.removeIndex (h : l.Valid) {i : Nat} (hi : i < l.live.length) :
    ∃ l', l.removeIndex i = some l' ∧ l'.Valid ∧ l'.capacity = l.capacity ∧
      l'.live = l.live.eraseIdx i := by
  have hle := h.count_le
  have hlt := h.count_lt
  rw [h.length_live] at hi
  rw [capacity] at hle
  have hlength : (splice l.keys i (slice l.keys (i + 1) (l.entryCount - (i + 1)))).length =
      l.keys.length := by
    refine length_splice ?_
    rw [length_slice (by omega)]
    omega
  refine ⟨_, if_neg (Nat.not_le.mpr hi), ⟨?_, ?_⟩, hlength, take_splice_slice hi hle⟩
  · rw [capacity]
    dsimp only [getCount]
    rw [hlength]
    omega
  · dsimp only
    omega

/-- A key is added behind the others. -/
lemma Valid.push (h : l.Valid) (hroom : l.live.length < l.capacity) (hcount : l.live.length + 1 < 2 ^ 32) (key : κ) :
    ∃ l', l.push key = some l' ∧ l'.Valid ∧ l'.capacity = l.capacity ∧ l'.live = l.live ++ [key] := by
  rw [h.length_live] at hroom hcount
  have hmod : (l.entryCount + 1) % 2 ^ 32 = l.entryCount + 1 := Nat.mod_eq_of_lt hcount
  have hfull : ¬l.isFull = true := by
    rw [isFull, decide_eq_true_iff, getCount]
    exact Nat.not_le.mpr hroom
  refine ⟨_, if_neg hfull, ⟨?_, ?_⟩, List.length_set .., ?_⟩
  · rw [capacity, hmod]
    dsimp only
    rw [List.length_set]
    exact hroom
  · rw [hmod]
    exact hcount
  · rw [live, hmod]
    dsimp only [getCount]
    rw [List.take_add_one, List.take_set_of_le le_rfl, List.getElem?_set_self hroom, live]
    rfl

/-- A count that wraps around leaves an empty list. -/
lemma push_wraps (hroom : l.isFull = false) (hcount : l.getCount + 1 = 2 ^ 32) (key : κ) :
    ∃ l', l.push key = some l' ∧ l'.Valid ∧ l'.capacity = l.capacity ∧ l'.live = [] := by
  have hzero : (l.entryCount + 1) % 2 ^ 32 = 0 := by
    rw [show l.entryCount + 1 = 2 ^ 32 from hcount, Nat.mod_self]
  refine ⟨⟨l.keys.set l.getCount key, (l.entryCount + 1) % 2 ^ 32⟩, ?_, ⟨?_, Nat.mod_lt _ (by decide)⟩,
    List.length_set, ?_⟩
  · rw [push, hroom]
    rfl
  · exact hzero.le.trans (Nat.zero_le _)
  · rw [live, hzero, List.take_zero]

variable [DecidableEq κ]

/-- The loop finds the key where it stands, if it is among the first keys. -/
lemma Valid.lastIndex (h : l.Valid) (key : κ) {n : Nat} (hn : n ≤ l.live.length) :
    (∃ i, l.lastIndex key n = some i ∧ l.live[i]? = some key) ∨
      (l.lastIndex key n = none ∧ key ∉ l.live.take n) := by
  induction n with
  | zero => exact .inr ⟨rfl, by rw [List.take_zero]; exact List.not_mem_nil⟩
  | succ n ih =>
    have hget : l.live[n]? = l.keys[n]? := by
      rw [live, List.getElem?_take, if_pos (by rw [← h.length_live]; omega)]
    rw [LruList.lastIndex, ← hget]
    by_cases hkey : l.live[n]? = some key
    · rw [if_pos hkey]
      exact .inl ⟨n, rfl, hkey⟩
    · rw [if_neg hkey]
      refine (ih (by omega)).imp id ?_
      intro hnone
      obtain ⟨hnone, hmem⟩ := hnone
      refine ⟨hnone, ?_⟩
      rw [List.take_add_one, List.mem_append, not_or]
      refine ⟨hmem, ?_⟩
      intro hlast
      rw [Option.mem_toList] at hlast
      exact hkey hlast

lemma Valid.lastIndex_of_notMem (h : l.Valid) (hkey : key ∉ l.live) : l.lastIndex key l.getCount = none := by
  rcases h.lastIndex key (n := l.getCount) (by rw [getCount, h.length_live]) with
    ⟨i, -, hi⟩ | ⟨hnone, -⟩
  · exact absurd (List.mem_of_getElem? hi) hkey
  · exact hnone

lemma Valid.remove_of_mem (h : l.Valid) (hnodup : l.live.Nodup) (hkey : key ∈ l.live) :
    ∃ l', l.remove key = some (true, l') ∧ l'.Valid ∧ l'.capacity = l.capacity ∧
      l'.live = l.live.erase key := by
  rcases h.lastIndex key (n := l.getCount) (by rw [getCount, h.length_live]) with
    ⟨i, hi, hget⟩ | ⟨-, hmem⟩
  · obtain ⟨hlt, heq⟩ := List.getElem?_eq_some_iff.mp hget
    obtain ⟨l', hremove, hvalid, hcapacity, hlive⟩ := h.removeIndex hlt
    refine ⟨l', ?_, hvalid, hcapacity, ?_⟩
    · rw [LruList.remove, hi]
      dsimp only
      rw [hremove]
      rfl
    · rw [hlive, ← heq, hnodup.erase_getElem]
  · rw [getCount, ← h.length_live, List.take_length] at hmem
    exact absurd hkey hmem

lemma Valid.remove_of_notMem (h : l.Valid) (hkey : key ∉ l.live) : l.remove key = some (false, l) := by
  rw [LruList.remove, h.lastIndex_of_notMem hkey]

/-- A key in use that is updated goes to the end. -/
lemma Valid.update_of_mem (h : l.Valid) (hnodup : l.live.Nodup) (hkey : key ∈ l.live) :
    ∃ l', l.update key = some (true, l') ∧ l'.Valid ∧ l'.capacity = l.capacity ∧
      l'.live = l.live.erase key ++ [key] := by
  have hle := h.count_le
  have hlt := h.count_lt
  have hlength := h.length_live
  have hpos := List.length_pos_of_mem hkey
  have herase := List.length_erase_of_mem hkey
  obtain ⟨l₁, hremove, h₁, hcapacity₁, hlive₁⟩ := h.remove_of_mem hnodup hkey
  obtain ⟨l', hpush, h', hcapacity', hlive'⟩ := h₁.push (by rw [hlive₁]; omega)
    (by rw [hlive₁]; omega) key
  refine ⟨l', ?_, h', hcapacity'.trans hcapacity₁, ?_⟩
  · rw [LruList.update, hremove]
    exact congrArg (Option.map _) hpush
  · rw [hlive', hlive₁]

lemma Valid.update_of_notMem (h : l.Valid) (hkey : key ∉ l.live) : l.update key = some (false, l) := by
  rw [LruList.update, h.remove_of_notMem hkey]
  rfl

end Live

end LruList

end RajNX.Kvdb
