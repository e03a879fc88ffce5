import Mathlib.Data.List.Basic
import Mathlib.Data.Nat.ModEq

/-!
# Circular buffers

Cells that hold a sequence from an index on, and from the first cell again behind the last one. The sequence grows at
both ends as long as there is a free cell, and its first value is taken out by moving the index.
-/

namespace RajNX.Circular

variable {α : Type}

/-- The cells hold a sequence from an index on. -/
structure Holds (cells : List α) (offset : Nat) (xs : List α) : Prop where
  offset_lt : offset < cells.length
  length_le : xs.length ≤ cells.length
  getElem? (i : Nat) : i < xs.length → cells[(offset + i) % cells.length]? = xs[i]?

section Holds

variable {cells : List α} {offset : Nat} {x : α} {xs : List α}

/-- Different places are in different cells. -/
lemma index_inj {n offset i j : Nat} (hi : i < n) (hj : j < n) (heq : (offset + i) % n = (offset + j) % n) : i = j := by
  have hmod : i ≡ j [MOD n] := Nat.ModEq.add_left_cancel' offset heq
  rwa [Nat.ModEq, Nat.mod_eq_of_lt hi, Nat.mod_eq_of_lt hj] at hmod

lemma holds_nil (hoffset : offset < cells.length) : Holds cells offset [] :=
  ⟨hoffset, Nat.zero_le _, fun _ hi => absurd hi (Nat.not_lt_zero _)⟩

lemma Holds.index_lt (h : Holds cells offset xs) (i : Nat) : (offset + i) % cells.length < cells.length :=
  Nat.mod_lt _ (Nat.zero_lt_of_lt h.offset_lt)

/-- A value is put behind the others. -/
lemma Holds.pushBack (h : Holds cells offset xs) (hroom : xs.length < cells.length) (x : α) :
    Holds (cells.set ((offset + xs.length) % cells.length) x) offset (xs ++ [x]) := by
  refine ⟨?_, ?_, ?_⟩
  · rw [List.length_set]
    exact h.offset_lt
  · rw [List.length_set, List.length_append, List.length_singleton]
    exact hroom
  · intro i hi
    rw [List.length_append, List.length_singleton] at hi
    rw [List.length_set]
    rcases Nat.lt_succ_iff_lt_or_eq.mp hi with hlt | rfl
    · have hne : (offset + xs.length) % cells.length ≠ (offset + i) % cells.length := fun heq =>
        hlt.ne' (index_inj hroom (hlt.trans hroom) heq)
      rw [List.getElem?_set_ne hne, List.getElem?_append_left hlt]
      exact h.getElem? i hlt
    · rw [List.getElem?_set_self (h.index_lt _), List.getElem?_concat_length]

/-- The cell in front of the first value. -/
lemma pred_index {n offset : Nat} (hoffset : offset < n) (i : Nat) :
    ((offset + n - 1) % n + (i + 1)) % n = (offset + i) % n := by
  rw [Nat.mod_add_mod]
  have heq : offset + n - 1 + (i + 1) = offset + i + n := by omega
  rw [heq, Nat.add_mod_right]

/-- A value is put in front of the others. -/
lemma Holds.pushFront (h : Holds cells offset xs) (hroom : xs.length < cells.length) (x : α) :
    Holds (cells.set ((offset + cells.length - 1) % cells.length) x) ((offset + cells.length - 1) % cells.length)
      (x :: xs) := by
  have hlt : (offset + cells.length - 1) % cells.length < cells.length :=
    Nat.mod_lt _ (Nat.zero_lt_of_lt h.offset_lt)
  refine ⟨?_, ?_, ?_⟩
  · rwa [List.length_set]
  · rwa [List.length_set]
  · intro i hi
    rw [List.length_set]
    cases i with
    | zero =>
      rw [Nat.add_zero, Nat.mod_eq_of_lt hlt, List.getElem?_set_self hlt]
      rfl
    | succ i =>
      rw [List.length_cons] at hi
      have hne : (offset + cells.length - 1) % cells.length ≠ (offset + i) % cells.length := by
        intro heq
        have hzero : ((offset + cells.length - 1) % cells.length + 0) % cells.length =
            ((offset + cells.length - 1) % cells.length + (i + 1)) % cells.length := by
          rw [pred_index h.offset_lt, Nat.add_zero, Nat.mod_eq_of_lt hlt, heq]
        exact absurd (index_inj (Nat.zero_lt_of_lt hroom) (by omega) hzero) (Nat.succ_ne_zero i).symm
      rw [pred_index h.offset_lt, List.getElem?_set_ne hne, h.getElem? i (Nat.lt_of_succ_lt_succ hi)]
      rfl

/-- The first value is in the cell of the index. -/
lemma Holds.front (h : Holds cells offset (x :: xs)) : cells[offset]? = some x := by
  have hfirst := h.getElem? 0 (Nat.succ_pos _)
  rwa [Nat.add_zero, Nat.mod_eq_of_lt h.offset_lt] at hfirst

/-- The first value is taken out. -/
lemma Holds.popFront (h : Holds cells offset (x :: xs)) : Holds cells ((offset + 1) % cells.length) xs := by
  refine ⟨h.index_lt 1, Nat.le_of_succ_le h.length_le, fun i hi => ?_⟩
  rw [Nat.mod_add_mod, Nat.add_assoc, Nat.add_comm 1 i, h.getElem? (i + 1) (Nat.succ_lt_succ hi)]
  rfl

end Holds

end RajNX.Circular
