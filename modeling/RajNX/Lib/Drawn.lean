import RajNX.Lib.Splice

/-!
# Cells of drawn values

Cells that are filled from a source which never gives a value twice. A value stands for itself by its number in the
order of the draws. What has been handed out is remembered, so that a cell is spent as long as it holds a value that
has been handed out, and fresh again when a new value is drawn for it.
-/

namespace RajNX

open Splice

/-- Cells with the number of the draw in each, how many have been drawn, and which have been handed out. -/
structure Drawn where
  cells : List Nat
  drawn : Nat
  handedOut : List Nat
  nodup : cells.Nodup
  cells_lt : ∀ x ∈ cells, x < drawn
  handedOut_lt : ∀ x ∈ handedOut, x < drawn

namespace Drawn

/-- Cells that have all been drawn for the first time. -/
def first (n : Nat) : Drawn where
  cells := List.range n
  drawn := n
  handedOut := []
  nodup := List.nodup_range
  cells_lt := fun _ hx => List.mem_range.mp hx
  handedOut_lt := fun _ hx => absurd hx List.not_mem_nil

/-- Draw new values for a part of the cells. -/
def redraw (b : Drawn) (i n : Nat) : Drawn where
  cells := splice b.cells i (List.range' b.drawn n)
  drawn := b.drawn + n
  handedOut := b.handedOut
  nodup := by
    have hkept : (b.cells.take i ++ b.cells.drop (i + n)).Nodup := by
      refine List.Nodup.sublist ?_ b.nodup
      rw [← List.drop_drop]
      conv_rhs => rw [← List.take_append_drop i b.cells]
      exact (List.Sublist.refl _).append (List.drop_sublist _ _)
    rw [splice, List.append_assoc, List.length_range', List.nodup_append_comm, List.append_assoc, List.nodup_append]
    refine ⟨List.nodup_range', List.nodup_append_comm.mp hkept, fun x hx y hy => ?_⟩
    -- the new values come behind all that are kept
    have hnew := (List.mem_range'_1.mp hx).1
    have hold : y ∈ b.cells := by
      rcases List.mem_append.mp hy with hy | hy
      · exact List.mem_of_mem_drop hy
      · exact List.mem_of_mem_take hy
    exact (Nat.lt_of_lt_of_le (b.cells_lt y hold) hnew).ne'
  cells_lt := by
    intro x hx
    rw [splice, List.mem_append, List.mem_append] at hx
    rcases hx with (hx | hx) | hx
    · exact Nat.lt_add_right _ (b.cells_lt x (List.mem_of_mem_take hx))
    · exact (List.mem_range'_1.mp hx).2
    · exact Nat.lt_add_right _ (b.cells_lt x (List.mem_of_mem_drop hx))
  handedOut_lt := fun x hx => Nat.lt_add_right _ (b.handedOut_lt x hx)

/-- Hand out the values of a part of the cells. -/
def handOut (b : Drawn) (i n : Nat) : Drawn where
  cells := b.cells
  drawn := b.drawn
  handedOut := b.handedOut ++ slice b.cells i n
  nodup := b.nodup
  cells_lt := b.cells_lt
  handedOut_lt := by
    intro x hx
    rcases List.mem_append.mp hx with hx | hx
    · exact b.handedOut_lt x hx
    · exact b.cells_lt x (List.mem_of_mem_drop (List.mem_of_mem_take hx))

/-- The value in a cell has been handed out. -/
def Spent (b : Drawn) (k : Nat) : Prop := ∃ x ∈ b.handedOut, b.cells[k]? = some x

/-- No value in a cell has been handed out. -/
def Fresh (b : Drawn) : Prop := ∀ x ∈ b.cells, x ∉ b.handedOut

section Drawn

variable {b : Drawn} {i n k : Nat}

@[simp] lemma length_cells_first : (first n).cells.length = n := List.length_range

@[simp] lemma length_cells_redraw (h : i + n ≤ b.cells.length) : (b.redraw i n).cells.length = b.cells.length := by
  apply length_splice
  rwa [List.length_range']

@[simp] lemma length_cells_handOut : (b.handOut i n).cells.length = b.cells.length := rfl

lemma fresh_iff : b.Fresh ↔ ∀ k, ¬b.Spent k := by
  constructor
  · rintro h k ⟨x, hout, hcell⟩
    exact h x (List.mem_of_getElem? hcell) hout
  · intro h x hx hout
    obtain ⟨k, hk⟩ := List.mem_iff_getElem?.mp hx
    exact h k ⟨x, hout, hk⟩

lemma not_spent_first : ¬(first n).Spent k := by
  rintro ⟨x, hx, -⟩
  exact List.not_mem_nil hx

/-- A new value makes a cell fresh, and the others stay what they are. -/
lemma spent_redraw (h : i + n ≤ b.cells.length) : (b.redraw i n).Spent k ↔ b.Spent k ∧ ¬(i ≤ k ∧ k < i + n) := by
  have hsplice : i + (List.range' b.drawn n).length ≤ b.cells.length := by rwa [List.length_range']
  have hcell := getElem?_splice hsplice k
  rw [List.length_range'] at hcell
  by_cases hk : i ≤ k ∧ k < i + n
  · rw [if_pos hk] at hcell
    refine iff_of_false ?_ fun hspent => hspent.2 hk
    rintro ⟨x, hout, hx⟩
    have hnew : x ∈ List.range' b.drawn n := List.mem_of_getElem? (hcell.symm.trans hx)
    exact absurd (b.handedOut_lt x hout) (Nat.not_lt.mpr (List.mem_range'_1.mp hnew).1)
  · rw [if_neg hk] at hcell
    refine Iff.trans ?_ (and_iff_left hk).symm
    constructor
    · rintro ⟨x, hout, hx⟩
      exact ⟨x, hout, hcell.symm.trans hx⟩
    · rintro ⟨x, hout, hx⟩
      exact ⟨x, hout, hcell.trans hx⟩

/-- The cells that are handed out are spent, and the others stay what they are. -/
lemma spent_handOut (h : i + n ≤ b.cells.length) : (b.handOut i n).Spent k ↔ b.Spent k ∨ (i ≤ k ∧ k < i + n) := by
  constructor
  · rintro ⟨x, hout, hx⟩
    rcases List.mem_append.mp hout with hout | hout
    · exact .inl ⟨x, hout, hx⟩
    · obtain ⟨j, hj⟩ := List.mem_iff_getElem?.mp hout
      rw [getElem?_slice] at hj
      split at hj
      · next hjn =>
        have hlt : k < b.cells.length := (List.getElem?_eq_some_iff.mp hx).1
        have hsame : k = i + j := (List.getElem?_inj hlt b.nodup).mp (hx.trans hj.symm)
        exact .inr ⟨by omega, by omega⟩
      · cases hj
  · rintro (⟨x, hout, hx⟩ | ⟨hle, hlt⟩)
    · exact ⟨x, List.mem_append_left _ hout, hx⟩
    · have hcell : b.cells[k]? = some b.cells[k] := List.getElem?_eq_getElem (by omega)
      refine ⟨b.cells[k], List.mem_append_right _ ?_, hcell⟩
      apply List.mem_of_getElem? (i := k - i)
      rw [getElem?_slice, if_pos (by omega), Nat.add_sub_cancel' hle]
      exact hcell

end Drawn

end Drawn

end RajNX
