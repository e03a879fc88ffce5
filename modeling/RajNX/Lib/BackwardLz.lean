import RajNX.Lib.Splice

/-!
# Items of a stream that is decoded from its end

The output of such a stream grows at its front. An item is a value, or a reference to values that are further back in
the output. A reference may not reach into what it gives itself, so that it does not matter in which order its values
are copied.
-/

namespace RajNX.BackwardLz

open Splice

variable {α : Type}

/-- A value, or so many values from so much further back. -/
inductive Item (α : Type)
  | literal (value : α)
  | reference (size offset : Nat)
deriving Repr, DecidableEq

/-- The values that an item gives, if it is one. -/
def values (out : List α) : Item α → Option (List α)
  | .literal value => some [value]
  | .reference size offset =>
    if size ≤ offset ∧ offset ≤ out.length then some (slice out (offset - size) size) else none

/-- The output behind an item. -/
def expand (out : List α) (item : Item α) : Option (List α) := (values out item).map (· ++ out)

section Items

variable {out out' xs : List α} {value : α} {size offset k : Nat}

lemma expand_literal : expand out (.literal value) = some (value :: out) := rfl

lemma expand_reference (h : expand out (.reference size offset) = some out') :
    size ≤ offset ∧ offset ≤ out.length ∧ out' = slice out (offset - size) size ++ out := by
  obtain ⟨xs, hvalues, rfl⟩ := Option.map_eq_some_iff.mp h
  rw [values] at hvalues
  split at hvalues
  · next hreach =>
    cases hvalues
    exact ⟨hreach.1, hreach.2, rfl⟩
  · cases hvalues

end Items

end RajNX.BackwardLz
