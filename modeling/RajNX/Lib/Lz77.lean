import Mathlib.Tactic

/-!
# Items that refer back

A sequence told by items, each of them a value or a reference: so many values, each copied from the same distance back
in what has been given so far. A reference may reach into what it gives itself, and one of distance zero gives what has
been in the room of the sequence before.
-/

namespace RajNX.Lz77

variable {α : Type}

inductive Item (α : Type)
  | literal (value : α)
  | reference (length offset : ℕ)
deriving DecidableEq

/-- How many values an item gives. -/
def Item.size : Item α → ℕ
  | .literal _ => 1
  | .reference length _ => length

section Expand

variable (initial : ℕ → α)

/-- Values copied one by one from the same distance back, over what has been in the room of the sequence. -/
def copy (out : List α) (offset : ℕ) : ℕ → Option (List α)
  | 0 => some out
  | n + 1 =>
    if offset ≤ out.length then copy (out ++ [out.getD (out.length - offset) (initial out.length)]) offset n else none

/-- What an item adds to the values given so far. -/
def expand (out : List α) : Item α → Option (List α)
  | .literal v => some (out ++ [v])
  | .reference length offset => copy initial out offset length

def expandAll (out : List α) : List (Item α) → Option (List α)
  | [] => some out
  | item :: items => (expand initial out item).bind fun out' => expandAll out' items

end Expand

/-- No reference that gives values reaches in front of the sequence. -/
def Inside (n : ℕ) : List (Item α) → Prop
  | [] => True
  | .literal _ :: items => Inside (n + 1) items
  | .reference length offset :: items => (0 < length → offset ≤ n) ∧ Inside (n + length) items

/-- Items that stand for the values of a list between two positions: every reference is to values that are the same. -/
inductive Covers (xs : List α) : ℕ → List (Item α) → ℕ → Prop
  | nil {i : ℕ} : Covers xs i [] i
  | literal {i k : ℕ} {v : α} {items : List (Item α)} : xs[i]? = some v → Covers xs (i + 1) items k →
    Covers xs i (.literal v :: items) k
  | reference {i k length offset : ℕ} {items : List (Item α)} : 0 < offset → offset ≤ i → i + length ≤ xs.length →
    (∀ n < length, xs[i - offset + n]? = xs[i + n]?) → Covers xs (i + length) items k →
    Covers xs i (.reference length offset :: items) k

lemma take_succ_of_getElem? {xs : List α} {i : ℕ} {v : α} (h : xs[i]? = some v) : xs.take i ++ [v] =
    xs.take (i + 1) := by
  rw [List.take_add_one, h]
  rfl

section Values

variable {initial : ℕ → α} {xs : List α} {i k : ℕ} {items items' : List (Item α)}

/-- Copying gives the next values of a list if these are the same as those so far back. -/
lemma copy_take {offset : ℕ} (hpos : 0 < offset) (length : ℕ) (hi : offset ≤ i)
    (hlen : i + length ≤ xs.length) (hsame : ∀ n < length, xs[i - offset + n]? = xs[i + n]?) :
    copy initial (xs.take i) offset length = some (xs.take (i + length)) := by
  induction length generalizing i with
  | zero => rfl
  | succ length ih =>
    have hget : xs[i]? = some xs[i] := List.getElem?_eq_getElem (by omega)
    have hback : (xs.take i)[i - offset]? = some xs[i] := by
      rw [List.getElem?_take_of_lt (by omega), ← hget]
      exact hsame 0 length.succ_pos
    have htake : (xs.take i).length = i := List.length_take_of_le (by omega)
    rw [copy, htake, if_pos hi, List.getD_eq_getElem?_getD, hback, Option.getD_some, take_succ_of_getElem? hget,
      ← Nat.succ_add_eq_add_succ i length]
    refine ih (by omega) (by omega) ?_
    intro n hn
    rw [show i + 1 - offset + n = i - offset + (n + 1) by omega, show i + 1 + n = i + (n + 1) by omega]
    exact hsame (n + 1) (Nat.succ_lt_succ hn)

/-- As long as the distance is not too far back, something is copied. -/
lemma exists_copy {out : List α} {offset : ℕ} (h : offset ≤ out.length) (n : ℕ) :
    ∃ out', copy initial out offset n = some out' ∧ out'.length = out.length + n := by
  induction n generalizing out with
  | zero => exact ⟨out, rfl, rfl⟩
  | succ n ih =>
    rw [copy, if_pos h]
    obtain ⟨out', hcopy, hlen⟩ := @ih (out ++ [out.getD (out.length - offset) (initial out.length)])
      (by rw [List.length_append]; omega)
    rw [List.length_append, List.length_singleton] at hlen
    exact ⟨out', hcopy, by omega⟩

/-- Items have a meaning exactly if no reference reaches in front of the sequence. -/
theorem isSome_expandAll_iff (out : List α) : (expandAll initial out items).isSome ↔ Inside out.length items := by
  induction items generalizing out with
  | nil => exact iff_of_true rfl trivial
  | cons item items ih =>
    cases item with
    | literal v =>
      rw [expandAll, expand, Option.bind_some, ih, List.length_append]
      rfl
    | reference length offset =>
      rw [expandAll, expand, Inside]
      rcases Nat.eq_zero_or_pos length with rfl | hpos
      · rw [copy, Option.bind_some, ih]
        exact (and_iff_right fun h => absurd h (Nat.lt_irrefl 0)).symm
      by_cases hle : offset ≤ out.length
      · obtain ⟨out', hcopy, hlen⟩ := @exists_copy _ initial _ _ hle length
        rw [hcopy, Option.bind_some, ih, hlen]
        exact (and_iff_right fun _ => hle).symm
      · obtain ⟨n, rfl⟩ := Nat.exists_eq_succ_of_ne_zero hpos.ne'
        rw [copy, if_neg hle]
        exact iff_of_false Bool.false_ne_true fun h => hle (h.1 hpos)

/-- Items that stand for a part of a list give it. -/
theorem expandAll_of_covers (h : Covers xs i items k) : expandAll initial (xs.take i) items = some (xs.take k) := by
  induction h with
  | nil => rfl
  | literal hv _ ih => rw [expandAll, expand, Option.bind_some, take_succ_of_getElem? hv, ih]
  | reference hpos hi hlen hsame _ ih => rw [expandAll, expand, copy_take hpos _ hi hlen hsame, Option.bind_some, ih]

lemma Covers.append {j : ℕ} (h : Covers xs i items j)
    (h' : Covers xs j items' k) : Covers xs i (items ++ items') k := by
  induction h with
  | nil => exact h'
  | literal hv _ ih => exact .literal hv (ih h')
  | reference hpos hi hlen hsame _ ih => exact .reference hpos hi hlen hsame (ih h')

end Values

end RajNX.Lz77
