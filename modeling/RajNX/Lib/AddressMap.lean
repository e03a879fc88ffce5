import Mathlib.Tactic

/-!
# Mappings of addresses

A mapping says of each address where it is taken from. It is made of pieces that are put where nothing is,
and that are taken away as a whole or part by part.
-/

namespace RajNX.AddressMap

/-- A range of addresses and where it is taken from. -/
structure Piece where
  dst : Nat
  src : Nat
  size : Nat
deriving Repr, DecidableEq

namespace Piece

/-- Where a piece takes an address from. -/
def lookup (p : Piece) (a : Nat) : Option Nat :=
  if p.dst ≤ a ∧ a < p.dst + p.size then some (p.src + (a - p.dst)) else none

/-- A mapping with a piece put in. -/
def place (p : Piece) (m : Nat → Option Nat) : Nat → Option Nat := fun a => (p.lookup a).or (m a)

/-- A mapping with a piece taken away. -/
def clear (p : Piece) (m : Nat → Option Nat) : Nat → Option Nat := fun a =>
  if (p.lookup a).isSome then none else m a

/-- Nothing is mapped where the piece is to be. -/
def Free (p : Piece) (m : Nat → Option Nat) : Prop := ∀ i < p.size, m (p.dst + i) = none

/-- The piece is in the mapping. -/
def Holds (p : Piece) (m : Nat → Option Nat) : Prop := ∀ i < p.size, m (p.dst + i) = some (p.src + i)

instance (p : Piece) (m : Nat → Option Nat) : Decidable (p.Free m) :=
  inferInstanceAs (Decidable (∀ i < p.size, _))

instance (p : Piece) (m : Nat → Option Nat) : Decidable (p.Holds m) :=
  inferInstanceAs (Decidable (∀ i < p.size, _))

/-- The first part of a piece. -/
def front (p : Piece) (n : Nat) : Piece := ⟨p.dst, p.src, n⟩

/-- What is behind the first part of a piece. -/
def back (p : Piece) (n : Nat) : Piece := ⟨p.dst + n, p.src + n, p.size - n⟩

variable {p p' : Piece} {m : Nat → Option Nat} {a n : Nat}

lemma lookup_add {i : Nat} (h : i < p.size) : p.lookup (p.dst + i) = some (p.src + i) := by
  rw [lookup, if_pos ⟨Nat.le_add_right _ _, Nat.add_lt_add_left h _⟩, Nat.add_sub_cancel_left]

lemma lookup_isSome : (p.lookup a).isSome ↔ p.dst ≤ a ∧ a < p.dst + p.size := by
  rw [lookup]
  split
  · next h => exact iff_of_true rfl h
  · next h => exact iff_of_false (by decide) h

lemma exists_of_lookup_isSome (h : (p.lookup a).isSome) : ∃ i < p.size, a = p.dst + i := by
  obtain ⟨hle, hlt⟩ := lookup_isSome.mp h
  exact ⟨a - p.dst, by omega, by omega⟩

lemma Free.eq_none (h : p.Free m) (ha : (p.lookup a).isSome) : m a = none := by
  obtain ⟨i, hi, rfl⟩ := exists_of_lookup_isSome ha
  exact h i hi

lemma Holds.eq_lookup (h : p.Holds m) (ha : (p.lookup a).isSome) : m a = p.lookup a := by
  obtain ⟨i, hi, rfl⟩ := exists_of_lookup_isSome ha
  rw [h i hi, lookup_add hi]

lemma holds_place (p : Piece) (m : Nat → Option Nat) : p.Holds (p.place m) := by
  intro i hi
  rw [place, lookup_add hi]
  rfl

lemma place_of_size_zero (h : p.size = 0) : p.place m = m := by
  funext a
  rw [place, lookup, if_neg (by omega)]
  rfl

/-- A piece that is put in and taken away. -/
lemma clear_place (h : p.Free m) : p.clear (p.place m) = m := by
  funext a
  rw [clear]
  split
  · next ha => exact (h.eq_none ha).symm
  · next ha =>
    rw [place, Option.not_isSome_iff_eq_none.mp ha]
    rfl

lemma free_clear (p : Piece) (m : Nat → Option Nat) : p.Free (p.clear m) := by
  intro i hi
  rw [clear, lookup_add hi]
  rfl

/-- A piece that is taken away and put in again. -/
lemma place_clear (h : p.Holds m) : p.place (p.clear m) = m := by
  funext a
  rw [place, clear]
  rcases hlookup : p.lookup a with _ | b
  · rfl
  · exact (hlookup ▸ h.eq_lookup (by rw [hlookup]; rfl)).symm

/-- A piece of two parts. -/
lemma lookup_front_back (h : n ≤ p.size) : p.lookup a = ((p.back n).lookup a).or ((p.front n).lookup a) := by
  rw [lookup, lookup, lookup, back, front]
  dsimp only
  rcases Nat.lt_or_ge a (p.dst + n) with hlow | hhigh
  · rw [if_neg (c := p.dst + n ≤ a ∧ _) (by omega), Option.none_or]
    exact if_congr (by omega) rfl rfl
  · rw [if_neg (c := p.dst ≤ a ∧ a < p.dst + n) (by omega), Option.or_none]
    refine if_congr (by omega) ?_ rfl
    congr 1
    omega

lemma place_front_back (h : n ≤ p.size) : p.place m = (p.back n).place ((p.front n).place m) := by
  funext a
  rw [place, place, place, lookup_front_back h, Option.or_assoc]

lemma Free.front (h : p.Free m) (hn : n ≤ p.size) : (p.front n).Free m := fun i hi => h i (hi.trans_le hn)

/-- The second part can be put behind the first one. -/
lemma Free.back (h : p.Free m) (hn : n ≤ p.size) : (p.back n).Free ((p.front n).place m) := by
  intro i hi
  have hi : i < p.size - n := hi
  have hfront : ((p.front n).lookup (p.dst + n + i)) = none := if_neg (by dsimp only [Piece.front]; omega)
  show ((p.front n).lookup (p.dst + n + i)).or (m (p.dst + n + i)) = none
  rw [hfront, Option.none_or, Nat.add_assoc]
  exact h (n + i) (by omega)

end Piece

end RajNX.AddressMap
