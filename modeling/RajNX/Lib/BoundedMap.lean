import Mathlib.Tactic

/-!
# Bounded finite maps

Finite maps with at most so many keys, as what a bounded store is for: a lookup function, the set of
the keys that have a value, and the bound on their number.
-/

namespace RajNX

/-- A finite map with at most `capacity` keys. -/
structure BoundedMap (κ ν : Type) (capacity : Nat) where
  lookup : κ → Option ν
  keys : Finset κ
  mem_keys : ∀ k, k ∈ keys ↔ lookup k ≠ none
  card_le : keys.card ≤ capacity

namespace BoundedMap

variable {κ ν : Type} {capacity : Nat}

/-- The map without keys. -/
def empty (κ ν : Type) (capacity : Nat) : BoundedMap κ ν capacity where
  lookup := fun _ => none
  keys := ∅
  mem_keys := fun k => by simp
  card_le := Nat.zero_le capacity

variable [DecidableEq κ]

/-- Whether a key can be set: it has a value already, or there is room for another key. -/
def HasRoom (m : BoundedMap κ ν capacity) (k : κ) : Prop := k ∈ m.keys ∨ m.keys.card < capacity

instance (m : BoundedMap κ ν capacity) (k : κ) : Decidable (m.HasRoom k) :=
  inferInstanceAs (Decidable (_ ∨ _))

/-- Give a key a value. -/
def insert (m : BoundedMap κ ν capacity) (k : κ) (v : ν) (h : m.HasRoom k) :
    BoundedMap κ ν capacity where
  lookup := Function.update m.lookup k (some v)
  keys := Insert.insert k m.keys
  mem_keys := by
    intro k'
    rw [Finset.mem_insert, m.mem_keys]
    by_cases hk : k' = k
    · simp [hk]
    · simp [hk]
  card_le := by
    rcases h with h | h
    · rw [Finset.insert_eq_of_mem h]
      exact m.card_le
    · exact (Finset.card_insert_le k m.keys).trans h

lemma lookup_insert (m : BoundedMap κ ν capacity) (k : κ) (v : ν) (h : m.HasRoom k) :
    (m.insert k v h).lookup = Function.update m.lookup k (some v) := rfl

/-- Take a key's value away. -/
def erase (m : BoundedMap κ ν capacity) (k : κ) : BoundedMap κ ν capacity where
  lookup := Function.update m.lookup k none
  keys := m.keys.erase k
  mem_keys := by
    intro k'
    rw [Finset.mem_erase, m.mem_keys]
    by_cases hk : k' = k
    · simp [hk]
    · simp [hk]
  card_le := (Finset.card_erase_le).trans m.card_le

lemma lookup_erase (m : BoundedMap κ ν capacity) (k : κ) :
    (m.erase k).lookup = Function.update m.lookup k none := rfl

end BoundedMap

end RajNX
