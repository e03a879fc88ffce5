import Mathlib.Tactic

/-!
# Differences that wrap around
-/

namespace RajNX.Wrapping

/-- A difference of unsigned 64-bit values. -/
def sub64 (a b : Nat) : Nat := (a + 2 ^ 64 - b) % 2 ^ 64

lemma sub64_of_le {a b : Nat} (hb : b ≤ a) (ha : a < 2 ^ 64) : sub64 a b = a - b := by
  rw [sub64]
  omega

end RajNX.Wrapping
