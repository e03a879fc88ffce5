import Mathlib.Data.Fin.VecNotation
import Mathlib.Data.Fintype.Pi

/-!
# Blocks and keyed permutations

Blocks of bytes with their exclusive or, and block ciphers as permutations of the blocks that are given by a key. To
mask with the key is the least one.
-/

namespace RajNX

/-- So many bytes. -/
abbrev Block (n : Nat) := Fin n → UInt8

namespace Block

variable {n : Nat} {a b c : Block n}

/-- The block of zeros. -/
def zeros (n : Nat) : Block n := fun _ => 0

/-- The exclusive or of two blocks. -/
def xor (a b : Block n) : Block n := fun i => a i ^^^ b i

lemma xor_comm (a b : Block n) : a.xor b = b.xor a := funext fun _ => UInt8.xor_comm _ _

lemma xor_assoc (a b c : Block n) : (a.xor b).xor c = a.xor (b.xor c) := funext fun _ => UInt8.xor_assoc _ _ _

lemma xor_zeros (a : Block n) : a.xor (zeros n) = a := funext fun _ => UInt8.xor_zero

lemma xor_self (a : Block n) : a.xor a = zeros n := funext fun _ => UInt8.xor_self

lemma xor_xor_self (a b : Block n) : (a.xor b).xor b = a := by
  rw [xor_assoc, xor_self, xor_zeros]

lemma xor_left_inj : a.xor c = b.xor c ↔ a = b := by
  constructor
  · intro h
    rw [← xor_xor_self a c, h, xor_xor_self]
  · rintro rfl
    rfl

/-- The cipher that masks with its key. -/
def maskWith (key : Block n) : Equiv.Perm (Block n) where
  toFun a := a.xor key
  invFun a := a.xor key
  left_inv a := xor_xor_self a key
  right_inv a := xor_xor_self a key

end Block

end RajNX
