import RajNX.Lib.LittleEndian

/-!
# Big-endian numbers

Fixed-width big-endian byte strings and the numbers they stand for.
-/

namespace RajNX.BigEndian

open LittleEndian

/-- The low `n` bytes of a number, most significant first. -/
def beBytes (n v : Nat) : List UInt8 := (leBytes n v).reverse

/-- The number a byte string stands for. -/
def beValue (bs : List UInt8) : Nat := leValue bs.reverse

@[simp] lemma length_beBytes (n v : Nat) : (beBytes n v).length = n := by
  rw [beBytes, List.length_reverse, length_leBytes]

/-- Reading back gives the number, cut to the width. -/
lemma beValue_beBytes (n v : Nat) : beValue (beBytes n v) = v % 256 ^ n := by
  rw [beValue, beBytes, List.reverse_reverse, leValue_leBytes]

/-- A byte string is the one of its number. -/
lemma beBytes_beValue (bs : List UInt8) : beBytes bs.length (beValue bs) = bs := by
  have hle := leBytes_leValue bs.reverse
  rw [List.length_reverse] at hle
  rw [beBytes, beValue, hle, List.reverse_reverse]

lemma beValue_lt (bs : List UInt8) : beValue bs < 256 ^ bs.length := by
  have hlt := leValue_lt bs.reverse
  rwa [List.length_reverse] at hlt

lemma beValue_append (as bs : List UInt8) : beValue (as ++ bs) = 256 ^ bs.length * beValue as + beValue bs := by
  rw [beValue, List.reverse_append, leValue_append, List.length_reverse, Nat.add_comm]
  rfl

end RajNX.BigEndian
