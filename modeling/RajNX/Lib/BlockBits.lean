import RajNX.Lib.BigEndian
import RajNX.Lib.Block

/-!
# Blocks of 16 bytes as 128 bits

The first byte of a block has the most significant bits. A bit of a block is a bit of one of its bytes.
-/

namespace RajNX

open BigEndian LittleEndian

/-- A bit of a number in bytes is a bit of one of them. -/
lemma LittleEndian.testBit_leValue (bs : List UInt8) (i : Nat) :
    (leValue bs).testBit i = (bs.getD (i / 8) 0).toNat.testBit (i % 8) := by
  induction bs generalizing i with
  | nil => simp [leValue]
  | cons b bs ih =>
    have hsplit : leValue (b :: bs) = 2 ^ 8 * leValue bs + b.toNat := Nat.add_comm _ _
    rw [hsplit, Nat.testBit_two_pow_mul_add _ b.toNat_lt]
    split
    · next hlow => rw [Nat.div_eq_of_lt hlow, Nat.mod_eq_of_lt hlow, List.getD_cons_zero]
    · next hhigh =>
      obtain ⟨j, rfl⟩ := Nat.exists_eq_add_of_le (Nat.le_of_not_lt hhigh)
      rw [Nat.add_sub_cancel_left, ih, Nat.add_div_left _ (by decide), List.getD_cons_succ, Nat.add_mod_left]

namespace Block

/-- The bits of a block. -/
def bits (b : Block 0x10) : BitVec 128 := BitVec.ofNat 128 (beValue (List.ofFn b))

/-- The block with some bits. -/
def ofBits (x : BitVec 128) : Block 0x10 := fun i => (beBytes 0x10 x.toNat).getD i 0

section Bits

variable {a b : Block 0x10} {x : BitVec 128}

lemma beValue_ofFn_lt (b : Block 0x10) : beValue (List.ofFn b) < 2 ^ 128 := by
  have hlt := beValue_lt (List.ofFn b)
  rwa [List.length_ofFn] at hlt

lemma toNat_bits (b : Block 0x10) : b.bits.toNat = beValue (List.ofFn b) := by
  rw [bits, BitVec.toNat_ofNat, Nat.mod_eq_of_lt (beValue_ofFn_lt b)]

lemma ofFn_ofBits (x : BitVec 128) : List.ofFn (ofBits x) = beBytes 0x10 x.toNat := by
  apply List.ext_getElem
  · rw [List.length_ofFn, length_beBytes]
  · intro i hi hi'
    rw [List.getElem_ofFn, ofBits, List.getD_eq_getElem?_getD, List.getElem?_eq_getElem hi', Option.getD_some]

lemma bits_ofBits (x : BitVec 128) : (ofBits x).bits = x := by
  apply BitVec.eq_of_toNat_eq
  rw [toNat_bits, ofFn_ofBits, beValue_beBytes]
  exact Nat.mod_eq_of_lt x.isLt

lemma ofBits_bits (b : Block 0x10) : ofBits b.bits = b := by
  apply List.ofFn_injective
  rw [ofFn_ofBits, toNat_bits]
  have hbytes := beBytes_beValue (List.ofFn b)
  rwa [List.length_ofFn] at hbytes

lemma bits_inj : a.bits = b.bits ↔ a = b :=
  ⟨fun h => by rw [← ofBits_bits a, h, ofBits_bits], congrArg bits⟩

/-- The bytes from the last one on have the bits from the least significant one on. -/
lemma getLsbD_bits (b : Block 0x10) {j : Nat} (hj : j < 128) :
    b.bits.getLsbD j = (b ⟨0xF - j / 8, by omega⟩).toNat.testBit (j % 8) := by
  have hplace : j / 8 < (List.ofFn b).length := by
    rw [List.length_ofFn]
    omega
  rw [← BitVec.testBit_toNat, toNat_bits, beValue, testBit_leValue, List.getD_eq_getElem?_getD,
    List.getElem?_reverse hplace, List.length_ofFn, List.getElem?_ofFn, dif_pos (by omega), Option.getD_some]

lemma bits_xor (a b : Block 0x10) : (a.xor b).bits = a.bits ^^^ b.bits := by
  apply BitVec.eq_of_getLsbD_eq
  intro j hj
  rw [BitVec.getLsbD_xor, getLsbD_bits _ hj, getLsbD_bits _ hj, getLsbD_bits _ hj, xor, UInt8.toNat_xor,
    Nat.testBit_xor]

end Bits

end Block

end RajNX
