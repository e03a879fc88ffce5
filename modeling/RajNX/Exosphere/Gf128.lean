import RajNX.Exosphere.Gcm
import RajNX.Lib.BinaryField
import RajNX.Lib.BlockBits

/-!
# Multiplication in words

`gf128_mul` of `gcm.c` with the words that it works on. The bytes of the blocks are reversed, so that two
little-endian words of 64 bits have the bits of a block from the last one on. A shift moves a bit from one word to
the other, and single bits are read and written by the bytes of the words.
-/

namespace RajNX.Exosphere.Gf128

open BigEndian BinaryField Block LittleEndian Polynomial

/-- Two words: `val[0]` and `val[1]`. -/
structure Words where
  lo : UInt64
  hi : UInt64

/-- `shr_128` -/
def shr128 (val : Words) : Words where
  lo := val.lo >>> 1 ||| (val.hi &&& 1) <<< 63
  hi := val.hi >>> 1

/-- `shl_128` -/
def shl128 (val : Words) : Words where
  hi := val.hi <<< 1 ||| (val.lo &&& (1 : UInt64) <<< 63) >>> 63
  lo := val.lo <<< 1

/-- The byte at index 0 of the words in memory. -/
def firstByte (val : Words) : UInt8 := val.lo.toUInt8

/-- The byte at index 0xF. -/
def lastByte (val : Words) : UInt8 := (val.hi >>> 56).toUInt8

/-- A round of `gf128_mul`, with `p_x`, `p_y` and `p_dst`. -/
def mulRound : Words × Words × Words → Words × Words × Words
  | (x, y, dst) =>
    let bit := ((lastByte y &&& 0x80) >>> 7).toUInt64
    let dst : Words := ⟨dst.lo ^^^ x.lo * bit, dst.hi ^^^ x.hi * bit⟩
    let y := shl128 y
    let xval := 0xE1 * (firstByte x &&& 1)
    let x := shr128 x
    ({ x with hi := x.hi ^^^ xval.toUInt64 <<< 56 }, y, dst)

/-- The words of the reversed bytes of a block. -/
def load (b : Block 0x10) : Words :=
  let work := (List.ofFn b).reverse
  ⟨.ofNat (leValue (work.take 8)), .ofNat (leValue (work.drop 8))⟩

/-- The block of the reversed bytes of two words. -/
def store (val : Words) : Block 0x10 :=
  let work := leBytes 8 val.lo.toNat ++ leBytes 8 val.hi.toNat
  fun i => work.getD (0xF - i) 0

/-- `gf128_mul` -/
def gf128Mul (x y : Block 0x10) : Block 0x10 := store (mulRound^[0x80] (load x, load y, ⟨0, 0⟩)).2.2

/-- The bits of two words. -/
def Words.bits (val : Words) : BitVec 128 := val.hi.toBitVec ++ val.lo.toBitVec

section Words

variable {val x y dst : Words} {b : Block 0x10} {i : Nat}

lemma toNat_bits (val : Words) : val.bits.toNat = val.lo.toNat + 256 ^ 8 * val.hi.toNat := by
  rw [Words.bits, BitVec.toNat_append, ← Nat.shiftLeft_add_eq_or_of_lt val.lo.toBitVec.isLt, Nat.shiftLeft_eq,
    Nat.mul_comm, Nat.add_comm]
  rfl

lemma bits_load (b : Block 0x10) : (load b).bits = b.bits := by
  apply BitVec.eq_of_toNat_eq
  have hlength : (List.ofFn b).reverse.length = 0x10 := by rw [List.length_reverse, List.length_ofFn]
  have hword : ∀ l : List UInt8, l.length = 8 → (UInt64.ofNat (leValue l)).toNat = leValue l := by
    intro l hl
    rw [UInt64.toNat_ofNat']
    apply Nat.mod_eq_of_lt
    have hlt := leValue_lt l
    rwa [hl] at hlt
  have htake : ((List.ofFn b).reverse.take 8).length = 8 := by
    rw [List.length_take, hlength]
    rfl
  have hdrop : ((List.ofFn b).reverse.drop 8).length = 8 := by rw [List.length_drop, hlength]
  have happend := leValue_append ((List.ofFn b).reverse.take 8) ((List.ofFn b).reverse.drop 8)
  rw [List.take_append_drop, htake] at happend
  rw [toNat_bits, load, hword _ htake, hword _ hdrop, ← happend, Block.toNat_bits, beValue]

lemma bits_store (val : Words) : (store val).bits = val.bits := by
  apply BitVec.eq_of_toNat_eq
  have hlength : (leBytes 8 val.lo.toNat ++ leBytes 8 val.hi.toNat).length = 0x10 := by
    rw [List.length_append, length_leBytes, length_leBytes]
  have hbytes : List.ofFn (store val) = (leBytes 8 val.lo.toNat ++ leBytes 8 val.hi.toNat).reverse := by
    apply List.ext_getElem
    · rw [List.length_ofFn, List.length_reverse, hlength]
    · intro i hi hi'
      rw [List.length_ofFn] at hi
      have hbyte : store val ⟨i, hi⟩ = (leBytes 8 val.lo.toNat ++ leBytes 8 val.hi.toNat).getD (0xF - i) 0 := rfl
      rw [List.getElem_ofFn, List.getElem_reverse, hbyte, List.getD_eq_getElem?_getD,
        List.getElem?_eq_getElem (by omega), Option.getD_some]
      congr 1
  have hword : ∀ v : UInt64, v.toNat % 256 ^ 8 = v.toNat := fun v => Nat.mod_eq_of_lt v.toNat_lt
  rw [Block.toNat_bits, hbytes, beValue, List.reverse_reverse, leValue_append, leValue_leBytes, leValue_leBytes,
    length_leBytes, toNat_bits, hword, hword]

lemma getLsbD_bits (val : Words) (i : Nat) :
    val.bits.getLsbD i = if i < 64 then val.lo.toBitVec.getLsbD i else val.hi.toBitVec.getLsbD (i - 64) :=
  BitVec.getLsbD_append

/-- The bit that a shift to the right moves to the low word. -/
lemma getLsbD_bitDown (a : UInt64) (hi : i < 64) :
    ((a &&& 1) <<< 63).toBitVec.getLsbD i = (decide (i = 63) && a.toBitVec.getLsbD 0) := by
  have hword : ((a &&& 1) <<< 63).toBitVec = (a.toBitVec &&& 1#64) <<< 63 := rfl
  rw [hword, BitVec.getLsbD_shiftLeft, BitVec.getLsbD_and, BitVec.getLsbD_one]
  by_cases h : i = 63
  · subst h
    simp
  · have hlt : i < 63 := by omega
    simp [h, hlt]

/-- The bit that a shift to the left moves to the high word. -/
lemma getLsbD_bitUp (a : UInt64) (i : Nat) :
    ((a &&& (1 : UInt64) <<< 63) >>> 63).toBitVec.getLsbD i = (decide (i = 0) && a.toBitVec.getLsbD 63) := by
  have hword : ((a &&& (1 : UInt64) <<< 63) >>> 63).toBitVec = (a.toBitVec &&& 1#64 <<< 63) >>> 63 := rfl
  rw [hword, BitVec.getLsbD_ushiftRight, BitVec.getLsbD_and, BitVec.getLsbD_shiftLeft, BitVec.getLsbD_one]
  by_cases h : i = 0
  · subst h
    simp
  · simp [h]

lemma bits_shr128 (val : Words) : (shr128 val).bits = val.bits >>> 1 := by
  apply BitVec.eq_of_getLsbD_eq
  intro i hi
  have hlo : (shr128 val).lo.toBitVec = val.lo.toBitVec >>> 1 ||| ((val.hi &&& 1) <<< 63).toBitVec := rfl
  have hhi : (shr128 val).hi.toBitVec = val.hi.toBitVec >>> 1 := rfl
  rw [BitVec.getLsbD_ushiftRight, getLsbD_bits, getLsbD_bits, hlo, hhi, BitVec.getLsbD_or, BitVec.getLsbD_ushiftRight,
    BitVec.getLsbD_ushiftRight]
  by_cases hlow : i < 64
  · rw [if_pos hlow, getLsbD_bitDown _ hlow]
    by_cases hlast : i = 63
    · subst hlast
      rw [if_neg (by decide), BitVec.getLsbD_of_ge _ _ (by decide)]
      rfl
    · rw [if_pos (by omega), decide_eq_false hlast, Bool.false_and, Bool.or_false]
  · rw [if_neg hlow, if_neg (by omega)]
    congr 1
    omega

lemma bits_shl128 (val : Words) : (shl128 val).bits = val.bits <<< 1 := by
  apply BitVec.eq_of_getLsbD_eq
  intro i hi
  have hlo : (shl128 val).lo.toBitVec = val.lo.toBitVec <<< 1 := rfl
  have hhi : (shl128 val).hi.toBitVec =
      val.hi.toBitVec <<< 1 ||| ((val.lo &&& (1 : UInt64) <<< 63) >>> 63).toBitVec := rfl
  rw [BitVec.getLsbD_shiftLeft, getLsbD_bits, getLsbD_bits, hlo, hhi, BitVec.getLsbD_or, BitVec.getLsbD_shiftLeft,
    BitVec.getLsbD_shiftLeft, getLsbD_bitUp, decide_eq_true hi, Bool.true_and]
  by_cases hlow : i < 64
  · rw [if_pos hlow, if_pos (by omega), decide_eq_true hlow, Bool.true_and]
  · rw [if_neg hlow, decide_eq_true (show i - 64 < 64 by omega), Bool.true_and,
      decide_eq_false (show ¬i < 1 by omega)]
    by_cases hfirst : i = 64
    · subst hfirst
      rfl
    · rw [if_neg (by omega), decide_eq_false (show ¬i - 64 < 1 by omega), decide_eq_false (show i - 64 ≠ 0 by omega),
        Bool.false_and, Bool.or_false]
      congr 2

lemma bits_xor (x y : Words) : (⟨x.lo ^^^ y.lo, x.hi ^^^ y.hi⟩ : Words).bits = x.bits ^^^ y.bits := by
  apply BitVec.eq_of_getLsbD_eq
  intro i _
  rw [BitVec.getLsbD_xor, getLsbD_bits, getLsbD_bits, getLsbD_bits]
  split
  · exact BitVec.getLsbD_xor
  · exact BitVec.getLsbD_xor

/-- The bit of `y` that a round looks at. -/
lemma bit_eq (y : Words) : ((lastByte y &&& 0x80) >>> 7).toUInt64 = if y.bits.msb then 1 else 0 := by
  have hall : ∀ n : Fin 256, ((UInt8.ofNat n &&& 0x80) >>> 7).toUInt64 = if n.val.testBit 7 then 1 else 0 := by
    decide +kernel
  have hbit : (lastByte y).toNat.testBit 7 = y.bits.msb := by
    have hbyte : (lastByte y).toBitVec = (y.hi.toBitVec >>> 56).setWidth 8 := rfl
    rw [BitVec.msb_eq_getLsbD_last, getLsbD_bits, if_neg (by decide), ← UInt8.toNat_toBitVec, BitVec.testBit_toNat,
      hbyte, BitVec.getLsbD_setWidth, BitVec.getLsbD_ushiftRight]
    rfl
  have hbyte := hall ⟨(lastByte y).toNat, (lastByte y).toNat_lt⟩
  rw [UInt8.ofNat_toNat] at hbyte
  rw [hbyte, hbit]

/-- The byte that is added when a bit of `x` is lost. -/
lemma xval_eq (x : Words) : 0xE1 * (firstByte x &&& 1) = if x.bits.getLsbD 0 then 0xE1 else 0 := by
  have hall : ∀ n : Fin 256, 0xE1 * (UInt8.ofNat n &&& 1) = if n.val.testBit 0 then 0xE1 else 0 := by
    decide +kernel
  have hbit : (firstByte x).toNat.testBit 0 = x.bits.getLsbD 0 := by
    have hbyte : (firstByte x).toBitVec = x.lo.toBitVec.setWidth 8 := rfl
    rw [getLsbD_bits, if_pos (by decide), ← UInt8.toNat_toBitVec, BitVec.testBit_toNat, hbyte, BitVec.getLsbD_setWidth]
    rfl
  have hbyte := hall ⟨(firstByte x).toNat, (firstByte x).toNat_lt⟩
  rw [UInt8.ofNat_toNat] at hbyte
  rw [hbyte, hbit]

/-- The word that `t ^ 128` is reduced to. -/
def reduction : BitVec 128 := 0xE1#128 <<< 120

/-- A round on words is one on bits. -/
lemma bits_mulRound (s : Words × Words × Words) :
    ((mulRound s).1.bits, (mulRound s).2.1.bits, (mulRound s).2.2.bits) =
      round reduction (s.1.bits, s.2.1.bits, s.2.2.bits) := by
  obtain ⟨x, y, dst⟩ := s
  have hsum : (mulRound (x, y, dst)).2.2.bits = if y.bits.msb then dst.bits ^^^ x.bits else dst.bits := by
    rw [mulRound, bit_eq]
    cases y.bits.msb with
    | true =>
      rw [if_pos rfl, if_pos rfl, UInt64.mul_one, UInt64.mul_one]
      exact bits_xor dst x
    | false =>
      rw [if_neg Bool.false_ne_true, if_neg Bool.false_ne_true, UInt64.mul_zero, UInt64.mul_zero, UInt64.xor_zero,
        UInt64.xor_zero]
  have hx : (mulRound (x, y, dst)).1.bits = mulX reduction x.bits := by
    rw [mulRound, xval_eq, mulX, ← bits_shr128]
    cases x.bits.getLsbD 0 with
    | true =>
      rw [if_pos rfl, if_pos rfl]
      have hreduction : (⟨0, (0xE1 : UInt8).toUInt64 <<< 56⟩ : Words).bits = reduction := rfl
      rw [← hreduction, ← bits_xor, UInt64.xor_zero]
    | false =>
      have hnone : (0 : UInt8).toUInt64 <<< 56 = 0 := rfl
      rw [if_neg Bool.false_ne_true, if_neg Bool.false_ne_true, hnone, UInt64.xor_zero]
      exact BitVec.xor_zero.symm
  rw [hsum, hx]
  exact congrArg _ (congrArg₂ _ (bits_shl128 y) rfl)

/-- The bits of the three words of the loop. -/
def bitsOf (s : Words × Words × Words) : BitVec 128 × BitVec 128 × BitVec 128 := (s.1.bits, s.2.1.bits, s.2.2.bits)

lemma bitsOf_rounds (n : Nat) (s : Words × Words × Words) :
    bitsOf (mulRound^[n] s) = (round reduction)^[n] (bitsOf s) :=
  (show Function.Semiconj bitsOf mulRound (round reduction) from bits_mulRound).iterate_right n s

/-- `gf128_mul` is the product of the bits. -/
lemma bits_gf128Mul (x y : Block 0x10) : (gf128Mul x y).bits = product reduction x.bits y.bits := by
  have hstart : bitsOf (load x, load y, ⟨0, 0⟩) = (x.bits, y.bits, 0) := by
    have hzero : (⟨0, 0⟩ : Words).bits = 0 := by decide
    rw [bitsOf, bits_load, bits_load, hzero]
  have hrounds := bitsOf_rounds 0x80 (load x, load y, ⟨0, 0⟩)
  rw [hstart] at hrounds
  rw [gf128Mul, bits_store, product, ← hrounds, bitsOf]

end Words

/-! ## Polynomials -/

/-- The polynomial of a block: the most significant bit of the first byte is the coefficient of `1`. -/
noncomputable def blockPoly (b : Block 0x10) : (ZMod 2)[X] :=
  ∑ i : Fin 128, if (b ⟨i / 8, by omega⟩).toNat.testBit (7 - i % 8) then X ^ i.val else 0

section Polynomials

variable {x y z : Block 0x10}

lemma blockPoly_eq (b : Block 0x10) : blockPoly b = toPoly b.bits := by
  rw [blockPoly, toPoly, Finset.sum_range]
  apply Finset.sum_congr rfl
  intro i _
  have hbit : b.bits.getMsbD i = (b ⟨i / 8, by omega⟩).toNat.testBit (7 - i % 8) := by
    rw [BitVec.getMsbD_eq_getLsbD, decide_eq_true i.isLt, Bool.true_and, Block.getLsbD_bits _ (by omega)]
    congr 3
    · congr 1
      omega
    · omega
  rw [hbit]

lemma toPoly_reduction : toPoly reduction = X ^ 7 + X ^ 2 + X + 1 := by
  have hbits : ∀ i : Fin 128, reduction.getMsbD i = true ↔ i.val ∈ ({0, 1, 2, 7} : Finset Nat) := by
    decide
  have hterms : ∀ i ∈ Finset.range 128, (if reduction.getMsbD i then (X ^ i : (ZMod 2)[X]) else 0) =
      if i ∈ ({0, 1, 2, 7} : Finset Nat) then X ^ i else 0 := fun i hi =>
    if_congr (hbits ⟨i, Finset.mem_range.mp hi⟩) rfl rfl
  have hplaces : Finset.range 128 ∩ {0, 1, 2, 7} = {0, 1, 2, 7} := by
    apply Finset.inter_eq_right.mpr
    simp [Finset.insert_subset_iff]
  rw [toPoly, Finset.sum_congr rfl hterms, Finset.sum_ite_mem, hplaces, Finset.sum_insert (by decide),
    Finset.sum_insert (by decide), Finset.sum_insert (by decide), Finset.sum_singleton]
  ring

lemma modulus_reduction : modulus reduction = X ^ 128 + X ^ 7 + X ^ 2 + X + 1 := by
  rw [modulus, toPoly_reduction]
  simp only [add_assoc]

/-- The words compute what `gf128_mul` does to the numbers that the bytes stand for. -/
lemma ofFn_gf128Mul (x y : Block 0x10) : List.ofFn (gf128Mul x y) = Exosphere.gf128Mul (List.ofFn x) (List.ofFn y) := by
  have hround : gf128MulRound = round reduction := by
    funext ⟨x, y, dst⟩
    have hx : x >>> 1 ^^^ (if x.getLsbD 0 then (0xE1 : BitVec 128) else 0) <<< 120 = mulX reduction x := by
      rw [mulX]
      cases x.getLsbD 0 with
      | true => rfl
      | false => rfl
    exact Prod.ext hx rfl
  rw [Exosphere.gf128Mul, hround, ← Block.bits, ← Block.bits, ← product, ← bits_gf128Mul, ← ofFn_ofBits, ofBits_bits]

end Polynomials

/-- `gf128_mul` is the product of the polynomials of the blocks, reduced by the one of GCM. So it is commutative and
associative, and distributes over the exclusive or. -/
theorem gf128Mul_eq (x y : Block 0x10) :
    blockPoly (gf128Mul x y) = blockPoly x * blockPoly y %ₘ (X ^ 128 + X ^ 7 + X ^ 2 + X + 1) ∧
      gf128Mul x y = gf128Mul y x ∧
      (∀ z, gf128Mul (gf128Mul x y) z = gf128Mul x (gf128Mul y z)) ∧
      ∀ z, gf128Mul x (y.xor z) = (gf128Mul x y).xor (gf128Mul x z) := by
  have hw : 0 < 128 := by decide
  refine ⟨?_, ?_, fun z => ?_, fun z => ?_⟩
  · rw [blockPoly_eq, blockPoly_eq, blockPoly_eq, bits_gf128Mul, toPoly_product hw, modulus_reduction]
  · apply bits_inj.mp
    rw [bits_gf128Mul, bits_gf128Mul, product_comm hw]
  · apply bits_inj.mp
    rw [bits_gf128Mul, bits_gf128Mul, bits_gf128Mul, bits_gf128Mul, product_assoc hw]
  · apply bits_inj.mp
    rw [Block.bits_xor, bits_gf128Mul, bits_gf128Mul, bits_gf128Mul, Block.bits_xor, product_xor hw]

end RajNX.Exosphere.Gf128
