import Mathlib.RingTheory.AdjoinRoot
import Mathlib.Tactic

/-!
# Polynomials over two elements in words

A word of bits stands for a polynomial over the field of two elements: its first bit is the coefficient of `1`. A word
is multiplied with `X` by a shift and, if a bit is lost, by adding the word that the lost power is reduced to. From
this a product of two words is made by a loop over the bits of one of them. It is the product of their polynomials,
reduced.
-/

namespace RajNX.BinaryField

open Polynomial

variable {w : Nat}

/-- The polynomial of a word. -/
noncomputable def toPoly (v : BitVec w) : (ZMod 2)[X] := ∑ i ∈ Finset.range w, if v.getMsbD i then X ^ i else 0

/-- The polynomial that is taken for zero, if `X ^ w` is taken for the polynomial of a word. -/
noncomputable def modulus (r : BitVec w) : (ZMod 2)[X] := X ^ w + toPoly r

/-- A word times `X`. -/
def mulX (r v : BitVec w) : BitVec w := v >>> 1 ^^^ (if v.getLsbD 0 then r else 0)

/-- A round of the loop, with the two words and the sum. -/
def round (r : BitVec w) : BitVec w × BitVec w × BitVec w → BitVec w × BitVec w × BitVec w
  | (x, y, sum) => (mulX r x, y <<< 1, if y.msb then sum ^^^ x else sum)

/-- The product of two words. -/
def product (r x y : BitVec w) : BitVec w := ((round r)^[w] (x, y, 0)).2.2

section Poly

variable {u v : BitVec w} {k : Nat}

/-- A bit as a coefficient. -/
def coeffOf (b : Bool) : ZMod 2 := if b then 1 else 0

lemma coeffOf_xor (a b : Bool) : coeffOf (a ^^ b) = coeffOf a + coeffOf b := by
  cases a <;> cases b <;> decide

lemma coeffOf_inj {a b : Bool} (h : coeffOf a = coeffOf b) : a = b := by
  revert h
  cases a <;> cases b <;> decide

lemma coeff_toPoly (v : BitVec w) (k : Nat) : (toPoly v).coeff k = coeffOf (v.getMsbD k) := by
  have hterm : ∀ i, (if v.getMsbD i then (X ^ i : (ZMod 2)[X]) else 0).coeff k =
      if k = i then coeffOf (v.getMsbD k) else 0 := by
    intro i
    by_cases hk : k = i
    · rw [if_pos hk, ← hk, coeffOf]
      split
      · exact (coeff_X_pow k k).trans (if_pos rfl)
      · exact coeff_zero k
    · rw [if_neg hk]
      split
      · exact (coeff_X_pow i k).trans (if_neg hk)
      · exact coeff_zero k
  rw [toPoly, finsetSum_coeff, Finset.sum_congr rfl fun i _ => hterm i, Finset.sum_ite_eq]
  split
  · rfl
  · next hk =>
    rw [Finset.mem_range] at hk
    rw [BitVec.getMsbD_of_ge _ _ (Nat.le_of_not_lt hk)]
    rfl

lemma toPoly_inj (h : toPoly u = toPoly v) : u = v := by
  apply BitVec.eq_of_getMsbD_eq
  intro i _
  apply coeffOf_inj
  rw [← coeff_toPoly, ← coeff_toPoly, h]

lemma toPoly_xor (u v : BitVec w) : toPoly (u ^^^ v) = toPoly u + toPoly v := by
  ext k
  rw [coeff_add, coeff_toPoly, coeff_toPoly, coeff_toPoly, BitVec.getMsbD_xor, coeffOf_xor]

lemma toPoly_zero : toPoly (0 : BitVec w) = 0 := by
  ext k
  rw [coeff_toPoly, coeff_zero]
  simp [coeffOf]

lemma degree_toPoly_lt (v : BitVec w) : (toPoly v).degree < w := by
  rw [degree_lt_iff_coeff_zero]
  intro k hk
  rw [coeff_toPoly, BitVec.getMsbD_of_ge _ _ hk]
  rfl

/-- A shift multiplies with `X`, but for the bit that is lost. -/
lemma toPoly_ushiftRight (hw : 0 < w) (v : BitVec w) :
    toPoly (v >>> 1) + (if v.getLsbD 0 then X ^ w else 0) = X * toPoly v := by
  have hlost : ∀ k, (if v.getLsbD 0 then (X ^ w : (ZMod 2)[X]) else 0).coeff k =
      coeffOf (decide (k = w) && v.getLsbD 0) := by
    intro k
    cases v.getLsbD 0 with
    | true =>
      rw [if_pos rfl, coeff_X_pow, Bool.and_true, coeffOf]
      simp only [decide_eq_true_eq]
    | false =>
      rw [if_neg Bool.false_ne_true, coeff_zero, Bool.and_false]
      rfl
  ext k
  rw [coeff_add, coeff_toPoly, hlost, ← coeffOf_xor]
  cases k with
  | zero =>
    rw [coeff_X_mul_zero, BitVec.getMsbD_ushiftRight]
    simp [coeffOf]
    omega
  | succ k =>
    rw [coeff_X_mul, coeff_toPoly]
    congr 1
    rw [BitVec.getMsbD_ushiftRight]
    rcases Nat.lt_trichotomy (k + 1) w with hlt | heq | hgt
    · rw [decide_eq_true hlt, decide_eq_false (Nat.ne_of_lt hlt), Bool.false_and, Bool.xor_false, Bool.true_and]
      rfl
    · rw [decide_eq_false (Nat.not_lt.mpr heq.ge), decide_eq_true heq, Bool.false_and, Bool.true_and, Bool.false_xor,
        BitVec.getMsbD_eq_getLsbD, decide_eq_true (Nat.lt_of_succ_le heq.le), Bool.true_and]
      congr 1
      omega
    · rw [decide_eq_false (Nat.not_lt.mpr hgt.le), decide_eq_false (Nat.ne_of_gt hgt), Bool.false_and, Bool.false_and,
        BitVec.getMsbD_of_ge _ _ (Nat.le_of_lt_succ hgt)]
      rfl

/-- A word times `X`, reduced. -/
lemma dvd_mulX (hw : 0 < w) (r v : BitVec w) : modulus r ∣ toPoly (mulX r v) - X * toPoly v := by
  rw [← toPoly_ushiftRight hw, mulX, toPoly_xor]
  cases v.getLsbD 0 with
  | true =>
    refine ⟨1, ?_⟩
    rw [if_pos rfl, if_pos rfl, modulus, add_sub_add_left_eq_sub, CharTwo.sub_eq_add, add_comm, mul_one]
  | false =>
    rw [if_neg Bool.false_ne_true, if_neg Bool.false_ne_true, toPoly_zero, sub_self]
    exact dvd_zero _

end Poly

section Mul

variable {r x y z : BitVec w} {n : Nat}

lemma monic_modulus (r : BitVec w) : (modulus r).Monic := monic_X_pow_add (degree_toPoly_lt r)

lemma degree_modulus (r : BitVec w) : (modulus r).degree = w := by
  have hlt : (toPoly r).degree < (X ^ w : (ZMod 2)[X]).degree := by
    rw [degree_X_pow]
    exact degree_toPoly_lt r
  rw [modulus, degree_add_eq_left_of_degree_lt hlt, degree_X_pow]

/-- Words of the same polynomial, reduced, are the same. -/
lemma eq_of_mk_eq (h : AdjoinRoot.mk (modulus r) (toPoly x) = AdjoinRoot.mk (modulus r) (toPoly y)) : x = y := by
  apply toPoly_inj
  apply sub_eq_zero.mp
  apply eq_zero_of_dvd_of_degree_lt (AdjoinRoot.mk_eq_mk.mp h)
  rw [degree_modulus]
  exact (degree_sub_le _ _).trans_lt (max_lt (degree_toPoly_lt x) (degree_toPoly_lt y))

/-- What a number of rounds have made. -/
lemma rounds (hw : 0 < w) (r x y : BitVec w) (n : Nat) :
    AdjoinRoot.mk (modulus r) (toPoly ((round r)^[n] (x, y, 0)).1) = AdjoinRoot.mk (modulus r) (X ^ n * toPoly x) ∧
      ((round r)^[n] (x, y, 0)).2.1 = y <<< n ∧
      AdjoinRoot.mk (modulus r) (toPoly ((round r)^[n] (x, y, 0)).2.2) =
        AdjoinRoot.mk (modulus r) ((∑ i ∈ Finset.range n, if y.getMsbD i then X ^ i else 0) * toPoly x) := by
  induction n with
  | zero =>
    refine ⟨?_, ?_, ?_⟩
    · rw [pow_zero, one_mul]
      rfl
    · exact (BitVec.shiftLeft_zero y).symm
    · rw [Finset.sum_range_zero, zero_mul]
      exact congrArg _ toPoly_zero
  | succ n ih =>
    obtain ⟨hx, hy, hsum⟩ := ih
    rw [Function.iterate_succ_apply']
    generalize (round r)^[n] (x, y, 0) = s at hx hy hsum ⊢
    obtain ⟨x', y', sum⟩ := s
    dsimp only at hx hy hsum
    rw [round]
    dsimp only
    refine ⟨?_, ?_, ?_⟩
    · rw [AdjoinRoot.mk_eq_mk.mpr (dvd_mulX hw r x'), map_mul, hx, ← map_mul, pow_succ', mul_assoc]
    · rw [hy, ← BitVec.shiftLeft_add]
    · have hmsb : y'.msb = y.getMsbD n := by
        rw [hy, BitVec.msb_eq_getMsbD_zero, BitVec.getMsbD_shiftLeft, Nat.zero_add]
      rw [hmsb, Finset.sum_range_succ, add_mul]
      cases y.getMsbD n with
      | true => rw [if_pos rfl, if_pos rfl, toPoly_xor, map_add, hsum, hx, map_add]
      | false => rw [if_neg Bool.false_ne_true, if_neg Bool.false_ne_true, hsum, zero_mul, add_zero]

lemma mk_product (hw : 0 < w) (r x y : BitVec w) :
    AdjoinRoot.mk (modulus r) (toPoly (product r x y)) =
      AdjoinRoot.mk (modulus r) (toPoly x) * AdjoinRoot.mk (modulus r) (toPoly y) := by
  rw [product, (rounds hw r x y w).2.2, ← map_mul, mul_comm]
  rfl

/-- The product of words is the one of their polynomials, reduced. -/
lemma toPoly_product (hw : 0 < w) (r x y : BitVec w) : toPoly (product r x y) = toPoly x * toPoly y %ₘ modulus r := by
  have hreduced : toPoly (product r x y) %ₘ modulus r = toPoly (product r x y) := by
    rw [modByMonic_eq_self_iff (monic_modulus r), degree_modulus]
    exact degree_toPoly_lt _
  rw [← hreduced]
  apply modByMonic_eq_of_dvd_sub (monic_modulus r)
  apply AdjoinRoot.mk_eq_mk.mp
  rw [mk_product hw, map_mul]

lemma product_comm (hw : 0 < w) (r x y : BitVec w) : product r x y = product r y x := by
  apply eq_of_mk_eq (r := r)
  rw [mk_product hw, mk_product hw, mul_comm]

lemma product_assoc (hw : 0 < w) (r x y z : BitVec w) : product r (product r x y) z = product r x (product r y z) := by
  apply eq_of_mk_eq (r := r)
  rw [mk_product hw, mk_product hw, mk_product hw, mk_product hw, mul_assoc]

lemma product_xor (hw : 0 < w) (r x y z : BitVec w) : product r x (y ^^^ z) = product r x y ^^^ product r x z := by
  apply eq_of_mk_eq (r := r)
  rw [toPoly_xor, map_add, mk_product hw, mk_product hw, mk_product hw, toPoly_xor, map_add, mul_add]

end Mul

end RajNX.BinaryField
