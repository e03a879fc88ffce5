import Mathlib.Tactic

/-!
# Masks

A text is masked by xoring it with a key that is at least as long, and unmasked in the same way. Keys are
made of blocks of one size, one for each counter.
-/

namespace RajNX.Mask

/-- A text with a mask put on, or taken off. -/
def mask (text key : List UInt8) : List UInt8 := List.zipWith (· ^^^ ·) text key

variable {text key : List UInt8}

lemma length_mask (h : text.length ≤ key.length) : (mask text key).length = text.length := by
  rw [mask, List.length_zipWith]
  omega

/-- A text of two parts. -/
lemma mask_append {text' key' : List UInt8} (h : text.length = key.length) :
    mask (text ++ text') (key ++ key') = mask text key ++ mask text' key' :=
  List.zipWith_append h

/-- What a mask has behind the end of a text is not used. -/
lemma mask_take (text key : List UInt8) : mask text (key.take text.length) = mask text key := by
  induction text generalizing key with
  | nil => rfl
  | cons b text ih =>
    cases key with
    | nil => rfl
    | cons k key => exact congrArg ((b ^^^ k) :: ·) (ih key)

/-- A mask that is long enough is not used behind its end. -/
lemma mask_append_right {key' : List UInt8} (h : text.length ≤ key.length) :
    mask text (key ++ key') = mask text key := by
  rw [← mask_take text (key ++ key'), List.take_append_of_le_length h, mask_take]

/-- A mask is taken off by putting it on again. -/
lemma mask_mask (h : text.length ≤ key.length) : mask (mask text key) key = text := by
  induction text generalizing key with
  | nil => rfl
  | cons b text ih =>
    cases key with
    | nil => cases h
    | cons k key =>
      have hb : b ^^^ k ^^^ k = b := by rw [UInt8.xor_assoc, UInt8.xor_self, UInt8.xor_zero]
      exact congrArg₂ List.cons hb (ih (Nat.le_of_succ_le_succ h))

lemma getElem?_mask (text key : List UInt8) (i : Nat) (hi : i < text.length) (hk : text.length ≤ key.length) :
    (mask text key)[i]? = some (text.getD i 0 ^^^ key.getD i 0) := by
  rw [mask, List.getElem?_zipWith, List.getD_eq_getElem?_getD, List.getD_eq_getElem?_getD,
    List.getElem?_eq_getElem hi, List.getElem?_eq_getElem (hi.trans_le hk)]
  rfl

/-- Blocks of one size, one for each counter. -/
structure BlockSource (size : Nat) where
  block : Nat → List UInt8
  length_block (counter : Nat) : (block counter).length = size

namespace BlockSource

variable {size : Nat}

/-- The `n` blocks from a counter on. -/
def blocks (s : BlockSource size) (i n : Nat) : List UInt8 := (List.range' i n).flatMap s.block

lemma blocks_succ (s : BlockSource size) (i n : Nat) : s.blocks i (n + 1) = s.block i ++ s.blocks (i + 1) n :=
  rfl

lemma length_blocks (s : BlockSource size) (i n : Nat) : (s.blocks i n).length = n * size := by
  induction n generalizing i with
  | zero => rw [Nat.zero_mul]; rfl
  | succ n ih => rw [blocks_succ, List.length_append, s.length_block, ih, Nat.succ_mul, Nat.add_comm]

/-- Blocks in two parts. -/
lemma blocks_add (s : BlockSource size) (i m n : Nat) : s.blocks i (m + n) = s.blocks i m ++ s.blocks (i + m) n := by
  rw [blocks, blocks, blocks, ← List.flatMap_append, List.range'_append_1]

/-- As many blocks as a text needs. -/
lemma le_ceil_mul (length : Nat) (hpos : 0 < size) : length ≤ (length + size - 1) / size * size := by
  have hmod := Nat.div_add_mod (length + size - 1) size
  have hlt := Nat.mod_lt (length + size - 1) hpos
  rw [Nat.mul_comm] at hmod
  omega

/-- Any number of blocks that is enough masks a text in the same way. -/
lemma mask_blocks (s : BlockSource size) {i m n : Nat} (hm : text.length ≤ m * size) (hn : text.length ≤ n * size) :
    mask text (s.blocks i m) = mask text (s.blocks i n) := by
  rcases Nat.le_total m n with hle | hle
  · obtain ⟨k, rfl⟩ := Nat.exists_eq_add_of_le hle
    rw [blocks_add, mask_append_right (by rw [length_blocks]; exact hm)]
  · obtain ⟨k, rfl⟩ := Nat.exists_eq_add_of_le hle
    rw [blocks_add, mask_append_right (by rw [length_blocks]; exact hn)]

/-- A byte of the blocks is one of the block with its counter. -/
lemma getElem?_blocks (s : BlockSource size) (i n k : Nat) (hk : k < n * size) :
    (s.blocks i n)[k]? = (s.block (i + k / size))[k % size]? := by
  induction n generalizing i k with
  | zero =>
    rw [Nat.zero_mul] at hk
    cases hk
  | succ n ih =>
    rw [Nat.succ_mul] at hk
    have hlen := s.length_block i
    rw [blocks_succ]
    rcases Nat.lt_or_ge k size with hlt | hge
    · rw [List.getElem?_append_left (hlt.trans_eq hlen.symm), Nat.div_eq_of_lt hlt, Nat.mod_eq_of_lt hlt,
        Nat.add_zero]
    · have hpos : 0 < size := by
        rcases Nat.eq_zero_or_pos size with rfl | hpos
        · rw [Nat.mul_zero] at hk
          omega
        · exact hpos
      have hdiv : (k - size) / size + 1 = k / size := by
        rw [← Nat.add_div_right _ hpos, Nat.sub_add_cancel hge]
      rw [List.getElem?_append_right (hlen.trans_le hge), hlen, ih _ _ (by omega),
        ← Nat.mod_eq_sub_mod hge, ← hdiv, Nat.add_right_comm, Nat.add_assoc i]

end BlockSource

end RajNX.Mask
