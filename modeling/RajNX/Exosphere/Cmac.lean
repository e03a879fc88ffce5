import RajNX.Exosphere.Monitor
import RajNX.Lib.Cmac

/-!
# The CMAC of the security engine

`se_compute_aes_cmac` of `se.c`, with the blocks that it gives the engine to hash. The engine hashes as many blocks
as `BLOCK_COUNT` says and one more, from a block of zeros on or, with a bit of its configuration, from where it was.

A message without any bytes is taken for one with a complete last block of zeros. The number of blocks is one of 32
bits.
-/

namespace RajNX.Exosphere.Cmac

open BigEndian Block CounterMode Mask Splice RajNX.Cmac

lemma neZero_block : NeZero 0x10 := ⟨by decide⟩

attribute [local instance] neZero_block

/-- The loop of `shift_left_xor_rb`, with the key and `prev_high_bit`. -/
def shiftLoop (key : Block 0x10) (n : Nat) : Block 0x10 × UInt8 :=
  (List.range n).foldl
    (fun (key, prevHighBit) i =>
      let curByte := key (Fin.ofNat 0x10 (0xF - i))
      (Function.update key (Fin.ofNat 0x10 (0xF - i)) (curByte <<< 1 ||| prevHighBit), curByte >>> 7))
    (key, 0)

/-- `shift_left_xor_rb` -/
def shiftLeftXorRb (key : Block 0x10) : Block 0x10 :=
  let (key, prevHighBit) := shiftLoop key 0x10
  if prevHighBit ≠ 0 then Function.update key 0xF (key 0xF ^^^ 0x87) else key

section Engine

variable (e : Equiv.Perm (Block 0x10))

/-- An operation of the engine that hashes: `BLOCK_COUNT + 1` blocks. -/
def hashOperation (hash : Block 0x10) (blockCount : Nat) (data : Nat → Block 0x10) : Block 0x10 :=
  chain e hash data (blockCount + 1)

/-- `se_compute_aes_cmac`, with the cipher of the key slot. Sizes have 64 bits, and the number of blocks has 32. -/
def seComputeAesCmac (data : List UInt8) : Block 0x10 :=
  let dataSize := data.length
  let derivedKey := shiftLeftXorRb (e (zeros 0x10))
  let derivedKey := if dataSize % 0x10 ≠ 0 then shiftLeftXorRb derivedKey else derivedKey
  let numBlocks := (dataSize + 0xF) % 2 ^ 64 / 0x10 % 2 ^ 32
  let hash := if 1 < numBlocks then hashOperation e (zeros 0x10) (numBlocks - 2) (blockAt data) else zeros 0x10
  let lastBlock := (blockOf (cmacLastBlock data)).xor derivedKey
  hashOperation e hash 0 fun _ => lastBlock

end Engine

section Shift

variable {key : Block 0x10} {n : Nat}

/-- The bit that a byte gets from the one behind it. -/
def carry (key : Block 0x10) (i : Nat) : UInt8 := if i + 1 < 0x10 then key (Fin.ofNat 0x10 (i + 1)) >>> 7 else 0

/-- The loop has shifted the last bytes, and has the bit that the byte in front of them gets. -/
lemma shiftLoop_eq (hn : n ≤ 0x10) :
    shiftLoop key n = ((fun i => if 0x10 - n ≤ i.val then key i <<< 1 ||| carry key i else key i,
      if n = 0 then 0 else key (Fin.ofNat 0x10 (0x10 - n)) >>> 7) : Block 0x10 × UInt8) := by
  induction n with
  | zero =>
    have hnone : (fun i : Fin 0x10 => if 0x10 - 0 ≤ i.val then key i <<< 1 ||| carry key i else key i) = key :=
      funext fun i => if_neg (Nat.not_le.mpr i.isLt)
    rw [hnone]
    rfl
  | succ n ih =>
    have hindex : (Fin.ofNat 0x10 (0xF - n)).val = 0xF - n := Nat.mod_eq_of_lt (by omega)
    have hcur : ¬0x10 - n ≤ (Fin.ofNat 0x10 (0xF - n)).val := by omega
    have hprev : (if n = 0 then (0 : UInt8) else key (Fin.ofNat 0x10 (0x10 - n)) >>> 7) = carry key (0xF - n) := by
      rw [carry]
      by_cases hzero : n = 0
      · rw [if_pos hzero, if_neg (by omega)]
      · rw [if_neg hzero, if_pos (by omega), show 0xF - n + 1 = 0x10 - n by omega]
    rw [shiftLoop, List.range_succ, List.foldl_append, ← shiftLoop, ih (by omega), List.foldl_cons, List.foldl_nil]
    dsimp only
    rw [if_neg hcur, hprev, if_neg (Nat.succ_ne_zero n), show 0x10 - (n + 1) = 0xF - n by omega]
    congr 1
    funext i
    by_cases hi : i = Fin.ofNat 0x10 (0xF - n)
    · rw [hi, Function.update_self, if_pos hindex.ge, hindex]
    · have hne : i.val ≠ 0xF - n := fun h => hi (Fin.ext (h.trans hindex.symm))
      rw [Function.update_of_ne hi]
      by_cases hshifted : 0xF - n ≤ i.val
      · rw [if_pos hshifted, if_pos (by omega)]
      · rw [if_neg hshifted, if_neg (by omega)]

/-- A byte that is shifted, with the bit that it gets. -/
lemma testBit_shifted (a b : UInt8) {t : Nat} (ht : t < 8) :
    (a <<< 1 ||| b >>> 7).toNat.testBit t = if t = 0 then b.toNat.testBit 7 else a.toNat.testBit (t - 1) := by
  have hleft : (a <<< 1).toNat = a.toNat <<< 1 % 2 ^ 8 := UInt8.toNat_shiftLeft a 1
  have hright : (b >>> 7).toNat = b.toNat >>> 7 := UInt8.toNat_shiftRight b 7
  rw [UInt8.toNat_or, Nat.testBit_or, hleft, hright, Nat.testBit_mod_two_pow, Nat.testBit_shiftLeft,
    Nat.testBit_shiftRight, decide_eq_true ht, Bool.true_and]
  by_cases hzero : t = 0
  · rw [if_pos hzero, hzero]
    rfl
  · have hnone : b.toNat.testBit (7 + t) = false :=
      Nat.testBit_lt_two_pow (b.toNat_lt.trans_le (Nat.pow_le_pow_right (by decide) (by omega)))
    rw [if_neg hzero, hnone, decide_eq_true (show t ≥ 1 by omega), Bool.true_and, Bool.or_false]

lemma shiftLoop_apply (key : Block 0x10) (i : Fin 0x10) : (shiftLoop key 0x10).1 i = key i <<< 1 ||| carry key i := by
  rw [shiftLoop_eq le_rfl]
  dsimp only
  rw [if_pos (by omega)]

/-- The shift of the bytes is the one of the bits. -/
lemma bits_shiftLoop (key : Block 0x10) : (shiftLoop key 0x10).1.bits = key.bits <<< 1 := by
  apply BitVec.eq_of_getLsbD_eq
  intro j hj
  have hcarry : carry key (0xF - j / 8) =
      (if 0 < j / 8 then key (Fin.ofNat 0x10 (0x10 - j / 8)) else 0) >>> 7 := by
    rw [carry]
    by_cases hlast : 0 < j / 8
    · rw [if_pos hlast, if_pos (by omega), show 0xF - j / 8 + 1 = 0x10 - j / 8 by omega]
    · rw [if_neg hlast, if_neg (by omega)]
      rfl
  rw [getLsbD_bits _ hj, shiftLoop_apply, hcarry, testBit_shifted _ _ (Nat.mod_lt _ (by decide)),
    BitVec.getLsbD_shiftLeft, decide_eq_true hj, Bool.true_and]
  by_cases hbegin : j = 0
  · subst hbegin
    rw [if_pos (Nat.zero_mod 8), if_neg (by decide)]
    exact Nat.zero_testBit 7
  rw [decide_eq_false (show ¬j < 1 by omega), Bool.not_false, Bool.true_and, getLsbD_bits _ (by omega)]
  by_cases hbit : j % 8 = 0
  · -- the bit comes from the byte behind
    rw [if_pos hbit, if_pos (by omega), show (j - 1) % 8 = 7 by omega]
    congr 3
    apply Fin.ext
    have hindex : (Fin.ofNat 0x10 (0x10 - j / 8)).val = 0x10 - j / 8 := Nat.mod_eq_of_lt (by omega)
    rw [hindex]
    dsimp only
    omega
  · rw [if_neg hbit, show (j - 1) % 8 = j % 8 - 1 by omega]
    congr 4
    omega

lemma msb_bits (key : Block 0x10) : key.bits.msb = (key 0).toNat.testBit 7 := by
  rw [BitVec.msb_eq_getLsbD_last]
  exact getLsbD_bits key (by decide)

/-- `shift_left_xor_rb` makes a subkey. -/
lemma shiftLeftXorRb_eq (key : Block 0x10) : shiftLeftXorRb key = ofBits (double key.bits) := by
  have hprev : (shiftLoop key 0x10).2 = key 0 >>> 7 := by
    rw [shiftLoop_eq le_rfl]
    rfl
  have hmsb : key 0 >>> 7 ≠ 0 ↔ key.bits.msb = true := by
    have hlt := (key 0).toNat_lt
    have hshift : (key 0 >>> 7).toNat = (key 0).toNat / 2 ^ 7 := by
      rw [UInt8.toNat_shiftRight]
      exact Nat.shiftRight_eq_div_pow _ _
    rw [msb_bits, Nat.testBit_eq_decide_div_mod_eq, decide_eq_true_eq, ne_eq, ← UInt8.toNat_inj, hshift,
      UInt8.toNat_zero]
    omega
  have hconst : Block.bits (Function.update (zeros 0x10) 0xF 0x87) = 0x87#128 := by decide
  have hxor : ∀ b : Block 0x10, Function.update b 0xF (b 0xF ^^^ 0x87) =
      Block.xor b (Function.update (zeros 0x10) 0xF 0x87) := by
    intro b
    funext i
    rw [Block.xor]
    by_cases hi : i = 0xF
    · rw [hi, Function.update_self, Function.update_self]
    · rw [Function.update_of_ne hi, Function.update_of_ne hi, zeros, UInt8.xor_zero]
  apply bits_inj.mp
  rw [bits_ofBits, shiftLeftXorRb, double, ← bits_shiftLoop]
  dsimp only
  rw [hprev]
  by_cases hlost : key.bits.msb = true
  · rw [if_pos (hmsb.mpr hlost), if_pos hlost, hxor, bits_xor, hconst]
  · rw [if_neg (hmsb.not.mpr hlost), if_neg hlost]

end Shift

section Engine

variable {e : Equiv.Perm (Block 0x10)} {data data' : List UInt8}

/-- The subkey that the last block is masked with, by the length of the message. -/
lemma derivedKey_eq (n : Nat) :
    (if n % 0x10 ≠ 0 then shiftLeftXorRb (shiftLeftXorRb (e (zeros 0x10))) else shiftLeftXorRb (e (zeros 0x10))) =
      if n % 0x10 ≠ 0 then subkey2 e else subkey1 e := by
  rw [shiftLeftXorRb_eq, shiftLeftXorRb_eq]
  rfl

/-- Zeros behind the bytes of a block do not change it. -/
lemma blockOf_splice {l : List UInt8} (h : l.length ≤ 0x10) :
    blockOf (splice (List.replicate 0x10 0) 0 l) = blockOf l := by
  have hfits : 0 + l.length ≤ (List.replicate 0x10 (0 : UInt8)).length := by
    rw [List.length_replicate]
    omega
  funext i
  rw [blockOf, blockOf, List.getD_eq_getElem?_getD, List.getD_eq_getElem?_getD, getElem?_splice hfits]
  by_cases hi : i.val < l.length
  · rw [if_pos ⟨Nat.zero_le _, by omega⟩]
    rfl
  · rw [if_neg (by omega), List.getElem?_replicate_of_lt i.isLt, List.getElem?_eq_none (by omega)]
    rfl

/-- The last block of a message that is not empty is the one of its CMAC. -/
lemma lastBlock_eq (hne : data ≠ []) :
    (blockOf (cmacLastBlock data)).xor (if data.length % 0x10 ≠ 0 then subkey2 e else subkey1 e) =
      lastBlock e data := by
  have hpos := List.length_pos_iff.mpr hne
  by_cases hfull : data.length % 0x10 = 0
  · have hlast : cmacLastBlock data = data.drop (data.length - 0x10) := by
      rw [cmacLastBlock, if_neg (not_not_intro hfull), if_pos (by omega)]
    have hbegin : 0x10 * (numBlocks data - 1) = data.length - 0x10 := by
      rw [numBlocks]
      omega
    rw [lastBlock, if_neg (not_not_intro hfull), if_pos ⟨hne, hfull⟩, hlast]
    congr 1
    funext i
    rw [blockOf, blockAt, hbegin, List.getD_eq_getElem?_getD, List.getElem?_drop, List.getD_eq_getElem?_getD]
  · have hbegin : 0x10 * (numBlocks data - 1) = data.length / 0x10 * 0x10 := by
      rw [numBlocks]
      omega
    have hrest : (data.drop (data.length / 0x10 * 0x10)).length = data.length % 0x10 := by
      rw [List.length_drop]
      omega
    rw [lastBlock, if_pos hfull, if_neg (fun h => hfull h.2), hbegin, cmacLastBlock, if_pos hfull, ← hrest]
    congr 1
    have hmod := Nat.mod_lt data.length (show 0 < 0x10 by decide)
    generalize data.drop (data.length / 0x10 * 0x10) = rest at hrest ⊢
    have hfits : (rest ++ [0x80]).length ≤ 0x10 := by
      rw [List.length_append, List.length_singleton]
      omega
    have hzeros : 0 + (rest.length + [(0x80 : UInt8)].length) ≤ (List.replicate 0x10 (0 : UInt8)).length := by
      rw [List.length_replicate, List.length_singleton]
      omega
    have hsplice := splice_splice_append hzeros
    rw [Nat.zero_add] at hsplice
    rw [hsplice, blockOf_splice hfits]

/-- What the code computes, with the blocks that it hashes. -/
lemma seComputeAesCmac_eq (e : Equiv.Perm (Block 0x10)) (data : List UInt8) :
    seComputeAesCmac e data = e ((chain e (zeros 0x10) (blockAt data)
      ((data.length + 0xF) % 2 ^ 64 / 0x10 % 2 ^ 32 - 1)).xor
        ((blockOf (cmacLastBlock data)).xor (if data.length % 0x10 ≠ 0 then subkey2 e else subkey1 e))) := by
  rw [seComputeAesCmac, derivedKey_eq, hashOperation, hashOperation, chain, chain]
  generalize (data.length + 0xF) % 2 ^ 64 / 0x10 % 2 ^ 32 = n
  congr 2
  by_cases hmany : 1 < n
  · rw [if_pos hmany, show n - 2 + 1 = n - 1 by omega]
  · rw [if_neg hmany, show n - 1 = 0 by omega]
    rfl

/-- A message of which the blocks can be counted. -/
lemma seComputeAesCmac_cmac (hne : data ≠ []) (hle : data.length ≤ 2 ^ 36 - 0x10) :
    seComputeAesCmac e data = cmac e data := by
  have hpos := List.length_pos_iff.mpr hne
  have hcount : (data.length + 0xF) % 2 ^ 64 / 0x10 % 2 ^ 32 = numBlocks data := by
    rw [numBlocks]
    omega
  rw [seComputeAesCmac_eq, lastBlock_eq hne, hcount, cmac]

/-- A byte that the code does not look at is part of the CMAC. -/
lemma exists_unseen {n : Nat} (hlong : 2 ^ 36 - 0x10 < n) (e : Equiv.Perm (Block 0x10)) :
    ∃ data data' : List UInt8, data.length = n ∧ data'.length = n ∧
      seComputeAesCmac e data = seComputeAesCmac e data' ∧ cmac e data ≠ cmac e data' := by
  obtain ⟨k, hk⟩ : ∃ k, (n + 0xF) / 0x10 = k + 2 := ⟨(n + 0xF) / 0x10 - 2, by omega⟩
  have hlen : (List.replicate n (0 : UInt8)).length = n := List.length_replicate
  have hlen' : ((List.replicate n (0 : UInt8)).set (0x10 * k) 1).length = n := List.length_set.trans hlen
  have hne : List.replicate n (0 : UInt8) ≠ [] := List.ne_nil_of_length_pos (by omega)
  have hne' : (List.replicate n (0 : UInt8)).set (0x10 * k) 1 ≠ [] := List.ne_nil_of_length_pos (by omega)
  -- only one block is different
  have hblock : ∀ j, j ≠ k →
      blockAt (List.replicate n 0) j = blockAt ((List.replicate n 0).set (0x10 * k) 1) j := by
    intro j hj
    funext i
    rw [blockAt, blockAt, List.getD_eq_getElem?_getD, List.getD_eq_getElem?_getD, List.getElem?_set_ne (by omega)]
  have hdiffers : blockAt (List.replicate n 0) k ≠ blockAt ((List.replicate n 0).set (0x10 * k) 1) k := by
    intro heq
    have hbyte := congrFun heq 0
    rw [blockAt, blockAt, List.getD_eq_getElem?_getD, List.getD_eq_getElem?_getD, Fin.val_zero, Nat.add_zero,
      List.getElem?_set_self (by omega), List.getElem?_replicate_of_lt (by omega)] at hbyte
    exact absurd hbyte (by decide)
  have hlast : cmacLastBlock (List.replicate n 0) = cmacLastBlock ((List.replicate n 0).set (0x10 * k) 1) := by
    rw [cmacLastBlock, cmacLastBlock, hlen, hlen', List.drop_set_of_lt (by omega), List.drop_set_of_lt (by omega)]
  have hmasked : lastBlock e (List.replicate n 0) = lastBlock e ((List.replicate n 0).set (0x10 * k) 1) := by
    rw [← lastBlock_eq hne, ← lastBlock_eq hne', hlast, hlen, hlen']
  refine ⟨_, _, hlen, hlen', ?_, ?_⟩
  · rw [seComputeAesCmac_eq, seComputeAesCmac_eq, hlast, hlen, hlen']
    congr 2
    exact chain_congr fun i hi => hblock i (by omega)
  · intro heq
    have hchain := e.injective heq
    have hcount : numBlocks (List.replicate n (0 : UInt8)) - 1 = k + 1 := by
      rw [numBlocks, hlen]
      omega
    have hcount' : numBlocks ((List.replicate n (0 : UInt8)).set (0x10 * k) 1) - 1 = k + 1 := by
      rw [numBlocks, hlen']
      omega
    rw [hmasked, xor_left_inj, hcount, hcount'] at hchain
    exact hdiffers (chain_succ_inj (fun i hi => hblock i hi.ne) hchain)

lemma seComputeAesCmac_nil : seComputeAesCmac (Equiv.refl _) [] ≠ cmac (Equiv.refl _) [] := by
  decide

end Engine

/-- Of the messages of a length the code computes the CMAC, for all keys, exactly if they are not empty and their
blocks can be counted with 32 bits. -/
theorem seComputeAesCmac_iff (n : Nat) :
    (∀ (aes : Block 0x10 → Equiv.Perm (Block 0x10)) (key : Block 0x10) (data : List UInt8), data.length = n →
        seComputeAesCmac (aes key) data = cmac (aes key) data) ↔ 0 < n ∧ n ≤ 2 ^ 36 - 0x10 := by
  constructor
  · intro h
    by_contra hbad
    rcases Nat.eq_zero_or_pos n with rfl | hpos
    · exact seComputeAesCmac_nil (h (fun _ => Equiv.refl _) (zeros 0x10) [] rfl)
    · have hlong : 2 ^ 36 - 0x10 < n := Nat.lt_of_not_le fun hle => hbad ⟨hpos, hle⟩
      obtain ⟨data, data', hlen, hlen', hsame, hdiffers⟩ := exists_unseen hlong (Equiv.refl _)
      apply hdiffers
      rw [← h (fun _ => Equiv.refl _) (zeros 0x10) data hlen, ← h (fun _ => Equiv.refl _) (zeros 0x10) data' hlen',
        hsame]
  · rintro ⟨hpos, hle⟩ aes key data rfl
    exact seComputeAesCmac_cmac (List.ne_nil_of_length_pos hpos) hle

/-- The empty message. -/
theorem seComputeAesCmac_empty :
    ¬∀ (aes : Block 0x10 → Equiv.Perm (Block 0x10)) (key : Block 0x10) (data : List UInt8),
        seComputeAesCmac (aes key) data = cmac (aes key) data := by
  intro h
  exact seComputeAesCmac_nil (h (fun _ => Equiv.refl _) (zeros 0x10) [])

end RajNX.Exosphere.Cmac
