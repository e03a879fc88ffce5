import RajNX.Lib.CounterMode

/-!
# The security engine

`se_aes_ctr_crypt` of `se.c` on bytes: whole blocks are one operation of the engine, and what is left is one
operation on a block of its own. AES is any block cipher. What an AES key slot holds is given by the key.
-/

namespace RajNX.Exosphere

open CounterMode Mask

/-- AES with the keys that are unwrapped into a key slot: `unseal_key` and then `decrypt_data_into_keyslot`,
with a sealed kek, a wrapped key and a usecase. -/
structure AesEngine where
  Key : Type
  cipher : Key → BlockCipher 0x10
  unwrapKey : List UInt8 → List UInt8 → Nat → Key

/-- What the operation on the whole blocks of a source makes of them. -/
def ctrBlocks (cipher : BlockCipher 0x10) (src ctr : List UInt8) : List UInt8 :=
  let numBlocks := src.length / 0x10
  mask (src.take (numBlocks * 0x10)) ((cipherBlocks cipher ctr).blocks 0 numBlocks)

/-- `se_perform_aes_block_operation` with the counter `i`: a source that is filled up with zeros. -/
def aesBlockOperation (cipher : BlockCipher 0x10) (ctr : List UInt8) (i dstSize : Nat) (src : List UInt8) :
    List UInt8 :=
  let block := src ++ List.replicate (0x10 - src.length) 0
  (mask block ((cipherBlocks cipher ctr).blocks i 1)).take dstSize

/-- `se_aes_ctr_crypt`: the bytes that are written to a destination of a size. -/
def seAesCtrCrypt (cipher : BlockCipher 0x10) (dstSize : Nat) (src ctr : List UInt8) : List UInt8 :=
  let numBlocks := src.length / 0x10
  let alignedSize := numBlocks * 0x10
  let blocks := (ctrBlocks cipher src ctr).take dstSize
  if alignedSize < dstSize ∧ alignedSize < src.length then
    let lastBlockSize := if src.length < dstSize then src.length - alignedSize else dstSize - alignedSize
    blocks ++ aesBlockOperation cipher ctr numBlocks lastBlockSize (src.drop alignedSize)
  else blocks

section Crypt

variable {cipher : BlockCipher 0x10} {src ctr : List UInt8}

lemma length_ctrBlocks : (ctrBlocks cipher src ctr).length = src.length / 0x10 * 0x10 := by
  have hdiv := Nat.div_mul_le_self src.length 0x10
  have htake : (src.take (src.length / 0x10 * 0x10)).length = src.length / 0x10 * 0x10 :=
    List.length_take_of_le hdiv
  rw [ctrBlocks, length_mask (by rw [htake, BlockSource.length_blocks]), htake]

/-- A block that is filled up, cut to what it was. -/
lemma aesBlockOperation_eq {i : Nat} :
    aesBlockOperation cipher ctr i src.length src = mask src ((cipherBlocks cipher ctr).blocks i 1) := by
  rw [aesBlockOperation, mask, List.take_zipWith, List.take_left]
  exact mask_take _ _

/-- The blocks, and then the rest. -/
lemma crypt_eq_parts : crypt cipher ctr src = ctrBlocks cipher src ctr ++
    aesBlockOperation cipher ctr (src.length / 0x10) (src.length - src.length / 0x10 * 0x10)
      (src.drop (src.length / 0x10 * 0x10)) := by
  have hdiv := Nat.div_mul_le_self src.length 0x10
  have hsum := Nat.div_add_mod src.length 0x10
  have hdrop : (src.drop (src.length / 0x10 * 0x10)).length = src.length - src.length / 0x10 * 0x10 :=
    List.length_drop
  have htake : (src.take (src.length / 0x10 * 0x10)).length = src.length / 0x10 * 0x10 :=
    List.length_take_of_le hdiv
  have hlen : (src.take (src.length / 0x10 * 0x10)).length =
      ((cipherBlocks cipher ctr).blocks 0 (src.length / 0x10)).length := by
    rw [htake, BlockSource.length_blocks]
  rw [← hdrop, aesBlockOperation_eq, ctrBlocks, ← mask_append hlen, List.take_append_drop,
    crypt_eq _ _ _ (n := src.length / 0x10 + 1) (by decide) (by omega), BlockSource.blocks_add, Nat.zero_add]

/-- A destination that is large enough gets the source in counter mode. -/
lemma seAesCtrCrypt_eq {dstSize : Nat} (hle : src.length ≤ dstSize) :
    seAesCtrCrypt cipher dstSize src ctr = crypt cipher ctr src := by
  have hdiv := Nat.div_mul_le_self src.length 0x10
  have hblocks : (ctrBlocks cipher src ctr).take dstSize = ctrBlocks cipher src ctr :=
    List.take_of_length_le (by rw [length_ctrBlocks]; omega)
  have hlast : (if src.length < dstSize then src.length - src.length / 0x10 * 0x10
      else dstSize - src.length / 0x10 * 0x10) = src.length - src.length / 0x10 * 0x10 := by
    split
    · rfl
    · omega
  rw [seAesCtrCrypt]
  dsimp only
  rw [hblocks, hlast, crypt_eq_parts]
  split
  · rfl
  · next hno =>
    have hzero : src.length - src.length / 0x10 * 0x10 = 0 := by omega
    rw [hzero, aesBlockOperation, List.take_zero, List.append_nil]

end Crypt

end RajNX.Exosphere
