import RajNX.Lib.BigEndian
import RajNX.Lib.Mask

/-!
# Counter mode

A block cipher that is used as a stream cipher: the cipher of a counter, of the counter plus one and so on
make the mask. Nothing about the cipher matters except the size of its blocks.
-/

namespace RajNX.CounterMode

open BigEndian Mask

/-- A block cipher with its key. -/
structure BlockCipher (size : Nat) where
  encrypt : List UInt8 → List UInt8
  length_encrypt (block : List UInt8) : (encrypt block).length = size

variable {size : Nat}

/-- The cipher of a counter that counts up. -/
def cipherBlocks (cipher : BlockCipher size) (ctr : List UInt8) : BlockSource size where
  block i := cipher.encrypt (beBytes size (beValue ctr + i))
  length_block _ := cipher.length_encrypt _

/-- A text in counter mode, encrypted or decrypted. -/
def crypt (cipher : BlockCipher size) (ctr text : List UInt8) : List UInt8 :=
  mask text ((cipherBlocks cipher ctr).blocks 0 ((text.length + size - 1) / size))

/-- Any number of blocks that is enough. -/
lemma crypt_eq (cipher : BlockCipher size) (ctr text : List UInt8) {n : Nat} (hpos : 0 < size)
    (hn : text.length ≤ n * size) : crypt cipher ctr text = mask text ((cipherBlocks cipher ctr).blocks 0 n) :=
  BlockSource.mask_blocks _ (BlockSource.le_ceil_mul _ hpos) hn

lemma length_crypt (cipher : BlockCipher size) (ctr text : List UInt8) (hpos : 0 < size) :
    (crypt cipher ctr text).length = text.length :=
  length_mask (by rw [BlockSource.length_blocks]; exact BlockSource.le_ceil_mul _ hpos)

/-- Decrypting gives the text back. -/
lemma crypt_crypt (cipher : BlockCipher size) (ctr text : List UInt8) (hpos : 0 < size) :
    crypt cipher ctr (crypt cipher ctr text) = text := by
  have hceil := BlockSource.le_ceil_mul text.length hpos
  rw [crypt_eq cipher ctr (crypt cipher ctr text) hpos (by rw [length_crypt _ _ _ hpos]; exact hceil), crypt]
  exact mask_mask (by rw [BlockSource.length_blocks]; exact hceil)

/-- The first part of a text does not depend on the rest. -/
lemma take_crypt_append (cipher : BlockCipher size) (ctr text text' : List UInt8) (hpos : 0 < size) :
    (crypt cipher ctr (text ++ text')).take text.length = crypt cipher ctr text := by
  have hceil := BlockSource.le_ceil_mul (text ++ text').length hpos
  have hlen : text.length ≤ ((text ++ text').length + size - 1) / size * size := by
    rw [List.length_append] at hceil ⊢
    omega
  rw [crypt_eq cipher ctr text hpos hlen, crypt, mask, mask, List.take_zipWith, List.take_left]
  exact mask_take _ _

/-- A text of two parts. -/
lemma crypt_append (cipher : BlockCipher size) (ctr text text' : List UInt8) (hpos : 0 < size) :
    ∃ rest, crypt cipher ctr (text ++ text') = crypt cipher ctr text ++ rest := by
  refine ⟨(crypt cipher ctr (text ++ text')).drop text.length, ?_⟩
  rw [← take_crypt_append cipher ctr text text' hpos, List.take_append_drop]

end RajNX.CounterMode
