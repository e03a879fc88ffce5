import RajNX.Lib.BigEndian
import RajNX.Lib.Mask

/-!
# Mask generation

MGF1: the hashes of a seed with the counters 0, 1, 2 and so on make a mask. The mask is said by its bytes, so
that one that is made in parts can be compared with it.
-/

namespace RajNX.Mgf1

open BigEndian Mask

/-- A hash function with hashes of one length. -/
structure HashFunction (hLen : Nat) where
  digest : List UInt8 → List UInt8
  length_digest (message : List UInt8) : (digest message).length = hLen

variable {hLen : Nat}

/-- The hashes of a seed with counters. -/
def hashBlocks (hash : HashFunction hLen) (seed : List UInt8) : BlockSource hLen where
  block counter := hash.digest (seed ++ beBytes 4 counter)
  length_block _ := hash.length_digest _

lemma hashBlocks_block (hash : HashFunction hLen) (seed : List UInt8) (counter : Nat) :
    (hashBlocks hash seed).block counter = hash.digest (seed ++ beBytes 4 counter) := rfl

/-- MGF1 -/
def mgf1 (hash : HashFunction hLen) (seed : List UInt8) (maskLen : Nat) : List UInt8 :=
  ((hashBlocks hash seed).blocks 0 ((maskLen + hLen - 1) / hLen)).take maskLen

lemma length_mgf1 (hash : HashFunction hLen) (seed : List UInt8) (maskLen : Nat) (hpos : 0 < hLen) :
    (mgf1 hash seed maskLen).length = maskLen := by
  have hle := BlockSource.le_ceil_mul maskLen hpos
  rw [mgf1, List.length_take, BlockSource.length_blocks]
  omega

/-- A byte of a mask. -/
lemma getElem?_mgf1 (hash : HashFunction hLen) (seed : List UInt8) {maskLen k : Nat} (hpos : 0 < hLen)
    (hk : k < maskLen) : (mgf1 hash seed maskLen)[k]? = (hash.digest (seed ++ beBytes 4 (k / hLen)))[k % hLen]? := by
  have hle := BlockSource.le_ceil_mul maskLen hpos
  rw [mgf1, List.getElem?_take, if_pos hk, BlockSource.getElem?_blocks _ _ _ _ (by omega), Nat.zero_add]
  rfl

end RajNX.Mgf1
