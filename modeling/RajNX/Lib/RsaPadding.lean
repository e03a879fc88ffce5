import RajNX.Lib.Mgf1

/-!
# Padding for RSA

EME-OAEP and EMSA-PSS of RFC 8017, over any hash function. An OAEP message is told by what it unmasks to;
a PSS message by what it was made from, and `clearTop_mask_eq_iff` turns one into the other.
-/

namespace RajNX.RsaPadding

open Mask Mgf1

variable {hLen : Nat} {hash : HashFunction hLen}

/-! ## OAEP -/

/-- What an OAEP message unmasks to, its first byte aside. -/
structure Oaep where
  seed : List UInt8
  db : List UInt8

/-- An OAEP message without its masks: the block hides the seed and the seed hides the block. -/
def oaepUnmask (hash : HashFunction hLen) (em : List UInt8) : Oaep :=
  let maskedSeed := (em.drop 1).take hLen
  let maskedDB := em.drop (hLen + 1)
  let seed := mask maskedSeed (mgf1 hash maskedDB hLen)
  ⟨seed, mask maskedDB (mgf1 hash seed maskedDB.length)⟩

/-! ## PSS -/

/-- The `n` leftmost bits set to zero. -/
def clearTop (n : Nat) (l : List UInt8) : List UInt8 := l.modifyHead (· &&& .ofNat (0xFF >>> n))

/-- EMSA-PSS-ENCODE, with the salt that it takes at random. -/
def pssEncode (hash : HashFunction hLen) (emBits : Nat) (data salt : List UInt8) : List UInt8 :=
  let emLen := (emBits + 7) / 8
  let mHash := hash.digest data
  let h := hash.digest (List.replicate 8 0 ++ mHash ++ salt)
  let db := List.replicate (emLen - salt.length - hLen - 2) 0 ++ 1 :: salt
  let maskedDB := mask db (mgf1 hash h (emLen - hLen - 1))
  clearTop (8 * emLen - emBits) maskedDB ++ h ++ [0xBC]

/-- A message is an encoding of some data, for some salt. -/
def IsPssEncoding (hash : HashFunction hLen) (emBits sLen : Nat) (data em : List UInt8) : Prop :=
  ∃ salt, salt.length = sLen ∧ em = pssEncode hash emBits data salt

@[simp] lemma length_clearTop (n : Nat) (l : List UInt8) : (clearTop n l).length = l.length :=
  List.length_modifyHead

lemma clearTop_append {n : Nat} {l l' : List UInt8} (h : l ≠ []) : clearTop n (l ++ l') = clearTop n l ++ l' := by
  cases l with
  | nil => exact absurd rfl h
  | cons b l => rfl

lemma xor_and (b k m : UInt8) : (b ^^^ k) &&& m = (b &&& m) ^^^ (k &&& m) := by
  apply UInt8.eq_of_toBitVec_eq
  ext i
  simp [Bool.and_xor_distrib_right]

/-- A mask is cut with the text that it is put on. -/
lemma clearTop_mask (n : Nat) (text key : List UInt8) :
    clearTop n (mask text key) = mask (clearTop n text) (clearTop n key) := by
  cases text with
  | nil => rfl
  | cons b text =>
    cases key with
    | nil => rfl
    | cons k key => exact congrArg (· :: mask text key) (xor_and b k _)

/-- A text that starts with zeros is what a masked text unmasks to, except for its first bits, if and only
if the masked text is that text masked, except for its first bits. -/
lemma clearTop_mask_eq_iff {n : Nat} {db text key : List UInt8} (hdb : clearTop n db = db)
    (hlen : text.length = key.length) (hlen' : db.length = key.length) :
    clearTop n (mask text key) = db ↔ clearTop n text = clearTop n (mask db key) := by
  rw [clearTop_mask, clearTop_mask, hdb]
  have htext : (clearTop n text).length ≤ (clearTop n key).length := by
    rw [length_clearTop, length_clearTop, hlen]
  have hle : db.length ≤ (clearTop n key).length := by rw [length_clearTop, hlen']
  constructor
  · intro h
    rw [← h, mask_mask htext]
  · intro h
    rw [h, mask_mask hle]

end RajNX.RsaPadding
