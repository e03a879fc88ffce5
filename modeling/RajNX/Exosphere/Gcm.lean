import RajNX.Exosphere.SecurityEngine
import RajNX.Lib.Splice

/-!
# Wrapped RSA keys

`gcm_encrypt_key` and `gcm_decrypt_key` of `gcm.c`. A wrapped key is a counter, what follows in counter mode,
and a MAC over the plaintext. The plaintext is the key, padding and the device id.

`gcm_encrypt_key` never copies the key into the buffer that it encrypts, so that the key that comes back is
all zeros.
-/

namespace RajNX.Exosphere

open BigEndian CounterMode Mask Splice

/-! ## The MAC -/

/-- A round of `gf128_mul`, with `x`, `y` and `dst`. -/
def gf128MulRound : BitVec 128 × BitVec 128 × BitVec 128 → BitVec 128 × BitVec 128 × BitVec 128
  | (x, y, dst) =>
    let dst := if y.msb then dst ^^^ x else dst
    let xval : BitVec 128 := if x.getLsbD 0 then 0xE1 else 0
    (x >>> 1 ^^^ xval <<< 120, y <<< 1, dst)

/-- `gf128_mul` -/
def gf128Mul (x y : List UInt8) : List UInt8 :=
  let start := (BitVec.ofNat 128 (beValue x), BitVec.ofNat 128 (beValue y), 0)
  beBytes 0x10 (gf128MulRound^[0x80] start).2.2.toNat

/-- The loop of `ghash` with what follows on an unaligned block, whose data is not used. -/
def ghashLoop (h : List UInt8) : Nat → List UInt8 → List UInt8 → List UInt8
  | 0, x, _ => x
  | fuel + 1, x, data =>
    if 0x10 ≤ data.length then ghashLoop h fuel (gf128Mul (mask x (data.take 0x10)) h) (data.drop 0x10)
    else if data.length % 0x10 ≠ 0 then gf128Mul x h
    else x

/-- `ghash` -/
def ghash (cipher : BlockCipher 0x10) (data jBlock : List UInt8) (encrypt : Bool) : List UInt8 :=
  let h := cipher.encrypt (List.replicate 0x10 0)
  let x := ghashLoop h (data.length / 0x10 + 1) (List.replicate 0x10 0) data
  let xorSize := beBytes 8 (data.length <<< 3)
  let x := if encrypt then mask (x.take 8) xorSize ++ x.drop 8 else x.take 8 ++ mask (x.drop 8) xorSize
  let x := gf128Mul x h
  if encrypt then mask x (cipher.encrypt jBlock) else x

/-! ## The two functions -/

/-- What `gcm_decrypt_key` returns, with `dst` and the high byte of the device id if it is given out. -/
structure DecryptResult where
  size : Nat
  dst : List UInt8
  deviceidHigh : Option UInt8
deriving DecidableEq

/-- `gcm_decrypt_key`. It panics if the sizes do not fit. -/
def gcmDecryptKey (engine : AesEngine) (deviceId : Nat) (dst : List UInt8) (dstSize : Nat)
    (src sealedKek wrappedKey : List UInt8) (usecase : Nat) (isPersonalized : Bool) : Option DecryptResult :=
  if !isPersonalized ∧ (src.length ≤ 0x10 ∨ dstSize < src.length - 0x10) then none
  else if isPersonalized ∧ (src.length ≤ 0x30 ∨ dstSize < src.length - 0x20) then none
  else
    let cipher := engine.cipher (engine.unwrapKey sealedKek wrappedKey usecase)
    let buf := splice (List.replicate 0x400 0) 0 (seAesCtrCrypt cipher dstSize (src.drop 0x10) (src.take 0x10))
    if !isPersonalized then some ⟨src.length - 0x10, splice dst 0 (slice buf 0 (src.length - 0x10)), none⟩
    else
      let jBlock := ghash cipher (src.take 0x10) [] false
      let calcMac := ghash cipher (slice buf 0 (src.length - 0x20)) jBlock true
      if slice src (src.length - 0x10) 0x10 ≠ calcMac then some ⟨0, dst, none⟩
      else if beValue (slice buf (src.length - 0x28) 8) &&& 0x00FFFFFFFFFFFFFF ≠ deviceId then
        some ⟨0, dst, none⟩
      else
        some ⟨src.length - 0x30, splice dst 0 (slice buf 0 (src.length - 0x30)), some (buf.getD (src.length - 0x28) 0)⟩

/-- `gcm_encrypt_key`, with the counter that is generated. It does not look at `src`. -/
def gcmEncryptKey (engine : AesEngine) (deviceId : Nat) (random dst : List UInt8) (dstSize : Nat)
    (_src : List UInt8) (srcSize : Nat) (sealedKek wrappedKey : List UInt8) (usecase deviceidHigh : Nat) :
    Option (List UInt8) :=
  if dstSize < srcSize + 0x30 then none
  else
    let cipher := engine.cipher (engine.unwrapKey sealedKek wrappedKey usecase)
    let buf := splice (List.replicate 0x400 0) 0 random
    let buf := splice buf (srcSize + 0x18) (beBytes 8 (deviceId ||| deviceidHigh <<< 56))
    let jBlock := ghash cipher (slice buf 0 0x10) [] false
    let buf := splice buf (srcSize + 0x20) (ghash cipher (slice buf 0x10 (srcSize + 0x10)) jBlock true)
    let buf := splice buf 0x10
      (seAesCtrCrypt cipher (srcSize + 0x10) (slice buf 0x10 (srcSize + 0x10)) (slice buf 0 0x10))
    some (splice dst 0 (slice buf 0 (srcSize + 0x30)))

section RoundTrip

variable {engine : AesEngine} {cipher : BlockCipher 0x10} {random dst pad : List UInt8} {n deviceId : Nat}
  {high : UInt8}

lemma length_gf128Mul (x y : List UInt8) : (gf128Mul x y).length = 0x10 := length_beBytes _ _

lemma length_ghash (cipher : BlockCipher 0x10) (data jBlock : List UInt8) (encrypt : Bool) :
    (ghash cipher data jBlock encrypt).length = 0x10 := by
  rw [ghash]
  split
  · have hle : ∀ x y : List UInt8, (gf128Mul x y).length ≤ (cipher.encrypt jBlock).length := by
      intro x y
      rw [length_gf128Mul, cipher.length_encrypt]
    rw [length_mask (hle _ _), length_gf128Mul]
  · exact length_gf128Mul _ _

/-- The device id as it is written. -/
def deviceIdBytes (deviceId : Nat) (high : UInt8) : List UInt8 := beBytes 8 (deviceId ||| high.toNat <<< 56)

/-- What is encrypted: a key, eight bytes of padding and the device id. -/
def wrappedPlaintext (src pad : List UInt8) (deviceId : Nat) (high : UInt8) : List UInt8 :=
  src ++ (pad ++ deviceIdBytes deviceId high)

/-- What is encrypted in the place of a key of `n` bytes. -/
def wrappedZeros (n deviceId : Nat) (high : UInt8) : List UInt8 :=
  wrappedPlaintext (List.replicate n 0) (List.replicate 8 0) deviceId high

/-- A wrapped key. -/
def wrappedBlob (cipher : BlockCipher 0x10) (random plaintext : List UInt8) : List UInt8 :=
  random ++ (crypt cipher random plaintext ++ ghash cipher plaintext (ghash cipher random [] false) true)

lemma wrappedZeros_eq (n deviceId : Nat) (high : UInt8) :
    wrappedZeros n deviceId high = List.replicate (n + 8) 0 ++ deviceIdBytes deviceId high := by
  rw [wrappedZeros, wrappedPlaintext, ← List.append_assoc, List.replicate_append_replicate]

lemma length_wrappedPlaintext (src : List UInt8) (hpad : pad.length = 8) (deviceId : Nat) (high : UInt8) :
    (wrappedPlaintext src pad deviceId high).length = src.length + 0x10 := by
  rw [wrappedPlaintext, deviceIdBytes, List.length_append, List.length_append, length_beBytes, hpad]

lemma length_wrappedZeros (n deviceId : Nat) (high : UInt8) : (wrappedZeros n deviceId high).length = n + 0x10 := by
  rw [wrappedZeros, length_wrappedPlaintext _ List.length_replicate, List.length_replicate]

lemma length_wrappedBlob (cipher : BlockCipher 0x10) (plaintext : List UInt8) (hrandom : random.length = 0x10) :
    (wrappedBlob cipher random plaintext).length = plaintext.length + 0x20 := by
  rw [wrappedBlob, List.length_append, List.length_append, length_crypt _ _ _ (by decide), length_ghash, hrandom]
  omega

/-- `gcm_encrypt_key` wraps zeros. -/
lemma gcmEncryptKey_eq {dstSize : Nat} {src sealedKek wrappedKey : List UInt8} {usecase : Nat}
    (hrandom : random.length = 0x10) (hsize : n + 0x30 ≤ dstSize) (hbuf : n + 0x30 ≤ 0x400) :
    gcmEncryptKey engine deviceId random dst dstSize src n sealedKek wrappedKey usecase high.toNat =
      some (splice dst 0 (wrappedBlob (engine.cipher (engine.unwrapKey sealedKek wrappedKey usecase)) random
        (wrappedZeros n deviceId high))) := by
  obtain ⟨k, hk⟩ := Nat.exists_eq_add_of_le hbuf
  have hzeros : List.replicate 0x400 (0 : UInt8) = [] ++ (List.replicate 0x10 0 ++
      (List.replicate (n + 8) 0 ++ (List.replicate 8 0 ++ (List.replicate 0x10 0 ++ List.replicate k 0)))) := by
    rw [List.nil_append, List.replicate_append_replicate, List.replicate_append_replicate,
      List.replicate_append_replicate, List.replicate_append_replicate]
    congr 1
    omega
  have hid : (deviceIdBytes deviceId high).length = 8 := length_beBytes _ _
  -- the buffer after each of the four writes
  have hbuf1 : splice (List.replicate 0x400 0) 0 random = random ++
      (List.replicate (n + 8) 0 ++ (List.replicate 8 0 ++ (List.replicate 0x10 0 ++ List.replicate k 0))) := by
    rw [hzeros, splice_middle List.length_nil (List.length_replicate.trans hrandom.symm), List.nil_append]
  have hbuf2 : splice (random ++ (List.replicate (n + 8) 0 ++
      (List.replicate 8 0 ++ (List.replicate 0x10 0 ++ List.replicate k 0)))) (n + 0x18)
      (deviceIdBytes deviceId high) =
      random ++ (wrappedZeros n deviceId high ++ (List.replicate 0x10 0 ++ List.replicate k 0)) := by
    have hi : (random ++ List.replicate (n + 8) 0).length = n + 0x18 := by
      rw [List.length_append, List.length_replicate, hrandom]
      omega
    rw [← List.append_assoc, splice_middle hi (by rw [List.length_replicate, hid]), wrappedZeros_eq]
    simp only [List.append_assoc]
  have hctr : ∀ rest, slice (random ++ rest) 0 0x10 = random := fun rest => List.take_left' hrandom
  have hplain : ∀ rest, slice (random ++ (wrappedZeros n deviceId high ++ rest)) 0x10 (n + 0x10) =
      wrappedZeros n deviceId high := fun rest => slice_middle hrandom (length_wrappedZeros _ _ _)
  have hbuf3 : ∀ mac : List UInt8, mac.length = 0x10 → splice (random ++ (wrappedZeros n deviceId high ++
      (List.replicate 0x10 0 ++ List.replicate k 0))) (n + 0x20) mac =
      random ++ (wrappedZeros n deviceId high ++ (mac ++ List.replicate k 0)) := by
    intro mac hmac
    have hi : (random ++ wrappedZeros n deviceId high).length = n + 0x20 := by
      rw [List.length_append, length_wrappedZeros, hrandom]
      omega
    rw [← List.append_assoc, splice_middle hi (by rw [List.length_replicate, hmac]), List.append_assoc]
  have hbuf4 : ∀ text mac : List UInt8, text.length = n + 0x10 →
      splice (random ++ (wrappedZeros n deviceId high ++ mac)) 0x10 text = random ++ (text ++ mac) := by
    intro text mac htext
    exact splice_middle hrandom ((length_wrappedZeros _ _ _).trans htext.symm)
  rw [gcmEncryptKey, if_neg (Nat.not_lt.mpr hsize)]
  dsimp only
  rw [hbuf1, ← deviceIdBytes, hbuf2, hctr, hplain, hbuf3 _ (length_ghash _ _ _ _), hctr, hplain,
    seAesCtrCrypt_eq (length_wrappedZeros _ _ _).le,
    hbuf4 _ _ ((length_crypt _ _ _ (by decide)).trans (length_wrappedZeros _ _ _))]
  have hall : ∀ rest, slice (wrappedBlob (engine.cipher (engine.unwrapKey sealedKek wrappedKey usecase)) random
      (wrappedZeros n deviceId high) ++ rest) 0 (n + 0x30) =
      wrappedBlob (engine.cipher (engine.unwrapKey sealedKek wrappedKey usecase)) random
        (wrappedZeros n deviceId high) := fun rest => List.take_left'
        ((length_wrappedBlob _ _ hrandom).trans (by rw [length_wrappedZeros]))
  rw [← hall (List.replicate k 0), wrappedBlob]
  simp only [List.append_assoc]

/-- A device id with a high byte. -/
lemma or_high (hid : deviceId < 2 ^ 56) : deviceId ||| high.toNat <<< 56 = 2 ^ 56 * high.toNat + deviceId := by
  rw [Nat.or_comm, ← Nat.shiftLeft_add_eq_or_of_lt hid, Nat.shiftLeft_eq, Nat.mul_comm]

lemma beValue_deviceIdBytes (hid : deviceId < 2 ^ 56) :
    beValue (deviceIdBytes deviceId high) &&& 0x00FFFFFFFFFFFFFF = deviceId := by
  have hhigh := high.toNat_lt
  rw [deviceIdBytes, beValue_beBytes, or_high hid, show 0x00FFFFFFFFFFFFFF = 2 ^ 56 - 1 by decide,
    Nat.and_two_pow_sub_one_eq_mod]
  omega

lemma head_deviceIdBytes (hid : deviceId < 2 ^ 56) : (deviceIdBytes deviceId high).head? = some high := by
  have hhigh := high.toNat_lt
  have hdiv : (2 ^ 56 * high.toNat + deviceId) / 256 / 256 / 256 / 256 / 256 / 256 / 256 = high.toNat := by
    omega
  rw [deviceIdBytes, or_high hid]
  simp only [beBytes, LittleEndian.leBytes, hdiv, UInt8.ofNat_toNat]
  rfl

/-- The MAC of a wrapped key. -/
lemma slice_wrappedBlob (cipher : BlockCipher 0x10) (plaintext : List UInt8) (hrandom : random.length = 0x10) :
    slice (wrappedBlob cipher random plaintext) (plaintext.length + 0x20 - 0x10) 0x10 =
      ghash cipher plaintext (ghash cipher random [] false) true := by
  have hi : (random ++ crypt cipher random plaintext).length = plaintext.length + 0x20 - 0x10 := by
    rw [List.length_append, length_crypt _ _ _ (by decide), hrandom]
    omega
  rw [wrappedBlob, ← List.append_assoc, slice, List.drop_left' hi, List.take_of_length_le (length_ghash ..).le]

/-- The buffer that a wrapped key is decrypted into starts with the plaintext. -/
lemma exists_decrypted (cipher : BlockCipher 0x10) (plaintext : List UInt8) (hrandom : random.length = 0x10)
    {dstSize : Nat} (hsize : plaintext.length + 0x10 ≤ dstSize) :
    ∃ rest, splice (List.replicate 0x400 0) 0
      (seAesCtrCrypt cipher dstSize ((wrappedBlob cipher random plaintext).drop 0x10) random) = plaintext ++ rest := by
  have hfits : (crypt cipher random plaintext ++
      ghash cipher plaintext (ghash cipher random [] false) true).length ≤ dstSize := by
    rwa [List.length_append, length_crypt _ _ _ (by decide), length_ghash]
  obtain ⟨rest, hrest⟩ := crypt_append cipher random (crypt cipher random plaintext)
    (ghash cipher plaintext (ghash cipher random [] false) true) (by decide)
  rw [crypt_crypt _ _ _ (by decide)] at hrest
  refine ⟨rest ++ (List.replicate 0x400 0).drop (0 + (plaintext ++ rest).length), ?_⟩
  rw [wrappedBlob, List.drop_left' hrandom, seAesCtrCrypt_eq hfits, hrest, splice, List.take_zero, List.nil_append,
    List.append_assoc]

/-- `gcm_decrypt_key` gives out the key of a wrapped key. -/
lemma gcmDecryptKey_wrapped {dstSize usecase : Nat} {src sealedKek wrappedKey : List UInt8} (dst : List UInt8)
    (high : UInt8)
    (hcipher : engine.cipher (engine.unwrapKey sealedKek wrappedKey usecase) = cipher)
    (hrandom : random.length = 0x10) (hpad : pad.length = 8) (hid : deviceId < 2 ^ 56) (hpos : 0 < src.length)
    (hsize : src.length + 0x30 ≤ dstSize) :
    gcmDecryptKey engine deviceId dst dstSize (wrappedBlob cipher random (wrappedPlaintext src pad deviceId high))
        sealedKek wrappedKey usecase true = some ⟨src.length, splice dst 0 src, some high⟩ := by
  have hplain := length_wrappedPlaintext src hpad deviceId high
  have hlen := length_wrappedBlob cipher (wrappedPlaintext src pad deviceId high) hrandom
  have hmac := slice_wrappedBlob cipher (wrappedPlaintext src pad deviceId high) hrandom
  have hctr : (wrappedBlob cipher random (wrappedPlaintext src pad deviceId high)).take 0x10 = random :=
    List.take_left' hrandom
  obtain ⟨rest, hbuf⟩ := exists_decrypted cipher (wrappedPlaintext src pad deviceId high) hrandom
    (show _ ≤ dstSize by omega)
  have hid8 : (deviceIdBytes deviceId high).length = 8 := length_beBytes _ _
  rw [hplain] at hlen hmac
  -- the key, the device id and its high byte in the buffer
  have hall : slice (wrappedPlaintext src pad deviceId high ++ rest) 0 (src.length + 0x10 + 0x20 - 0x20) =
      wrappedPlaintext src pad deviceId high := List.take_left' hplain
  have hsub : src.length + 0x10 + 0x20 - 0x28 = src.length + 8 := by omega
  have hids : slice (wrappedPlaintext src pad deviceId high ++ rest) (src.length + 8) 8 =
      deviceIdBytes deviceId high := by
    rw [wrappedPlaintext, ← List.append_assoc, List.append_assoc]
    exact slice_middle (by rw [List.length_append, hpad]) hid8
  have hhigh : (wrappedPlaintext src pad deviceId high ++ rest).getD (src.length + 8) 0 = high := by
    have hi : (src ++ pad).length = src.length + 8 := by rw [List.length_append, hpad]
    rw [wrappedPlaintext, ← List.append_assoc, List.append_assoc, List.getD_eq_getElem?_getD, ← hi,
      List.getElem?_append_right le_rfl, Nat.sub_self, List.getElem?_append_left (by rw [hid8]; decide),
      ← List.head?_eq_getElem?, head_deviceIdBytes hid]
    rfl
  have hn : src.length + 0x10 + 0x20 - 0x30 = src.length := by omega
  have hkey : slice (wrappedPlaintext src pad deviceId high ++ rest) 0 src.length = src := by
    rw [wrappedPlaintext, List.append_assoc]
    exact List.take_left' rfl
  have hno : ¬(true = true ∧ (src.length + 0x10 + 0x20 ≤ 0x30 ∨ dstSize < src.length + 0x10 + 0x20 - 0x20)) := by
    omega
  rw [gcmDecryptKey, if_neg (by simp), hlen, if_neg hno, hcipher]
  dsimp only
  rw [hctr, hbuf, hall, hmac, hsub, hids, hn, hkey, hhigh, if_neg (by simp), if_neg (not_not.mpr rfl),
    beValue_deviceIdBytes hid, if_neg (not_not.mpr rfl)]

/-- What is given out of zeros that were wrapped. -/
lemma gcmDecryptKey_wrappedZeros {dstSize usecase : Nat} {sealedKek wrappedKey : List UInt8} (dst : List UInt8)
    (high : UInt8)
    (hcipher : engine.cipher (engine.unwrapKey sealedKek wrappedKey usecase) = cipher)
    (hrandom : random.length = 0x10) (hid : deviceId < 2 ^ 56) (hpos : 0 < n) (hsize : n + 0x30 ≤ dstSize) :
    gcmDecryptKey engine deviceId dst dstSize (wrappedBlob cipher random (wrappedZeros n deviceId high))
        sealedKek wrappedKey usecase true = some ⟨n, splice dst 0 (List.replicate n 0), some high⟩ := by
  obtain ⟨src, hsrc⟩ : ∃ src, src = List.replicate n (0 : UInt8) := ⟨_, rfl⟩
  obtain rfl : src.length = n := by rw [hsrc, List.length_replicate]
  rw [wrappedZeros, ← hsrc]
  exact gcmDecryptKey_wrapped dst high hcipher hrandom List.length_replicate hid hpos hsize

/-- `gcm_decrypt_key` panics on a wrapped key of no bytes. -/
lemma gcmDecryptKey_wrapped_zero {dstSize usecase : Nat} {sealedKek wrappedKey : List UInt8}
    (hrandom : random.length = 0x10) :
    gcmDecryptKey engine deviceId dst dstSize (wrappedBlob cipher random (wrappedZeros 0 deviceId high)) sealedKek
      wrappedKey usecase true = none := by
  rw [gcmDecryptKey, if_neg (by simp), length_wrappedBlob _ _ hrandom, length_wrappedZeros, if_pos ⟨rfl, .inl le_rfl⟩]

end RoundTrip

end RajNX.Exosphere
