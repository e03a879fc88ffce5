import RajNX.Exosphere.Monitor
import RajNX.Exosphere.SmcUser

/-!
# The handlers of user calls

The functions of `smc_user.c`, with `gcm_decrypt_key` and `gcm_encrypt_key` as they work with the key slots and
their buffer. A handler is given the registers. It gives the registers that it leaves, or it returns a code early
and leaves the registers as they were.
-/

namespace RajNX.Exosphere

open BigEndian CounterMode LittleEndian Mask Splice

/-! ## Wrapped RSA keys -/

/-- The accesses of `se_aes_ctr_crypt` to a destination. -/
def ctrCryptAccesses (dst : Buffer) (offset dstSize srcSize : Nat) : List Access :=
  let alignedSize := srcSize / 0x10 * 0x10
  [.buffer dst offset dstSize] ++ (if alignedSize ≠ 0 then [.buffer dst offset alignedSize] else []) ++
    if alignedSize < dstSize ∧ alignedSize < srcSize then
      let lastBlockSize := if srcSize < dstSize then srcSize - alignedSize else dstSize - alignedSize
      [.buffer dst (offset + alignedSize) lastBlockSize]
    else []

section Gcm

variable (p : Platform)

/-- The unwrapped key is in the temporary key slot. -/
def unwrapKeyIntoTempkey (sealedKek wrappedKey : List UInt8) (usecase : Nat) : SmcM Unit := do
  unsealKey p keyslotTempkey sealedKek usecase
  decryptDataIntoKeyslot p keyslotTempkey keyslotTempkey wrappedKey

/-- `gcm_decrypt_key`, from the user data into the user data. -/
def gcmDecryptUserData (dstSize : Nat) (src sealedKek wrappedKey : List UInt8) (usecase : Nat)
    (isPersonalized : Bool) : SmcM DecryptResult := do
  let srcSize := src.length
  .panicIf (!isPersonalized ∧ (srcSize ≤ 0x10 ∨ dstSize < srcSize - 0x10))
  .panicIf (isPersonalized ∧ (srcSize ≤ 0x30 ∨ dstSize < srcSize - 0x20))
  unwrapKeyIntoTempkey p sealedKek wrappedKey usecase
  let cipher ← keyslotCipher p keyslotTempkey
  access (.buffer .intermediateBuf 0 0x400 :: ctrCryptAccesses .intermediateBuf 0 dstSize (srcSize - 0x10))
  let buf := splice (List.replicate 0x400 0) 0 (seAesCtrCrypt cipher dstSize (src.drop 0x10) (src.take 0x10))
  if !isPersonalized then do
    access [.buffer .intermediateBuf 0 (srcSize - 0x10), .buffer .userData 0 (srcSize - 0x10),
      .buffer .intermediateBuf 0 0x400]
    pure ⟨srcSize - 0x10, splice src 0 (slice buf 0 (srcSize - 0x10)), none⟩
  else do
    let jBlock := ghash cipher (src.take 0x10) [] false
    access [.buffer .intermediateBuf 0 (srcSize - 0x20)]
    let calcMac := ghash cipher (slice buf 0 (srcSize - 0x20)) jBlock true
    if slice src (srcSize - 0x10) 0x10 ≠ calcMac then pure ⟨0, src, none⟩
    else do
      access [.buffer .intermediateBuf (srcSize - 0x28) 8]
      if beValue (slice buf (srcSize - 0x28) 8) &&& 0x00FFFFFFFFFFFFFF ≠ p.fuses.deviceId then pure ⟨0, src, none⟩
      else do
        access [.buffer .intermediateBuf (srcSize - 0x28) 1, .buffer .intermediateBuf 0 (srcSize - 0x30),
          .buffer .userData 0 (srcSize - 0x30), .buffer .intermediateBuf 0 0x400]
        pure ⟨srcSize - 0x30, splice src 0 (slice buf 0 (srcSize - 0x30)), some (buf.getD (srcSize - 0x28) 0)⟩

/-- `gcm_encrypt_key`, into the user data. It does not look at its source. -/
def gcmEncryptUserData (dst : List UInt8) (dstSize srcSize : Nat) (sealedKek wrappedKey : List UInt8)
    (usecase deviceidHigh : Nat) : SmcM (List UInt8) := do
  access [.buffer .intermediateBuf 0 0x400]
  .panicIf (dstSize < srcSize + 0x30)
  unwrapKeyIntoTempkey p sealedKek wrappedKey usecase
  let cipher ← keyslotCipher p keyslotTempkey
  let random ← seGenerateRandom p keyslotRngkey 0x10
  access [.buffer .intermediateBuf 0 0x10, .buffer .intermediateBuf (srcSize + 0x18) 8]
  let buf := splice (List.replicate 0x400 0) 0 random
  let buf := splice buf (srcSize + 0x18) (beBytes 8 (p.fuses.deviceId ||| deviceidHigh <<< 56))
  access [.buffer .intermediateBuf 0 0x10, .buffer .intermediateBuf 0x10 (srcSize + 0x10),
    .buffer .intermediateBuf (srcSize + 0x20) 0x10]
  let jBlock := ghash cipher (slice buf 0 0x10) [] false
  let buf := splice buf (srcSize + 0x20) (ghash cipher (slice buf 0x10 (srcSize + 0x10)) jBlock true)
  access (.buffer .intermediateBuf 0x10 (srcSize + 0x10) ::
    ctrCryptAccesses .intermediateBuf 0x10 (srcSize + 0x10) (srcSize + 0x10))
  let buf := splice buf 0x10
    (seAesCtrCrypt cipher (srcSize + 0x10) (slice buf 0x10 (srcSize + 0x10)) (slice buf 0 0x10))
  access [.buffer .intermediateBuf 0 (srcSize + 0x30), .buffer .userData 0 (srcSize + 0x30),
    .buffer .intermediateBuf 0 0x400]
  pure (splice dst 0 (slice buf 0 (srcSize + 0x30)))

end Gcm

/-! ## The registers -/

/-- A register as an unsigned int. -/
def uint32 (x : UInt64) : Nat := x.toNat % 2 ^ 32

/-- Two registers as 0x10 bytes. -/
def wordPair (x y : UInt64) : List UInt8 := leBytes 8 x.toNat ++ leBytes 8 y.toNat

/-- `read64le` -/
def read64le (bytes : List UInt8) (offset : Nat) : UInt64 := .ofNat (leValue (slice bytes offset 8))

/-- Registers with 0x10 bytes in X1 and X2. -/
def Args.setPair (args : Args) (bytes : List UInt8) : Args :=
  (args.set 1 (read64le bytes 0)).set 2 (read64le bytes 8)

/-- Registers with bytes from X1 on. -/
def Args.setBytes (args : Args) (bytes : List UInt8) : Args := fun i =>
  if i.val = 0 then args i
  else .ofNat (leValue (slice (splice ((List.ofFn args).flatMap fun x => leBytes 8 x.toNat) 8 bytes) (8 * i.val) 8))

/-- The label hash that X3 to X6 hold. -/
def Args.labelHash (args : Args) : LabelHash :=
  ⟨wordPair (args 3) (args 4) ++ wordPair (args 5) (args 6), by
    rw [wordPair, wordPair, List.length_append, List.length_append, List.length_append, length_leBytes,
      length_leBytes, length_leBytes, length_leBytes]⟩

/-- A master key revision, which is offset by one. -/
def offsetByOne (rev : Nat) : Nat := if 0 < rev then rev - 1 else rev

/-! ## The handlers -/

/-- `is_user_keyslot_valid` -/
def isUserKeyslotValid (fw : TargetFirmware) (keyslot : Nat) : Bool :=
  match fw with
  | .fw100 | .fw200 | .fw300 | .fw400 | .fw500 => keyslot ≤ 3
  | .fw600 | .fw620 | .fw700 | .fw800 | .fw810 | .fw900 => keyslot ≤ 5

section Handlers

variable (p : Platform)

variable (args : Args)

/-- `user_exp_mod` -/
def userExpMod : SmcM Args := do
  .stopIf (args 4 = 0 ∨ 0x100 < args 4 ∨ args 4 &&& 3 ≠ 0) 2
  let exponentSize := (args 4).toNat
  let ref ← upageInit (args 1)
  let input ← userCopyToSecure ref .input (args 1) 0x100
  let exponent ← userCopyToSecure ref .exponent (args 2) exponentSize
  let modulus ← userCopyToSecure ref .modulus (args 3) 0x100
  .update fun s => { s with expModDone := false }
  setRsaKeyslot 0 modulus exponent
  seExpMod p 0 input
  pure args

/-- `user_get_random_bytes` -/
def userGetRandomBytes : SmcM Args := do
  .stopIf (0x38 < args 1) 2
  let size := (args 1).toNat
  let randomBytes ← seGenerateRandom p keyslotRngkey size
  access [.buffer .randomBytes 0 size]
  if size ≠ 0 then do
    access [.buffer .registers 0 size]
    pure (args.setBytes randomBytes)
  else pure args

/-- `kek_seeds` -/
def kekSeeds : List (List UInt8) :=
  [[0x00, 0x00, 0x00, 0x00, 0x00, 0x00, 0x00, 0x00, 0x00, 0x00, 0x00, 0x00, 0x00, 0x00, 0x00, 0x00],
   [0xA2, 0xAB, 0xBF, 0x9C, 0x92, 0x2F, 0xBB, 0xE3, 0x78, 0x79, 0x9B, 0xC0, 0xCC, 0xEA, 0xA5, 0x74],
   [0x57, 0xE2, 0xD9, 0x45, 0xE4, 0x92, 0xF4, 0xFD, 0xC3, 0xF9, 0x86, 0x38, 0x89, 0x78, 0x9F, 0x3C],
   [0xE5, 0x4D, 0x9A, 0x02, 0xF0, 0x4F, 0x5F, 0xA8, 0xAD, 0x76, 0x0A, 0xF6, 0x32, 0x95, 0x59, 0xBB],
   [0x59, 0xD9, 0x31, 0xF4, 0xA7, 0x97, 0xB8, 0x14, 0x40, 0xD6, 0xA2, 0x60, 0x2B, 0xED, 0x15, 0x31],
   [0xFD, 0x6A, 0x25, 0xE5, 0xD8, 0x38, 0x7F, 0x91, 0x49, 0xDA, 0xF8, 0x59, 0xA8, 0x28, 0xE6, 0x75],
   [0x89, 0x96, 0x43, 0x9A, 0x7C, 0xD5, 0x59, 0x55, 0x24, 0xD5, 0x24, 0x18, 0xAB, 0x6C, 0x04, 0x61]]

/-- `kek_masks` -/
def kekMasks : List (List UInt8) :=
  [[0x4D, 0x87, 0x09, 0x86, 0xC4, 0x5D, 0x20, 0x72, 0x2F, 0xBA, 0x10, 0x53, 0xDA, 0x92, 0xE8, 0xA9],
   [0x25, 0x03, 0x31, 0xFB, 0x25, 0x26, 0x0B, 0x79, 0x8C, 0x80, 0xD2, 0x69, 0x98, 0xE2, 0x22, 0x77],
   [0x76, 0x14, 0x1D, 0x34, 0x93, 0x2D, 0xE1, 0x84, 0x24, 0x7B, 0x66, 0x65, 0x55, 0x04, 0x65, 0x81],
   [0xAF, 0x3D, 0xB7, 0xF3, 0x08, 0xA2, 0xD8, 0xA2, 0x08, 0xCA, 0x18, 0xA8, 0x69, 0x46, 0xC9, 0x0B]]

/-- The bounds of `user_generate_aes_kek` that came with 5.0.0. -/
def isKekOptionInvalid5x (isPersonalized : Bool) (masterKeyRev maskId usecase : Nat) : Bool :=
  if isPersonalized then
    mkeyRevisionMax ≤ masterKeyRev ∨
      (mkeyRevision300 ≤ masterKeyRev ∧ masterKeyRev < mkeyRevision400) ∨
      3 < maskId ∨ cryptousecaseMax5x ≤ usecase
  else cryptousecaseUnk6 ≤ usecase ∨ (usecase = cryptousecaseUnk5 ∧ 4 ≤ maskId)

/-- The device key of a revision, which changed in 4.0.0 and in 5.0.0. -/
def deviceKeyslot (masterKeyRev : Nat) : SmcM Nat :=
  if .fw500 ≤ p.targetFirmware then devkeyGetKeyslot p masterKeyRev
  else if p.targetFirmware = .fw400 then
    if 1 ≤ masterKeyRev then pure keyslotDevicekey else pure keyslot4xOldDevicekey
  else pure keyslotDevicekey

/-- The key slot that `user_generate_aes_kek` derives from. -/
def kekKeyslot (isPersonalized : Bool) (masterKeyRev : Nat) : SmcM Nat :=
  if isPersonalized then deviceKeyslot p masterKeyRev else mkeyGetKeyslot p masterKeyRev

/-- `user_generate_aes_kek` -/
def userGenerateAesKek : SmcM Args := do
  let wrappedKek := wordPair (args 1) (args 2)
  let masterKeyRev := offsetByOne (uint32 (args 3))
  .stopIf (mkeyRevisionMax ≤ masterKeyRev) 2
  let revision ← mkeyGetRevision p
  .stopIf (revision < masterKeyRev) 2
  .stopIf (0xFF < args 4) 2
  let packedOptions := (args 4).toNat
  let maskId := (packedOptions >>> 1) &&& 3
  let usecase := (packedOptions >>> 5) &&& (if .fw500 ≤ p.targetFirmware then 7 else 3)
  let isPersonalized : Bool := packedOptions &&& 1 ≠ 0
  .stopIf (.fw500 ≤ p.targetFirmware ∧ isKekOptionInvalid5x isPersonalized masterKeyRev maskId usecase) 2
  .stopIf (maskId = 2 ∧ !p.fuses.isRecoveryBoot) 2
  .stopIf (maskId = 1 ∧ p.fuses.isRecoveryBoot) 2
  let kekSource := mask (kekSeeds.getD usecase []) (kekMasks.getD maskId [])
  let keyslot ← kekKeyslot p isPersonalized masterKeyRev
  decryptDataIntoKeyslot p keyslotTempkey keyslot kekSource
  let kek ← seAesEcbDecryptBlock p keyslotTempkey wrappedKek
  let sealedKek ← sealKey p kek usecase
  pure (args.setPair sealedKek)

/-- `user_load_aes_key` -/
def userLoadAesKey : SmcM Args := do
  let keyslot := uint32 (args 1)
  .stopIf (!isUserKeyslotValid p.targetFirmware keyslot) 2
  unsealKey p keyslotTempkey (wordPair (args 2) (args 3)) cryptousecaseAes
  decryptDataIntoKeyslot p keyslot keyslotTempkey (wordPair (args 4) (args 5))
  pure args

/-- The key slot of CryptAes. -/
def cryptAesKeyslot (fw : TargetFirmware) (x : UInt64) : Nat :=
  if .fw600 ≤ fw then uint32 (x &&& 7) else uint32 (x &&& 3)

/-- An address outside of the range for DMA lists, as unsigned ints. -/
def isOutsideDmaRange (paddr : Nat) : Bool := 0x3FF7F5 ≤ (paddr + 2 ^ 32 - 0x80000000) % 2 ^ 32

/-- What CryptAes refuses before it does anything. -/
def isCryptAesRefused (fw : TargetFirmware) (args : Args) : Bool :=
  (!isUserKeyslotValid fw (cryptAesKeyslot fw (args 1)) || args 6 &&& 0xF ≠ 0) ||
    (.fw500 ≤ fw && (isOutsideDmaRange (uint32 (args 4)) || isOutsideDmaRange (uint32 (args 5))))

/-- `user_crypt_aes`. Modes 0 and 1 are CBC, and mode 2 is CTR. -/
def userCryptAes : SmcM Args := do
  let keyslot := cryptAesKeyslot p.targetFirmware (args 1)
  let mode := (uint32 (args 1) >>> 4) &&& 3
  let size := (args 6).toNat
  .stopIf (isCryptAesRefused p.targetFirmware args) 2
  .update fun s => { s with cryptAesDone := false }
  if mode = 0 ∨ mode = 1 then do
    setAesKeyslotIv keyslot (wordPair (args 2) (args 3))
    seAesCryptInsecureInternal keyslot size
    pure args
  else if mode = 2 then do
    seAesCryptInsecureInternal keyslot size
    pure args
  else .stop 1

/-- `dev_specific_aes_key_ctr` -/
def devSpecificAesKeyCtr : List UInt8 :=
  [0x3C, 0xD5, 0x92, 0xEC, 0x68, 0x31, 0x4A, 0x06, 0xD4, 0x1B, 0x0C, 0xD9, 0xF6, 0x2E, 0xD9, 0xE9]

/-- `dev_specific_aes_key_mask` -/
def devSpecificAesKeyMask : List UInt8 :=
  [0xAC, 0xCA, 0x9A, 0xCA, 0xFF, 0x2E, 0xB9, 0x22, 0xCC, 0x1F, 0x4F, 0xAD, 0xDD, 0x77, 0x21, 0x1E]

/-- `retail_specific_aes_key_source` -/
def retailSpecificAesKeySource : List UInt8 :=
  [0xE2, 0xD6, 0xB8, 0x7A, 0x11, 0x9C, 0xB8, 0x80, 0xE8, 0x22, 0x88, 0x8A, 0x46, 0xFB, 0xA1, 0x95]

/-- `user_generate_specific_aes_key` -/
def userGenerateSpecificAesKey : SmcM Args := do
  let wrappedKey := wordPair (args 1) (args 2)
  let masterKeyRev := if .fw400 ≤ p.targetFirmware then offsetByOne (uint32 (args 3)) else 0
  .stopIf (mkeyRevisionMax ≤ masterKeyRev) 2
  .stopIf (1 < args 4) 2
  let shouldMask : Bool := args 4 ≠ 0
  let keyslot ← deviceKeyslot p masterKeyRev
  if p.fuses.bootromPatchVersion < 0x7F then do
    let cipher ← keyslotCipher p keyslot
    let key := seAesCtrCrypt cipher 0x10 (List.replicate 0x10 0) devSpecificAesKeyCtr
    pure (args.setPair (if shouldMask then mask key devSpecificAesKeyMask else key))
  else do
    decryptDataIntoKeyslot p keyslotTempkey keyslot retailSpecificAesKeySource
    let key ← seAesEcbDecryptBlock p keyslotTempkey wrappedKey
    pure (args.setPair key)

/-- `user_compute_cmac` -/
def userComputeCmac : SmcM Args := do
  let keyslot := uint32 (args 1)
  .stopIf (!isUserKeyslotValid p.targetFirmware keyslot ∨ 0x400 < args 3) 2
  let ref ← upageInit (args 2)
  let userData ← userCopyToSecure ref .userData (args 2) (args 3).toNat
  let resultCmac ← seComputeAes128Cmac p keyslot userData
  pure (args.setPair resultCmac)

/-- The key data of `user_load_rsa_oaep_key`, `user_decrypt_rsa_private_key` and `user_load_secure_exp_mod_key`,
which are gone in 5.0.0: user data of a valid size, decrypted. -/
def decryptRsaKey (sizeIsValid : Bool → Nat → Bool) (usecase : Nat) (args : Args) :
    SmcM (UpageRef × DecryptResult) := do
  .panicIf (.fw500 ≤ p.targetFirmware)
  .stopIf (1 < args 3) 2
  let isPersonalized : Bool := args 3 ≠ 0
  let size := (args 5).toNat
  .stopIf (!sizeIsValid isPersonalized size) 2
  .stopIf (!isPersonalized ∧ 0x7F ≤ p.fuses.bootromPatchVersion) 2
  let ref ← upageInit (args 4)
  let userData ← userCopyToSecure ref .userData (args 4) size
  let key ← gcmDecryptUserData p size userData (wordPair (args 1) (args 2)) (wordPair (args 6) (args 7)) usecase
    isPersonalized
  pure (ref, key)

/-- `user_load_rsa_oaep_key` -/
def userLoadRsaOaepKey : SmcM Args := do
  let (_, key) ← decryptRsaKey p (fun isPersonalized size => size = if isPersonalized then 0x240 else 0x220)
    cryptousecaseRsaOaep args
  .stopIf (key.size < 0x100) 2
  access [.buffer (.importedExponent 0) 0 0x100]
  .update fun s => { s with importedExponents := s.importedExponents.set 0 (key.dst.take 0x100) }
  pure args

/-- `user_decrypt_rsa_private_key` -/
def userDecryptRsaPrivateKey : SmcM Args := do
  let (ref, key) ← decryptRsaKey p
    (fun isPersonalized size => size ≤ 0x240 ∧ (if isPersonalized then 0x31 else 0x11) ≤ size)
    cryptousecaseRsaPrivate args
  .stopIf (key.size = 0) 2
  secureCopyToUser ref (args 4) .userData key.dst (args 5).toNat
  pure (args.set 1 (.ofNat key.size))

/-- `user_load_secure_exp_mod_key` -/
def userLoadSecureExpModKey : SmcM Args := do
  let (_, key) ← decryptRsaKey p (fun isPersonalized size => size = if isPersonalized then 0x130 else 0x110)
    cryptousecaseSecureExpMod args
  .stopIf (key.size = 0) 2
  let size := if key.size ≤ 0x100 then key.size else 0x100
  access [.buffer (.importedExponent 1) 0 size]
  .update fun s =>
    { s with importedExponents := s.importedExponents.modify 1 fun exponent => splice exponent 0 (key.dst.take size) }
  pure args

/-- The exponent of SecureExpMod. -/
def secureExponentId (fw : TargetFirmware) (x : UInt64) : Option Nat :=
  if .fw500 ≤ fw then
    if x = 0 then some 1 else if x = 1 then some 2 else if x = 2 then some 3 else none
  else some 1

/-- `user_secure_exp_mod` -/
def userSecureExpMod : SmcM Args := do
  match secureExponentId p.targetFirmware (args 3) with
  | none => .stop 2
  | some exponentId => do
    let ref ← upageInit (args 1)
    let input ← userCopyToSecure ref .input (args 1) 0x100
    let modulus ← userCopyToSecure ref .modulus (args 2) 0x100
    .update fun s => { s with expModDone := false }
    let exponent ← .look fun s => s.importedExponents.getD exponentId []
    setRsaKeyslot 0 modulus exponent
    seExpMod p 0 input
    pure args

/-- `user_unwrap_rsa_oaep_wrapped_titlekey` -/
def userUnwrapRsaOaepWrappedTitlekey : SmcM Args := do
  let option := uint32 (args 7)
  let masterKeyRev := offsetByOne (if .fw600 ≤ p.targetFirmware then option &&& 0x3F else option)
  let titlekeyType := if .fw600 ≤ p.targetFirmware then (option >>> 6) &&& 1 else 0
  .stopIf (.fw300 ≤ p.targetFirmware ∧ mkeyRevisionMax ≤ masterKeyRev) 2
  let masterKeyRev := if .fw300 ≤ p.targetFirmware then masterKeyRev else 0
  let ref ← upageInit (args 1)
  let wrappedKey ← userCopyToSecure ref .wrappedKey (args 1) 0x100
  let modulus ← userCopyToSecure ref .modulus (args 2) 0x100
  .update fun s => { s with expModDone := false }
  tkeySetExpectedLabelHash args.labelHash
  tkeySetMasterKeyRev masterKeyRev
  tkeySetType p titlekeyType
  let exponent ← .look fun s => s.importedExponents.getD 0 []
  setRsaKeyslot 0 modulus exponent
  seExpMod p 0 wrappedKey
  pure args

/-- `user_load_titlekey` -/
def userLoadTitlekey : SmcM Args := do
  let keyslot := uint32 (args 1)
  .stopIf (!isUserKeyslotValid p.targetFirmware keyslot) 2
  unsealTitlekey p keyslot (wordPair (args 2) (args 3))
  pure args

/-- `user_unwrap_aes_wrapped_titlekey` -/
def userUnwrapAesWrappedTitlekey : SmcM Args := do
  let aesWrappedTitlekey := wordPair (args 1) (args 2)
  let masterKeyRev := offsetByOne (uint32 (args 3))
  .stopIf (.fw300 ≤ p.targetFirmware ∧ mkeyRevisionMax ≤ masterKeyRev) 2
  tkeySetMasterKeyRev (if .fw300 ≤ p.targetFirmware then masterKeyRev else 0)
  tkeySetType p 0
  let titlekey ← tkeyAesUnwrap p aesWrappedTitlekey
  let sealedTitlekey ← sealTitlekey p titlekey
  pure (args.setPair sealedTitlekey)

/-- `user_encrypt_rsa_key_for_import` -/
def userEncryptRsaKey : SmcM Args := do
  let usecase := (args 3).toNat &&& 7
  let size := (args 5).toNat
  .stopIf (cryptousecaseRsaImport < usecase) 2
  .stopIf (!isRsaSizeValid usecase size) 2
  let ref ← upageInit (args 4)
  let userData ← userCopyToSecure ref .userData (args 4) size
  let inSealedKek ← userCopyToSecure ref .keyData (args 1) 0x10
  let outSealedKek ← userCopyToSecure ref .keyData (args 2) 0x10
  let inWrappedKey ← userCopyToSecure ref .keyData (args 6) 0x10
  let outWrappedKey ← userCopyToSecure ref .keyData (args 7) 0x10
  let key ← gcmDecryptUserData p size userData inSealedKek inWrappedKey cryptousecaseRsaImport true
  .stopIf (key.size = 0) 2
  let out ← gcmEncryptUserData p key.dst size (size - 0x30) outSealedKek outWrappedKey
    (rsausecaseToCryptousecase usecase) (key.deviceidHigh.getD 0).toNat
  secureCopyToUser ref (args 4) .userData out size
  pure args

/-- `user_decrypt_or_import_rsa_key`, which came with 5.0.0. -/
def userDecryptOrImportKey : SmcM Args := do
  .panicIf (¬.fw500 ≤ p.targetFirmware)
  let usecase := (args 3).toNat &&& 7
  let size := (args 5).toNat
  .stopIf (cryptousecaseRsaImport < usecase) 2
  .stopIf (!isRsaSizeValid usecase size) 2
  let ref ← upageInit (args 4)
  let userData ← userCopyToSecure ref .userData (args 4) size
  let key ← gcmDecryptUserData p size userData (wordPair (args 1) (args 2)) (wordPair (args 6) (args 7))
    (rsausecaseToCryptousecase usecase) true
  .stopIf (key.size = 0) 2
  if usecase = 0 then do
    secureCopyToUser ref (args 4) .userData key.dst size
    pure args
  else
    match exponentId usecase with
    | none => .panic
    | some id => do
      access [.buffer (.importedExponent id) 0 0x100]
      .update fun s => { s with importedExponents := s.importedExponents.set id (key.dst.take 0x100) }
      pure args

end Handlers

end RajNX.Exosphere
