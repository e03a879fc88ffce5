import RajNX.Exosphere.Gcm
import RajNX.Exosphere.Pss
import RajNX.Exosphere.TitleKey
import RajNX.Lib.Command

/-!
# The secure monitor

The state of the secure monitor between calls, and what its calls are made of: the key slots and the operations
of the security engine (`se.c`), sealed keys (`sealedkeys.c`), master keys (`masterkey.c`), title keys
(`titlekey.c`) and the user page (`userpage.c`). AES, RSA, SHA-256 and the random numbers are not looked into,
and what the fuses and the boot configuration say is given.

The state also has a trace, to say what memory was accessed and with which key slots user data was processed.
-/

namespace RajNX.Exosphere

open BigEndian CounterMode LittleEndian Mask Mgf1 Splice

/-! ## The platform -/

/-- `ATMOSPHERE_TARGET_FIRMWARE_*` -/
inductive TargetFirmware where
  | fw100 | fw200 | fw300 | fw400 | fw500 | fw600 | fw620 | fw700 | fw800 | fw810 | fw900
deriving DecidableEq

/-- The numbers of the target firmwares. -/
def TargetFirmware.toNat : TargetFirmware → Nat
  | .fw100 => 1
  | .fw200 => 2
  | .fw300 => 3
  | .fw400 => 4
  | .fw500 => 5
  | .fw600 => 6
  | .fw620 => 7
  | .fw700 => 8
  | .fw800 => 9
  | .fw810 => 10
  | .fw900 => 11

instance : LE TargetFirmware := ⟨fun fw fw' => fw.toNat ≤ fw'.toNat⟩

instance (fw fw' : TargetFirmware) : Decidable (fw ≤ fw') := inferInstanceAs (Decidable (fw.toNat ≤ fw'.toNat))

/-- AES on a block, with a key. -/
structure Aes where
  cipher : List UInt8 → BlockCipher 0x10
  decrypt : List UInt8 → List UInt8 → List UInt8
  length_decrypt (key block : List UInt8) : (decrypt key block).length = 0x10

/-- What the fuses and the boot configuration say. -/
structure Fuses where
  bootromPatchVersion : Nat
  deviceId : Nat
  dramId : UInt64
  hardwareType : UInt64
  retailType : UInt64
  isQuestUnit : Bool
  keyGeneration5x : UInt64
  hasRcmBugPatch : Bool
  disableProgramVerification : Bool
  isRecoveryBoot : Bool
  bootReason : UInt64
  memoryArrangement : UInt64
  isDebugMode : Bool
  kernelConfiguration : UInt64
  package2HashForRecovery : Fin 4 → UInt64

/-- What does not change after the boot. -/
structure Platform where
  targetFirmware : TargetFirmware
  aes : Aes
  rsa : RsaEngine
  sha : HashFunction 0x20
  /-- The bytes that the random number generator gives. -/
  random : Nat → UInt8
  fuses : Fuses
  determinedMkeyRevision : Bool
  mkeyRevision : Nat
  oldMasterkeys : Nat → List UInt8
  length_oldMasterkeys (i : Nat) : (oldMasterkeys i).length = 0x10
  oldDevicekeys : Nat → List UInt8
  length_oldDevicekeys (i : Nat) : (oldDevicekeys i).length = 0x10
  debugmodeOverrideUser : Bool
  enableUsermodeExceptionHandlers : Bool
  releaseVersionHash : UInt64

/-! ## The state -/

/-- An AES key slot. -/
structure Keyslot where
  key : List UInt8
  iv : List UInt8

/-- An RSA key slot. -/
structure RsaKeyslot where
  modulus : List UInt8
  exponent : List UInt8

/-- The output of RSA. -/
structure RsaOutput where
  bytes : List UInt8
  length_bytes : bytes.length = 0x100
deriving DecidableEq

/-- An operation that the security engine works on: its callback, and the output that it will have. -/
inductive SeOperation where
  /-- With `exp_mod_done_handler`. -/
  | expMod (output : RsaOutput)
  /-- With `crypt_aes_done_handler`. The output goes to user memory. -/
  | cryptAes
deriving DecidableEq

/-- What `g_smc_callback` may be. -/
inductive SmcCallback where
  | expModGetResult
  | cryptAesStatusCheck
  | unwrapRsaOaepWrappedTitlekeyGetResult
deriving DecidableEq

/-- The buffers of secure memory that bytes are copied into. -/
inductive Buffer where
  | modulus
  | exponent
  | input
  | wrappedKey
  | userData
  /-- A kek or a key of 0x10 bytes. -/
  | keyData
  | importedExponent (id : Nat)
  | randomBytes
  /-- The registers from X1 on. -/
  | registers
  | resultBuf
  | rsaWrappedTitlekey
  | aesWrappedTitlekey
  /-- `intermediate_buf` of `gcm.c`. -/
  | intermediateBuf
  /-- `out_item` of `smc_get_config_user`. -/
  | outItem
deriving DecidableEq

/-- The size of a buffer. -/
def Buffer.capacity : Buffer → Nat
  | .modulus | .exponent | .input | .wrappedKey | .importedExponent _ | .rsaWrappedTitlekey => 0x100
  | .userData | .resultBuf | .intermediateBuf => 0x400
  | .keyData | .aesWrappedTitlekey => 0x10
  | .randomBytes => 0x40
  | .registers => 0x38
  | .outItem => 8

/-- What the trace tells. -/
inductive Access where
  /-- User memory. -/
  | user (address : UInt64) (size : Nat)
  /-- A buffer of secure memory. -/
  | buffer (buffer : Buffer) (offset size : Nat)
  /-- CryptAes runs with a key slot. -/
  | cryptAes (keyslot : Nat)
  /-- ComputeCmac runs with a key slot. -/
  | computeCmac (keyslot : Nat)
deriving DecidableEq

/-- `smc_args_t` -/
abbrev Args := Fin 8 → UInt64

lemma neZero_args : NeZero 8 := ⟨by decide⟩

def Args.set (args : Args) (i : Fin 8) (x : UInt64) : Args := Function.update args i x

/-- The globals of the secure monitor, the security engine and user memory. -/
structure Monitor where
  keyslots : Nat → Keyslot
  rsaKeyslots : Nat → RsaKeyslot
  /-- `g_se_callback`, with what the engine works on. -/
  seCallback : Option SeOperation
  rsaOutput : RsaOutput
  /-- How many random bytes were generated. -/
  drawn : Nat
  cryptAesDone : Bool
  expModDone : Bool
  importedExponents : List (List UInt8)
  tkeyExpectedLabelHash : LabelHash
  tkeyMasterKeyRev : Nat
  tkeyType : Nat
  hizModeEnabled : Bool
  userPageUserAddress : UInt64
  isUserSmcInProgress : Bool
  smcCallback : Option SmcCallback
  smcCallbackKey : UInt64
  dram : UInt64 → UInt8
  trace : List Access
  /-- The registers that the calls have returned. -/
  returned : List Args
  panicked : Bool

/-- What runs in the secure monitor: it panics, or it returns a code early. -/
abbrev SmcM := Command Monitor Nat

/-- A part of the trace. -/
def access (accesses : List Access) : SmcM Unit := .update fun s => { s with trace := s.trace ++ accesses }

/-! ## The security engine -/

/-- `KEYSLOT_SWITCH_TEMPKEY` -/
def keyslotTempkey : Nat := 0x9
/-- `KEYSLOT_SWITCH_SESSIONKEY` -/
def keyslotSessionkey : Nat := 0xA
/-- `KEYSLOT_SWITCH_RNGKEY` -/
def keyslotRngkey : Nat := 0xB
/-- `KEYSLOT_SWITCH_MASTERKEY` -/
def keyslotMasterkey : Nat := 0xC
/-- `KEYSLOT_SWITCH_DEVICEKEY` -/
def keyslotDevicekey : Nat := 0xD
/-- `KEYSLOT_SWITCH_4XOLDDEVICEKEY` -/
def keyslot4xOldDevicekey : Nat := 0xF

/-- `KEYSLOT_AES_MAX` -/
def keyslotAesMax : Nat := 0x10
/-- `KEYSIZE_AES_MAX` -/
def keysizeAesMax : Nat := 0x20
/-- `KEYSLOT_RSA_MAX` -/
def keyslotRsaMax : Nat := 0x2
/-- `KEYSIZE_RSA_MAX` -/
def keysizeRsaMax : Nat := 0x100

/-- Words are written to the key of a key slot. -/
def Monitor.writeKey (s : Monitor) (keyslot : Nat) (key : List UInt8) : Monitor :=
  { s with
    keyslots := Function.update s.keyslots keyslot
      { s.keyslots keyslot with key := splice (s.keyslots keyslot).key 0 key } }

/-- The key of AES-128 that a key slot holds. -/
def Monitor.aesKey (s : Monitor) (keyslot : Nat) : List UInt8 := (s.keyslots keyslot).key.take 0x10

/-- `set_aes_keyslot` -/
def setAesKeyslot (keyslot : Nat) (key : List UInt8) : SmcM Unit := do
  .panicIf (keyslotAesMax ≤ keyslot ∨ keysizeAesMax < key.length)
  .update fun s => s.writeKey keyslot key

/-- `set_aes_keyslot_iv` -/
def setAesKeyslotIv (keyslot : Nat) (iv : List UInt8) : SmcM Unit := do
  .panicIf (keyslotAesMax ≤ keyslot ∨ 0x10 < iv.length)
  .update fun s =>
    { s with keyslots := Function.update s.keyslots keyslot { s.keyslots keyslot with iv := iv } }

/-- `set_rsa_keyslot` -/
def setRsaKeyslot (keyslot : Nat) (modulus exponent : List UInt8) : SmcM Unit := do
  .panicIf (keyslotRsaMax ≤ keyslot ∨ keysizeRsaMax < modulus.length ∨ keysizeRsaMax < exponent.length)
  .update fun s => { s with rsaKeyslots := Function.update s.rsaKeyslots keyslot ⟨modulus, exponent⟩ }

/-- `set_security_engine_callback` -/
def setSecurityEngineCallback (operation : SeOperation) : SmcM Unit := do
  let callback ← .look fun s => s.seCallback
  .panicIf (callback ≠ none)
  .update fun s => { s with seCallback := some operation }

section Engine

variable (p : Platform)

/-- `decrypt_data_into_keyslot`, with the bound for the source slot as it is there. -/
def decryptDataIntoKeyslot (keyslotDst keyslotSrc : Nat) (wrappedKey : List UInt8) : SmcM Unit := do
  .panicIf (keyslotAesMax ≤ keyslotDst ∨ keysizeAesMax ≤ keyslotSrc ∨ keysizeAesMax < wrappedKey.length)
  .update fun s => s.writeKey keyslotDst (p.aes.decrypt (s.aesKey keyslotSrc) wrappedKey)

/-- `se_aes_ecb_decrypt_block` -/
def seAesEcbDecryptBlock (keyslot : Nat) (src : List UInt8) : SmcM (List UInt8) := do
  .panicIf (keyslotAesMax ≤ keyslot ∨ src.length ≠ 0x10)
  .look fun s => p.aes.decrypt (s.aesKey keyslot) src

/-- The cipher of a key slot, for the operations that encrypt. -/
def keyslotCipher (keyslot : Nat) : SmcM (BlockCipher 0x10) := do
  .panicIf (keyslotAesMax ≤ keyslot)
  .look fun s => p.aes.cipher (s.aesKey keyslot)

/-- `se_aes_128_ecb_encrypt_block` -/
def seAes128EcbEncryptBlock (keyslot : Nat) (src : List UInt8) : SmcM (List UInt8) := do
  .panicIf (src.length ≠ 0x10)
  let cipher ← keyslotCipher p keyslot
  pure (cipher.encrypt src)

/-- `se_generate_random` -/
def seGenerateRandom (keyslot size : Nat) : SmcM (List UInt8) := do
  .panicIf (keyslotAesMax ≤ keyslot)
  let drawn ← .look fun s => s.drawn
  .update fun s => { s with drawn := s.drawn + size }
  pure ((List.range size).map fun i => p.random (drawn + i))

/-- `se_exp_mod` -/
def seExpMod (keyslot : Nat) (input : List UInt8) : SmcM Unit := do
  .panicIf (keyslotRsaMax ≤ keyslot ∨ keysizeRsaMax < input.length)
  let slot ← .look fun s => s.rsaKeyslots keyslot
  setSecurityEngineCallback
    (.expMod ⟨p.rsa.expMod slot.modulus slot.exponent input, p.rsa.length_expMod _ _ _⟩)

end Engine

/-- `se_aes_crypt_insecure_internal`. Nothing is started if there is nothing to do. -/
def seAesCryptInsecureInternal (keyslot size : Nat) : SmcM Unit := do
  .panicIf (keyslotAesMax ≤ keyslot)
  if size = 0 then pure ()
  else do
    access [.cryptAes keyslot]
    setSecurityEngineCallback .cryptAes

/-- `shift_left_xor_rb` -/
def shiftLeftXorRb (key : List UInt8) : List UInt8 :=
  let value := beValue key
  beBytes 0x10 (if value < 2 ^ 127 then 2 * value else 2 * value ^^^ 0x87)

/-- Blocks that the engine hashes in CBC mode. -/
def cbcMac (cipher : BlockCipher 0x10) : Nat → List UInt8 → List UInt8 → List UInt8
  | 0, x, _ => x
  | n + 1, x, data => cbcMac cipher n (cipher.encrypt (mask x (data.take 0x10))) (data.drop 0x10)

/-- The last block of a CMAC. -/
def cmacLastBlock (data : List UInt8) : List UInt8 :=
  let size := data.length
  if size % 0x10 ≠ 0 then
    splice (splice (List.replicate 0x10 0) 0 (data.drop (size / 0x10 * 0x10))) (size % 0x10) [0x80]
  else if 0x10 ≤ size then data.drop (size - 0x10)
  else List.replicate 0x10 0

/-- What `se_compute_aes_cmac` computes with the cipher of its key slot. -/
def aesCmac (cipher : BlockCipher 0x10) (data : List UInt8) : List UInt8 :=
  let derivedKey := shiftLeftXorRb (cipher.encrypt (List.replicate 0x10 0))
  let derivedKey := if data.length % 0x10 ≠ 0 then shiftLeftXorRb derivedKey else derivedKey
  let numBlocks := (data.length + 0xF) / 0x10
  let x := cbcMac cipher (numBlocks - 1) (List.replicate 0x10 0) data
  cipher.encrypt (mask x (mask (cmacLastBlock data) derivedKey))

/-- `se_compute_aes_128_cmac` -/
def seComputeAes128Cmac (p : Platform) (keyslot : Nat) (data : List UInt8) : SmcM (List UInt8) := do
  let cipher ← keyslotCipher p keyslot
  access [.computeCmac keyslot]
  setAesKeyslotIv keyslot (List.replicate 0x10 0)
  pure (aesCmac cipher data)

/-- `se_operation_completed`, from the interrupt of the engine. The callback of CryptAes looks for an error. -/
def seOperationCompleted (error : Bool) : SmcM Unit := do
  match ← .look fun s => s.seCallback with
  | none => pure ()
  | some (.expMod output) =>
    .update fun s => { s with rsaOutput := output, expModDone := true, seCallback := none }
  | some .cryptAes => do
    .panicIf (error = true)
    .update fun s => { s with cryptAesDone := true, seCallback := none }

/-! ## Sealed keys -/

/-- `CRYPTOUSECASE_AES` -/
def cryptousecaseAes : Nat := 0
/-- `CRYPTOUSECASE_RSAPRIVATE` -/
def cryptousecaseRsaPrivate : Nat := 1
/-- `CRYPTOUSECASE_SECUREEXPMOD` -/
def cryptousecaseSecureExpMod : Nat := 2
/-- `CRYPTOUSECASE_RSAOAEP` -/
def cryptousecaseRsaOaep : Nat := 3
/-- `CRYPTOUSECASE_UNK5` -/
def cryptousecaseUnk5 : Nat := 5
/-- `CRYPTOUSECASE_UNK6` -/
def cryptousecaseUnk6 : Nat := 6
/-- `CRYPTOUSECASE_MAX` -/
def cryptousecaseMax : Nat := 4
/-- `CRYPTOUSECASE_MAX_5X` -/
def cryptousecaseMax5x : Nat := 7

/-- `g_titlekey_seal_key_source` -/
def titlekeySealKeySource : List UInt8 :=
  [0xCB, 0xB7, 0x6E, 0x38, 0xA1, 0xCB, 0x77, 0x0F, 0xB2, 0xA5, 0xB2, 0x9D, 0xD8, 0x56, 0x9F, 0x76]

/-- `g_seal_key_sources` -/
def sealKeySources : List (List UInt8) :=
  [[0xF4, 0x0C, 0x16, 0x26, 0x0D, 0x46, 0x3B, 0xE0, 0x8C, 0x6A, 0x56, 0xE5, 0x82, 0xD4, 0x1B, 0xF6],
   [0x7F, 0x54, 0x2C, 0x98, 0x1E, 0x54, 0x18, 0x3B, 0xBA, 0x63, 0xBD, 0x4C, 0x13, 0x5B, 0xF1, 0x06],
   [0xC7, 0x3F, 0x73, 0x60, 0xB7, 0xB9, 0x9D, 0x74, 0x0A, 0xF8, 0x35, 0x60, 0x1A, 0x18, 0x74, 0x63],
   [0x0E, 0xE0, 0xC4, 0x33, 0x82, 0x66, 0xE8, 0x08, 0x39, 0x13, 0x41, 0x7D, 0x04, 0x64, 0x2B, 0x6D],
   [0xE1, 0xA8, 0xAA, 0x6A, 0x2D, 0x9C, 0xDE, 0x43, 0x0C, 0xDE, 0xC6, 0x17, 0xF6, 0xC7, 0xF1, 0xDE],
   [0x74, 0x20, 0xF6, 0x46, 0x77, 0xB0, 0x59, 0x2C, 0xE8, 0x1B, 0x58, 0x64, 0x47, 0x41, 0x37, 0xD9],
   [0xAA, 0x19, 0x0F, 0xFA, 0x4C, 0x30, 0x3B, 0x2E, 0xE6, 0xD8, 0x9A, 0xCF, 0xE5, 0x3F, 0xB3, 0x4B]]

/-- `usecase_is_invalid` -/
def usecaseIsInvalid (fw : TargetFirmware) (usecase : Nat) : Bool :=
  if .fw500 ≤ fw then cryptousecaseMax5x ≤ usecase else cryptousecaseMax ≤ usecase

section Sealed

variable (p : Platform)

/-- `seal_key_internal` -/
def sealKeyInternal (src sealKeySource : List UInt8) : SmcM (List UInt8) := do
  decryptDataIntoKeyslot p keyslotTempkey keyslotSessionkey sealKeySource
  seAes128EcbEncryptBlock p keyslotTempkey src

/-- `unseal_key_internal` -/
def unsealKeyInternal (keyslot : Nat) (src sealKeySource : List UInt8) : SmcM Unit := do
  decryptDataIntoKeyslot p keyslotTempkey keyslotSessionkey sealKeySource
  decryptDataIntoKeyslot p keyslot keyslotTempkey src

/-- `seal_titlekey` -/
def sealTitlekey (src : List UInt8) : SmcM (List UInt8) := do
  .panicIf (src.length ≠ 0x10)
  sealKeyInternal p src titlekeySealKeySource

/-- `unseal_titlekey` -/
def unsealTitlekey (keyslot : Nat) (src : List UInt8) : SmcM Unit := do
  .panicIf (src.length ≠ 0x10)
  unsealKeyInternal p keyslot src titlekeySealKeySource

/-- `seal_key` -/
def sealKey (src : List UInt8) (usecase : Nat) : SmcM (List UInt8) := do
  .panicIf (usecaseIsInvalid p.targetFirmware usecase ∨ src.length ≠ 0x10)
  sealKeyInternal p src (sealKeySources.getD usecase [])

/-- `unseal_key` -/
def unsealKey (keyslot : Nat) (src : List UInt8) (usecase : Nat) : SmcM Unit := do
  .panicIf (usecaseIsInvalid p.targetFirmware usecase ∨ src.length ≠ 0x10)
  unsealKeyInternal p keyslot src (sealKeySources.getD usecase [])

/-! ## Master keys -/

/-- `MASTERKEY_REVISION_MAX`, as an unsigned int. -/
def mkeyRevisionMax : Nat := 0xA
/-- `MASTERKEY_REVISION_300` -/
def mkeyRevision300 : Nat := 0x1
/-- `MASTERKEY_REVISION_400_410` -/
def mkeyRevision400 : Nat := 0x3

/-- `mkey_get_revision` -/
def mkeyGetRevision : SmcM Nat := do
  .panicIf (p.determinedMkeyRevision = false)
  pure p.mkeyRevision

/-- `mkey_get_keyslot` -/
def mkeyGetKeyslot (revision : Nat) : SmcM Nat := do
  .panicIf (p.determinedMkeyRevision = false ∨ mkeyRevisionMax ≤ revision)
  .panicIf (p.mkeyRevision < revision)
  if revision = p.mkeyRevision then pure keyslotMasterkey
  else do
    setAesKeyslot keyslotTempkey (p.oldMasterkeys revision)
    pure keyslotTempkey

/-- `devkey_get_keyslot` -/
def devkeyGetKeyslot (revision : Nat) : SmcM Nat := do
  .panicIf (p.determinedMkeyRevision = false ∨ p.mkeyRevision < revision)
  if revision < mkeyRevision400 then pure keyslot4xOldDevicekey
  else if revision < p.mkeyRevision then do
    setAesKeyslot keyslotTempkey (p.oldDevicekeys (revision - mkeyRevision400))
    pure keyslotTempkey
  else pure keyslotDevicekey

/-! ## Title keys -/

/-- `TITLEKEY_TYPE_MAX` -/
def titlekeyTypeMax : Nat := 1

/-- `titlekek_sources` -/
def titlekekSources : List (List UInt8) :=
  [[0x1E, 0xDC, 0x7B, 0x3B, 0x60, 0xE6, 0xB4, 0xD8, 0x78, 0xB8, 0x17, 0x15, 0x98, 0x5E, 0x62, 0x9B],
   [0x3B, 0x78, 0xF2, 0x61, 0x0F, 0x9D, 0x5A, 0xE2, 0x7B, 0x4E, 0x45, 0xAF, 0xCB, 0x0B, 0x67, 0x4D]]

/-- `tkey_set_expected_label_hash` -/
def tkeySetExpectedLabelHash (labelHash : LabelHash) : SmcM Unit :=
  .update fun s => { s with tkeyExpectedLabelHash := labelHash }

/-- `tkey_set_master_key_rev` -/
def tkeySetMasterKeyRev (masterKeyRev : Nat) : SmcM Unit := do
  .panicIf (mkeyRevisionMax ≤ masterKeyRev)
  .update fun s => { s with tkeyMasterKeyRev := masterKeyRev }

/-- `tkey_set_type` -/
def tkeySetType (type : Nat) : SmcM Unit := do
  .panicIf (titlekeyTypeMax < type ∨ (0 < type ∧ ¬.fw600 ≤ p.targetFirmware))
  .update fun s => { s with tkeyType := type }

/-- `tkey_aes_unwrap` -/
def tkeyAesUnwrap (src : List UInt8) : SmcM (List UInt8) := do
  let masterKeyRev ← .look fun s => s.tkeyMasterKeyRev
  let type ← .look fun s => s.tkeyType
  .panicIf (mkeyRevisionMax ≤ masterKeyRev ∨ src.length ≠ 0x10)
  let masterKeyslot ← mkeyGetKeyslot p masterKeyRev
  decryptDataIntoKeyslot p keyslotTempkey masterKeyslot (titlekekSources.getD type [])
  seAesEcbDecryptBlock p keyslotTempkey src

end Sealed

/-! ## The user page -/

/-- `upage_ref_t`. The address that the page is mapped to is the same for every page. -/
structure UpageRef where
  userAddress : UInt64

/-- `get_page_for_address` -/
def getPageForAddress (address : UInt64) : UInt64 := address &&& ~~~0xFFF

/-- The memory of the largest console, 6 GB. -/
def dramSizeMax : UInt64 := UInt64.shiftLeft 6 30

/-- `upage_init`. The first page is registered, and from then on there is no other. -/
def upageInit (userAddress : UInt64) : SmcM UpageRef := do
  let page := getPageForAddress userAddress
  let registered ← .look fun s => s.userPageUserAddress
  if registered ≠ 0 then do
    .panicIf (registered ≠ page)
    pure ⟨page⟩
  else do
    .panicIf (¬(page - (0x80000000 : UInt64) < dramSizeMax ∧ userAddress &&& 0xFFF = 0))
    .update fun s => { s with userPageUserAddress := page }
    pure ⟨page⟩

/-- Bytes of user memory. -/
def readDram (dram : UInt64 → UInt8) (address : UInt64) (size : Nat) : List UInt8 :=
  (List.range size).map fun i => dram (address + .ofNat i)

/-- User memory with bytes at an address. -/
def writeDram (dram : UInt64 → UInt8) (address : UInt64) (bytes : List UInt8) : UInt64 → UInt8 :=
  fun a => bytes.getD (a - address).toNat (dram a)

/-- The checks of the two copies: the first byte and the last are in the page. -/
def checkUserRange (ref : UpageRef) (address : UInt64) (size : Nat) : SmcM Unit := do
  .stopIf (getPageForAddress address ≠ ref.userAddress) 2
  .stopIf (size ≠ 0 ∧ getPageForAddress (address + .ofNat size - 1) ≠ ref.userAddress) 2

/-- `user_copy_to_secure`, whose callers return 2 if it fails. -/
def userCopyToSecure (ref : UpageRef) (secureDst : Buffer) (userSrc : UInt64) (size : Nat) :
    SmcM (List UInt8) := do
  checkUserRange ref userSrc size
  access (if size ≠ 0 then [.user userSrc size, .buffer secureDst 0 size] else [])
  .look fun s => readDram s.dram userSrc size

/-- `secure_copy_to_user`, whose callers return 2 if it fails. -/
def secureCopyToUser (ref : UpageRef) (userDst : UInt64) (secureSrc : Buffer) (bytes : List UInt8) (size : Nat) :
    SmcM Unit := do
  checkUserRange ref userDst size
  access (if size ≠ 0 then [.buffer secureSrc 0 size, .user userDst size] else [])
  .update fun s => { s with dram := writeDram s.dram userDst (bytes.take size) }

end RajNX.Exosphere
