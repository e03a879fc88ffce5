import RajNX.Exosphere.UserSmc

/-!
# User calls

The part of `smc_api.c` that is for user calls. A call that is synchronous holds the lock for user calls while it
runs. One that is asynchronous starts an operation of the security engine, and leaves the lock held and a callback
with a key; the callback runs when CheckStatus or GetResult is called with the key.

A run is any sequence of user calls, completions of the engine and changes of user memory. What the stack holds
when GetResult is entered is given with each step.
-/

namespace RajNX.Exosphere

open LittleEndian Splice

attribute [local instance] neZero_args

/-! ## Config items -/

/-- `ATMOSPHERE_RELEASE_VERSION_MAJOR`, `MINOR` and `MICRO`. -/
def releaseVersion : UInt64 := UInt64.ofNat (0 <<< 32 ||| 9 <<< 24 ||| 4 <<< 16)

/-- A flag as a value. -/
def flagValue (b : Bool) : UInt64 := if b then 1 else 0

/-- `configitem_set`. A reboot and a shutdown do not come back. -/
def configitemSet (item : Nat) (value : UInt64) : SmcM Unit :=
  if item = 13 then .update fun s => { s with hizModeEnabled := value ≠ 0 }
  else if item = 65001 then
    if value = 0 then pure () else if value = 1 ∨ value = 2 then .panic else .stop 2
  else if item = 65002 then
    if value = 0 then pure () else .panic
  else .stop 2

/-- `configitem_get` for a user call: the words that are written to the value. -/
def configitemGet (p : Platform) (item : Nat) : SmcM (List UInt64) :=
  match item with
  | 1 => pure [flagValue p.fuses.disableProgramVerification]
  | 2 => pure [p.fuses.dramId]
  | 3 => pure [0x2C]
  | 4 => pure [5]
  | 5 => pure [p.fuses.hardwareType]
  | 6 => pure [p.fuses.retailType]
  | 7 => pure [flagValue p.fuses.isRecoveryBoot]
  | 8 => pure [.ofNat p.fuses.deviceId]
  | 9 => if .fw400 ≤ p.targetFirmware then .stop 2 else pure [p.fuses.bootReason]
  | 10 => pure [p.fuses.memoryArrangement]
  | 11 => pure [if p.debugmodeOverrideUser then 1 else flagValue p.fuses.isDebugMode]
  | 12 =>
    pure [if p.enableUsermodeExceptionHandlers then p.fuses.kernelConfiguration ||| 2
      else p.fuses.kernelConfiguration]
  | 13 => do
    let hizModeEnabled ← .look fun s => s.hizModeEnabled
    pure [flagValue hizModeEnabled]
  | 14 => if .fw300 ≤ p.targetFirmware then pure [flagValue p.fuses.isQuestUnit] else .stop 2
  | 15 => if .fw500 ≤ p.targetFirmware then pure [0] else .stop 2
  | 16 => if .fw500 ≤ p.targetFirmware then pure [p.fuses.keyGeneration5x] else .stop 2
  | 17 =>
    -- the hash is four words, which is more than the value of the caller holds
    if .fw500 ≤ p.targetFirmware ∧ p.fuses.isRecoveryBoot then
      pure (List.ofFn p.fuses.package2HashForRecovery)
    else .stop 2
  | 65000 => do
    let revision ← mkeyGetRevision p
    pure [releaseVersion ||| .ofNat ((p.targetFirmware.toNat &&& 0xFF) <<< 8) ||| .ofNat (revision &&& 0xFF)]
  | 65001 => pure [0]
  | 65002 => pure [0]
  | 65003 => pure [p.releaseVersionHash]
  | 65004 => pure [flagValue p.fuses.hasRcmBugPatch]
  | _ => .stop 2

/-! ## The lock and the callback -/

/-- What a handler returns: the code, and the registers. -/
def handlerResult (args : Args) : Except Nat Args → Nat × Args
  | .ok args => (0, args)
  | .error code => (code, args)

/-- `try_set_user_smc_in_progress` -/
def trySetUserSmcInProgress : SmcM Bool := do
  let inProgress ← .look fun s => s.isUserSmcInProgress
  .update fun s => { s with isUserSmcInProgress := true }
  pure (!inProgress)

/-- `clear_user_smc_in_progress` -/
def clearUserSmcInProgress : SmcM Unit := .update fun s => { s with isUserSmcInProgress := false }

/-- `try_set_smc_callback`. A key that happens to be 0 is taken for none. -/
def trySetSmcCallback (p : Platform) (callback : SmcCallback) : SmcM UInt64 := do
  let oldKey ← .look fun s => s.smcCallbackKey
  if oldKey ≠ 0 then pure 0
  else do
    let bytes ← seGenerateRandom p keyslotRngkey 8
    let key := read64le bytes 0
    .update fun s => { s with smcCallbackKey := key, smcCallback := some callback }
    pure key

/-- `clear_smc_callback` -/
def clearSmcCallback (key : UInt64) : SmcM Unit :=
  .update fun s => { s with smcCallbackKey := if s.smcCallbackKey = key then 0 else s.smcCallbackKey }

/-- `smc_wrapper_sync` -/
def smcWrapperSync (args : Args) (handler : Args → SmcM Args) : SmcM (Nat × Args) := do
  let acquired ← trySetUserSmcInProgress
  if acquired then do
    let result ← (handler args).attempt
    clearUserSmcInProgress
    pure (handlerResult args result)
  else pure (3, args)

/-- `smc_wrapper_async` -/
def smcWrapperAsync (p : Platform) (args : Args) (handler : Args → SmcM Args) (callback : SmcCallback) :
    SmcM (Nat × Args) := do
  let acquired ← trySetUserSmcInProgress
  if acquired then do
    let key ← trySetSmcCallback p callback
    if key ≠ 0 then do
      let result ← (handler args).attempt
      match result with
      | .ok args => pure (0, args.set 1 key)
      | .error code => do
        clearSmcCallback key
        clearUserSmcInProgress
        pure (code, args)
    else do
      clearUserSmcInProgress
      pure (3, args)
  else pure (3, args)

/-! ## The callbacks -/

/-- What the stack holds when GetResult is entered. -/
structure StackFrame where
  resultBuf : List UInt8
  length_resultBuf : resultBuf.length = 0x400
  aesWrappedTitlekey : List UInt8
  length_aesWrappedTitlekey : aesWrappedTitlekey.length = 0x10

/-- `smc_exp_mod_get_result`: the status, with the buffer. -/
def smcExpModGetResult (buf : List UInt8) (size : Nat) : SmcM (Nat × List UInt8) := do
  let done ← .look fun s => s.expModDone
  if done = false then pure (3, buf)
  else if size ≠ 0x100 then pure (2, buf)
  else do
    let output ← .look fun s => s.rsaOutput
    access [.buffer .resultBuf 0 0x100]
    clearUserSmcInProgress
    pure (0, splice buf 0 output.bytes)

/-- `smc_crypt_aes_status_check`. It does not use the buffer. -/
def smcCryptAesStatusCheck (buf : List UInt8) : SmcM (Nat × List UInt8) := do
  let done ← .look fun s => s.cryptAesDone
  if done = false then pure (3, buf)
  else do
    clearUserSmcInProgress
    pure (0, buf)

/-- The title key of a message, sealed. -/
def sealUnwrappedTitlekey (p : Platform) (aesWrappedTitlekey : List UInt8) : SmcM (List UInt8) := do
  let titlekey ← tkeyAesUnwrap p aesWrappedTitlekey
  sealTitlekey p titlekey

/-- `smc_unwrap_rsa_oaep_wrapped_titlekey_get_result` -/
def smcUnwrapRsaOaepWrappedTitlekeyGetResult (p : Platform) (frame : StackFrame) (buf : List UInt8) (size : Nat) :
    SmcM (Nat × List UInt8) := do
  let done ← .look fun s => s.expModDone
  if done = false then pure (3, buf)
  else if size ≠ 0x10 then pure (2, buf)
  else do
    let output ← .look fun s => s.rsaOutput
    let label ← .look fun s => s.tkeyExpectedLabelHash
    access [.buffer .rsaWrappedTitlekey 0 0x100]
    match tkeyRsaOaepUnwrap p.sha label frame.aesWrappedTitlekey 0x10 output.bytes with
    | none => .panic
    | some unwrapped => do
      access [.buffer .aesWrappedTitlekey 0 unwrapped.size]
      if unwrapped.size ≠ 0x10 then do
        clearUserSmcInProgress
        pure (2, buf)
      else do
        let sealedTitlekey ← sealUnwrappedTitlekey p unwrapped.dst
        access [.buffer .resultBuf 0 0x10]
        clearUserSmcInProgress
        pure (0, splice buf 0 sealedTitlekey)

/-- `g_smc_callback` is called. -/
def callSmcCallback (p : Platform) (frame : StackFrame) (callback : Option SmcCallback) (buf : List UInt8)
    (size : Nat) : SmcM (Nat × List UInt8) :=
  match callback with
  | none => .panic
  | some .expModGetResult => smcExpModGetResult buf size
  | some .cryptAesStatusCheck => smcCryptAesStatusCheck buf
  | some .unwrapRsaOaepWrappedTitlekeyGetResult =>
    smcUnwrapRsaOaepWrappedTitlekeyGetResult p frame buf size

/-! ## The calls -/

/-- `smc_set_config_user` -/
def smcSetConfigUser (args : Args) : SmcM (Nat × Args) := do
  let result ← (configitemSet (uint32 (args 1)) (args 3)).attempt
  match result with
  | .ok _ => pure (0, args)
  | .error code => pure (code, args)

/-- `smc_get_config_user` -/
def smcGetConfigUser (p : Platform) (args : Args) : SmcM (Nat × Args) := do
  let result ← (configitemGet p (uint32 (args 1))).attempt
  match result with
  | .ok words => do
    access [.buffer .outItem 0 (8 * words.length)]
    pure (0, args.set 1 (words.getD 0 0))
  | .error code => pure (code, args.set 1 0)

/-- `smc_check_status` -/
def smcCheckStatus (p : Platform) (frame : StackFrame) (args : Args) : SmcM (Nat × Args) := do
  let key ← .look fun s => s.smcCallbackKey
  if key = 0 then pure (4, args)
  else if args 1 ≠ key then pure (5, args)
  else do
    let callback ← .look fun s => s.smcCallback
    let (status, _) ← callSmcCallback p frame callback [] 0
    .update fun s => { s with smcCallbackKey := 0 }
    pure (0, args.set 1 (.ofNat status))

/-- The end of `smc_get_result`, which copies the buffer out. -/
def copyResultOut (userAddress : UInt64) (buf : List UInt8) (size : Nat) : SmcM Unit := do
  let ref ← upageInit userAddress
  secureCopyToUser ref userAddress .resultBuf buf size

/-- `smc_get_result` -/
def smcGetResult (p : Platform) (frame : StackFrame) (args : Args) : SmcM (Nat × Args) := do
  let key ← .look fun s => s.smcCallbackKey
  if key = 0 then pure (4, args)
  else if args 1 ≠ key then pure (5, args)
  else if 0x400 < args 3 then pure (2, args)
  else do
    let callback ← .look fun s => s.smcCallback
    let (status, buf) ← callSmcCallback p frame callback frame.resultBuf (args 3).toNat
    .update fun s => { s with smcCallbackKey := 0 }
    let result ← (copyResultOut (args 2) buf (args 3).toNat).attempt
    match result with
    | .ok _ => pure (0, args.set 1 (.ofNat status))
    | .error code => pure (code, args.set 1 (.ofNat status))

/-- The handlers of the user table. -/
inductive UserHandler where
  | setConfig | getConfig | checkStatus | getResult | expMod | getRandomBytes | generateAesKek | loadAesKey
  | cryptAes | generateSpecificAesKey | computeCmac | loadRsaOaepKey | decryptRsaPrivateKey
  | loadSecureExpModKey | secureExpMod | unwrapRsaOaepWrappedTitlekey | loadTitlekey
  | unwrapAesWrappedTitlekey | encryptRsaKeyForImport | decryptOrImportRsaKey
deriving DecidableEq

/-- `g_smc_user_table` without the blacklist, which is empty: the ids, with the handlers. -/
def smcUserTable : List (UInt64 × Option UserHandler) :=
  [(0, none), (0xC3000401, some .setConfig), (0xC3000002, some .getConfig), (0xC3000003, some .checkStatus),
   (0xC3000404, some .getResult), (0xC3000E05, some .expMod), (0xC3000006, some .getRandomBytes),
   (0xC3000007, some .generateAesKek), (0xC3000008, some .loadAesKey), (0xC3000009, some .cryptAes),
   (0xC300000A, some .generateSpecificAesKey), (0xC300040B, some .computeCmac),
   (0xC300100C, some .loadRsaOaepKey), (0xC300100D, some .decryptRsaPrivateKey),
   (0xC300100E, some .loadSecureExpModKey), (0xC300060F, some .secureExpMod),
   (0xC3000610, some .unwrapRsaOaepWrappedTitlekey), (0xC3000011, some .loadTitlekey),
   (0xC3000012, some .unwrapAesWrappedTitlekey)]

/-- `set_version_specific_smcs` on the user table. -/
def setVersionSpecificSmcs (fw : TargetFirmware) (table : List (UInt64 × Option UserHandler)) :
    List (UInt64 × Option UserHandler) :=
  match fw with
  | .fw100 => table.modify 0x12 fun entry => (entry.1, none)
  | .fw200 | .fw300 | .fw400 => table
  | .fw500 | .fw600 | .fw620 | .fw700 | .fw800 | .fw810 | .fw900 =>
    ((table.modify 0xE fun entry => (entry.1, none)).set 0xC (0xC300D60C, some .encryptRsaKeyForImport)).modify 0xD
      fun entry => (entry.1, some .decryptOrImportRsaKey)

/-- A handler of the user table is called. -/
def callUserHandler (p : Platform) (frame : StackFrame) (handler : UserHandler) (args : Args) : SmcM (Nat × Args) :=
  match handler with
  | .setConfig => smcSetConfigUser args
  | .getConfig => smcGetConfigUser p args
  | .checkStatus => smcCheckStatus p frame args
  | .getResult => smcGetResult p frame args
  | .expMod => smcWrapperAsync p args (userExpMod p) .expModGetResult
  | .getRandomBytes => smcWrapperSync args (userGetRandomBytes p)
  | .generateAesKek => smcWrapperSync args (userGenerateAesKek p)
  | .loadAesKey => smcWrapperSync args (userLoadAesKey p)
  | .cryptAes => smcWrapperAsync p args (userCryptAes p) .cryptAesStatusCheck
  | .generateSpecificAesKey => smcWrapperSync args (userGenerateSpecificAesKey p)
  | .computeCmac => smcWrapperSync args (userComputeCmac p)
  | .loadRsaOaepKey => smcWrapperSync args (userLoadRsaOaepKey p)
  | .decryptRsaPrivateKey => smcWrapperSync args (userDecryptRsaPrivateKey p)
  | .loadSecureExpModKey => smcWrapperSync args (userLoadSecureExpModKey p)
  | .secureExpMod => smcWrapperAsync p args (userSecureExpMod p) .expModGetResult
  | .unwrapRsaOaepWrappedTitlekey =>
    smcWrapperAsync p args (userUnwrapRsaOaepWrappedTitlekey p) .unwrapRsaOaepWrappedTitlekeyGetResult
  | .loadTitlekey => smcWrapperSync args (userLoadTitlekey p)
  | .unwrapAesWrappedTitlekey => smcWrapperSync args (userUnwrapAesWrappedTitlekey p)
  | .encryptRsaKeyForImport => smcWrapperSync args (userEncryptRsaKey p)
  | .decryptOrImportRsaKey => smcWrapperSync args (userDecryptOrImportKey p)

/-- The handler that `call_smc_handler` finds in the user table. -/
def findUserHandler (fw : TargetFirmware) (id : UInt64) : Option UserHandler :=
  match (setVersionSpecificSmcs fw smcUserTable)[id.toNat % 0x100]? with
  | none => none
  | some (entryId, handler) => if entryId = id then handler else none

/-- `call_smc_handler` for a call to the user table, from core 3: the registers that it leaves. -/
def callSmcHandler (p : Platform) (frame : StackFrame) (args : Args) : SmcM Args := do
  match findUserHandler p.targetFirmware (args 0) with
  | none => .panic
  | some handler => do
    let (result, args) ← callUserHandler p frame handler args
    pure (args.set 0 (.ofNat result))

/-! ## Runs -/

/-- What may happen to the secure monitor. -/
inductive Event where
  /-- A user call, with the registers. -/
  | smc (args : Args)
  /-- The security engine has completed an operation. -/
  | seCompleted (error : Bool)
  /-- User memory is changed from outside: by a process, by an operation of the engine or by a call of another
  table. -/
  | userMemory (dram : UInt64 → UInt8)

/-- What an event does. -/
def Event.command (p : Platform) (frame : StackFrame) : Event → SmcM Unit
  | .smc args => do
    let args ← callSmcHandler p frame args
    .update fun s => { s with returned := s.returned ++ [args] }
  | .seCompleted error => seOperationCompleted error
  | .userMemory dram => .update fun s => { s with dram := dram }

/-- An event happens. After a panic nothing happens. -/
def step (p : Platform) (s : Monitor) (event : Event × StackFrame) : Monitor :=
  if s.panicked then s
  else
    match event.1.command p event.2 s with
    | (.ok _, s') => s'
    | (.error _, s') => { s' with panicked := true }

/-- A sequence of events. -/
def run (p : Platform) (s : Monitor) (events : List (Event × StackFrame)) : Monitor := events.foldl (step p) s

lemma run_append (p : Platform) (s : Monitor) (events events' : List (Event × StackFrame)) :
    run p s (events ++ events') = run p (run p s events) events' := List.foldl_append

/-- The state after the boot, before the first user call. -/
structure Monitor.Booted (s : Monitor) : Prop where
  page : s.userPageUserAddress = 0
  trace : s.trace = []
  lock : s.isUserSmcInProgress = false
  callbackKey : s.smcCallbackKey = 0
  panicked : s.panicked = false

section Example

/-- A console with a firmware of 9.0.0 whose AES and RSA give zeros. -/
def examplePlatform : Platform where
  targetFirmware := .fw900
  aes := ⟨fun _ => ⟨fun _ => List.replicate 0x10 0, fun _ => List.length_replicate⟩, fun _ _ => List.replicate 0x10 0,
    fun _ _ => List.length_replicate⟩
  rsa := ⟨fun _ _ _ => List.replicate 0x100 0, fun _ _ _ => List.length_replicate⟩
  sha := zeroHash
  random _ := 1
  fuses := ⟨0x7F, 5, 0, 0, 1, false, 0, false, false, false, 0, 1, false, 0, fun _ => 0⟩
  determinedMkeyRevision := true
  mkeyRevision := 9
  oldMasterkeys _ := List.replicate 0x10 0
  length_oldMasterkeys _ := List.length_replicate
  oldDevicekeys _ := List.replicate 0x10 0
  length_oldDevicekeys _ := List.length_replicate
  debugmodeOverrideUser := false
  enableUsermodeExceptionHandlers := true
  releaseVersionHash := 0

/-- The state after its boot. -/
def exampleMonitor : Monitor where
  keyslots _ := ⟨List.replicate 0x20 0, List.replicate 0x10 0⟩
  rsaKeyslots _ := ⟨[], []⟩
  seCallback := none
  rsaOutput := ⟨List.replicate 0x100 0, List.length_replicate⟩
  drawn := 0
  cryptAesDone := false
  expModDone := false
  importedExponents := List.replicate 4 (List.replicate 0x100 0)
  tkeyExpectedLabelHash := zeroLabel
  tkeyMasterKeyRev := mkeyRevisionMax
  tkeyType := 0
  hizModeEnabled := false
  userPageUserAddress := 0
  isUserSmcInProgress := false
  smcCallback := none
  smcCallbackKey := 0
  dram _ := 0
  trace := []
  returned := []
  panicked := false

lemma exampleMonitor_booted : exampleMonitor.Booted := ⟨rfl, rfl, rfl, rfl, rfl⟩

/-- A stack that is full of a byte. -/
def exampleFrame (b : UInt8) : StackFrame :=
  ⟨List.replicate 0x400 b, List.length_replicate, List.replicate 0x10 b, List.length_replicate⟩

/-- Registers from a list. -/
def argsOf (xs : List UInt64) : Args := fun i => xs.getD i.val 0

end Example

end RajNX.Exosphere
