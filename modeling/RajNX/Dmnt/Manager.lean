import RajNX.Dmnt.Toggles

/-!
# Cheat manager

The state machine of `dmnt_cheat_manager.cpp`. Every operation runs under `g_cheat_lock`, so a run of
the manager is a sequence of `Event`s that each transform the whole state; attaching takes the lock
twice and gives it up in between, so it is two events, with `attaching` for `g_attach_lock`.

What the system answers is a parameter: `Kernel ε` gives the answers to the calls an operation makes
any number of times, and `AttachInput` holds those of one attach, with the contents of the cheat file
and of the toggle file. `step` has no result where the source does not go on: a failed `R_ASSERT`, a
fatal error of the VM, or an `Execute` that has not returned within its fuel.

The toggle file `CloseActiveCheatProcess` saves is not kept, since an attach may find any contents.
`g_cheat_process_event` and the threads' start and end are left out.
-/

namespace RajNX.Dmnt

open LittleEndian

/-- A `Result` by its description; `0` is success. -/
abbrev Result := Nat

def resultSuccess : Result := 0
def resultDmntCheatNotAttached : Result := 6500
def resultDmntCheatUnknownChtId : Result := 6503
def resultDmntCheatOutOfCheats : Result := 6504
def resultDmntCheatInvalidCheat : Result := 6505
def resultDmntCheatCannotDisableMasterCheat : Result := 6505
def resultDmntCheatAddressAlreadyFrozen : Result := 6601
def resultDmntCheatAddressNotFrozen : Result := 6602
def resultDmntCheatTooManyFrozenAddresses : Result := 6603

/-- `DmntCheatManager::MaxFrozenAddressCount` -/
def maxFrozenAddressCount : Nat := 0x80

/-- `FrozenAddressValue` -/
structure FrozenAddressValue where
  value : UInt64
  width : Nat
deriving Repr, DecidableEq

/-- The manager's global state but for the VM. -/
structure CheatManager where
  entries : CheatEntries := initialEntries
  needsReloadVmProgram : Bool := false
  /-- `g_cheat_process_debug_hnd != 0` -/
  attached : Bool := false
  metadata : CheatProcessMetadata := {}
  shouldSaveCheatToggles : Bool := false
  /-- `g_frozen_addresses_map`, in the order of its keys. -/
  frozenAddresses : List (UInt64 × FrozenAddressValue) := []

/-- The system calls of the operations. -/
structure Kernel (ε : Type) where
  /-- The application's process id, if `svcGetProcessId` and `pmdmntGetApplicationPid` succeed. -/
  applicationPid : ε → Option UInt64 × ε
  /-- The bytes `svcReadDebugProcessMemory` delivers, and its result. -/
  readMemory : ε → UInt64 → Nat → (List UInt8 × Result) × ε
  /-- The result of `svcWriteDebugProcessMemory`. -/
  writeMemory : ε → UInt64 → List UInt8 → Result × ε

/-! ## The attached process -/

/-- `DmntCheatManager::ResetAllCheatEntries` -/
def resetAllCheatEntries (m : CheatManager) : CheatManager :=
  { m with entries := resetEntries, needsReloadVmProgram := true }

/-- `DmntCheatManager::CloseActiveCheatProcess` -/
def closeActiveCheatProcess (m : CheatManager) : CheatManager :=
  if m.attached then
    { resetAllCheatEntries m with
      attached := false
      shouldSaveCheatToggles := false
      metadata := {}
      frozenAddresses := [] }
  else m

section Process

variable {ε : Type} (K : Kernel ε)

variable (s : CheatManager × ε)

/-- `DmntCheatManager::HasActiveCheatProcess` -/
def hasActiveCheatProcess : Bool × CheatManager × ε :=
  if s.1.attached then
    let (pid, e) := K.applicationPid s.2
    if pid = some s.1.metadata.processId then (true, s.1, e)
    else (false, closeActiveCheatProcess s.1, e)
  else (false, closeActiveCheatProcess s.1, s.2)

/-- The update of frozen values a write runs into. The map is in order, so the loop stops at the
first address behind the write. -/
def updateFrozen (address : UInt64) (data : List UInt8) :
    List (UInt64 × FrozenAddressValue) → List (UInt64 × FrozenAddressValue)
  | [] => []
  | (a, v) :: rest =>
    if a ≥ address + .ofNat data.length then (a, v) :: rest
    else if address ≤ a then
      (a, { v with value := overlay v.value ((data.drop (a - address).toNat).take 8) }) ::
        updateFrozen address data rest
    else (a, v) :: updateFrozen address data rest

/-- `DmntCheatManager::ReadCheatProcessMemoryForVm`: the bytes that arrive, and the result. -/
def managerRead (address : UInt64) (size : Nat) : (List UInt8 × Result) × CheatManager × ε :=
  let (active, m, e) := hasActiveCheatProcess K s
  if active then
    let (r, e) := K.readMemory e address size
    (r, m, e)
  else (([], resultDmntCheatNotAttached), m, e)

/-- `DmntCheatManager::WriteCheatProcessMemoryForVm` -/
def managerWrite (address : UInt64) (data : List UInt8) : Result × CheatManager × ε :=
  let (active, m, e) := hasActiveCheatProcess K s
  if active then
    let (result, e) := K.writeMemory e address data
    if result = resultSuccess then
      (resultSuccess, { m with frozenAddresses := updateFrozen address data m.frozenAddresses }, e)
    else (result, m, e)
  else (resultDmntCheatNotAttached, m, e)

/-- The process as the VM accesses it. -/
def cheatProcess : CheatProcess (CheatManager × ε) where
  read s address size := ((managerRead K s address size).1.1, (managerRead K s address size).2)
  write s address data := (managerWrite K s address data).2

/-! ## Commands -/

/-- The guard all commands start with. -/
def whenActive (f : CheatManager × ε → Result × CheatManager × ε) : Result × CheatManager × ε :=
  let (active, s) := hasActiveCheatProcess K s
  if active then f s else (resultDmntCheatNotAttached, s)

/-- `DmntCheatManager::ToggleCheat` -/
def toggleCheat (cheatId : Nat) : Result × CheatManager × ε :=
  whenActive K s fun (m, e) =>
    match getCheatEntryById cheatId with
    | none => (resultDmntCheatUnknownChtId, m, e)
    | some i =>
      if (m.entries i).definition.numOpcodes = 0 then (resultDmntCheatUnknownChtId, m, e)
      else if cheatId = 0 then (resultDmntCheatCannotDisableMasterCheat, m, e)
      else
        (resultSuccess, { m with entries := toggleEntry m.entries i, needsReloadVmProgram := true }, e)

/-- `DmntCheatManager::AddCheat` -/
def addCheat (definition : CheatDefinition) (enabled : Bool) : Result × CheatManager × ε :=
  whenActive K s fun (m, e) =>
    if definition.numOpcodes = 0 ∨ definition.numOpcodes > maxOpcodes then
      (resultDmntCheatInvalidCheat, m, e)
    else
      match getFreeCheatEntry m.entries with
      | none => (resultDmntCheatOutOfCheats, m, e)
      | some i =>
        (resultSuccess, { m with entries := fillEntry m.entries i definition enabled, needsReloadVmProgram := true }, e)

/-- `DmntCheatManager::RemoveCheat` -/
def removeCheat (cheatId : Nat) : Result × CheatManager × ε :=
  whenActive K s fun (m, e) =>
    if h : cheatId < maxCheatCount then
      (resultSuccess, { m with entries := resetCheatEntry m.entries ⟨cheatId, h⟩, needsReloadVmProgram := true }, e)
    else (resultDmntCheatUnknownChtId, m, e)

/-- Insertion into the ordered map. -/
def insertFrozen (address : UInt64) (value : FrozenAddressValue)
    (frozen : List (UInt64 × FrozenAddressValue)) : List (UInt64 × FrozenAddressValue) :=
  frozen.takeWhile (·.1 < address) ++ (address, value) :: frozen.dropWhile (·.1 < address)

/-- `DmntCheatManager::EnableFrozenAddress` -/
def enableFrozenAddress (address : UInt64) (width : Nat) : Result × CheatManager × ε :=
  whenActive K s fun (m, e) =>
    if m.frozenAddresses.length ≥ maxFrozenAddressCount then
      (resultDmntCheatTooManyFrozenAddresses, m, e)
    else if m.frozenAddresses.any (·.1 == address) then
      (resultDmntCheatAddressAlreadyFrozen, m, e)
    else
      let ((bytes, result), m, e) := managerRead K (m, e) address width
      if result = resultSuccess then
        -- the width is stored in a byte
        let value := { value := overlay 0 (bytes.take width), width := width % 256 }
        (resultSuccess, { m with frozenAddresses := insertFrozen address value m.frozenAddresses }, e)
      else (result, m, e)

/-- `DmntCheatManager::DisableFrozenAddress` -/
def disableFrozenAddress (address : UInt64) : Result × CheatManager × ε :=
  whenActive K s fun (m, e) =>
    if m.frozenAddresses.any (·.1 == address) then
      (resultSuccess, { m with frozenAddresses := m.frozenAddresses.filter (·.1 != address) }, e)
    else (resultDmntCheatAddressNotFrozen, m, e)

end Process

/-! ## Attaching -/

/-- The part of a buffer that `strlen` measures. -/
def cString (bytes : List UInt8) : List UInt8 := bytes.takeWhile (· != 0)

/-- `DmntCheatManager::LoadCheats`; no file stands for one that cannot be opened or read. -/
def loadCheats (enableCheatsByDefault : Bool) (m : CheatManager) (cheatFile : Option (List UInt8)) :
    Bool × CheatManager :=
  let m := resetAllCheatEntries m
  match cheatFile with
  | none => (false, m)
  | some bytes =>
    let (ok, entries) := parseCheats enableCheatsByDefault m.entries (cString bytes)
    (ok, { m with entries, needsReloadVmProgram := true })

/-- What a toggle file can be found as. -/
inductive ToggleFile where
  | missing
  | unreadable
  | contents (bytes : List UInt8)
deriving Repr, DecidableEq

/-- `DmntCheatManager::LoadCheatToggles` -/
def loadCheatToggles (m : CheatManager) (toggleFile : ToggleFile) (beyond : UInt8) : Bool × CheatManager :=
  let m := { m with shouldSaveCheatToggles := false }
  match toggleFile with
  | .missing => (true, m)
  | .unreadable => (false, m)
  | .contents bytes =>
    let (ok, entries) := parseCheatToggles beyond m.entries (cString bytes)
    (ok, { m with entries, shouldSaveCheatToggles := ok })

/-- `pmdmntAtmosphereGetProcessInfo` and `PopulateMemoryExtents` -/
structure ProcessInfo where
  titleId : UInt64
  heapExtents : MemoryRegionExtents
  aliasExtents : MemoryRegionExtents
  addressSpaceExtents : MemoryRegionExtents
deriving Repr, DecidableEq

/-- `LoaderModuleInfo` -/
structure ModuleInfo where
  baseAddress : UInt64
  size : UInt64
  buildId : List UInt8
deriving Repr, DecidableEq

/-- What the system answers while an attach holds the lock for the second time; `none` and `false`
are failed calls. -/
structure AttachInput where
  applicationPid : Option UInt64
  processInfo : Option ProcessInfo
  hasCheatEnableButton : Bool := true
  modules : Option (List ModuleInfo)
  cheatFile : Option (List UInt8)
  toggleFile : ToggleFile
  beyond : UInt8 := 0
  debugHandle : Bool
deriving Repr, DecidableEq

/-- The process information in the metadata. -/
def setProcessInfo (m : CheatManager) (info : ProcessInfo) : CheatManager :=
  { m with metadata := { m.metadata with
      titleId := info.titleId
      heapExtents := info.heapExtents
      aliasExtents := info.aliasExtents
      addressSpaceExtents := info.addressSpaceExtents } }

/-- The main module in the metadata. -/
def setModule (m : CheatManager) (module : ModuleInfo) : CheatManager :=
  { m with metadata := { m.metadata with
      mainNsoExtents := ⟨module.baseAddress, module.size⟩
      mainNsoBuildId := module.buildId } }

def setProcessId (m : CheatManager) (processId : UInt64) : CheatManager :=
  { m with metadata := { m.metadata with processId } }

section Attach

variable (enableCheatsByDefault : Bool)

/-- The module a forced attach takes: the second of two, or the only one. -/
def forcedModule : List ModuleInfo → Option ModuleInfo
  | [_, module] => some module
  | [module] => some module
  | _ => none

/-- `DmntCheatManager::ForceOpenCheatProcess` from where it takes the lock again. Neither the result
of `LoadCheats` nor that of `LoadCheatToggles` is looked at. -/
def forceOpenCheatProcess (m : CheatManager) (input : AttachInput) : CheatManager :=
  match input.applicationPid with
  | none => m
  | some pid =>
    let m := setProcessId m pid
    match input.processInfo with
    | none => setProcessId m 0
    | some info =>
      let m := setProcessInfo m info
      match input.modules.bind forcedModule with
      | none => setProcessId m 0
      | some module =>
        let m := setModule m module
        let (_, m) := loadCheats enableCheatsByDefault m input.cheatFile
        let (_, m) := loadCheatToggles m input.toggleFile input.beyond
        if input.debugHandle then { m with attached := true } else setProcessId m 0

/-- `DmntCheatManager::OnNewApplicationLaunch` from where it takes the lock again. -/
def onNewApplicationLaunch (m : CheatManager) (input : AttachInput) : Option CheatManager :=
  match input.applicationPid, input.processInfo with
  | some pid, some info =>
    let m := setProcessInfo (setProcessId m pid) info
    if !input.hasCheatEnableButton then some (setProcessId m 0)
    else
      match input.modules with
      | none => none
      | some [_, module] =>
        let m := setModule m module
        let (loaded, m) := loadCheats enableCheatsByDefault m input.cheatFile
        if !loaded then some (setProcessId m 0)
        else
          let (toggled, m) := loadCheatToggles m input.toggleFile input.beyond
          if !toggled then some (setProcessId m 0)
          else if input.debugHandle then some { m with attached := true }
          else none
      | some _ => some (setProcessId m 0)
  | _, _ => none

end Attach

/-! ## The VM thread -/

section VmThread

variable {ε : Type} (K : Kernel ε)

/-- All entries, in entry order. -/
def entryList (entries : CheatEntries) : List CheatEntry := (List.finRange maxCheatCount).map entries

/-- An iteration of `DmntCheatManager::VmThread` up to `Execute`: whether the process is active,
whether `Execute` is called, and the state it is called in. -/
def vmThreadReload (s : CheatManager × ε) (vm : DmntCheatVm) : (Bool × Bool) × (CheatManager × ε) × DmntCheatVm :=
  let (active, m, e) := hasActiveCheatProcess K s
  if active then
    if m.needsReloadVmProgram then
      let (loaded, vm) := loadProgram (entryList m.entries) vm
      if loaded then
        ((true, vm.numOpcodes != 0), ({ m with needsReloadVmProgram := false }, e), vm)
      else ((true, false), (m, e), vm)
    else ((true, vm.numOpcodes != 0), ({ m with needsReloadVmProgram := false }, e), vm)
  else ((false, false), (m, e), vm)

/-- The loop over the frozen addresses. It looks at the map itself: a write may have updated the value
it comes to, and nothing is written once the process is gone and the map is empty. -/
def applyFrozenAddresses (s : CheatManager × ε) : CheatManager × ε :=
  (s.1.frozenAddresses.map Prod.fst).foldl (fun s address =>
    match s.1.frozenAddresses.lookup address with
    | some v => (managerWrite K s address (leBytes v.width v.value.toNat)).2
    | none => s) s

/-- An iteration of `DmntCheatManager::VmThread`. -/
def vmThread (kDown : UInt64) (fuel : Nat) (s : CheatManager × ε) (vm : DmntCheatVm) :
    Option ((CheatManager × ε) × DmntCheatVm) :=
  let ((active, runs), s, vm) := vmThreadReload K s vm
  if runs then
    match execute (cheatProcess K) s.1.metadata kDown fuel vm s with
    | .finished st => some (applyFrozenAddresses K st.process, st.vm)
    | _ => none
  else if active then some (applyFrozenAddresses K s, vm)
  else some (s, vm)

end VmThread

/-! ## Runs -/

/-- Who holds `g_attach_lock`. -/
inductive Attaching where
  | forceOpen
  | launch
deriving Repr, DecidableEq

/-- The whole state. -/
structure World (ε : Type) where
  manager : CheatManager := {}
  vm : DmntCheatVm := {}
  attaching : Option Attaching := none
  env : ε

/-- The operations, each atomic under `g_cheat_lock`. -/
inductive Event where
  | toggleCheat (cheatId : Nat)
  | addCheat (definition : CheatDefinition) (enabled : Bool)
  | removeCheat (cheatId : Nat)
  /-- The commands that look only, and the debug events thread. -/
  | query
  | writeMemory (address : UInt64) (data : List UInt8)
  | enableFrozenAddress (address : UInt64) (width : Nat)
  | disableFrozenAddress (address : UInt64)
  | beginForceOpen
  | forceOpen (input : AttachInput)
  | beginLaunch
  | launch (input : AttachInput)
  | vmThread (kDown : UInt64) (fuel : Nat)

section Run

variable {ε : Type} (K : Kernel ε) (enableCheatsByDefault : Bool)

/-- The state after a command. -/
def World.set (w : World ε) (s : CheatManager × ε) : World ε :=
  { w with manager := s.1, env := s.2 }

/-- One operation. -/
def step (w : World ε) (event : Event) : Option (World ε) :=
  let s := (w.manager, w.env)
  match event with
  | .toggleCheat cheatId => some (w.set (toggleCheat K s cheatId).2)
  | .addCheat definition enabled => some (w.set (addCheat K s definition enabled).2)
  | .removeCheat cheatId => some (w.set (removeCheat K s cheatId).2)
  | .query => some (w.set (hasActiveCheatProcess K s).2)
  | .writeMemory address data => some (w.set (managerWrite K s address data).2)
  | .enableFrozenAddress address width => some (w.set (enableFrozenAddress K s address width).2)
  | .disableFrozenAddress address => some (w.set (disableFrozenAddress K s address).2)
  | .beginForceOpen =>
    if w.attaching = none then
      let (active, s) := hasActiveCheatProcess K s
      if active then some (w.set s)
      else some { w.set (closeActiveCheatProcess s.1, s.2) with attaching := some .forceOpen }
    else none
  | .forceOpen input =>
    if w.attaching = some .forceOpen then
      some { w with
        manager := forceOpenCheatProcess enableCheatsByDefault w.manager input
        attaching := none }
    else none
  | .beginLaunch =>
    if w.attaching = none then
      some { w with manager := closeActiveCheatProcess w.manager, attaching := some .launch }
    else none
  | .launch input =>
    if w.attaching = some .launch then
      (onNewApplicationLaunch enableCheatsByDefault w.manager input).map fun manager =>
        { w with manager, attaching := none }
    else none
  | .vmThread kDown fuel =>
    (vmThread K kDown fuel s w.vm).map fun r => { w.set r.1 with vm := r.2 }

/-- A run of the manager. -/
inductive Run (w₀ : World ε) : List Event → World ε → Prop where
  | nil :
    Run w₀ [] w₀
  | snoc {events event w w'} :
    Run w₀ events w →
    step K enableCheatsByDefault w event = some w' →
    Run w₀ (events ++ [event]) w'

end Run

/-! ## What the operations can do -/

/-- What a command can do to the manager, piece by piece. -/
inductive Change (m : CheatManager) : CheatManager → Prop where
  | close :
    Change m (closeActiveCheatProcess m)
  | frozen (frozenAddresses : List (UInt64 × FrozenAddressValue)) :
    Change m { m with frozenAddresses }
  | toggle (i : Fin maxCheatCount) :
    i ≠ 0 →
    Change m { m with entries := toggleEntry m.entries i, needsReloadVmProgram := true }
  | add {i : Fin maxCheatCount} (definition : CheatDefinition) (enabled : Bool) :
    getFreeCheatEntry m.entries = some i →
    definition.opcodes ≠ [] →
    Change m { m with entries := fillEntry m.entries i definition enabled, needsReloadVmProgram := true }
  | remove (i : Fin maxCheatCount) :
    Change m { m with entries := resetCheatEntry m.entries i, needsReloadVmProgram := true }

/-- Any number of such pieces. -/
abbrev Changes : CheatManager → CheatManager → Prop := Relation.ReflTransGen Change

section Commands

variable {ε : Type} {K : Kernel ε}

lemma hasActiveCheatProcess_changes (s : CheatManager × ε) : Changes s.1 (hasActiveCheatProcess K s).2.1 := by
  unfold hasActiveCheatProcess
  split
  · dsimp only
    split
    · exact .refl
    · exact .single .close
  · exact .single .close

/-- A process that is found active was attached, and nothing has changed. -/
lemma hasActiveCheatProcess_true {s : CheatManager × ε} (h : (hasActiveCheatProcess K s).1 = true) :
    s.1.attached = true ∧ (hasActiveCheatProcess K s).2.1 = s.1 := by
  unfold hasActiveCheatProcess at h ⊢
  split at h
  · rename_i hatt
    dsimp only at h ⊢
    split at h
    · rename_i hpid
      rw [if_pos hatt, if_pos hpid]
      exact ⟨hatt, rfl⟩
    · cases h
  · cases h

lemma managerRead_changes (s : CheatManager × ε) (address : UInt64) (size : Nat) :
    Changes s.1 (managerRead K s address size).2.1 := by
  have h := hasActiveCheatProcess_changes (K := K) s
  unfold managerRead
  dsimp only
  split
  · exact h
  · exact h

lemma managerWrite_changes (s : CheatManager × ε) (address : UInt64) (data : List UInt8) :
    Changes s.1 (managerWrite K s address data).2.1 := by
  have h := hasActiveCheatProcess_changes (K := K) s
  unfold managerWrite
  dsimp only
  split
  · split
    · exact h.tail (.frozen _)
    · exact h
  · exact h

/-- The guard of a command changes nothing, or ends the command. -/
lemma whenActive_changes {s : CheatManager × ε}
    {f : CheatManager × ε → Result × CheatManager × ε} (h : ∀ s, Changes s.1 (f s).2.1) :
    Changes s.1 (whenActive K s f).2.1 := by
  unfold whenActive
  dsimp only
  split
  · exact (hasActiveCheatProcess_changes s).trans (h _)
  · exact hasActiveCheatProcess_changes s

section

variable (s : CheatManager × ε)

include s

lemma toggleCheat_changes (cheatId : Nat) : Changes s.1 (toggleCheat K s cheatId).2.1 := by
  apply whenActive_changes
  intro s
  dsimp only
  unfold getCheatEntryById
  split
  · exact .refl
  · rename_i i hi
    split
    · exact .refl
    · split
      · exact .refl
      · rename_i hne
        refine .single (.toggle i ?_)
        rintro rfl
        split at hi
        · exact hne (congrArg Fin.val (Option.some.inj hi))
        · cases hi

lemma addCheat_changes (definition : CheatDefinition) (enabled : Bool) :
    Changes s.1 (addCheat K s definition enabled).2.1 := by
  apply whenActive_changes
  intro s
  dsimp only
  split
  · exact .refl
  · rename_i hnum
    split
    · exact .refl
    · rename_i i hfree
      refine .single (.add definition enabled hfree ?_)
      intro hnil
      exact hnum (.inl (by rw [CheatDefinition.numOpcodes, hnil, List.length_nil]))

lemma removeCheat_changes (cheatId : Nat) : Changes s.1 (removeCheat K s cheatId).2.1 := by
  apply whenActive_changes
  intro s
  dsimp only
  split
  · exact .single (.remove _)
  · exact .refl

lemma enableFrozenAddress_changes (address : UInt64) (width : Nat) :
    Changes s.1 (enableFrozenAddress K s address width).2.1 := by
  apply whenActive_changes
  intro s
  dsimp only
  split
  · exact .refl
  · split
    · exact .refl
    · split
      · exact (managerRead_changes s address width).tail (.frozen _)
      · exact managerRead_changes s address width

lemma disableFrozenAddress_changes (address : UInt64) : Changes s.1 (disableFrozenAddress K s address).2.1 := by
  apply whenActive_changes
  intro s
  dsimp only
  split
  · exact .single (.frozen _)
  · exact .refl

lemma applyFrozenAddresses_changes : Changes s.1 (applyFrozenAddresses K s).1 := by
  unfold applyFrozenAddresses
  generalize s.1.frozenAddresses.map Prod.fst = addresses
  induction addresses generalizing s with
  | nil => exact .refl
  | cons address addresses ih =>
    refine Relation.ReflTransGen.trans ?_ (ih _)
    dsimp only
    split
    · exact managerWrite_changes s _ _
    · exact .refl

end

/-- The VM's memory accesses only change the manager as commands do. -/
lemma keeps_changes (m : CheatManager) : Keeps (cheatProcess K) fun s => Changes m s.1 where
  read s address size h := h.trans (managerRead_changes s address size)
  write s address data h := h.trans (managerWrite_changes s address data)

end Commands

end RajNX.Dmnt
