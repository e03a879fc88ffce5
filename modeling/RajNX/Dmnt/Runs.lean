import RajNX.Dmnt.Manager

/-!
# Runs of the cheat manager

What holds in every state a run of the manager can reach. The program the VM holds is a copy of the
enabled entries that is made again only while `g_needs_reload_vm_program` is set, so `Sync` has to
hold at every step: with the flag down the copy is the original.

The master cheat is switched on at the end of a parse that succeeds. An application launch does not
attach after a parse that fails, a forced attach does.
-/

namespace RajNX.Dmnt

attribute [local instance] neZero_cheatEntries

/-! ## What an attach can do -/

/-- The entries that a cheat file leaves behind. -/
def parsedEntries (enableCheatsByDefault : Bool) : Option (List UInt8) → CheatEntries
  | none => resetEntries
  | some bytes => (parseCheats enableCheatsByDefault resetEntries (cString bytes)).2

/-- The entries that a toggle file leaves behind. -/
def toggledEntries (beyond : UInt8) (entries : CheatEntries) : ToggleFile → CheatEntries
  | .contents bytes => (parseCheatToggles beyond entries (cString bytes)).2
  | _ => entries

/-- The entries that the two files of an attach leave behind. -/
def AttachInput.entries (enableCheatsByDefault : Bool) (input : AttachInput) : CheatEntries :=
  toggledEntries input.beyond (parsedEntries enableCheatsByDefault input.cheatFile) input.toggleFile

/-- Whether a forced attach gets as far as loading the files. -/
def AttachInput.loads (input : AttachInput) : Bool :=
  input.applicationPid.isSome && input.processInfo.isSome && (input.modules.bind forcedModule).isSome

/-- Whether a forced attach succeeds. -/
def AttachInput.attaches (input : AttachInput) : Bool := input.loads && input.debugHandle

lemma zero_notMem_cString (bytes : List UInt8) : 0 ∉ cString bytes := by
  intro h
  exact absurd (List.mem_takeWhile_imp h) (by decide)

/-- What the files leave behind is a table as the table operations make it. -/
lemma parsedEntries_reachable (b : Bool) (cheatFile : Option (List UInt8)) : Reachable (parsedEntries b cheatFile) := by
  cases cheatFile with
  | none => exact .reset
  | some bytes => exact .parse b _ (zero_notMem_cString bytes)

lemma toggledEntries_reachable {entries : CheatEntries} (h : Reachable entries) (beyond : UInt8)
    (toggleFile : ToggleFile) : Reachable (toggledEntries beyond entries toggleFile) := by
  cases toggleFile with
  | missing => exact h
  | unreadable => exact h
  | contents bytes => exact .parseToggles beyond _ h

lemma AttachInput.entries_reachable (b : Bool) (input : AttachInput) : Reachable (input.entries b) :=
  toggledEntries_reachable (parsedEntries_reachable b _) _ _

lemma loadCheats_snd (b : Bool) (m : CheatManager) (cheatFile : Option (List UInt8)) :
    (loadCheats b m cheatFile).2 =
      { m with entries := parsedEntries b cheatFile, needsReloadVmProgram := true } := by
  cases cheatFile <;> rfl

variable {b : Bool}

/-- Cheats that count as loaded were accepted by the parser. -/
lemma loadCheats_fst {m : CheatManager} {cheatFile : Option (List UInt8)} (h : (loadCheats b m cheatFile).1 = true) :
    ∃ bytes, cheatFile = some bytes ∧ (parseCheats b resetEntries (cString bytes)).1 = true := by
  cases cheatFile with
  | none => cases h
  | some bytes => exact ⟨bytes, rfl, h⟩

lemma loadCheatToggles_snd (m : CheatManager) (toggleFile : ToggleFile) (beyond : UInt8) :
    ∃ save, (loadCheatToggles m toggleFile beyond).2 =
      { m with entries := toggledEntries beyond m.entries toggleFile, shouldSaveCheatToggles := save } := by
  cases toggleFile <;> exact ⟨_, rfl⟩

/-- A forced attach that fails early changes the metadata only; one that gets to the files replaces
the entries, makes a reload due, and may still fail to attach. -/
lemma forceOpenCheatProcess_cases (b : Bool) (m : CheatManager) (input : AttachInput) :
    (input.loads = false ∧ ∃ metadata, forceOpenCheatProcess b m input = { m with metadata }) ∨
    (input.loads = true ∧ ∃ metadata save, forceOpenCheatProcess b m input =
      { m with entries := input.entries b, needsReloadVmProgram := true, attached := m.attached || input.debugHandle,
               metadata, shouldSaveCheatToggles := save }) := by
  unfold forceOpenCheatProcess AttachInput.loads
  cases input.applicationPid with
  | none => exact .inl ⟨rfl, _, rfl⟩
  | some pid =>
    cases input.processInfo with
    | none => exact .inl ⟨rfl, _, rfl⟩
    | some info =>
      dsimp only
      cases input.modules.bind forcedModule with
      | none => exact .inl ⟨rfl, _, rfl⟩
      | some module =>
        refine .inr ⟨rfl, ?_⟩
        dsimp only
        rw [loadCheats_snd]
        obtain ⟨save, h⟩ := loadCheatToggles_snd
          { setModule (setProcessInfo (setProcessId m pid) info) module with
            entries := parsedEntries b input.cheatFile
            needsReloadVmProgram := true } input.toggleFile input.beyond
        rw [h]
        cases input.debugHandle with
        | true => exact ⟨_, save, by rw [if_pos rfl, Bool.or_true]; rfl⟩
        | false => exact ⟨_, save, by rw [if_neg (by decide), Bool.or_false]; rfl⟩

variable {m m' : CheatManager}

/-- A launch that does not attach leaves the entries alone or replaces them and makes a reload due;
one that attaches has loaded cheats that the parser accepts. -/
lemma onNewApplicationLaunch_cases {input : AttachInput} (h : onNewApplicationLaunch b m input = some m') :
    (∃ metadata, m' = { m with metadata }) ∨
    (∃ metadata entries save, Reachable entries ∧
      m' = { m with entries, needsReloadVmProgram := true, metadata, shouldSaveCheatToggles := save }) ∨
    (∃ metadata save bytes, input.cheatFile = some bytes ∧
      (parseCheats b resetEntries (cString bytes)).1 = true ∧
      m' = { m with entries := input.entries b, needsReloadVmProgram := true, attached := true, metadata,
                    shouldSaveCheatToggles := save }) := by
  unfold onNewApplicationLaunch at h
  split at h
  · rename_i pid info _ _
    dsimp only at h
    split at h
    · cases h
      exact .inl ⟨_, rfl⟩
    split at h
    · cases h
    · rename_i module _
      split at h
      · cases h
        rw [loadCheats_snd]
        exact .inr (.inl ⟨_, _, _, parsedEntries_reachable b input.cheatFile, rfl⟩)
      · rename_i hloaded
        obtain ⟨bytes, hbytes, hacc⟩ := loadCheats_fst (by simpa using hloaded)
        rw [loadCheats_snd] at h
        obtain ⟨save, hsave⟩ := loadCheatToggles_snd
          { setModule (setProcessInfo (setProcessId m pid) info) module with
            entries := parsedEntries b input.cheatFile
            needsReloadVmProgram := true } input.toggleFile input.beyond
        rw [hsave] at h
        split at h
        · cases h
          exact .inr (.inl ⟨_, _, save, input.entries_reachable b, rfl⟩)
        · split at h
          · cases h
            exact .inr (.inr ⟨_, save, bytes, hbytes, hacc, rfl⟩)
          · cases h
    · cases h
      exact .inl ⟨_, rfl⟩
  · cases h

/-! ## The program is up to date -/

/-- The VM's program is that of the enabled entries, unless a reload is due. -/
structure Sync (m : CheatManager) (vm : DmntCheatVm) : Prop where
  program : m.needsReloadVmProgram = false → vm.words = enabledOpcodes (entryList m.entries)
  bounded : vm.words.length ≤ maximumProgramOpcodeCount

/-- A due reload leaves nothing to prove. -/
lemma Sync.dirty {vm : DmntCheatVm} (h : Sync m vm) (hm : m'.needsReloadVmProgram = true) : Sync m' vm := by
  refine ⟨fun hfalse => ?_, h.bounded⟩
  rw [hm] at hfalse
  cases hfalse

/-- Everything a command can do to the entries makes a reload due. -/
lemma Sync.change {vm : DmntCheatVm} (h : Sync m vm) (hc : Change m m') : Sync m' vm := by
  cases hc with
  | close =>
    unfold closeActiveCheatProcess
    split
    · exact h.dirty rfl
    · exact h
  | frozen f => exact ⟨h.program, h.bounded⟩
  | toggle i hi => exact h.dirty rfl
  | add definition enabled hfree hne => exact h.dirty rfl
  | remove i => exact h.dirty rfl

lemma Sync.changes {vm : DmntCheatVm} (h : Sync m vm) (hc : Changes m m') : Sync m' vm := by
  induction hc with
  | refl => exact h
  | tail _ hc ih => exact ih.change hc

lemma closeActiveCheatProcess_attached (m : CheatManager) : (closeActiveCheatProcess m).attached = false := by
  unfold closeActiveCheatProcess
  split
  · rfl
  · rename_i h
    simpa using h

section Reload

variable {ε : Type} {K : Kernel ε}

/-- An iteration of the VM thread calls `Execute` with the VM `vm` while the manager is at `s`. -/
def Executes (K : Kernel ε) (w : World ε) (s : CheatManager × ε) (vm : DmntCheatVm) : Prop :=
  vmThreadReload K (w.manager, w.env) w.vm = ((true, true), s, vm)

/-- The reload before `Execute`: afterwards the program is up to date or the flag is still up; and if
`Execute` is called it is up to date. -/
lemma Sync.reload {s : CheatManager × ε} {vm : DmntCheatVm} (h : Sync s.1 vm) {flags : Bool × Bool}
    {s' : CheatManager × ε} {vm' : DmntCheatVm} (hr : vmThreadReload K s vm = (flags, s', vm')) :
    Sync s'.1 vm' ∧ (flags.2 = true → vm'.words = enabledOpcodes (entryList s'.1.entries) ∧
      s'.1.entries = s.1.entries) := by
  unfold vmThreadReload at hr
  dsimp only at hr
  split at hr
  · rename_i hact
    obtain ⟨-, hm⟩ := hasActiveCheatProcess_true hact
    rw [hm] at hr
    split at hr
    · obtain ⟨hiff, hwords⟩ := loadProgram_spec (entryList s.1.entries) vm
      split at hr
      · rename_i hload
        rw [if_pos (hiff.mp hload)] at hwords
        cases hr
        refine ⟨⟨fun _ => hwords, ?_⟩, fun _ => ⟨hwords, rfl⟩⟩
        rw [hwords]
        exact hiff.mp hload
      · rename_i hdirty hload
        rw [if_neg (fun hfit => hload (hiff.mpr hfit))] at hwords
        cases hr
        refine ⟨⟨fun hfalse => ?_, ?_⟩, fun h => absurd h (by decide)⟩
        · rw [hdirty] at hfalse
          cases hfalse
        · rw [hwords]
          exact Nat.zero_le _
    · rename_i hclean
      have hprog := h.program (by simpa using hclean)
      cases hr
      exact ⟨⟨fun _ => hprog, h.bounded⟩, fun _ => ⟨hprog, rfl⟩⟩
  · cases hr
    exact ⟨h.changes (hasActiveCheatProcess_changes s), fun h => absurd h (by decide)⟩

/-- What an iteration of the VM thread does around `Execute`. -/
lemma vmThread_cases {kDown : UInt64} {fuel : Nat} {s s' : CheatManager × ε} {vm vm' : DmntCheatVm}
    (h : vmThread K kDown fuel s vm = some (s', vm')) :
    ∃ flags s₁ vm₁, vmThreadReload K s vm = (flags, s₁, vm₁) ∧ Changes s₁.1 s'.1 ∧
      vm'.words = vm₁.words := by
  unfold vmThread at h
  rcases hr : vmThreadReload K s vm with ⟨⟨active, runs⟩, s₁, vm₁⟩
  refine ⟨_, s₁, vm₁, rfl, ?_⟩
  rw [hr] at h
  dsimp only at h
  split at h
  · split at h
    · rename_i st hst
      obtain ⟨hwords, hproc⟩ := (keeps_changes s₁.1).execute_frame hst
      cases h
      exact ⟨(hproc .refl).trans (applyFrozenAddresses_changes _), hwords⟩
    · cases h
  · split at h
    · cases h
      exact ⟨applyFrozenAddresses_changes _, rfl⟩
    · cases h
      exact ⟨.refl, rfl⟩

/-- The reload lowers the flag at most. -/
lemma vmThreadReload_manager {s s' : CheatManager × ε} {vm vm' : DmntCheatVm} {flags : Bool × Bool}
    (hr : vmThreadReload K s vm = (flags, s', vm')) :
    ∃ m flag, Changes s.1 m ∧ s'.1 = { m with needsReloadVmProgram := flag } := by
  have hc := hasActiveCheatProcess_changes (K := K) s
  unfold vmThreadReload at hr
  dsimp only at hr
  split at hr
  · split at hr
    · split at hr
      · cases hr
        exact ⟨_, _, hc, rfl⟩
      · cases hr
        exact ⟨_, _, hc, rfl⟩
    · cases hr
      exact ⟨_, _, hc, rfl⟩
  · cases hr
    exact ⟨_, _, hc, rfl⟩

variable {b : Bool}

/-- What an operation can do: a command changes the manager piece by piece, and may be the first half
of an attach, which detaches; then there are the second halves of the two attaches, and an iteration
of the VM thread. -/
lemma step_cases {w w' : World ε} {event : Event} (hs : step K b w event = some w') :
    (Changes w.manager w'.manager ∧ w'.vm = w.vm ∧
      (w'.attaching = w.attaching ∨ w'.manager.attached = false)) ∨
    (∃ input, event = .forceOpen input ∧ w.attaching = some .forceOpen ∧
      w' = { w with manager := forceOpenCheatProcess b w.manager input, attaching := none }) ∨
    (∃ input manager, event = .launch input ∧ w.attaching = some .launch ∧
      onNewApplicationLaunch b w.manager input = some manager ∧
      w' = { w with manager, attaching := none }) ∨
    (∃ flags s₁ vm₁, vmThreadReload K (w.manager, w.env) w.vm = (flags, s₁, vm₁) ∧
      Changes s₁.1 w'.manager ∧ w'.vm.words = vm₁.words ∧ w'.attaching = w.attaching) := by
  cases event with
  | toggleCheat cheatId =>
    cases hs
    exact .inl ⟨toggleCheat_changes (w.manager, w.env) cheatId, rfl, .inl rfl⟩
  | addCheat definition enabled =>
    cases hs
    exact .inl ⟨addCheat_changes (w.manager, w.env) definition enabled, rfl, .inl rfl⟩
  | removeCheat cheatId =>
    cases hs
    exact .inl ⟨removeCheat_changes (w.manager, w.env) cheatId, rfl, .inl rfl⟩
  | query =>
    cases hs
    exact .inl ⟨hasActiveCheatProcess_changes (w.manager, w.env), rfl, .inl rfl⟩
  | writeMemory address data =>
    cases hs
    exact .inl ⟨managerWrite_changes (w.manager, w.env) address data, rfl, .inl rfl⟩
  | enableFrozenAddress address width =>
    cases hs
    exact .inl ⟨enableFrozenAddress_changes (w.manager, w.env) address width, rfl, .inl rfl⟩
  | disableFrozenAddress address =>
    cases hs
    exact .inl ⟨disableFrozenAddress_changes (w.manager, w.env) address, rfl, .inl rfl⟩
  -- the process may be closed, and then nothing is attached any more
  | beginForceOpen =>
    have hc := hasActiveCheatProcess_changes (K := K) (w.manager, w.env)
    simp only [step] at hs
    split at hs
    · split at hs
      · cases hs
        exact .inl ⟨hc, rfl, .inl rfl⟩
      · cases hs
        exact .inl ⟨hc.tail .close, rfl, .inr (closeActiveCheatProcess_attached _)⟩
    · cases hs
  | forceOpen input =>
    simp only [step] at hs
    split at hs
    · rename_i hatt
      cases hs
      exact .inr (.inl ⟨input, rfl, hatt, rfl⟩)
    · cases hs
  | beginLaunch =>
    simp only [step] at hs
    split at hs
    · cases hs
      exact .inl ⟨.single .close, rfl, .inr (closeActiveCheatProcess_attached _)⟩
    · cases hs
  | launch input =>
    simp only [step] at hs
    split at hs
    · rename_i hatt
      obtain ⟨manager, hm, rfl⟩ := Option.map_eq_some_iff.mp hs
      exact .inr (.inr (.inl ⟨input, manager, rfl, hatt, hm, rfl⟩))
    · cases hs
  | vmThread kDown fuel =>
    obtain ⟨r, hr, rfl⟩ := Option.map_eq_some_iff.mp hs
    obtain ⟨flags, s₁, vm₁, hreload, hc, hwords⟩ := vmThread_cases hr
    exact .inr (.inr (.inr ⟨flags, s₁, vm₁, hreload, hc, hwords, rfl⟩))

/-- Every operation keeps the program up to date. -/
lemma Sync.step {w w' : World ε} {event : Event} (h : Sync w.manager w.vm)
    (hs : step K b w event = some w') : Sync w'.manager w'.vm := by
  rcases step_cases hs with ⟨hc, hvm, -⟩ | ⟨input, -, -, rfl⟩ | ⟨input, manager, -, -, hm, rfl⟩ |
    ⟨flags, s₁, vm₁, hreload, hc, hwords, -⟩
  · rw [hvm]
    exact h.changes hc
  · rcases forceOpenCheatProcess_cases b w.manager input with ⟨-, _, hm⟩ | ⟨-, _, _, hm⟩
    · rw [hm]
      exact ⟨h.program, h.bounded⟩
    · rw [hm]
      exact h.dirty rfl
  · rcases onNewApplicationLaunch_cases hm with ⟨_, rfl⟩ | ⟨_, _, _, -, rfl⟩ | ⟨_, _, _, -, -, rfl⟩
    · exact ⟨h.program, h.bounded⟩
    · exact h.dirty rfl
    · exact h.dirty rfl
  · have h₁ := ((h.reload hreload).1).changes hc
    exact ⟨fun hclean => hwords.trans (h₁.program hclean), hwords ▸ h₁.bounded⟩

lemma Sync.run {e : ε} {events : List Event} {w : World ε} (h : Run K b { env := e } events w) :
    Sync w.manager w.vm := by
  induction h with
  | nil =>
    have hempty : enabledOpcodes (entryList initialEntries) = [] := by decide
    exact ⟨fun _ => hempty.symm, Nat.zero_le _⟩
  | snoc _ hs ih => exact ih.step hs

end Reload

/-- No stale program: in every state a run reaches, an iteration of the VM thread that calls
`Execute` calls it on exactly the opcodes of the entries enabled then, in entry order; and while
these are too many, it calls `Execute` on nothing. -/
theorem execute_runs_enabled_opcodes {ε : Type} (K : Kernel ε) (enableCheatsByDefault : Bool) (e : ε)
    {events : List Event} {w : World ε} (h : Run K enableCheatsByDefault { env := e } events w) :
    (∀ s vm, Executes K w s vm → s.1.entries = w.manager.entries ∧
      vm.words = enabledOpcodes (entryList w.manager.entries)) ∧
    (maximumProgramOpcodeCount < (enabledOpcodes (entryList w.manager.entries)).length →
      ∀ s vm, ¬ Executes K w s vm) := by
  have hsync := Sync.run h
  refine ⟨?_, ?_⟩
  · intro s vm hx
    obtain ⟨-, hrun⟩ := hsync.reload hx
    obtain ⟨hwords, hentries⟩ := hrun rfl
    rw [hentries] at hwords
    exact ⟨hentries, hwords⟩
  · intro hlong s vm hx
    obtain ⟨hsync', hrun⟩ := hsync.reload hx
    obtain ⟨hwords, hentries⟩ := hrun rfl
    have hbound := hsync'.bounded
    rw [hwords, hentries] at hbound
    exact absurd hbound (not_le_of_gt hlong)

/-- A system in which the application with process id 1 keeps running. -/
def quietKernel : Kernel Unit where
  applicationPid _ := (some 1, ())
  readMemory _ _ _ := (([], resultSuccess), ())
  writeMemory _ _ _ := (resultSuccess, ())

/-- An attach to that application which finds the given cheat file and no toggle file. -/
def attachTo (cheatFile : List UInt8) : AttachInput where
  applicationPid := some 1
  processInfo := some ⟨0x0100000000010000, {}, {}, {}⟩
  modules := some [⟨0, 0, []⟩, ⟨0, 0, []⟩]
  cheatFile := some cheatFile
  toggleFile := .missing
  debugHandle := true

/-- The state of a run, computed. -/
def runEvents {ε : Type} (K : Kernel ε) (b : Bool) : World ε → List Event → Option (World ε)
  | w, [] => some w
  | w, event :: events => (step K b w event).bind fun w => runEvents K b w events

/-- A computed run is a run. -/
lemma run_of_runEvents {ε : Type} {K : Kernel ε} {w₀ w w' : World ε} {events₀ events : List Event}
    (h₀ : Run K b w₀ events₀ w) (h : runEvents K b w events = some w') : Run K b w₀ (events₀ ++ events) w' := by
  induction events generalizing w events₀ with
  | nil =>
    cases h
    rw [List.append_nil]
    exact h₀
  | cons event events ih =>
    obtain ⟨w₁, hs, h⟩ := Option.bind_eq_some_iff.mp h
    have := ih (h₀.snoc hs) h
    rwa [List.append_assoc] at this

/-- A launch with one cheat, which is switched off, and another one that is added: `Execute` gets
the added one alone. -/
theorem execute_runs_enabled_opcodes_after_toggle :
    ∃ w, Run quietKernel true { env := () }
        [.beginLaunch, .launch (attachTo "[A]20000000".toUTF8.toList), .toggleCheat 1,
          .addCheat ⟨[0x42], [0x20000000, 0x20000000]⟩ true] w ∧
      ∃ s vm, Executes quietKernel w s vm ∧ vm.words = [0x20000000, 0x20000000] := by
  have hsome : (runEvents quietKernel true { env := () }
      [.beginLaunch, .launch (attachTo "[A]20000000".toUTF8.toList), .toggleCheat 1,
        .addCheat ⟨[0x42], [0x20000000, 0x20000000]⟩ true]).isSome = true := by decide +kernel
  obtain ⟨w, hw⟩ := Option.isSome_iff_exists.mp hsome
  have hrun := run_of_runEvents .nil hw
  have hval : ((runEvents quietKernel true { env := () }
      [.beginLaunch, .launch (attachTo "[A]20000000".toUTF8.toList), .toggleCheat 1,
        .addCheat ⟨[0x42], [0x20000000, 0x20000000]⟩ true]).map fun w =>
          (enabledOpcodes (entryList w.manager.entries), (vmThreadReload quietKernel (w.manager, w.env) w.vm).1)) =
      some ([0x20000000, 0x20000000], true, true) := by decide +kernel
  rw [hw] at hval
  obtain ⟨hopcodes, hflags⟩ := Prod.mk.inj (Option.some.inj hval)
  have hx : Executes quietKernel w (vmThreadReload quietKernel (w.manager, w.env) w.vm).2.1
      (vmThreadReload quietKernel (w.manager, w.env) w.vm).2.2 := Prod.ext hflags rfl
  obtain ⟨-, hwords⟩ := (execute_runs_enabled_opcodes quietKernel true () hrun).1 _ _ hx
  exact ⟨w, hrun, _, _, hx, hwords.trans hopcodes⟩

/-! ## The master cheat is on -/

/-- While a process is attached, a master cheat with opcodes is enabled. -/
def MasterOn (m : CheatManager) : Prop :=
  m.attached = true → (m.entries 0).definition.opcodes ≠ [] → (m.entries 0).enabled = true

/-- A cheat file that leaves no master cheat behind switched off: it is well formed, or no well-formed
beginning of it has a master word. -/
def MasterSafe (bytes : List UInt8) : Prop :=
  (∃ f : CheatFile, f.render = cString bytes) ∨
    ∀ f : CheatFile, f.render <+: cString bytes → ∀ sec, masterOf f.sections = some sec → sec.words = []

/-- The forced attaches that succeed find safe cheat files. -/
def Event.MasterSafe : Event → Prop
  | .forceOpen input =>
    input.attaches = true → ∀ bytes, input.cheatFile = some bytes → Dmnt.MasterSafe bytes
  | _ => True

/-- A file that is accepted switches its master cheat on. -/
lemma parseCheats_master {s : List UInt8} (h : (parseCheats b resetEntries s).1 = true)
    (hne : ((parseCheats b resetEntries s).2 0).definition.opcodes ≠ []) :
    ((parseCheats b resetEntries s).2 0).enabled = true := by
  unfold parseCheats at h hne ⊢
  split at h
  · rename_i st hst
    rw [hst] at hne
    simp only [enableParsed_definition] at hne
    have hpos : (st.entries 0).definition.numOpcodes > 0 := List.length_pos_iff.mpr hne
    simp only [enableParsed, if_pos hpos, if_true]
  · cases h

/-- A file that is rejected leaves the master cheat's flag down, and its words are those of any
well-formed beginning and maybe more. -/
lemma parseCheats_rejected {s : List UInt8} (h : (parseCheats b resetEntries s).1 = false) :
    (parseCheats b resetEntries s).2 =
      (parseLoop s.length { entries := resetEntries } s).2.entries := by
  unfold parseCheats at h ⊢
  split at h
  · cases h
  · rename_i st hst
    rw [hst]

/-- What the cheat file leaves in the master entry of a safe file. -/
lemma MasterSafe.parsed {bytes : List UInt8} (h : MasterSafe bytes)
    (hne : (parsedEntries b (some bytes) 0).definition.opcodes ≠ []) :
    (parsedEntries b (some bytes) 0).enabled = true := by
  have h0 := zero_notMem_cString bytes
  cases hacc : (parseCheats b resetEntries (cString bytes)).1 with
  | true => exact parseCheats_master hacc hne
  | false =>
    rcases h with hf | hnone
    · rw [((parseCheats_grammar b h0).mpr hf)] at hacc
      cases hacc
    · obtain ⟨f, rest, htext, ht, -⟩ := parseLoop_splits h0
      refine absurd ?_ hne
      rw [parsedEntries, parseCheats_rejected hacc, ht.master, masterDef]
      cases hm : masterOf f.sections with
      | none => rfl
      | some sec => exact hnone f ⟨rest, htext.symm⟩ sec hm

/-- What the cheat file leaves in the master entry of an unsafe file. -/
lemma parsed_of_not_masterSafe {bytes : List UInt8} (h : ¬ MasterSafe bytes) :
    (parsedEntries b (some bytes) 0).definition.opcodes ≠ [] ∧
      (parsedEntries b (some bytes) 0).enabled = false := by
  have h0 := zero_notMem_cString bytes
  rw [MasterSafe, not_or] at h
  obtain ⟨hno, hpre⟩ := h
  push Not at hpre
  obtain ⟨f, ⟨rest, htext⟩, sec, hsec, hwords⟩ := hpre
  have hrej : (parseCheats b resetEntries (cString bytes)).1 = false := by
    rw [← Bool.not_eq_true, parseCheats_grammar b h0]
    exact hno
  rw [parsedEntries, parseCheats_rejected hrej]
  have h0f : 0 ∉ f.render := by
    intro hmem
    apply h0
    rw [← htext]
    exact List.mem_append_left _ hmem
  obtain ⟨n, st, hn, ht, hloop⟩ := parseLoop_file f h0f
  have hlen : n ≤ (cString bytes).length := by
    rw [← htext, List.length_append]
    omega
  have hrun := hloop ((cString bytes).length - n) rest
  rw [Nat.sub_add_cancel hlen, htext] at hrun
  refine ⟨fun hnil => ?_, ?_⟩
  · have hprefix := (parseLoop_entry ((cString bytes).length - n) st rest 0).2
    rw [← hrun, hnil, List.prefix_nil, ht.master, masterDef, hsec] at hprefix
    exact hwords hprefix
  · exact (parseLoop_entry _ _ _ 0).1

lemma toggledEntries_zero (beyond : UInt8) (entries : CheatEntries) (toggleFile : ToggleFile) :
    toggledEntries beyond entries toggleFile 0 = entries 0 := by
  cases toggleFile with
  | missing => rfl
  | unreadable => rfl
  | contents bytes => exact toggleLoop_zero beyond _ entries _

/-- No command touches the master cheat, but for removing it. -/
lemma MasterOn.change (h : MasterOn m) (hc : Change m m') : MasterOn m' := by
  cases hc with
  | close =>
    unfold closeActiveCheatProcess
    split
    · intro hatt
      cases hatt
    · exact h
  | frozen f => exact h
  | toggle i hi =>
    simp only [MasterOn, toggleEntry, Function.update_of_ne hi.symm]
    exact h
  | @add i definition enabled hfree hne =>
    obtain ⟨hi, -, -⟩ := getFreeCheatEntry_eq_some.mp hfree
    simp only [MasterOn, fillEntry, Function.update_of_ne hi.symm]
    exact h
  | remove i =>
    by_cases hi : i = 0
    · subst hi
      simp only [MasterOn, resetCheatEntry, Function.update_self]
      exact fun _ hne => absurd rfl hne
    · simp only [MasterOn, resetCheatEntry, Function.update_of_ne (Ne.symm hi)]
      exact h

lemma MasterOn.changes (h : MasterOn m) (hc : Changes m m') : MasterOn m' := by
  induction hc with
  | refl => exact h
  | tail _ hc ih => exact ih.change hc

/-- No command attaches. -/
lemma Changes.detached (hc : Changes m m') (h : m.attached = false) : m'.attached = false := by
  induction hc with
  | refl => exact h
  | tail _ hc ih =>
    cases hc with
    | close =>
      unfold closeActiveCheatProcess
      split
      · rfl
      · exact ih
    | frozen f => exact ih
    | toggle i hi => exact ih
    | add definition enabled hfree hne => exact ih
    | remove i => exact ih

/-- The master cheat is on, and whoever holds the attach lock has detached. -/
structure MasterInv {ε : Type} (w : World ε) : Prop where
  master : MasterOn w.manager
  detached : w.attaching ≠ none → w.manager.attached = false

section Master

variable {ε : Type} {K : Kernel ε} {b : Bool}

/-- The master entry that an attach leaves behind is on if the cheat file is accepted or safe. -/
lemma masterOn_entries {m : CheatManager} (input : AttachInput) (hm : m.entries = input.entries b)
    (h : ∀ bytes, input.cheatFile = some bytes → MasterSafe bytes) : MasterOn m := by
  intro _ hne
  rw [hm, AttachInput.entries, toggledEntries_zero] at hne ⊢
  cases hfile : input.cheatFile with
  | none =>
    rw [hfile] at hne
    exact absurd rfl hne
  | some bytes =>
    rw [hfile] at hne
    exact (h bytes hfile).parsed hne

/-- Every operation keeps the master cheat on, if a forced attach finds a safe cheat file. -/
lemma MasterInv.step {w w' : World ε} {event : Event} (h : MasterInv w) (hsafe : event.MasterSafe)
    (hs : step K b w event = some w') : MasterInv w' := by
  rcases step_cases hs with ⟨hc, -, hatt⟩ | ⟨input, rfl, hatt, rfl⟩ |
    ⟨input, manager, rfl, hatt, hm, rfl⟩ | ⟨flags, s₁, vm₁, hreload, hc, -, hatt⟩
  · refine ⟨h.master.changes hc, fun hne => ?_⟩
    rcases hatt with hatt | hdet
    · exact hc.detached (h.detached (hatt ▸ hne))
    · exact hdet
  · have hdet := h.detached (by rw [hatt]; exact Option.some_ne_none _)
    refine ⟨?_, fun hne => absurd rfl hne⟩
    rcases forceOpenCheatProcess_cases b w.manager input with ⟨-, _, hm⟩ | ⟨hl, _, _, hm⟩
    · rw [hm]
      exact h.master
    · simp only [hm]
      cases hdebug : input.debugHandle with
      | false =>
        intro hatt'
        rw [hdet] at hatt'
        cases hatt'
      | true =>
        have hattaches : input.attaches = true := by
          rw [AttachInput.attaches, hl, hdebug]
          rfl
        exact masterOn_entries (b := b) input rfl (hsafe hattaches)
  · have hdet := h.detached (by rw [hatt]; exact Option.some_ne_none _)
    refine ⟨?_, fun hne => absurd rfl hne⟩
    rcases onNewApplicationLaunch_cases hm with ⟨_, rfl⟩ | ⟨_, _, _, -, rfl⟩ |
      ⟨_, _, bytes, hbytes, hacc, rfl⟩
    · exact h.master
    · intro hatt'
      rw [hdet] at hatt'
      cases hatt'
    · refine masterOn_entries (b := b) input rfl ?_
      intro bytes' hbytes'
      obtain rfl : bytes = bytes' := Option.some.inj (hbytes.symm.trans hbytes')
      exact .inl ((parseCheats_grammar b (zero_notMem_cString bytes)).mp hacc)
  · obtain ⟨m, flag, hc₁, hm⟩ := vmThreadReload_manager hreload
    have hm₁ : MasterOn m := h.master.changes hc₁
    have hm₂ : MasterOn s₁.1 := by
      rw [hm]
      exact hm₁
    have hdet₂ : m.attached = false → s₁.1.attached = false := by
      rw [hm]
      exact id
    exact ⟨hm₂.changes hc, fun hne => hc.detached (hdet₂ (hc₁.detached (h.detached (hatt ▸ hne))))⟩

lemma MasterInv.run {e : ε} {events : List Event} {w : World ε}
    (h : Run K b { env := e } events w) (hsafe : ∀ event ∈ events, event.MasterSafe) : MasterInv w := by
  induction h with
  | nil => exact ⟨fun h => (by cases h), fun h => absurd rfl h⟩
  | snoc _ hs ih =>
    rw [List.forall_mem_append] at hsafe
    exact (ih hsafe.1).step (hsafe.2 _ (List.mem_singleton_self _)) hs

/-- A forced attach that finds an unsafe cheat file leaves the master cheat off. -/
lemma not_masterOn_of_not_masterSafe {w w' : World ε} {event : Event}
    (hs : step K b w event = some w') (hbadfile : ¬ event.MasterSafe) : ¬ MasterOn w'.manager := by
  cases event with
  | forceOpen input =>
    simp only [Event.MasterSafe] at hbadfile
    push Not at hbadfile
    obtain ⟨hatt, bytes, hbytes, hbad⟩ := hbadfile
    obtain ⟨hne, hoff⟩ := parsed_of_not_masterSafe (b := b) hbad
    rw [AttachInput.attaches, Bool.and_eq_true] at hatt
    simp only [Dmnt.step] at hs
    split at hs
    · cases hs
      rcases forceOpenCheatProcess_cases b w.manager input with ⟨hl, -⟩ | ⟨-, _, _, hm⟩
      · rw [hl] at hatt
        cases hatt.1
      · intro hon
        simp only [MasterOn, hm, AttachInput.entries, toggledEntries_zero, hbytes, hatt.2] at hon
        rw [hon (by simp) hne] at hoff
        cases hoff
    · cases hs
  | _ => exact absurd trivial hbadfile

end Master

/-- The master cheat is on in every state of a run whose forced attaches that succeed all find a
cheat file that is well formed, or has no master word before the place where it stops being so; and
a forced attach that finds any other file ends with the master cheat off. -/
theorem masterOn_of_masterSafe {ε : Type} (K : Kernel ε) (enableCheatsByDefault : Bool) (e : ε) :
    (∀ events w, Run K enableCheatsByDefault { env := e } events w →
      (∀ event ∈ events, event.MasterSafe) → MasterOn w.manager) ∧
    ∀ (w w' : World ε) (event : Event), step K enableCheatsByDefault w event = some w' →
      ¬ event.MasterSafe → ¬ MasterOn w'.manager :=
  ⟨fun _ _ h hsafe => (MasterInv.run h hsafe).master,
    fun _ _ _ hs hbadfile => not_masterOn_of_not_masterSafe hs hbadfile⟩

/-- A launch that finds a master cheat, in a run without forced attaches. -/
theorem masterOn_of_masterSafe_launch :
    ∃ w, Run quietKernel true { env := () }
        [.beginLaunch, .launch (attachTo "\x7bM\x7d00000000".toUTF8.toList)] w ∧
      w.manager.attached = true ∧ (w.manager.entries 0).definition.opcodes = [0] ∧
      (w.manager.entries 0).enabled = true := by
  have hval : ((runEvents quietKernel true { env := () }
      [.beginLaunch, .launch (attachTo "\x7bM\x7d00000000".toUTF8.toList)]).map fun w =>
        (w.manager.attached, (w.manager.entries 0).definition.opcodes)) = some (true, [0]) := by
    decide +kernel
  obtain ⟨w, hw, hvals⟩ := Option.map_eq_some_iff.mp hval
  obtain ⟨hatt, hopcodes⟩ := Prod.mk.inj hvals
  have hrun := run_of_runEvents .nil hw
  refine ⟨w, hrun, hatt, hopcodes, ?_⟩
  refine (masterOn_of_masterSafe quietKernel true ()).1 _ w hrun ?_ hatt ?_
  · intro event hevent
    simp only [List.nil_append, List.mem_cons, List.not_mem_nil, or_false] at hevent
    rcases hevent with rfl | rfl
    · trivial
    · trivial
  · rw [hopcodes]
    decide

/-- A forced attach that finds a master cheat with a stray character behind it: the process is
attached, the master cheat has an opcode and is off. -/
theorem masterOn_fails_after_forced_attach :
    ¬ ∀ events w, Run quietKernel true { env := () } events w → MasterOn w.manager := by
  intro h
  have hval : ((runEvents quietKernel true { env := () }
      [.beginForceOpen, .forceOpen (attachTo "\x7bM\x7d00000000!".toUTF8.toList)]).map fun w =>
        (w.manager.attached, (w.manager.entries 0).definition.opcodes,
          (w.manager.entries 0).enabled)) = some (true, [0], false) := by
    decide +kernel
  obtain ⟨w, hw, hvals⟩ := Option.map_eq_some_iff.mp hval
  obtain ⟨hatt, hvals⟩ := Prod.mk.inj hvals
  obtain ⟨hopcodes, hoff⟩ := Prod.mk.inj hvals
  have hon := h _ w (run_of_runEvents .nil hw) hatt (by rw [hopcodes]; decide)
  rw [hoff] at hon
  cases hon

/-! ## The tables of a run -/

lemma Changes.reachable (hc : Changes m m') (h : Reachable m.entries) : Reachable m'.entries := by
  induction hc with
  | refl => exact h
  | tail _ hc ih =>
    cases hc with
    | close =>
      unfold closeActiveCheatProcess
      split
      · exact .reset
      · exact ih
    | frozen f => exact ih
    | toggle i hi => exact .toggle i ih
    | add definition enabled hfree hne => exact .add definition enabled ih hne hfree
    | remove i => exact .remove i ih

/-- The tables of a run are those that `Reachable` makes, so what the toggle files promise of these
they promise of the manager's. -/
lemma Run.reachable {ε : Type} {K : Kernel ε} {e : ε} {events : List Event} {w : World ε}
    (h : Run K b { env := e } events w) : Reachable w.manager.entries := by
  induction h with
  | nil => exact .initial
  | snoc _ hs ih =>
    rcases step_cases hs with ⟨hc, -, -⟩ | ⟨input, -, -, rfl⟩ | ⟨input, manager, -, -, hm, rfl⟩ |
      ⟨flags, s₁, vm₁, hreload, hc, -, -⟩
    · exact hc.reachable ih
    · rcases forceOpenCheatProcess_cases b _ input with ⟨-, _, hm⟩ | ⟨-, _, _, hm⟩
      · rw [hm]
        exact ih
      · rw [hm]
        exact input.entries_reachable b
    · rcases onNewApplicationLaunch_cases hm with ⟨_, rfl⟩ | ⟨_, _, _, hr, rfl⟩ |
        ⟨_, _, _, -, -, rfl⟩
      · exact ih
      · exact hr
      · exact input.entries_reachable b
    · obtain ⟨m, flag, hc₁, hm⟩ := vmThreadReload_manager hreload
      have hr : Reachable s₁.1.entries := by
        rw [hm]
        exact hc₁.reachable ih
      exact hc.reachable hr

end RajNX.Dmnt
