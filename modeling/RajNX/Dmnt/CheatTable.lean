import RajNX.Dmnt.Vm

/-!
# Cheat entry table

`CheatDefinition`, `CheatEntry` and the global entry storage of `dmnt_cheat_manager.cpp` with its
reset and lookup functions, and `DmntCheatVm::LoadProgram`, which flattens the enabled entries into
the VM's program.

`readableName` is the C string in the name buffer, that is what `strcmp` and `fprintf` see of it,
and `opcodes` is the part of the opcode array below `num_opcodes`.
-/

namespace RajNX.Dmnt

open WordStream

/-- There is an entry for the master cheat. -/
lemma neZero_cheatEntries : NeZero 128 := ⟨by decide⟩

/-- `DmntCheatManager::MaxCheatCount` -/
abbrev maxCheatCount : Nat := 0x80

/-- `sizeof(CheatDefinition::readable_name)` -/
def readableNameSize : Nat := 0x40

/-- `sts::util::size(CheatDefinition::opcodes)` -/
def maxOpcodes : Nat := 0x100

/-- `CheatDefinition` -/
structure CheatDefinition where
  readableName : List UInt8 := []
  opcodes : List UInt32 := []
deriving Repr, DecidableEq

/-- `num_opcodes` -/
def CheatDefinition.numOpcodes (definition : CheatDefinition) : Nat := definition.opcodes.length

/-- `CheatEntry` -/
structure CheatEntry where
  enabled : Bool := false
  cheatId : Nat := 0
  definition : CheatDefinition := {}
deriving Repr, DecidableEq

/-- `g_cheat_entries` -/
abbrev CheatEntries := Fin maxCheatCount → CheatEntry

/-- The indices of a loop over the non-master entries. -/
def nonMasterIds : List (Fin maxCheatCount) := (List.finRange maxCheatCount).tail

/-- The entry `ResetCheatEntry` leaves behind. -/
def resetEntry (i : Fin maxCheatCount) : CheatEntry := { cheatId := i }

/-- The table `ResetAllCheatEntries` leaves behind. -/
def resetEntries : CheatEntries := resetEntry

/-- `DmntCheatManager::GetFreeCheatEntry` -/
def getFreeCheatEntry (entries : CheatEntries) : Option (Fin maxCheatCount) :=
  nonMasterIds.find? fun i => (entries i).definition.numOpcodes == 0

/-- `DmntCheatManager::GetCheatEntryById` -/
def getCheatEntryById (i : Nat) : Option (Fin maxCheatCount) :=
  if h : i < maxCheatCount then some ⟨i, h⟩ else none

/-- `DmntCheatManager::GetCheatEntryByReadableName` -/
def getCheatEntryByReadableName (entries : CheatEntries) (readableName : List UInt8) : Option (Fin maxCheatCount) :=
  nonMasterIds.find? fun i => (entries i).definition.readableName == readableName

/-- The assignment of `DmntCheatManager::ToggleCheat`. -/
def toggleEntry (entries : CheatEntries) (i : Fin maxCheatCount) : CheatEntries :=
  Function.update entries i { entries i with enabled := !(entries i).enabled }

/-- The assignments of `DmntCheatManager::AddCheat`. -/
def fillEntry (entries : CheatEntries) (i : Fin maxCheatCount) (definition : CheatDefinition)
    (enabled : Bool) : CheatEntries :=
  Function.update entries i { entries i with enabled, definition }

/-- `DmntCheatManager::ResetCheatEntry` -/
def resetCheatEntry (entries : CheatEntries) (i : Fin maxCheatCount) : CheatEntries :=
  Function.update entries i (resetEntry i)

variable {i : Fin maxCheatCount}

lemma mem_nonMasterIds : i ∈ nonMasterIds ↔ i ≠ 0 := by
  have h : List.finRange maxCheatCount = 0 :: nonMasterIds := by
    rw [nonMasterIds, List.finRange_succ, List.tail_cons]
  constructor
  · rintro hi rfl
    have := List.nodup_finRange maxCheatCount
    rw [h, List.nodup_cons] at this
    exact this.1 hi
  · intro hi
    have := List.mem_finRange i
    rw [h, List.mem_cons] at this
    exact this.resolve_left hi

/-- A search through increasing values finds the least. -/
lemma find?_eq_some_of_pairwise_lt {l : List (Fin maxCheatCount)} (h : l.Pairwise (· < ·))
    {p : Fin maxCheatCount → Bool} : l.find? p = some i ↔ i ∈ l ∧ p i = true ∧ ∀ j ∈ l, j < i → p j = false := by
  induction l with
  | nil => simp
  | cons a l ih =>
    obtain ⟨ha, h⟩ := List.pairwise_cons.mp h
    cases hpa : p a with
    | true =>
      rw [List.find?_cons_of_pos hpa]
      constructor
      · rintro ⟨⟩
        refine ⟨List.mem_cons_self, hpa, ?_⟩
        intro j hj hja
        rcases List.mem_cons.mp hj with rfl | hj
        · exact absurd hja (lt_irrefl _)
        · exact absurd hja (lt_asymm (ha j hj))
      · rintro ⟨hi, -, hall⟩
        rcases List.mem_cons.mp hi with rfl | hi
        · rfl
        · rw [hall a List.mem_cons_self (ha i hi)] at hpa
          cases hpa
    | false =>
      rw [List.find?_cons_of_neg (by simp [hpa]), ih h]
      constructor
      · rintro ⟨hi, hpi, hall⟩
        refine ⟨List.mem_cons_of_mem _ hi, hpi, ?_⟩
        intro j hj hji
        rcases List.mem_cons.mp hj with rfl | hj
        · exact hpa
        · exact hall j hj hji
      · rintro ⟨hi, hpi, hall⟩
        rcases List.mem_cons.mp hi with rfl | hi
        · rw [hpa] at hpi
          cases hpi
        · exact ⟨hi, hpi, fun j hj => hall j (List.mem_cons_of_mem _ hj)⟩

/-- A loop over the non-master entries stops at the first one it looks for. -/
lemma find?_nonMasterIds {p : Fin maxCheatCount → Bool} :
    nonMasterIds.find? p = some i ↔ i ≠ 0 ∧ p i = true ∧ ∀ j, j ≠ 0 → j < i → p j = false := by
  have hsorted : nonMasterIds.Pairwise (· < ·) := (List.pairwise_lt_finRange _).tail
  rw [find?_eq_some_of_pairwise_lt hsorted]
  simp only [mem_nonMasterIds]

/-- The entry that is found free has none free in front. -/
lemma getFreeCheatEntry_eq_some {entries : CheatEntries} :
    getFreeCheatEntry entries = some i ↔ i ≠ 0 ∧ (entries i).definition.opcodes = [] ∧
      ∀ j, j ≠ 0 → j < i → (entries j).definition.opcodes ≠ [] := by
  simp only [getFreeCheatEntry, find?_nonMasterIds, CheatDefinition.numOpcodes, beq_iff_eq,
    beq_eq_false_iff_ne, List.length_eq_zero_iff, ne_eq]

/-- The entry that is found by its name has none of that name in front. -/
lemma getCheatEntryByReadableName_eq_some {entries : CheatEntries} {name : List UInt8}
    : getCheatEntryByReadableName entries name = some i ↔ i ≠ 0 ∧ (entries i).definition.readableName = name ∧
        ∀ j, j ≠ 0 → j < i → (entries j).definition.readableName ≠ name := by
  simp only [getCheatEntryByReadableName, find?_nonMasterIds, beq_iff_eq, beq_eq_false_iff_ne, ne_eq]

/-! ## Loading the program -/

/-- The inner loop of `DmntCheatVm::LoadProgram`. -/
def DmntCheatVm.append (vm : DmntCheatVm) (opcodes : List UInt32) : DmntCheatVm :=
  opcodes.foldl (fun vm w => { vm with
    program := Function.update vm.program vm.numOpcodes w
    numOpcodes := vm.numOpcodes + 1 }) vm

/-- The outer loop of `DmntCheatVm::LoadProgram`. -/
def loadProgramLoop : List CheatEntry → DmntCheatVm → Bool × DmntCheatVm
  | [], vm => (true, vm)
  | cheat :: cheats, vm =>
    if cheat.enabled then
      if cheat.definition.numOpcodes + vm.numOpcodes > maximumProgramOpcodeCount then
        (false, { vm with numOpcodes := 0 })
      else loadProgramLoop cheats (vm.append cheat.definition.opcodes)
    else loadProgramLoop cheats vm

/-- `DmntCheatVm::LoadProgram` -/
def loadProgram (cheats : List CheatEntry) (vm : DmntCheatVm) : Bool × DmntCheatVm :=
  loadProgramLoop cheats { vm with numOpcodes := 0 }

/-- What the enabled entries ask the VM to run, in entry order. -/
def enabledOpcodes (cheats : List CheatEntry) : List UInt32 :=
  (cheats.filter (·.enabled)).flatMap (·.definition.opcodes)

/-- A write behind a window does not show in it. -/
lemma window_update (program : Nat → UInt32) (w : UInt32) (pos n k : Nat) (h : pos + n ≤ k) :
    window (Function.update program k w) pos n = window program pos n := by
  induction n generalizing pos with
  | zero => rfl
  | succ n ih =>
    rw [window, window, ih _ (by omega), Function.update_of_ne (by omega)]

/-- Appending words to the program appends them to its words. -/
lemma DmntCheatVm.words_append (vm : DmntCheatVm) (opcodes : List UInt32) :
    (vm.append opcodes).words = vm.words ++ opcodes := by
  induction opcodes generalizing vm with
  | nil => simp [append]
  | cons w ws ih =>
    have hw : ({ vm with
        program := Function.update vm.program vm.numOpcodes w
        numOpcodes := vm.numOpcodes + 1 } : DmntCheatVm).words = vm.words ++ [w] := by
      rw [words, words]
      simp only
      rw [window_add, window_update _ _ _ _ _ (by omega)]
      simp only [window, Nat.zero_add, Function.update_self]
    rw [append, List.foldl_cons, ← append, ih, hw, List.append_assoc]
    rfl

lemma DmntCheatVm.length_words (vm : DmntCheatVm) : vm.words.length = vm.numOpcodes :=
  length_window _ _

/-- The loop adds the enabled entries' words behind those that are there, or gives up and leaves
the program empty. -/
lemma loadProgramLoop_spec (cheats : List CheatEntry) (vm : DmntCheatVm) :
    (vm.words.length + (enabledOpcodes cheats).length ≤ maximumProgramOpcodeCount →
      (loadProgramLoop cheats vm).1 = true ∧
      (loadProgramLoop cheats vm).2.words = vm.words ++ enabledOpcodes cheats) ∧
    (vm.words.length ≤ maximumProgramOpcodeCount →
      maximumProgramOpcodeCount < vm.words.length + (enabledOpcodes cheats).length →
      (loadProgramLoop cheats vm).1 = false ∧ (loadProgramLoop cheats vm).2.words = []) := by
  induction cheats generalizing vm with
  | nil =>
    refine ⟨fun _ => ⟨rfl, by simp [loadProgramLoop, enabledOpcodes]⟩, fun h1 h2 => ?_⟩
    simp only [enabledOpcodes, List.filter_nil, List.flatMap_nil, List.length_nil] at h2
    omega
  | cons cheat cheats ih =>
    obtain ⟨ih1, ih2⟩ := ih (vm.append cheat.definition.opcodes)
    rw [vm.words_append, List.length_append] at ih1 ih2
    rw [loadProgramLoop]
    cases hen : cheat.enabled with
    | false =>
      have hskip : enabledOpcodes (cheat :: cheats) = enabledOpcodes cheats := by
        simp [enabledOpcodes, hen]
      rw [hskip, if_neg (by decide)]
      exact ih vm
    | true =>
      have htake : enabledOpcodes (cheat :: cheats) =
          cheat.definition.opcodes ++ enabledOpcodes cheats := by
        simp [enabledOpcodes, hen]
      rw [htake, if_pos rfl, List.length_append, CheatDefinition.numOpcodes, ← vm.length_words]
      split
      · refine ⟨fun h => by omega, fun _ _ => ⟨rfl, rfl⟩⟩
      · refine ⟨fun h => ?_, fun h1 h2 => ?_⟩
        · obtain ⟨h1, h2⟩ := ih1 (by omega)
          exact ⟨h1, by rw [h2, List.append_assoc]⟩
        · exact ih2 (by omega) (by omega)

/-- `LoadProgram` succeeds exactly if the enabled entries fit, and then the program is their
concatenation; otherwise the program is empty. -/
lemma loadProgram_spec (cheats : List CheatEntry) (vm : DmntCheatVm) :
    ((loadProgram cheats vm).1 = true ↔ (enabledOpcodes cheats).length ≤ maximumProgramOpcodeCount) ∧
    (loadProgram cheats vm).2.words = if (enabledOpcodes cheats).length ≤ maximumProgramOpcodeCount
      then enabledOpcodes cheats else [] := by
  obtain ⟨h1, h2⟩ := loadProgramLoop_spec cheats { vm with numOpcodes := 0 }
  have hwords : ({ vm with numOpcodes := 0 } : DmntCheatVm).words = [] := rfl
  rw [hwords, List.length_nil, Nat.zero_add] at h1 h2
  by_cases hfit : (enabledOpcodes cheats).length ≤ maximumProgramOpcodeCount
  · obtain ⟨h, hw⟩ := h1 hfit
    rw [if_pos hfit]
    exact ⟨⟨fun _ => hfit, fun _ => h⟩, hw⟩
  · obtain ⟨h, hw⟩ := h2 (Nat.zero_le _) (by omega)
    rw [if_neg hfit]
    refine ⟨⟨fun h' => ?_, fun h' => absurd h' hfit⟩, hw⟩
    rw [loadProgram, h] at h'
    exact absurd h' (by decide)

end RajNX.Dmnt
