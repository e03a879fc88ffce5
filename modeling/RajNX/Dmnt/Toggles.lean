import RajNX.Dmnt.ParseCheats

/-!
# Toggle files

`DmntCheatManager::SaveCheatToggles` and `DmntCheatManager::ParseCheatToggles`
(`dmnt_cheat_manager.cpp`), which keep the enabled flags over a session, keyed by the cheats' names.

The reader looks a name up over all entries, free ones included, and a header without words leaves
its name behind in a free entry. It does so behind all entries in use only: `Reachable` are the
tables the manager's operations make, and `Reachable.named_free_last` is that fact. It is what lets
`parseCheatToggles_saveCheatToggles` ask for distinct names of the entries in use alone.
-/

namespace RajNX.Dmnt

attribute [local instance] neZero_cheatEntries

/-- `tolower` in the C locale. -/
def toLower (c : UInt8) : UInt8 := if 0x41 ≤ c && c ≤ 0x5A then c + 0x20 else c

/-- `strcasecmp(a, b) == 0` -/
def strcasecmpEq (a b : List UInt8) : Bool := a.map toLower == b.map toLower

/-- `sizeof(toggle)` -/
def toggleSize : Nat := 8

/-- The scan for the white space that ends a toggle, from the number of bytes it has already. -/
def scanToggle : Nat → List UInt8 → Option (List UInt8 × List UInt8)
  | _, [] => none
  | n, c :: cs =>
    if isSpace c then some ([], cs)
    else if cs = [] ∨ n + 1 ≥ toggleSize then none
    else (scanToggle (n + 1) cs).map fun p => (c :: p.1, p.2)

/-- Read a toggle. The first byte is not looked at, and where the text has ended already the scan
starts behind its NUL, at a byte `beyond` the text. -/
def parseToggle (beyond : UInt8) : List UInt8 → Option (List UInt8 × List UInt8)
  | [] => if isSpace beyond then some ([], []) else none
  | c :: cs => (scanToggle 1 cs).map fun p => (c :: p.1, p.2)

/-- The flag a toggle stands for, if it is one of the known words. -/
def toggleValue (toggle : List UInt8) : Option Bool :=
  if strcasecmpEq toggle "1".toUTF8.toList || strcasecmpEq toggle "true".toUTF8.toList ||
      strcasecmpEq toggle "on".toUTF8.toList then some true
  else if strcasecmpEq toggle "0".toUTF8.toList || strcasecmpEq toggle "false".toUTF8.toList ||
      strcasecmpEq toggle "off".toUTF8.toList then some false
  else none

/-- Set the flag of the entry of that name; a name or a toggle that is not known is ignored. -/
def applyToggle (entries : CheatEntries) (name toggle : List UInt8) : CheatEntries :=
  match getCheatEntryByReadableName entries (name.takeWhile (· != 0)), toggleValue toggle with
  | some i, some enabled => Function.update entries i { entries i with enabled }
  | _, _ => entries

/-- The body of the loop of `DmntCheatManager::ParseCheatToggles`. -/
def toggleStep (beyond : UInt8) (entries : CheatEntries) :
    List UInt8 → Option (CheatEntries × List UInt8)
  | [] => none
  | c :: cs =>
    if isSpace c then some (entries, cs)
    else if c = leftBracket then
      match scanName rightBracket 0 cs with
      | none => none
      | some (name, rest) =>
        (parseToggle beyond (rest.dropWhile isSpace)).map fun p =>
          (applyToggle entries name p.1, p.2)
    else none

/-- The loop of `DmntCheatManager::ParseCheatToggles`. -/
def toggleLoop (beyond : UInt8) : Nat → CheatEntries → List UInt8 → Bool × CheatEntries
  | _, entries, [] => (true, entries)
  | 0, entries, _ :: _ => (false, entries)
  | fuel + 1, entries, s@(_ :: _) =>
    match toggleStep beyond entries s with
    | some (entries, s) => toggleLoop beyond fuel entries s
    | none => (false, entries)

/-- `DmntCheatManager::ParseCheatToggles`: whether the text was accepted, and the entries. -/
def parseCheatToggles (beyond : UInt8) (entries : CheatEntries) (s : List UInt8) : Bool × CheatEntries :=
  toggleLoop beyond s.length entries s

/-- What `SaveCheatToggles` prints for an entry. -/
def toggleLines (entry : CheatEntry) : List UInt8 :=
  leftBracket :: (entry.definition.readableName ++ rightBracket :: 0x0A ::
    if entry.enabled then "true\n".toUTF8.toList else "false\n".toUTF8.toList)

/-- The file `DmntCheatManager::SaveCheatToggles` writes. -/
def saveCheatToggles (entries : CheatEntries) : List UInt8 :=
  (nonMasterIds.filter fun i => (entries i).definition.numOpcodes != 0).flatMap
    fun i => toggleLines (entries i)

/-! ## The tables there are -/

/-- `g_cheat_entries` before anything has happened. -/
def initialEntries : CheatEntries := fun _ => {}

/-- The tables that resetting, parsing files and the manager's commands make. -/
inductive Reachable : CheatEntries → Prop where
  | initial :
    Reachable initialEntries
  | reset :
    Reachable resetEntries
  | parse (enableCheatsByDefault : Bool) (s : List UInt8) :
    0 ∉ s →
    Reachable (parseCheats enableCheatsByDefault resetEntries s).2
  | parseToggles {entries} (beyond : UInt8) (s : List UInt8) :
    Reachable entries →
    Reachable (parseCheatToggles beyond entries s).2
  | toggle {entries} (i : Fin maxCheatCount) :
    Reachable entries →
    Reachable (toggleEntry entries i)
  | add {entries} {i : Fin maxCheatCount} (definition : CheatDefinition) (enabled : Bool) :
    Reachable entries →
    definition.opcodes ≠ [] →
    getFreeCheatEntry entries = some i →
    Reachable (fillEntry entries i definition enabled)
  | remove {entries} (i : Fin maxCheatCount) :
    Reachable entries →
    Reachable (resetCheatEntry entries i)

/-- Behind a free entry that has a name no entry is in use. -/
def NamedFreeLast (entries : CheatEntries) : Prop :=
  ∀ i j : Fin maxCheatCount, i ≠ 0 → i < j → (entries i).definition.opcodes = [] →
    (entries i).definition.readableName ≠ [] → (entries j).definition.opcodes = []

/-- Only the definitions matter. -/
lemma NamedFreeLast.congr {entries entries' : CheatEntries} (h : NamedFreeLast entries)
    (hd : ∀ i, (entries' i).definition = (entries i).definition) : NamedFreeLast entries' := by
  intro i j hi hij
  rw [hd, hd]
  exact h i j hi hij

/-- A parsed table has its cheats in front. -/
lemma Table.namedFreeLast {m ds entries} (h : Table m ds entries) : NamedFreeLast entries := by
  intro i j hi hij hfree _
  apply h.free
  by_contra hlt
  have hi0 : i.val ≠ 0 := fun h0 => hi (Fin.ext h0)
  have hk : i.val - 1 < ds.length := by omega
  rw [h.definition_eq hi0 hk] at hfree
  exact h.live _ (List.getElem_mem hk) hfree

lemma applyToggle_definition (entries : CheatEntries) (name toggle : List UInt8) (i : Fin maxCheatCount) :
    (applyToggle entries name toggle i).definition = (entries i).definition := by
  unfold applyToggle
  cases getCheatEntryByReadableName entries (name.takeWhile (· != 0)) with
  | none => rfl
  | some j =>
    cases toggleValue toggle with
    | none => rfl
    | some enabled =>
      by_cases hij : i = j
      · rw [hij]
        simp only [Function.update_self]
      · simp only [Function.update_of_ne hij]

variable {entries : CheatEntries}

/-- A step sets a flag or does nothing. -/
lemma toggleStep_some {beyond : UInt8} {s : List UInt8}
    {p : CheatEntries × List UInt8} (h : toggleStep beyond entries s = some p) :
    p.1 = entries ∨ ∃ name toggle, p.1 = applyToggle entries name toggle := by
  cases s with
  | nil => cases h
  | cons c cs =>
    rw [toggleStep] at h
    split at h
    · cases h
      exact .inl rfl
    · split at h
      · split at h
        · cases h
        · obtain ⟨q, -, rfl⟩ := Option.map_eq_some_iff.mp h
          exact .inr ⟨_, _, rfl⟩
      · cases h

/-- Reading toggles changes no definition. -/
lemma toggleLoop_definition (beyond : UInt8) (fuel : Nat) (entries : CheatEntries) (s : List UInt8)
    (i : Fin maxCheatCount) : ((toggleLoop beyond fuel entries s).2 i).definition = (entries i).definition := by
  induction fuel generalizing entries s with
  | zero => cases s <;> rfl
  | succ fuel ih =>
    cases s with
    | nil => rfl
    | cons c cs =>
      rw [toggleLoop]
      cases hstep : toggleStep beyond entries (c :: cs) with
      | none => rfl
      | some p =>
        have hp : (p.1 i).definition = (entries i).definition := by
          rcases toggleStep_some hstep with hp | ⟨name, toggle, hp⟩
          · rw [hp]
          · rw [hp, applyToggle_definition]
        exact (ih p.1 p.2).trans hp

/-- Reading toggles does not touch the master cheat, which is never looked up. -/
lemma applyToggle_zero (entries : CheatEntries) (name toggle : List UInt8) :
    applyToggle entries name toggle 0 = entries 0 := by
  unfold applyToggle
  cases hi : getCheatEntryByReadableName entries (name.takeWhile (· != 0)) with
  | none => rfl
  | some i =>
    obtain ⟨hi0, -, -⟩ := getCheatEntryByReadableName_eq_some.mp hi
    cases toggleValue toggle with
    | none => rfl
    | some enabled => simp only [Function.update_of_ne hi0.symm]

lemma toggleLoop_zero (beyond : UInt8) (fuel : Nat) (entries : CheatEntries) (s : List UInt8) :
    (toggleLoop beyond fuel entries s).2 0 = entries 0 := by
  induction fuel generalizing entries s with
  | zero => cases s <;> rfl
  | succ fuel ih =>
    cases s with
    | nil => rfl
    | cons c cs =>
      rw [toggleLoop]
      cases hstep : toggleStep beyond entries (c :: cs) with
      | none => rfl
      | some p =>
        have hp : p.1 0 = entries 0 := by
          rcases toggleStep_some hstep with hp | ⟨name, toggle, hp⟩
          · rw [hp]
          · rw [hp, applyToggle_zero]
        exact (ih p.1 p.2).trans hp

lemma parseCheatToggles_definition (beyond : UInt8) (entries : CheatEntries) (s : List UInt8) (i : Fin maxCheatCount) :
    ((parseCheatToggles beyond entries s).2 i).definition = (entries i).definition :=
  toggleLoop_definition beyond s.length entries s i

/-- Every table there is keeps its named free entries behind all entries in use. -/
lemma Reachable.named_free_last (h : Reachable entries) : NamedFreeLast entries := by
  induction h with
  | initial => exact fun _ _ _ _ _ _ => rfl
  | reset => exact fun _ _ _ _ _ _ => rfl
  | parse enableCheatsByDefault s h0 =>
    obtain ⟨f, rest, -, ht, -⟩ := parseLoop_splits h0
    exact ht.namedFreeLast.congr (parseCheats_definition enableCheatsByDefault resetEntries s)
  | parseToggles beyond s _ ih => exact ih.congr (parseCheatToggles_definition beyond _ s)
  | toggle i _ ih =>
    refine ih.congr fun j => ?_
    by_cases hij : j = i
    · rw [toggleEntry, hij, Function.update_self]
    · rw [toggleEntry, Function.update_of_ne hij]
  | @add entries p definition enabled _ hne hfree ih =>
    obtain ⟨hp0, -, hfirst⟩ := getFreeCheatEntry_eq_some.mp hfree
    intro i j hi hij hnil hname
    rw [fillEntry] at hnil hname ⊢
    by_cases hip : i = p
    · rw [hip, Function.update_self] at hnil
      exact absurd hnil hne
    rw [Function.update_of_ne hip] at hnil hname
    -- entries in front of the one that was filled are in use
    have hpi : p < i := by
      rcases lt_trichotomy i p with h | h | h
      · exact absurd hnil (hfirst i hi h)
      · exact absurd h hip
      · exact h
    rw [Function.update_of_ne (ne_of_gt (hpi.trans hij))]
    exact ih i j hi hij hnil hname
  | @remove entries r _ ih =>
    intro i j hi hij hnil hname
    rw [resetCheatEntry] at hnil hname ⊢
    by_cases hir : i = r
    · rw [hir, Function.update_self] at hname
      exact absurd rfl hname
    rw [Function.update_of_ne hir] at hnil hname
    by_cases hjr : j = r
    · rw [hjr, Function.update_self]
      rfl
    · rw [Function.update_of_ne hjr]
      exact ih i j hi hij hnil hname

/-! ## Writing and reading back -/

/-- `entries` with other flags. -/
def setFlags (entries : CheatEntries) (flags : Fin maxCheatCount → Bool) : CheatEntries := fun i =>
  { entries i with enabled := flags i }

/-- The names that `ParseCheats` can give a cheat. -/
structure GoodName (name : List UInt8) : Prop where
  nonempty : name ≠ []
  bracket : rightBracket ∉ name
  nul : 0 ∉ name
  length : name.length < readableNameSize

/-- The cheats in use have names that tell them apart. -/
structure GoodNames (entries : CheatEntries) : Prop where
  good : ∀ i, i ≠ 0 → (entries i).definition.opcodes ≠ [] → GoodName (entries i).definition.readableName
  distinct : ∀ i j, i ≠ 0 → j ≠ 0 → (entries i).definition.opcodes ≠ [] → (entries j).definition.opcodes ≠ [] →
    (entries i).definition.readableName = (entries j).definition.readableName → i = j

/-- The name of an entry in use finds this entry. -/
lemma GoodNames.lookup (h : GoodNames entries) (hlast : NamedFreeLast entries) {i : Fin maxCheatCount} (hi : i ≠ 0)
    (hlive : (entries i).definition.opcodes ≠ []) :
    getCheatEntryByReadableName entries (entries i).definition.readableName = some i := by
  refine getCheatEntryByReadableName_eq_some.mpr ⟨hi, rfl, ?_⟩
  intro j hj hji hname
  by_cases hfree : (entries j).definition.opcodes = []
  · refine hlive (hlast j i hj hji hfree ?_)
    rw [hname]
    exact (h.good i hi hlive).nonempty
  · exact absurd (h.distinct j i hj hi hfree hlive hname) (ne_of_lt hji)

/-- The lines written for an entry are read back by one step, which sets that entry's flag. -/
lemma toggleStep_toggleLines {entry : CheatEntry} {i : Fin maxCheatCount} (beyond : UInt8)
    (hgood : GoodName entry.definition.readableName)
    (hlookup : getCheatEntryByReadableName entries entry.definition.readableName = some i) (rest : List UInt8) :
    toggleStep beyond entries (toggleLines entry ++ rest) =
      some (Function.update entries i { entries i with enabled := entry.enabled }, rest) := by
  have hscan : ∀ tail, scanName rightBracket 0
      (entry.definition.readableName ++ rightBracket :: tail) =
        some (entry.definition.readableName, tail) := by
    intro tail
    exact scanName_append hgood.bracket (by have := hgood.length; omega)
  have hlook : ∀ toggle b, toggleValue toggle = some b → applyToggle entries entry.definition.readableName toggle =
        Function.update entries i { entries i with enabled := b } := by
    intro toggle b hb
    rw [applyToggle, takeWhile_ne_zero hgood.nul, hlookup, hb]
  rw [toggleLines, List.cons_append, List.append_assoc, List.cons_append, List.cons_append,
    toggleStep, if_neg (by decide), if_pos rfl, hscan]
  -- what is left is to run the rest of the step on the two words that are written
  have htrue : "true\n".toUTF8.toList = [0x74, 0x72, 0x75, 0x65, 0x0A] := by decide +kernel
  have hfalse : "false\n".toUTF8.toList = [0x66, 0x61, 0x6C, 0x73, 0x65, 0x0A] := by
    decide +kernel
  cases entry.enabled with
  | true =>
    rw [if_pos rfl, htrue]
    exact congrArg some (Prod.ext (hlook [0x74, 0x72, 0x75, 0x65] true (by decide +kernel)) rfl)
  | false =>
    rw [if_neg (by decide), hfalse]
    exact congrArg some
      (Prod.ext (hlook [0x66, 0x61, 0x6C, 0x73, 0x65] false (by decide +kernel)) rfl)

/-- Reading back the lines of a list of entries sets exactly their flags. -/
lemma toggleLoop_toggleLines {saved : CheatEntries} (beyond : UInt8)
    {ids : List (Fin maxCheatCount)} {entries : CheatEntries}
    (hd : ∀ i, (entries i).definition = (saved i).definition)
    (hids : ∀ i ∈ ids, GoodName (saved i).definition.readableName ∧
      getCheatEntryByReadableName saved (saved i).definition.readableName = some i)
    {fuel : Nat} (hfuel : (ids.flatMap fun i => toggleLines (saved i)).length ≤ fuel) :
    (toggleLoop beyond fuel entries (ids.flatMap fun i => toggleLines (saved i))).1 = true ∧
      ∀ i, (toggleLoop beyond fuel entries (ids.flatMap fun i => toggleLines (saved i))).2 i =
        if i ∈ ids then { entries i with enabled := (saved i).enabled } else entries i := by
  -- the names stay as they are, so that each one is still found after the others were toggled
  induction ids generalizing entries fuel with
  | nil =>
    have hloop : toggleLoop beyond fuel entries [] = (true, entries) := by cases fuel <;> rfl
    rw [List.flatMap_nil, hloop]
    exact ⟨rfl, fun i => by simp⟩
  | cons k ids ih =>
    obtain ⟨⟨hgood, hlookup⟩, hids⟩ := List.forall_mem_cons.mp hids
    have hlookup' : getCheatEntryByReadableName entries (saved k).definition.readableName =
        some k := by
      rw [← hlookup]
      simp only [getCheatEntryByReadableName, hd]
    have hstep := toggleStep_toggleLines beyond hgood hlookup'
      (ids.flatMap fun i => toggleLines (saved i))
    rw [List.flatMap_cons] at hfuel ⊢
    rw [List.length_append] at hfuel
    obtain ⟨fuel, rfl⟩ : ∃ n, fuel = n + 1 := by
      refine ⟨fuel - 1, ?_⟩
      simp only [toggleLines, List.length_cons] at hfuel
      omega
    have hloop : toggleLoop beyond (fuel + 1) entries
        (toggleLines (saved k) ++ ids.flatMap fun i => toggleLines (saved i)) =
        toggleLoop beyond fuel
          (Function.update entries k { entries k with enabled := (saved k).enabled })
          (ids.flatMap fun i => toggleLines (saved i)) := by
      rw [toggleLines, List.cons_append] at hstep ⊢
      rw [toggleLoop, hstep]
    have hd' : ∀ i, (Function.update entries k
        { entries k with enabled := (saved k).enabled } i).definition = (saved i).definition := by
      intro i
      by_cases hik : i = k
      · rw [hik, Function.update_self]
        exact hd k
      · rw [Function.update_of_ne hik]
        exact hd i
    have hfuel' : (ids.flatMap fun i => toggleLines (saved i)).length ≤ fuel := by
      simp only [toggleLines, List.length_cons] at hfuel ⊢
      omega
    obtain ⟨h1, h2⟩ := ih hd' hids hfuel'
    rw [hloop]
    refine ⟨h1, fun i => ?_⟩
    rw [h2]
    by_cases hik : i = k
    · subst hik
      simp
    · simp [hik]

/-- Toggles survive a session: on any table there is whose cheats in use have distinct good names,
the file written for any flags is accepted and brings these flags back to every cheat in use, from
any flags before, and changes neither the master entry nor any definition. -/
theorem parseCheatToggles_saveCheatToggles (beyond : UInt8)
    (hr : Reachable entries) (hnames : GoodNames entries) (flags defaults : Fin maxCheatCount → Bool) :
    let result := parseCheatToggles beyond (setFlags entries defaults)
      (saveCheatToggles (setFlags entries flags))
    result.1 = true ∧
    (∀ i, i ≠ 0 → (entries i).definition.opcodes ≠ [] → (result.2 i).enabled = flags i) ∧
    result.2 0 = setFlags entries defaults 0 ∧
    ∀ i, (result.2 i).definition = (entries i).definition := by
  have hlast := hr.named_free_last
  have hids : ∀ i ∈ nonMasterIds.filter
      fun i => (setFlags entries flags i).definition.numOpcodes != 0,
      i ≠ 0 ∧ (entries i).definition.opcodes ≠ [] := by
    intro i hi
    obtain ⟨h1, h2⟩ := List.mem_filter.mp hi
    refine ⟨mem_nonMasterIds.mp h1, fun hnil => ?_⟩
    simp [setFlags, CheatDefinition.numOpcodes, hnil] at h2
  obtain ⟨h1, h2⟩ := @toggleLoop_toggleLines (setFlags entries flags) beyond
    (nonMasterIds.filter fun i => (setFlags entries flags i).definition.numOpcodes != 0)
    (setFlags entries defaults) (fun _ => rfl)
    (fun i hi => ⟨hnames.good i (hids i hi).1 (hids i hi).2,
      hnames.lookup hlast (hids i hi).1 (hids i hi).2⟩) _ (Nat.le_refl _)
  refine ⟨h1, ?_, ?_, ?_⟩
  · intro i hi hlive
    have hmem : i ∈ nonMasterIds.filter
        fun i => (setFlags entries flags i).definition.numOpcodes != 0 := by
      refine List.mem_filter.mpr ⟨mem_nonMasterIds.mpr hi, ?_⟩
      simp [setFlags, CheatDefinition.numOpcodes, hlive]
    have := h2 i
    rw [if_pos hmem] at this
    exact congrArg CheatEntry.enabled this
  · have := h2 0
    rw [if_neg (fun hmem => (hids 0 hmem).1 rfl)] at this
    exact this
  · exact parseCheatToggles_definition beyond _ _

/-- A table parsed from two cheats and a header without words, saved with the first off and the
second on. -/
theorem parseCheatToggles_saveCheatToggles_two :
    let entries := (parseCheats true resetEntries "[A]00000000[B]00000001[C]".toUTF8.toList).2
    let result := parseCheatToggles 0 (setFlags entries fun _ => true)
      (saveCheatToggles (setFlags entries fun i => i == 2))
    result.1 = true ∧ (result.2 1).enabled = false ∧ (result.2 2).enabled = true := by
  intro entries result
  have hd : ∀ i, (entries i).definition = if i = 1 then ⟨[0x41], [0]⟩ else if i = 2 then ⟨[0x42], [1]⟩
      else if i = 3 then ⟨[0x43], []⟩ else {} := by decide +kernel
  have hlive : ∀ i, (entries i).definition.opcodes ≠ [] → i = 1 ∨ i = 2 := by
    intro i hi
    by_contra hne
    rw [not_or] at hne
    apply hi
    rw [hd, if_neg hne.1, if_neg hne.2]
    split <;> rfl
  have hnames : GoodNames entries := by
    refine ⟨?_, ?_⟩
    · intro i _ hi
      rcases hlive i hi with rfl | rfl
      · rw [hd]
        exact ⟨by decide, by decide, by decide, by decide⟩
      · rw [hd]
        exact ⟨by decide, by decide, by decide, by decide⟩
    · intro i j _ _ hi hj hname
      rcases hlive i hi with rfl | rfl <;> rcases hlive j hj with rfl | rfl
      · rfl
      · rw [hd, hd] at hname
        exact absurd hname (by decide)
      · rw [hd, hd] at hname
        exact absurd hname (by decide)
      · rfl
  obtain ⟨h1, h2, -, -⟩ := parseCheatToggles_saveCheatToggles 0
    (Reachable.parse true _ (by decide +kernel)) hnames (fun i => i == 2) (fun _ => true)
  refine ⟨h1, h2 1 (by decide) ?_, h2 2 (by decide) ?_⟩
  · rw [hd]
    decide
  · rw [hd]
    decide

end RajNX.Dmnt
