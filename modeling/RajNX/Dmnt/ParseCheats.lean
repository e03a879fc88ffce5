import Mathlib.Data.List.TakeWhile
import RajNX.Dmnt.CheatTable

/-!
# Cheat files

`DmntCheatManager::ParseCheats` (`dmnt_cheat_manager.cpp`) and the grammar it accepts.

The parser is given as one step of its loop, `parseStep`, on the text that is left; `none` is an
early `return false`, which leaves the entries as the steps before made them. The text is what lies
before its first NUL, as `LoadCheats` passes it, so that reading one byte past its end, as the name
scan does, finds no closing bracket there.

`CheatFile` is the grammar: white space, then sections that each have a header and a body of words
and white space. `parseCheats_accepts_grammar` says that exactly the renderings of such files are
accepted, and what the entries hold afterwards.
-/

namespace RajNX.Dmnt

/-- `isspace` in the C locale. -/
def isSpace (c : UInt8) : Bool := c == 0x20 || (0x09 ≤ c && c ≤ 0x0D)

/-- `isxdigit` in the C locale. -/
def isXDigit (c : UInt8) : Bool :=
  (0x30 ≤ c && c ≤ 0x39) || (0x41 ≤ c && c ≤ 0x46) || (0x61 ≤ c && c ≤ 0x66)

/-- The value of a hex digit. -/
def hexDigit (c : UInt8) : Nat :=
  if c ≤ 0x39 then c.toNat - 0x30 else if c ≤ 0x46 then c.toNat - 0x41 + 10 else c.toNat - 0x61 + 10

/-- `strtoul(_, NULL, 16)` of eight hex digits. -/
def strtoul (digits : List UInt8) : UInt32 :=
  .ofNat (digits.foldl (fun v c => v * 16 + hexDigit c) 0)

abbrev leftBracket : UInt8 := 0x5B
abbrev rightBracket : UInt8 := 0x5D
abbrev leftBrace : UInt8 := 0x7B
abbrev rightBrace : UInt8 := 0x7D

/-- The parser's variables. -/
structure ParseState where
  entries : CheatEntries
  curEntry : Option (Fin maxCheatCount) := none

/-- The name scan: from the text behind the opening bracket and the number of bytes already passed,
the name and the text behind the closing bracket. -/
def scanName (close : UInt8) : Nat → List UInt8 → Option (List UInt8 × List UInt8)
  | _, [] => none
  | n, c :: cs =>
    if c = close then some ([], cs)
    else if cs = [] ∨ n + 1 ≥ readableNameSize then none
    else (scanName close (n + 1) cs).map fun p => (c :: p.1, p.2)

/-- The copy into `readable_name`, as a C string. -/
def setName (entries : CheatEntries) (i : Fin maxCheatCount) (name : List UInt8) : CheatEntries :=
  Function.update entries i { entries i with
    definition := { (entries i).definition with readableName := name.takeWhile (· != 0) } }

/-- `opcodes[num_opcodes++] = opcode` -/
def addOpcode (entries : CheatEntries) (i : Fin maxCheatCount) (opcode : UInt32) : CheatEntries :=
  Function.update entries i { entries i with
    definition := { (entries i).definition with
      opcodes := (entries i).definition.opcodes ++ [opcode] } }

/-- Read the name of the entry `i` and make it the current one. -/
def parseName (close : UInt8) (st : ParseState) (i : Fin maxCheatCount) (s : List UInt8) :
    Option (ParseState × List UInt8) :=
  (scanName close 0 s).map fun p =>
    ({ entries := setName st.entries i p.1, curEntry := some i }, p.2)

/-- The body of the loop of `DmntCheatManager::ParseCheats`. -/
def parseStep (st : ParseState) : List UInt8 → Option (ParseState × List UInt8)
  | [] => none
  | c :: cs =>
    if isSpace c then some (st, cs)
    else if c = leftBracket then
      match getFreeCheatEntry st.entries with
      | none => none
      | some i => parseName rightBracket st i cs
    else if c = leftBrace then
      if (st.entries 0).definition.numOpcodes > 0 then none
      else parseName rightBrace st 0 cs
    else if isXDigit c then
      match st.curEntry with
      | none => none
      | some i =>
        if (st.entries i).definition.numOpcodes ≥ maxOpcodes then none
        else if 7 ≤ cs.length ∧ (cs.take 7).all isXDigit then
          some ({ st with entries := addOpcode st.entries i (strtoul (c :: cs.take 7)) },
            cs.drop 7)
        else none
    else none

/-- The loop of `DmntCheatManager::ParseCheats`. Every step takes at least one byte, so the length
of the text is enough fuel. -/
def parseLoop : Nat → ParseState → List UInt8 → Bool × ParseState
  | _, st, [] => (true, st)
  | 0, st, _ :: _ => (false, st)
  | fuel + 1, st, s@(_ :: _) =>
    match parseStep st s with
    | some (st, s) => parseLoop fuel st s
    | none => (false, st)

/-- What a complete parse ends with: the master cheat is on, the others as configured. -/
def enableParsed (enableCheatsByDefault : Bool) (entries : CheatEntries) : CheatEntries := fun i =>
  if (entries i).definition.numOpcodes > 0 then
    { entries i with enabled := if i = 0 then true else enableCheatsByDefault }
  else entries i

/-- `DmntCheatManager::ParseCheats`: whether the text was accepted, and the entries. -/
def parseCheats (enableCheatsByDefault : Bool) (entries : CheatEntries) (s : List UInt8) : Bool × CheatEntries :=
  match parseLoop s.length { entries } s with
  | (true, st) => (true, enableParsed enableCheatsByDefault st.entries)
  | (false, st) => (false, st.entries)

/-! ## The grammar -/

/-- What a section holds behind its header. -/
inductive BodyItem where
  | space (c : UInt8)
  | word (digits : List UInt8)
deriving Repr, DecidableEq

namespace BodyItem

def render : BodyItem → List UInt8
  | space c => [c]
  | word digits => digits

def WellFormed : BodyItem → Prop
  | space c => isSpace c = true
  | word digits => digits.length = 8 ∧ ∀ c ∈ digits, isXDigit c = true

/-- The words an item stands for: one or none. -/
def words : BodyItem → List UInt32
  | space _ => []
  | word digits => [strtoul digits]

end BodyItem

/-- A header, `{name}` for the master cheat and `[name]` for any other, and what follows it. -/
structure Section where
  master : Bool
  name : List UInt8
  body : List BodyItem := []
deriving Repr, DecidableEq

namespace Section

def opening (sec : Section) : UInt8 := if sec.master then leftBrace else leftBracket

def closing (sec : Section) : UInt8 := if sec.master then rightBrace else rightBracket

def words (sec : Section) : List UInt32 := sec.body.flatMap BodyItem.words

def render (sec : Section) : List UInt8 :=
  sec.opening :: (sec.name ++ sec.closing :: sec.body.flatMap BodyItem.render)

/-- What an entry that holds the section's cheat has as its definition. -/
def definition (sec : Section) : CheatDefinition where
  readableName := sec.name
  opcodes := sec.words

structure WellFormed (sec : Section) : Prop where
  name_length : sec.name.length < readableNameSize
  name_closing : sec.closing ∉ sec.name
  body : ∀ b ∈ sec.body, b.WellFormed
  words_length : sec.words.length ≤ maxOpcodes

/-- A cheat that needs an entry of its own. -/
def isCheat (sec : Section) : Bool := !sec.master && sec.words != []

end Section

/-- The master cheat of a list of sections: each master header replaces the one before. -/
def masterOf (secs : List Section) : Option Section := (secs.filter (·.master)).getLast?

/-- The other cheats that have at least one word, in file order. -/
def cheatsOf (secs : List Section) : List Section := secs.filter (·.isCheat)

/-- Whether a header may follow the sections `prev`: a master header only if no master cheat has a
word yet, any other only if an entry is left for it. -/
def Section.AllowedAfter (prev : List Section) (sec : Section) : Prop :=
  if sec.master then ∀ t ∈ prev, t.master = true → t.words = []
  else (cheatsOf prev).length < maxCheatCount - 1

/-- A well-formed cheat file. -/
structure CheatFile where
  leading : List UInt8
  sections : List Section
  leading_space : ∀ c ∈ leading, isSpace c = true
  sections_wf : ∀ sec ∈ sections, sec.WellFormed
  sections_allowed : ∀ prev sec post, sections = prev ++ sec :: post → sec.AllowedAfter prev

def CheatFile.render (f : CheatFile) : List UInt8 := f.leading ++ f.sections.flatMap Section.render

/-! ## The name scan -/

/-- A short name is found up to its closing bracket. -/
lemma scanName_append {close : UInt8} {name rest : List UInt8} {n : Nat} (hclose : close ∉ name)
    (hlen : n + name.length < readableNameSize) : scanName close n (name ++ close :: rest) = some (name, rest) := by
  induction name generalizing n with
  | nil => rw [List.nil_append, scanName, if_pos rfl]
  | cons c name ih =>
    rw [List.mem_cons, not_or] at hclose
    rw [List.length_cons] at hlen
    rw [List.cons_append, scanName, if_neg (Ne.symm hclose.1), if_neg, ih hclose.2 (by omega)]
    · rfl
    · rintro (h | h)
      · simp at h
      · omega

/-- What the name scan finds is a short name and its closing bracket. -/
lemma scanName_some {close : UInt8} {s name rest : List UInt8} {n : Nat}
    (h : scanName close n s = some (name, rest)) (hn : n < readableNameSize) :
    s = name ++ close :: rest ∧ close ∉ name ∧ n + name.length < readableNameSize := by
  induction s generalizing n name with
  | nil => cases h
  | cons c cs ih =>
    rw [scanName] at h
    split at h
    · rename_i hc
      cases h
      exact ⟨by rw [hc, List.nil_append], by simp, by simpa using hn⟩
    · split at h
      · cases h
      · rename_i hc hnot
        rw [not_or] at hnot
        obtain ⟨p, hp, heq⟩ := Option.map_eq_some_iff.mp h
        cases heq
        obtain ⟨h1, h2, h3⟩ := ih hp (by omega)
        refine ⟨by rw [h1, List.cons_append], ?_, by rw [List.length_cons]; omega⟩
        rw [List.mem_cons, not_or]
        exact ⟨Ne.symm hc, h2⟩

/-! ## What the entries hold -/

/-- The table that holds a master cheat `m` and other cheats `ds`. -/
structure Table (m : Option CheatDefinition) (ds : List CheatDefinition) (entries : CheatEntries) :
    Prop where
  master : (entries 0).definition = m.getD {}
  cheats : ∀ k d, ds[k]? = some d → ∃ h : k + 1 < maxCheatCount, (entries ⟨k + 1, h⟩).definition = d
  live : ∀ d ∈ ds, d.opcodes ≠ []
  free : ∀ i : Fin maxCheatCount, ds.length < i → (entries i).definition.opcodes = []

variable {m ds entries} {i : Fin maxCheatCount}

/-- The entry of a cheat, looked up from the entry's side. -/
lemma Table.definition_eq (h : Table m ds entries)
    (hi : i.val ≠ 0) (hlt : i.val - 1 < ds.length) : (entries i).definition = ds[i.val - 1] := by
  obtain ⟨hk, hd⟩ := h.cheats (i.val - 1) _ (List.getElem?_eq_getElem hlt)
  have hid : (⟨i.val - 1 + 1, hk⟩ : Fin maxCheatCount) = i := Fin.ext (by simp only; omega)
  rw [hid] at hd
  exact hd

/-- The first free entry is the one behind the last cheat. -/
lemma Table.getFreeCheatEntry_eq (h : Table m ds entries) (hlen : ds.length + 1 < maxCheatCount) :
    getFreeCheatEntry entries = some ⟨ds.length + 1, hlen⟩ := by
  refine getFreeCheatEntry_eq_some.mpr ⟨?_, h.free _ (Nat.lt_succ_self _), ?_⟩
  · exact fun h0 => Nat.succ_ne_zero _ (congrArg Fin.val h0)
  · intro j hj0 hj
    have hj0' : j.val ≠ 0 := fun h0 => hj0 (Fin.ext h0)
    have hj' : j.val < ds.length + 1 := hj
    have hlt : j.val - 1 < ds.length := by omega
    rw [h.definition_eq hj0' hlt]
    exact h.live _ (List.getElem_mem hlt)

/-- With all entries in use none is free. -/
lemma Table.getFreeCheatEntry_none (h : Table m ds entries)
    (hlen : ¬ ds.length + 1 < maxCheatCount) : getFreeCheatEntry entries = none := by
  rw [getFreeCheatEntry, List.find?_eq_none]
  intro i hi
  have hi0 : i.val ≠ 0 := fun h0 => mem_nonMasterIds.mp hi (Fin.ext h0)
  have hlt : i.val - 1 < ds.length := by omega
  have hlive := h.live _ (List.getElem_mem hlt)
  simp [CheatDefinition.numOpcodes, h.definition_eq hi0 hlt, hlive]

/-- The reset table holds nothing. -/
lemma Table.reset : Table none [] resetEntries where
  master := rfl
  cheats _ _ h := by simp at h
  live _ h := by simp at h
  free _ _ := rfl

/-- The definitions a list of sections asks for. -/
def masterDef (secs : List Section) : Option CheatDefinition :=
  (masterOf secs).map Section.definition

def cheatDefs (secs : List Section) : List CheatDefinition :=
  (cheatsOf secs).map Section.definition

lemma masterDef_append (prev : List Section) (sec : Section) :
    masterDef (prev ++ [sec]) = if sec.master then some sec.definition else masterDef prev := by
  cases h : sec.master <;> simp [masterDef, masterOf, List.filter_append, h]

lemma cheatDefs_append (prev : List Section) (sec : Section) :
    cheatDefs (prev ++ [sec]) = cheatDefs prev ++ if sec.isCheat then [sec.definition] else [] := by
  cases h : sec.isCheat <;> simp [cheatDefs, cheatsOf, List.filter_append, h]

/-- The entry the cheat of a section goes to. -/
def slot (prev : List Section) (sec : Section) : Nat :=
  if sec.master then 0 else (cheatDefs prev).length + 1

/-- The parser behind the header of `sec`, which follows `prev`: the table holds what has been read,
and the current entry is that of `sec`. -/
structure Open (prev : List Section) (sec : Section) (st : ParseState) : Prop where
  table : Table (masterDef (prev ++ [sec])) (cheatDefs (prev ++ [sec])) st.entries
  cur : ∃ i, st.curEntry = some i ∧ (i : Nat) = slot prev sec ∧
    (st.entries i).definition = sec.definition

/-- Assigning a definition to the master entry. -/
lemma Table.update_master (h : Table m ds entries) (e : CheatEntry) :
    Table (some e.definition) ds (Function.update entries 0 e) where
  master := by rw [Function.update_self]; rfl
  cheats k d hd := by
    obtain ⟨hk, hd⟩ := h.cheats k d hd
    refine ⟨hk, ?_⟩
    rw [Function.update_of_ne]
    · exact hd
    · exact fun h0 => Nat.succ_ne_zero k (congrArg Fin.val h0)
  live := h.live
  free i hi := by
    rw [Function.update_of_ne]
    · exact h.free i hi
    · rintro rfl
      exact Nat.not_lt_zero _ hi

/-- Naming the entry behind the last cheat. -/
lemma Table.update_free (h : Table m ds entries)
    (hi : (i : Nat) = ds.length + 1) {e : CheatEntry} (he : e.definition.opcodes = []) :
    Table m ds (Function.update entries i e) where
  master := by
    rw [Function.update_of_ne]
    · exact h.master
    · rintro rfl
      exact Nat.succ_ne_zero _ hi.symm
  cheats k d hd := by
    obtain ⟨hk, hd'⟩ := h.cheats k d hd
    refine ⟨hk, ?_⟩
    rw [Function.update_of_ne]
    · exact hd'
    · rintro rfl
      have hlt := (List.getElem?_eq_some_iff.mp hd).1
      simp only at hi
      omega
  live := h.live
  free j hj := by
    by_cases hij : j = i
    · rw [hij, Function.update_self]
      exact he
    · rw [Function.update_of_ne hij]
      exact h.free j hj

/-- Filling the entry behind the cheats `ds`, where there may be one already. -/
lemma Table.fill {m ds tl entries} (h : Table m (ds ++ tl) entries) (htl : tl.length ≤ 1)
    (hi : (i : Nat) = ds.length + 1) {e : CheatEntry} (he : e.definition.opcodes ≠ []) :
    Table m (ds ++ [e.definition]) (Function.update entries i e) where
  master := by
    rw [Function.update_of_ne]
    · exact h.master
    · rintro rfl
      exact Nat.succ_ne_zero _ hi.symm
  cheats k d hd := by
    rcases Nat.lt_trichotomy k ds.length with hk | hk | hk
    · rw [List.getElem?_append_left hk] at hd
      obtain ⟨hk', hd'⟩ := h.cheats k d (by rw [List.getElem?_append_left hk, hd])
      refine ⟨hk', ?_⟩
      rw [Function.update_of_ne]
      · exact hd'
      · rintro rfl
        simp only at hi
        omega
    · subst hk
      rw [List.getElem?_concat_length] at hd
      cases hd
      have hlt : ds.length + 1 < maxCheatCount := hi ▸ i.isLt
      have hid : (⟨ds.length + 1, hlt⟩ : Fin maxCheatCount) = i := Fin.ext hi.symm
      exact ⟨hlt, by rw [hid, Function.update_self]⟩
    · rw [List.getElem?_eq_none (by rw [List.length_append, List.length_singleton]; omega)] at hd
      cases hd
  live d hd := by
    rcases List.mem_append.mp hd with hd | hd
    · exact h.live d (List.mem_append_left _ hd)
    · rw [List.mem_singleton.mp hd]
      exact he
  free j hj := by
    rw [List.length_append, List.length_singleton] at hj
    rw [Function.update_of_ne]
    · exact h.free j (by rw [List.length_append]; omega)
    · rintro rfl
      omega

/-! ## One item of a body -/

/-- A section with one more item. -/
def Section.push (sec : Section) (b : BodyItem) : Section := { sec with body := sec.body ++ [b] }

@[simp] lemma Section.words_push (sec : Section) (b : BodyItem) : (sec.push b).words = sec.words ++ b.words := by
  simp [words, push]

/-- White space changes nothing. -/
lemma Open.space {prev sec st} (h : Open prev sec st) (c : UInt8) : Open prev (sec.push (.space c)) st := by
  have hw : (sec.push (.space c)).words = sec.words := by simp [BodyItem.words]
  have hd : (sec.push (.space c)).definition = sec.definition := by
    simp only [Section.definition, hw]
    rfl
  have hc : (sec.push (.space c)).isCheat = sec.isCheat := by
    simp only [Section.isCheat, hw]
    rfl
  refine ⟨?_, ?_⟩
  · rw [masterDef_append, cheatDefs_append, hd, hc, ← cheatDefs_append]
    have := h.table
    rw [masterDef_append] at this
    exact this
  · rw [hd]
    exact h.cur

/-- A word goes to the current entry. -/
lemma Open.word {prev sec st} (h : Open prev sec st) (hi : st.curEntry = some i) (digits : List UInt8) :
    Open prev (sec.push (.word digits))
      { st with entries := addOpcode st.entries i (strtoul digits) } := by
  obtain ⟨j, hj, hslot, hdef⟩ := h.cur
  obtain rfl : i = j := Option.some.inj (hi.symm.trans hj)
  have ht := h.table
  have hd : ({ (st.entries i).definition with
      opcodes := (st.entries i).definition.opcodes ++ [strtoul digits] } : CheatDefinition) =
      (sec.push (.word digits)).definition := by
    simp only [hdef, Section.definition, Section.words_push, BodyItem.words]
    rfl
  have hword : (sec.push (.word digits)).words ≠ [] := by simp [BodyItem.words]
  refine ⟨?_, i, hi, hslot, ?_⟩
  · rw [masterDef_append, cheatDefs_append] at ht ⊢
    rw [show (sec.push (.word digits)).master = sec.master from rfl]
    simp only [addOpcode, hd]
    cases hm : sec.master with
    | true =>
      have hi0 : i = 0 := by
        apply Fin.ext
        rw [hslot, slot, if_pos hm]
        rfl
      have hc : sec.isCheat = false := by simp [Section.isCheat, hm]
      have hc' : (sec.push (.word digits)).isCheat = false := by
        simp [Section.isCheat, Section.push, hm]
      simp only [hc, Bool.false_eq_true, if_false, List.append_nil] at ht
      simp only [hc', Bool.false_eq_true, if_false, if_true, List.append_nil, hi0]
      exact ht.update_master { st.entries 0 with
        definition := (sec.push (.word digits)).definition }
    | false =>
      have hc' : (sec.push (.word digits)).isCheat = true := by
        rw [Section.isCheat, show (sec.push (.word digits)).master = sec.master from rfl, hm]
        exact bne_iff_ne.mpr hword
      simp only [hm, Bool.false_eq_true, if_false] at ht
      simp only [hc', Bool.false_eq_true, if_false, if_true]
      refine ht.fill ?_ (hslot.trans ?_)
        (e := { st.entries i with definition := (sec.push (.word digits)).definition }) hword
      · split <;> simp
      · rw [slot, if_neg (by simp [hm])]
  · simp only [addOpcode, Function.update_self]
    exact hd

/-! ## One step of the loop -/

/-- A header with nothing behind it yet. -/
abbrev Section.header (master : Bool) (name : List UInt8) : Section := { master, name }

variable {name : List UInt8}

/-- A C string without a NUL is copied whole. -/
lemma takeWhile_ne_zero (h : 0 ∉ name) : name.takeWhile (· != 0) = name := by
  rw [List.takeWhile_eq_self_iff]
  intro c hc
  rw [bne_iff_ne]
  rintro rfl
  exact h hc

variable {prev : List Section} {st : ParseState} {master : Bool}

/-- A header opens a section in an entry without words. -/
lemma Open.header (h : Table (masterDef prev) (cheatDefs prev) st.entries) (h0 : 0 ∉ name)
    (hslot : (i : Nat) = slot prev (.header master name)) (hfree : (st.entries i).definition.opcodes = []) :
    Open prev (.header master name)
      { entries := setName st.entries i name, curEntry := some i } := by
  have hc : (Section.header master name).isCheat = false := by
    simp [Section.isCheat, Section.words]
  have hd : ({ (st.entries i).definition with
      readableName := name.takeWhile (· != 0) } : CheatDefinition) =
      (Section.header master name).definition := by
    rw [takeWhile_ne_zero h0]
    simp only [hfree, Section.definition, Section.words, List.flatMap_nil]
  refine ⟨?_, i, rfl, hslot, ?_⟩
  · rw [masterDef_append, cheatDefs_append, hc]
    simp only [setName, hd, Bool.false_eq_true, if_false, List.append_nil]
    cases master with
    | true =>
      have hi0 : i = 0 := Fin.ext hslot
      simp only [if_true, hi0]
      exact h.update_master { st.entries 0 with definition := (Section.header true name).definition }
    | false =>
      simp only [Bool.false_eq_true, if_false]
      exact h.update_free hslot (e := { st.entries i with
        definition := (Section.header false name).definition }) rfl
  · simp only [setName, Function.update_self]
    exact hd

/-- The entry a header that is allowed opens. -/
lemma Table.slot_free {entries : CheatEntries} (h : Table (masterDef prev) (cheatDefs prev) entries)
    (ha : (Section.header master name).AllowedAfter prev) :
    ∃ i : Fin maxCheatCount, (i : Nat) = slot prev (.header master name) ∧
      (entries i).definition.opcodes = [] ∧
      (master = true → i = 0) ∧ (master = false → getFreeCheatEntry entries = some i) := by
  cases master with
  | true =>
    refine ⟨0, rfl, ?_, fun _ => rfl, fun h => absurd h (by decide)⟩
    rw [h.master, masterDef, masterOf]
    cases hlast : (prev.filter (·.master)).getLast? with
    | none => rfl
    | some t =>
      have ht := List.mem_filter.mp (List.mem_of_getLast? hlast)
      exact ha t ht.1 ht.2
  | false =>
    have hlen : (cheatDefs prev).length + 1 < maxCheatCount := by
      have : (cheatsOf prev).length < maxCheatCount - 1 := ha
      rw [cheatDefs, List.length_map]
      omega
    exact ⟨⟨_, hlen⟩, rfl, h.free _ (Nat.lt_succ_self _), fun h => absurd h (by decide),
      fun _ => h.getFreeCheatEntry_eq hlen⟩

/-- Headers, words and white space start differently. -/
lemma isSpace_opening (sec : Section) : isSpace sec.opening = false := by
  unfold Section.opening
  split <;> decide

lemma isXDigit_ne_brackets {c : UInt8} (h : isXDigit c = true) :
    isSpace c = false ∧ c ≠ leftBracket ∧ c ≠ leftBrace := by
  refine ⟨?_, ?_, ?_⟩
  · simp only [isXDigit, Bool.or_eq_true, Bool.and_eq_true, decide_eq_true_eq,
      UInt8.le_iff_toNat_le] at h
    simp only [isSpace, Bool.or_eq_false_iff, Bool.and_eq_false_iff, decide_eq_false_iff_not,
      beq_eq_false_iff_ne, UInt8.le_iff_toNat_le, ne_eq, ← UInt8.toNat_inj]
    simp at h ⊢
    omega
  · rintro rfl
    exact absurd h (by decide)
  · rintro rfl
    exact absurd h (by decide)

/-- A header that may stand here is taken. -/
lemma parseStep_header {prev : List Section} {st : ParseState} {master : Bool} {name : List UInt8}
    (h : Table (masterDef prev) (cheatDefs prev) st.entries) (hlen : name.length < readableNameSize)
    (hclose : (Section.header master name).closing ∉ name) (ha : (Section.header master name).AllowedAfter prev)
    (h0 : 0 ∉ name) :
    ∃ st', Open prev (.header master name) st' ∧
      ∀ rest, parseStep st ((Section.header master name).opening ::
        (name ++ (Section.header master name).closing :: rest)) = some (st', rest) := by
  obtain ⟨i, hslot, hfree, hi0, hi⟩ := h.slot_free ha
  refine ⟨_, Open.header h h0 hslot hfree, fun rest => ?_⟩
  have hscan : scanName (Section.header master name).closing 0
      (name ++ (Section.header master name).closing :: rest) = some (name, rest) :=
    scanName_append hclose (by omega)
  rw [parseStep, if_neg (by simp [isSpace_opening])]
  cases master with
  | true =>
    rw [show (Section.header true name).opening = leftBrace from rfl,
      show (Section.header true name).closing = rightBrace from rfl] at *
    rw [if_neg (by decide), if_pos rfl, if_neg, parseName]
    · rw [hscan, hi0 rfl]
      rfl
    · rw [← hi0 rfl, CheatDefinition.numOpcodes, hfree]
      exact Nat.lt_irrefl 0
  | false =>
    rw [show (Section.header false name).opening = leftBracket from rfl,
      show (Section.header false name).closing = rightBracket from rfl] at *
    rw [if_pos rfl, hi rfl]
    simp only [parseName, hscan]
    rfl

/-- A word that fits the current entry is taken. -/
lemma parseStep_word {digits : List UInt8} (hi : st.curEntry = some i) (hlen : digits.length = 8)
    (hdigits : ∀ c ∈ digits, isXDigit c = true) (hroom : (st.entries i).definition.opcodes.length < maxOpcodes)
    (rest : List UInt8) :
    parseStep st (digits ++ rest) =
      some ({ st with entries := addOpcode st.entries i (strtoul digits) }, rest) := by
  cases digits with
  | nil => cases hlen
  | cons c cs =>
    rw [List.length_cons] at hlen
    have hcs : cs.length = 7 := by omega
    obtain ⟨h1, h2, h3⟩ := isXDigit_ne_brackets (hdigits c List.mem_cons_self)
    rw [List.cons_append, parseStep, if_neg (by simp [h1]), if_neg h2, if_neg h3,
      if_pos (hdigits c List.mem_cons_self), hi]
    simp only
    rw [if_neg (by simpa [CheatDefinition.numOpcodes] using hroom), if_pos]
    · rw [List.take_left' hcs, List.drop_left' hcs]
    · rw [List.take_left' hcs, List.length_append, hcs, List.all_eq_true]
      exact ⟨Nat.le_add_right _ _, fun c hc => hdigits c (List.mem_cons_of_mem _ hc)⟩

variable {st st' : ParseState} {s s' : List UInt8}

/-- What a step can take. -/
lemma parseStep_some (h : parseStep st s = some (st', s')) :
    (∃ c, isSpace c = true ∧ s = c :: s' ∧ st' = st) ∨
    (∃ master name i, name.length < readableNameSize ∧
      (Section.header master name).closing ∉ name ∧
      s = (Section.header master name).opening ::
        (name ++ (Section.header master name).closing :: s') ∧
      st' = { entries := setName st.entries i name, curEntry := some i } ∧
      (master = true → i = 0 ∧ (st.entries 0).definition.opcodes = []) ∧
      (master = false → getFreeCheatEntry st.entries = some i)) ∨
    (∃ digits i, digits.length = 8 ∧ (∀ c ∈ digits, isXDigit c = true) ∧ s = digits ++ s' ∧
      st.curEntry = some i ∧ (st.entries i).definition.opcodes.length < maxOpcodes ∧
      st' = { st with entries := addOpcode st.entries i (strtoul digits) }) := by
  cases s with
  | nil => cases h
  | cons c cs =>
    rw [parseStep] at h
    -- white space
    split at h
    · rename_i hc
      cases h
      exact .inl ⟨c, hc, rfl, rfl⟩
    split at h
    · rename_i hc
      split at h
      · cases h
      · rename_i i hi
        obtain ⟨p, hp, heq⟩ := Option.map_eq_some_iff.mp h
        cases heq
        obtain ⟨h1, h2, h3⟩ := scanName_some hp (by decide)
        refine .inr (.inl ⟨false, p.1, i, by omega, h2, ?_, rfl, fun h => absurd h (by decide), fun _ => hi⟩)
        rw [hc, h1]
        rfl
    split at h
    · rename_i hc
      split at h
      · cases h
      · rename_i hnum
        obtain ⟨p, hp, heq⟩ := Option.map_eq_some_iff.mp h
        cases heq
        obtain ⟨h1, h2, h3⟩ := scanName_some hp (by decide)
        refine .inr (.inl ⟨true, p.1, 0, by omega, h2, ?_, rfl, fun _ => ⟨rfl, ?_⟩, fun h => absurd h (by decide)⟩)
        · rw [hc, h1]
          rfl
        · rw [CheatDefinition.numOpcodes] at hnum
          exact List.eq_nil_of_length_eq_zero (by omega)
    split at h
    · rename_i hx
      split at h
      · cases h
      · rename_i i hi
        split at h
        · cases h
        · rename_i hroom
          split at h
          · rename_i hds
            obtain ⟨hlen, hall⟩ := hds
            cases h
            rw [List.all_eq_true] at hall
            refine .inr (.inr ⟨c :: cs.take 7, i, ?_, ?_, ?_, hi, ?_, rfl⟩)
            · rw [List.length_cons, List.length_take_of_le hlen]
            · intro d hd
              rcases List.mem_cons.mp hd with rfl | hd
              · exact hx
              · exact hall d hd
            · rw [List.cons_append, List.take_append_drop]
            · rw [CheatDefinition.numOpcodes] at hroom
              omega
          · cases h
    · cases h

/-! ## Whole texts -/

/-- `secs` may follow `prev`. -/
def ValidAfter : List Section → List Section → Prop
  | _, [] => True
  | prev, sec :: secs => sec.WellFormed ∧ sec.AllowedAfter prev ∧ ValidAfter (prev ++ [sec]) secs

lemma validAfter_iff {prev secs : List Section} : ValidAfter prev secs ↔ (∀ sec ∈ secs, sec.WellFormed) ∧
      ∀ pre sec post, secs = pre ++ sec :: post → sec.AllowedAfter (prev ++ pre) := by
  induction secs generalizing prev with
  | nil => simp [ValidAfter]
  | cons sec secs ih =>
    rw [ValidAfter, ih]
    constructor
    · rintro ⟨hwf, ha, hwfs, hall⟩
      refine ⟨List.forall_mem_cons.mpr ⟨hwf, hwfs⟩, ?_⟩
      intro pre t post heq
      cases pre with
      | nil =>
        cases heq
        rw [List.append_nil]
        exact ha
      | cons p pre =>
        rw [List.cons_append, List.cons.injEq] at heq
        obtain ⟨rfl, heq⟩ := heq
        have := hall pre t post heq
        rwa [List.append_assoc] at this
    · rintro ⟨hwfs, hall⟩
      obtain ⟨hwf, hwfs⟩ := List.forall_mem_cons.mp hwfs
      refine ⟨hwf, ?_, hwfs, ?_⟩
      · simpa using hall [] sec secs rfl
      · intro pre t post heq
        have := hall (sec :: pre) t post (by rw [heq, List.cons_append])
        rwa [List.append_assoc]

lemma parseLoop_some (h : parseStep st s = some (st', s')) (fuel : Nat) :
    parseLoop (fuel + 1) st s = parseLoop fuel st' s' := by
  cases s with
  | nil => cases h
  | cons c cs => rw [parseLoop, h]

lemma parseLoop_nil (fuel : Nat) (st : ParseState) : parseLoop fuel st [] = (true, st) := by
  cases fuel <;> rfl

/-- The text of a body is taken whole, by steps that stay in its section. -/
lemma parseLoop_body {sec : Section} (h : Open prev sec st) {body : List BodyItem} (hwf : ∀ b ∈ body, b.WellFormed)
    (hlen : (sec.words ++ body.flatMap BodyItem.words).length ≤ maxOpcodes) :
    ∃ n st', n ≤ (body.flatMap BodyItem.render).length ∧
      Open prev { sec with body := sec.body ++ body } st' ∧
      ∀ fuel rest, parseLoop (fuel + n) st (body.flatMap BodyItem.render ++ rest) =
        parseLoop fuel st' rest := by
  induction body generalizing sec st with
  | nil =>
    refine ⟨0, st, Nat.le_refl _, ?_, fun _ _ => rfl⟩
    rw [List.append_nil]
    exact h
  | cons b body ih =>
    obtain ⟨hb, hwf⟩ := List.forall_mem_cons.mp hwf
    rw [List.flatMap_cons, ← List.append_assoc, ← Section.words_push] at hlen
    -- one step takes the item `b`
    obtain ⟨st₁, h₁, hstep⟩ : ∃ st₁, Open prev (sec.push b) st₁ ∧
        ∀ rest, parseStep st (b.render ++ rest) = some (st₁, rest) := by
      cases b with
      | space c =>
        refine ⟨st, h.space c, fun rest => ?_⟩
        rw [BodyItem.render, List.singleton_append, parseStep, if_pos (show isSpace c = true from hb)]
      | word digits =>
        obtain ⟨i, hi, _, hdef⟩ := h.cur
        refine ⟨_, h.word hi digits, parseStep_word hi hb.1 hb.2 ?_⟩
        rw [hdef]
        simp only [Section.words_push, BodyItem.words, List.length_append, List.length_singleton]
          at hlen
        change sec.words.length < maxOpcodes
        omega
    obtain ⟨n, st', hn, hopen, hloop⟩ := ih h₁ hwf hlen
    refine ⟨n + 1, st', ?_, ?_, ?_⟩
    · have : 1 ≤ b.render.length := by
        cases b with
        | space c => exact Nat.le_refl 1
        | word digits =>
          have := hb.1
          rw [BodyItem.render]
          omega
      rw [List.flatMap_cons, List.length_append]
      omega
    · have hsec : ({ sec.push b with body := (sec.push b).body ++ body } : Section) =
          { sec with body := sec.body ++ b :: body } := by
        simp [Section.push]
      rw [← hsec]
      exact hopen
    · intro fuel rest
      rw [List.flatMap_cons, List.append_assoc, ← Nat.add_assoc, parseLoop_some (hstep _), hloop]

/-- The text of sections that may follow `prev` is taken whole. -/
lemma parseLoop_sections {prev secs : List Section} {st : ParseState}
    (h : Table (masterDef prev) (cheatDefs prev) st.entries) (hv : ValidAfter prev secs)
    (h0 : 0 ∉ secs.flatMap Section.render) :
    ∃ n st', n ≤ (secs.flatMap Section.render).length ∧
      Table (masterDef (prev ++ secs)) (cheatDefs (prev ++ secs)) st'.entries ∧
      ∀ fuel rest, parseLoop (fuel + n) st (secs.flatMap Section.render ++ rest) =
        parseLoop fuel st' rest := by
  induction secs generalizing prev st with
  | nil =>
    refine ⟨0, st, Nat.le_refl _, ?_, fun _ _ => rfl⟩
    rw [List.append_nil]
    exact h
  | cons sec secs ih =>
    obtain ⟨hwf, ha, hv⟩ := hv
    rw [List.flatMap_cons, List.mem_append, not_or] at h0
    obtain ⟨h0, h0s⟩ := h0
    have h0name : 0 ∉ sec.name := by
      intro hmem
      exact h0 (List.mem_cons_of_mem _ (List.mem_append_left _ hmem))
    -- the header, the body, and the other sections
    obtain ⟨st₁, h₁, hstep⟩ := @parseStep_header prev st sec.master sec.name h
      hwf.name_length hwf.name_closing ha h0name
    obtain ⟨n₂, st₂, hn₂, h₂, hloop₂⟩ := parseLoop_body h₁ hwf.body hwf.words_length
    obtain ⟨n₃, st₃, hn₃, h₃, hloop₃⟩ := @ih (prev ++ [sec]) st₂ h₂.table hv h0s
    refine ⟨n₃ + n₂ + 1, st₃, ?_, ?_, ?_⟩
    · simp only [List.flatMap_cons, Section.render, List.length_append, List.length_cons]
      omega
    · rw [List.append_assoc] at h₃
      exact h₃
    · intro fuel rest
      have htext : (sec :: secs).flatMap Section.render ++ rest = sec.opening :: (sec.name ++
          sec.closing :: (sec.body.flatMap BodyItem.render ++
            (secs.flatMap Section.render ++ rest))) := by
        simp only [List.flatMap_cons, Section.render, List.append_assoc, List.cons_append]
      rw [htext, ← Nat.add_assoc, ← Nat.add_assoc]
      exact (parseLoop_some (hstep _) _).trans ((hloop₂ _ _).trans (hloop₃ _ _))

/-- The master headers of a text that has been read so far: only the last one may have words. -/
def MasterOnce (secs : List Section) : Prop :=
  secs.Pairwise fun a b => a.master = true → b.master = true → a.words = []

lemma MasterOnce.push {sec : Section} {b : BodyItem}
    (h : MasterOnce (prev ++ [sec])) : MasterOnce (prev ++ [sec.push b]) := by
  obtain ⟨h1, -, h3⟩ := List.pairwise_append.mp h
  refine List.pairwise_append.mpr ⟨h1, List.pairwise_singleton _ _, ?_⟩
  intro t ht u hu
  obtain rfl := List.mem_singleton.mp hu
  exact h3 t ht sec (List.mem_singleton_self _)

lemma MasterOnce.header (h : MasterOnce prev) (ha : (Section.header master name).AllowedAfter prev) :
    MasterOnce (prev ++ [.header master name]) := by
  refine List.pairwise_append.mpr ⟨h, List.pairwise_singleton _ _, ?_⟩
  intro t ht u hu hm hu'
  obtain rfl := List.mem_singleton.mp hu
  rw [Section.AllowedAfter, if_pos hu'] at ha
  exact ha t ht hm

/-- The last master header decides for all of them. -/
lemma MasterOnce.words_eq_nil {secs : List Section} (h : MasterOnce secs)
    (hlast : ∀ t, masterOf secs = some t → t.words = []) : ∀ t ∈ secs, t.master = true → t.words = [] := by
  induction secs using List.reverseRecOn with
  | nil => simp
  | append_singleton secs sec ih =>
    obtain ⟨h1, -, h3⟩ := List.pairwise_append.mp h
    intro t ht hm
    rcases List.mem_append.mp ht with ht | ht
    · cases hs : sec.master with
      | true => exact h3 t ht sec (List.mem_singleton_self _) hm hs
      | false =>
        refine ih h1 (fun u hu => hlast u ?_) t ht hm
        simp only [masterOf, List.filter_append] at hu ⊢
        rw [List.filter_cons_of_neg (by simp [hs]), List.filter_nil, List.append_nil]
        exact hu
    · obtain rfl := List.mem_singleton.mp ht
      apply hlast
      simp [masterOf, List.filter_append, hm]

/-- What a header that the parser has taken was allowed by. -/
lemma Table.allowed {secs : List Section} {entries : CheatEntries}
    (h : Table (masterDef secs) (cheatDefs secs) entries) (name : List UInt8) (honce : MasterOnce secs)
    (hm : master = true → i = 0 ∧ (entries 0).definition.opcodes = [])
    (hc : master = false → getFreeCheatEntry entries = some i) :
    (Section.header master name).AllowedAfter secs ∧
      (i : Nat) = slot secs (.header master name) ∧ (entries i).definition.opcodes = [] := by
  cases master with
  | true =>
    obtain ⟨rfl, hnil⟩ := hm rfl
    refine ⟨?_, rfl, hnil⟩
    refine honce.words_eq_nil fun t ht => ?_
    rw [h.master, masterDef, ht] at hnil
    exact hnil
  | false =>
    by_cases hlen : (cheatDefs secs).length + 1 < maxCheatCount
    · have hi : i = ⟨_, hlen⟩ :=
        Option.some.inj ((hc rfl).symm.trans (h.getFreeCheatEntry_eq hlen))
      refine ⟨?_, ?_, ?_⟩
      · change (cheatsOf secs).length < maxCheatCount - 1
        rw [cheatDefs, List.length_map] at hlen
        omega
      · rw [hi]
        rfl
      · rw [hi]
        exact h.free _ (Nat.lt_succ_self _)
    · have := h.getFreeCheatEntry_none hlen
      rw [hc rfl] at this
      cases this

/-- How a run of the parser from behind the header of `sec` ends: it has read the rest of the body of
`sec` and further sections, and stopped where it can read no further. -/
structure ReadUpTo (prev : List Section) (sec : Section) (s : List UInt8)
    (result : Bool × ParseState) (body : List BodyItem) (secs : List Section) (rest : List UInt8) :
    Prop where
  text : s = body.flatMap BodyItem.render ++ (secs.flatMap Section.render ++ rest)
  body_wf : ∀ b ∈ body, b.WellFormed
  words_length : (sec.words ++ body.flatMap BodyItem.words).length ≤ maxOpcodes
  valid : ValidAfter (prev ++ [{ sec with body := sec.body ++ body }]) secs
  table : Table (masterDef (prev ++ { sec with body := sec.body ++ body } :: secs))
    (cheatDefs (prev ++ { sec with body := sec.body ++ body } :: secs)) result.2.entries
  accepted : result.1 = true ↔ rest = []

lemma ReadUpTo.push {prev sec b s result body secs rest}
    (h : ReadUpTo prev (sec.push b) s result body secs rest) (hb : b.WellFormed) :
    ReadUpTo prev sec (b.render ++ s) result (b :: body) secs rest := by
  have hsec : ({ sec.push b with body := (sec.push b).body ++ body } : Section) =
      { sec with body := sec.body ++ b :: body } := by
    simp [Section.push]
  refine ⟨?_, List.forall_mem_cons.mpr ⟨hb, h.body_wf⟩, ?_, ?_, ?_, h.accepted⟩
  · rw [h.text, List.flatMap_cons, List.append_assoc]
  · have := h.words_length
    rw [Section.words_push, List.append_assoc] at this
    exact this
  · rw [← hsec]
    exact h.valid
  · rw [← hsec]
    exact h.table

/-- Stopping at once reads no further item. -/
lemma ReadUpTo.stop {prev sec st s} (h : Open prev sec st) (hwords : sec.words.length ≤ maxOpcodes)
    {b : Bool} (hb : b = true ↔ s = []) : ReadUpTo prev sec s (b, st) [] [] s := by
  have hsec : ({ sec with body := sec.body ++ [] } : Section) = sec := by rw [List.append_nil]
  refine ⟨rfl, by simp, by simpa using hwords, trivial, ?_, hb⟩
  rw [hsec]
  exact h.table

/-- A header that was allowed starts a section of its own. -/
lemma ReadUpTo.header {prev sec master name s result body secs rest}
    (h : ReadUpTo (prev ++ [sec]) (.header master name) s result body secs rest)
    (hwords : sec.words.length ≤ maxOpcodes) (hlen : name.length < readableNameSize)
    (hclose : (Section.header master name).closing ∉ name)
    (ha : (Section.header master name).AllowedAfter (prev ++ [sec])) :
    ReadUpTo prev sec ((Section.header master name).opening ::
        (name ++ (Section.header master name).closing :: s)) result []
      ({ Section.header master name with body } :: secs) rest := by
  have hsec : ({ sec with body := sec.body ++ [] } : Section) = sec := by rw [List.append_nil]
  refine ⟨?_, by simp, by simpa using hwords, ?_, ?_, h.accepted⟩
  · simp only [List.flatMap_nil, List.nil_append, List.flatMap_cons, Section.render,
      List.cons_append, List.append_assoc]
    rw [← h.text]
    rfl
  · rw [hsec]
    exact ⟨⟨hlen, hclose, h.body_wf, h.words_length⟩, ha, h.valid⟩
  · rw [hsec]
    have := h.table
    rw [List.append_assoc] at this
    exact this

/-- Every run of the parser from behind a header reads sections up to where it stops. -/
lemma parseLoop_readUpTo (fuel : Nat) {sec : Section}
    {s : List UInt8} (h : Open prev sec st) (honce : MasterOnce (prev ++ [sec]))
    (hwords : sec.words.length ≤ maxOpcodes) (h0 : 0 ∉ s) (hfuel : s.length ≤ fuel) :
    ∃ body secs rest, ReadUpTo prev sec s (parseLoop fuel st s) body secs rest := by
  induction fuel generalizing prev sec st s with
  | zero =>
    obtain rfl : s = [] := List.eq_nil_of_length_eq_zero (by omega)
    exact ⟨[], [], [], .stop h hwords (by simp)⟩
  | succ fuel ih =>
    cases hstep : parseStep st s with
    | none =>
      cases s with
      | nil => exact ⟨[], [], [], .stop h hwords (by simp)⟩
      | cons c cs =>
        rw [parseLoop, hstep]
        exact ⟨[], [], c :: cs, .stop h hwords (by simp)⟩
    | some p =>
      obtain ⟨st', s'⟩ := p
      rw [parseLoop_some hstep]
      rcases parseStep_some hstep with ⟨c, hc, rfl, rfl⟩ |
        ⟨master, name, i, hlen, hclose, rfl, rfl, hm, hfree⟩ |
        ⟨digits, i, hlen, hdigits, rfl, hi, hroom, rfl⟩
      · rw [List.mem_cons, not_or] at h0
        rw [List.length_cons] at hfuel
        obtain ⟨body, secs, rest, hr⟩ := ih (h.space c) honce.push
          (by simpa [BodyItem.words] using hwords) h0.2 (by omega)
        exact ⟨_, secs, rest, hr.push hc⟩
      · simp only [List.mem_cons, List.mem_append, not_or] at h0
        simp only [List.length_cons, List.length_append] at hfuel
        obtain ⟨ha, hslot, hnil⟩ := h.table.allowed name honce hm hfree
        have hopen := Open.header h.table h0.2.1 hslot hnil
        obtain ⟨body, secs, rest, hr⟩ := ih hopen (honce.header ha) (Nat.zero_le _) h0.2.2.2
          (by omega)
        exact ⟨[], _, rest, hr.header hwords hlen hclose ha⟩
      · rw [List.mem_append, not_or] at h0
        rw [List.length_append, hlen] at hfuel
        obtain ⟨j, hj, _, hdef⟩ := h.cur
        obtain rfl : i = j := Option.some.inj (hi.symm.trans hj)
        have hroom' : sec.words.length < maxOpcodes := by
          rw [hdef] at hroom
          exact hroom
        obtain ⟨body, secs, rest, hr⟩ := ih (h.word hi digits) honce.push
          (by simpa [BodyItem.words] using hroom') h0.2 (by omega)
        exact ⟨_, secs, rest, hr.push ⟨hlen, hdigits⟩⟩

/-- Every run of the parser on a reset table reads white space and sections up to where it stops. -/
lemma parseLoop_reset {fuel : Nat} {st : ParseState} {s : List UInt8}
    (h : Table none [] st.entries) (hcur : st.curEntry = none) (h0 : 0 ∉ s) (hfuel : s.length ≤ fuel) :
    ∃ leading secs rest, s = leading ++ (secs.flatMap Section.render ++ rest) ∧
      (∀ c ∈ leading, isSpace c = true) ∧ ValidAfter [] secs ∧
      Table (masterDef secs) (cheatDefs secs) (parseLoop fuel st s).2.entries ∧
      ((parseLoop fuel st s).1 = true ↔ rest = []) := by
  induction fuel generalizing s with
  | zero =>
    obtain rfl : s = [] := List.eq_nil_of_length_eq_zero (by omega)
    exact ⟨[], [], [], rfl, by simp, trivial, h, by simp [parseLoop]⟩
  | succ fuel ih =>
    cases hstep : parseStep st s with
    | none =>
      cases s with
      | nil => exact ⟨[], [], [], rfl, by simp, trivial, h, by simp [parseLoop]⟩
      | cons c cs =>
        rw [parseLoop, hstep]
        exact ⟨[], [], c :: cs, rfl, by simp, trivial, h, by simp⟩
    | some p =>
      obtain ⟨st', s'⟩ := p
      rw [parseLoop_some hstep]
      rcases parseStep_some hstep with ⟨c, hc, rfl, rfl⟩ |
        ⟨master, name, i, hlen, hclose, rfl, rfl, hm, hfree⟩ |
        ⟨digits, i, hlen, hdigits, rfl, hi, hroom, rfl⟩
      · rw [List.mem_cons, not_or] at h0
        rw [List.length_cons] at hfuel
        obtain ⟨leading, secs, rest, ht, hl, hrest⟩ := ih h0.2 (by omega)
        exact ⟨c :: leading, secs, rest, by rw [ht, List.cons_append], List.forall_mem_cons.mpr ⟨hc, hl⟩, hrest⟩
      · simp only [List.mem_cons, List.mem_append, not_or] at h0
        simp only [List.length_cons, List.length_append] at hfuel
        have htable : Table (masterDef []) (cheatDefs []) st.entries := h
        obtain ⟨ha, hslot, hnil⟩ := htable.allowed name List.Pairwise.nil hm hfree
        have hopen := Open.header htable h0.2.1 hslot hnil
        obtain ⟨body, secs, rest, hr⟩ := parseLoop_readUpTo fuel hopen
          (List.pairwise_singleton _ _) (Nat.zero_le _) h0.2.2.2 (by omega)
        refine ⟨[], { Section.header master name with body } :: secs, rest, ?_, by simp, ?_, ?_, hr.accepted⟩
        · simp only [List.nil_append, List.flatMap_cons, Section.render, List.cons_append,
            List.append_assoc]
          rw [← hr.text]
          rfl
        · exact ⟨⟨hlen, hclose, hr.body_wf, hr.words_length⟩, ha, hr.valid⟩
        · exact hr.table
      · rw [hcur] at hi
        cases hi

lemma CheatFile.valid (f : CheatFile) : ValidAfter [] f.sections := by
  refine validAfter_iff.mpr ⟨f.sections_wf, ?_⟩
  intro pre sec post heq
  exact f.sections_allowed pre sec post heq

/-- The text of a file is taken whole, whatever follows it. -/
lemma parseLoop_file (f : CheatFile) (h0 : 0 ∉ f.render) :
    ∃ n st, n ≤ f.render.length ∧
      Table (masterDef f.sections) (cheatDefs f.sections) st.entries ∧
      ∀ fuel rest, parseLoop (fuel + n) { entries := resetEntries } (f.render ++ rest) =
        parseLoop fuel st rest := by
  rw [CheatFile.render, List.mem_append, not_or] at h0
  obtain ⟨n, st, hn, ht, hloop⟩ := @parseLoop_sections [] f.sections
    { entries := resetEntries } Table.reset f.valid h0.2
  have hspace : ∀ (leading : List UInt8), (∀ c ∈ leading, isSpace c = true) →
      ∀ fuel rest, parseLoop (fuel + leading.length) { entries := resetEntries } (leading ++ rest) =
        parseLoop fuel { entries := resetEntries } rest := by
    intro leading hl
    induction leading with
    | nil => exact fun _ _ => rfl
    | cons c leading ih =>
      obtain ⟨hc, hl⟩ := List.forall_mem_cons.mp hl
      intro fuel rest
      rw [List.length_cons, ← Nat.add_assoc, List.cons_append, parseLoop, parseStep, if_pos hc]
      exact ih hl fuel rest
  refine ⟨n + f.leading.length, st, ?_, ht, ?_⟩
  · rw [CheatFile.render, List.length_append]
    omega
  · intro fuel rest
    rw [← Nat.add_assoc, CheatFile.render, List.append_assoc, hspace f.leading f.leading_space, hloop]

/-- Every text splits into a file and what the parser cannot read behind it; the entries hold what
the file says. -/
lemma parseLoop_splits {s : List UInt8} (h0 : 0 ∉ s) :
    ∃ (f : CheatFile) (rest : List UInt8), s = f.render ++ rest ∧
      Table (masterDef f.sections) (cheatDefs f.sections)
        (parseLoop s.length { entries := resetEntries } s).2.entries ∧
      ((parseLoop s.length { entries := resetEntries } s).1 = true ↔ rest = []) := by
  obtain ⟨leading, secs, rest, htext, hl, hv, ht, hacc⟩ :=
    @parseLoop_reset s.length { entries := resetEntries } s Table.reset rfl h0 (Nat.le_refl _)
  obtain ⟨hwf, hall⟩ := validAfter_iff.mp hv
  refine ⟨⟨leading, secs, hl, hwf, ?_⟩, rest, ?_, ht, hacc⟩
  · intro prev sec post heq
    exact hall prev sec post heq
  · rw [htext, CheatFile.render, List.append_assoc]

lemma enableParsed_definition (b : Bool) (entries : CheatEntries) (i : Fin maxCheatCount) :
    (enableParsed b entries i).definition = (entries i).definition := by
  unfold enableParsed
  split <;> rfl

lemma parseCheats_fst (b : Bool) (entries : CheatEntries) (s : List UInt8) :
    (parseCheats b entries s).1 = (parseLoop s.length { entries } s).1 := by
  unfold parseCheats
  split
  · rename_i h
    rw [h]
  · rename_i h
    rw [h]

lemma parseCheats_definition (b : Bool) (entries : CheatEntries) (s : List UInt8)
    (i : Fin maxCheatCount) : ((parseCheats b entries s).2 i).definition =
      ((parseLoop s.length { entries } s).2.entries i).definition := by
  unfold parseCheats
  split
  · rename_i h
    rw [h, enableParsed_definition]
  · rename_i h
    rw [h]

/-- Parsing sets no flag before its end, and takes no word away. -/
lemma parseStep_entry (h : parseStep st s = some (st', s')) (i : Fin maxCheatCount) :
    (st'.entries i).enabled = (st.entries i).enabled ∧
      (st.entries i).definition.opcodes <+: (st'.entries i).definition.opcodes := by
  rcases parseStep_some h with ⟨c, -, -, rfl⟩ | ⟨master, name, j, -, -, -, rfl, -, -⟩ |
    ⟨digits, j, -, -, -, -, -, rfl⟩
  · exact ⟨rfl, List.prefix_rfl⟩
  · by_cases hij : i = j
    · subst hij
      simp only [setName, Function.update_self]
      exact ⟨trivial, List.prefix_rfl⟩
    · simp only [setName, Function.update_of_ne hij]
      exact ⟨trivial, List.prefix_rfl⟩
  · by_cases hij : i = j
    · subst hij
      simp only [addOpcode, Function.update_self]
      exact ⟨trivial, List.prefix_append _ _⟩
    · simp only [addOpcode, Function.update_of_ne hij]
      exact ⟨trivial, List.prefix_rfl⟩

lemma parseLoop_entry (fuel : Nat) (st : ParseState) (s : List UInt8) (i : Fin maxCheatCount) :
    ((parseLoop fuel st s).2.entries i).enabled = (st.entries i).enabled ∧
      (st.entries i).definition.opcodes <+:
        ((parseLoop fuel st s).2.entries i).definition.opcodes := by
  induction fuel generalizing st s with
  | zero => cases s <;> exact ⟨rfl, List.prefix_rfl⟩
  | succ fuel ih =>
    cases s with
    | nil => exact ⟨rfl, List.prefix_rfl⟩
    | cons c cs =>
      rw [parseLoop]
      cases hstep : parseStep st (c :: cs) with
      | none => exact ⟨rfl, List.prefix_rfl⟩
      | some p =>
        obtain ⟨h1, h2⟩ := parseStep_entry hstep i
        obtain ⟨ih1, ih2⟩ := ih p.1 p.2
        exact ⟨ih1.trans h1, h2.trans ih2⟩

/-- The text of a file is accepted, and its sections are what the table holds. -/
lemma parseLoop_render {f : CheatFile} (h0 : 0 ∉ f.render) :
    (parseLoop f.render.length { entries := resetEntries } f.render).1 = true ∧
      Table (masterDef f.sections) (cheatDefs f.sections)
        (parseLoop f.render.length { entries := resetEntries } f.render).2.entries := by
  obtain ⟨n, st, hn, ht, hloop⟩ := parseLoop_file f h0
  have h := hloop (f.render.length - n) []
  rw [Nat.sub_add_cancel hn, List.append_nil, parseLoop_nil] at h
  rw [h]
  exact ⟨rfl, ht⟩

/-- What is accepted is the text of a file. -/
lemma parseCheats_grammar (b : Bool) {s : List UInt8} (h0 : 0 ∉ s) :
    (parseCheats b resetEntries s).1 = true ↔ ∃ f : CheatFile, f.render = s := by
  rw [parseCheats_fst]
  constructor
  · intro hacc
    obtain ⟨f, rest, htext, -, hrest⟩ := parseLoop_splits h0
    rw [hrest.mp hacc, List.append_nil] at htext
    exact ⟨f, htext.symm⟩
  · rintro ⟨f, rfl⟩
    exact (parseLoop_render h0).1

/-- The parser accepts exactly the texts of cheat files. Afterwards entry 0 holds the master cheat,
entry `k` the `k`-th other cheat that has a word, and no further entry has words. -/
theorem parseCheats_accepts_grammar (enableCheatsByDefault : Bool) (s : List UInt8) (h0 : 0 ∉ s) :
    ((parseCheats enableCheatsByDefault resetEntries s).1 = true ↔ ∃ f : CheatFile, f.render = s) ∧
    ∀ f : CheatFile, f.render = s → ((parseCheats enableCheatsByDefault resetEntries s).2 0).definition =
        ((masterOf f.sections).map Section.definition).getD {} ∧
      (∀ k sec, (cheatsOf f.sections)[k]? = some sec → ∃ h : k + 1 < maxCheatCount,
        ((parseCheats enableCheatsByDefault resetEntries s).2 ⟨k + 1, h⟩).definition = sec.definition) ∧
      ∀ i : Fin maxCheatCount, (cheatsOf f.sections).length < i →
        ((parseCheats enableCheatsByDefault resetEntries s).2 i).definition.opcodes = [] := by
  refine ⟨parseCheats_grammar enableCheatsByDefault h0, ?_⟩
  rintro f rfl
  obtain ⟨-, ht⟩ := parseLoop_render h0
  refine ⟨?_, ?_, ?_⟩
  · rw [parseCheats_definition]
    exact ht.master
  · intro k sec hk
    obtain ⟨h, hd⟩ := ht.cheats k sec.definition (by rw [cheatDefs, List.getElem?_map, hk]; rfl)
    exact ⟨h, by rw [parseCheats_definition, hd]⟩
  · intro i hi
    rw [parseCheats_definition]
    exact ht.free i (by rw [cheatDefs, List.length_map]; exact hi)

/-- `[A]` without words, a master cheat and `[B]`, which takes the entry `[A]` had: a file. A word
before any header: no file. -/
theorem parseCheats_accepts_grammar_reused_entry :
    (∃ f : CheatFile, f.render = "[A]\n\x7bM\x7d 00000001[B]20000000".toUTF8.toList) ∧
    ¬ ∃ f : CheatFile, f.render = "00000000".toUTF8.toList := by
  refine ⟨?_, ?_⟩
  · exact (parseCheats_accepts_grammar true _ (by decide +kernel)).1.mp (by decide +kernel)
  · intro h
    have := (parseCheats_accepts_grammar true _ (by decide +kernel)).1.mpr h
    exact absurd this (by decide +kernel)

end RajNX.Dmnt
