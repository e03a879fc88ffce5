import Mathlib.Tactic

/-!
# Custody

Slots are given to owners, which fill and use them and release them again. A slot is cleared when it is released.
What has happened is told by a log, the newest event first, and who has a slot by a table.

If every move follows the table then no slot has two owners, and what an owner uses was filled by itself since it
was given the slot, or was cleared, or has never been touched.
-/

namespace RajNX.Custody

variable {σ ω κ : Type}

/-- What happens to a slot. -/
inductive Event (σ ω κ : Type)
  | given (slot : σ) (owner : ω)
  | filled (slot : σ) (owner : ω) (content : κ)
  | used (slot : σ) (owner : ω)
  | cleared (slot : σ)
  | released (slot : σ) (owner : ω)

/-- An owner was given a slot and has not released it. -/
def Holds (slot : σ) (owner : ω) : List (Event σ ω κ) → Prop
  | [] => False
  | .given s o :: log => s = slot ∧ o = owner ∨ Holds slot owner log
  | .released s o :: log => ¬(s = slot ∧ o = owner) ∧ Holds slot owner log
  | .filled _ _ _ :: log => Holds slot owner log
  | .used _ _ :: log => Holds slot owner log
  | .cleared _ :: log => Holds slot owner log

/-- What is in a slot was put there by an owner that held it, and the slot has not changed hands since. -/
def FilledSince (slot : σ) (owner : ω) : List (Event σ ω κ) → Prop
  | [] => False
  | .filled s o _ :: log => s = slot ∧ o = owner ∧ Holds slot owner log ∨ s ≠ slot ∧ FilledSince slot owner log
  | .given s _ :: log => s ≠ slot ∧ FilledSince slot owner log
  | .cleared s :: log => s ≠ slot ∧ FilledSince slot owner log
  | .released s _ :: log => s ≠ slot ∧ FilledSince slot owner log
  | .used _ _ :: log => FilledSince slot owner log

/-- A slot was cleared and has not been filled since. -/
def Cleared (slot : σ) : List (Event σ ω κ) → Prop
  | [] => False
  | .filled s _ _ :: log => s ≠ slot ∧ Cleared slot log
  | .cleared s :: log => s = slot ∨ Cleared slot log
  | .given _ _ :: log => Cleared slot log
  | .used _ _ :: log => Cleared slot log
  | .released _ _ :: log => Cleared slot log

/-- A slot has never been filled or cleared. -/
def Untouched (slot : σ) : List (Event σ ω κ) → Prop
  | [] => True
  | .filled s _ _ :: log => s ≠ slot ∧ Untouched slot log
  | .cleared s :: log => s ≠ slot ∧ Untouched slot log
  | .given _ _ :: log => Untouched slot log
  | .used _ _ :: log => Untouched slot log
  | .released _ _ :: log => Untouched slot log

/-- Every use is one of a slot that is held, of what the owner put there or nobody did. -/
def UsesOwn : List (Event σ ω κ) → Prop
  | [] => True
  | .used s o :: log =>
    Holds s o log ∧ (FilledSince s o log ∨ Cleared s log ∨ Untouched s log) ∧ UsesOwn log
  | .given _ _ :: log => UsesOwn log
  | .filled _ _ _ :: log => UsesOwn log
  | .cleared _ :: log => UsesOwn log
  | .released _ _ :: log => UsesOwn log

/-- Who has which slot, and what has happened. -/
structure Account (σ ω κ : Type) where
  table : σ → Option ω
  log : List (Event σ ω κ)

/-- The table tells who holds what, and nothing is left behind in a slot. -/
structure Consistent (a : Account σ ω κ) : Prop where
  holds_iff : ∀ slot owner, Holds slot owner a.log ↔ a.table slot = some owner
  content_of_free : ∀ slot, a.table slot = none → Cleared slot a.log ∨ Untouched slot a.log
  content_of_taken : ∀ slot owner, a.table slot = some owner →
    FilledSince slot owner a.log ∨ Cleared slot a.log ∨ Untouched slot a.log
  usesOwn : UsesOwn a.log

/-- Nobody has a slot, and nothing has happened. -/
lemma Consistent.empty : Consistent (⟨fun _ => none, []⟩ : Account σ ω κ) where
  holds_iff _ _ := ⟨False.elim, nofun⟩
  content_of_free _ _ := .inr trivial
  content_of_taken _ _ := nofun
  usesOwn := trivial

variable {a b : Account σ ω κ}

lemma Consistent.use {slot : σ} {owner : ω} (h : Consistent a) (htaken : a.table slot = some owner) :
    Consistent ⟨a.table, .used slot owner :: a.log⟩ where
  holds_iff := h.holds_iff
  content_of_free := h.content_of_free
  content_of_taken := h.content_of_taken
  usesOwn := ⟨(h.holds_iff slot owner).mpr htaken, h.content_of_taken slot owner htaken, h.usesOwn⟩

/-- No slot has two owners. -/
lemma Consistent.holds_unique (h : Consistent a) {slot : σ} {owner owner' : ω} (ho : Holds slot owner a.log)
    (ho' : Holds slot owner' a.log) : owner = owner' := by
  rw [h.holds_iff] at ho ho'
  exact Option.some.inj (ho.symm.trans ho')

section Table

variable [DecidableEq σ]

/-- A move that follows the table. -/
inductive Move : Account σ ω κ → Account σ ω κ → Prop
  | give {a : Account σ ω κ} {slot : σ} (owner : ω) (h : a.table slot = none) :
    Move a ⟨Function.update a.table slot (some owner), .given slot owner :: a.log⟩
  | fill {a : Account σ ω κ} {slot : σ} {owner : ω} (content : κ) (h : a.table slot = some owner) :
    Move a ⟨a.table, .filled slot owner content :: a.log⟩
  | use {a : Account σ ω κ} {slot : σ} {owner : ω} (h : a.table slot = some owner) :
    Move a ⟨a.table, .used slot owner :: a.log⟩
  | release {a : Account σ ω κ} {slot : σ} {owner : ω} (h : a.table slot = some owner) :
    Move a ⟨Function.update a.table slot none, .released slot owner :: .cleared slot :: a.log⟩

lemma Consistent.give {slot : σ} (h : Consistent a) (owner : ω) (hfree : a.table slot = none) :
    Consistent ⟨Function.update a.table slot (some owner), .given slot owner :: a.log⟩ where
  holds_iff s o := by
    dsimp only
    rw [Holds, h.holds_iff]
    by_cases hs : slot = s
    · subst hs
      rw [Function.update_self, hfree]
      simp
    · rw [Function.update_of_ne (Ne.symm hs)]
      exact or_iff_right fun hand => hs hand.1
  content_of_free s hs := by
    dsimp only at hs
    by_cases hne : s = slot
    · subst hne
      rw [Function.update_self] at hs
      cases hs
    · rw [Function.update_of_ne hne] at hs
      exact h.content_of_free s hs
  content_of_taken s o hs := by
    dsimp only at hs
    by_cases hne : s = slot
    · subst hne
      exact .inr (h.content_of_free s hfree)
    · rw [Function.update_of_ne hne] at hs
      exact (h.content_of_taken s o hs).imp_left fun hfilled => ⟨Ne.symm hne, hfilled⟩
  usesOwn := h.usesOwn

lemma Consistent.fill {slot : σ} {owner : ω} (h : Consistent a) (content : κ) (htaken : a.table slot = some owner) :
    Consistent ⟨a.table, .filled slot owner content :: a.log⟩ where
  holds_iff := h.holds_iff
  content_of_free s hs := by
    have hne : slot ≠ s := by
      rintro rfl
      cases htaken.symm.trans hs
    exact (h.content_of_free s hs).imp (fun hcleared => ⟨hne, hcleared⟩) fun hno => ⟨hne, hno⟩
  content_of_taken s o hs := by
    dsimp only at hs
    by_cases hne : slot = s
    · subst hne
      cases Option.some.inj (htaken.symm.trans hs)
      exact .inl (.inl ⟨rfl, rfl, (h.holds_iff slot owner).mpr htaken⟩)
    · exact (h.content_of_taken s o hs).imp (fun hfilled => .inr ⟨hne, hfilled⟩)
        (.imp (fun hcleared => ⟨hne, hcleared⟩) fun hno => ⟨hne, hno⟩)
  usesOwn := h.usesOwn

lemma Consistent.release {slot : σ} {owner : ω} (h : Consistent a) (htaken : a.table slot = some owner) :
    Consistent ⟨Function.update a.table slot none, .released slot owner :: .cleared slot :: a.log⟩ where
  holds_iff s o := by
    dsimp only
    rw [Holds, Holds, h.holds_iff]
    by_cases hs : slot = s
    · subst hs
      rw [Function.update_self, htaken]
      simp
    · rw [Function.update_of_ne (Ne.symm hs)]
      exact and_iff_right fun hand => hs hand.1
  content_of_free s hs := by
    dsimp only at hs
    by_cases hne : slot = s
    · exact .inl (.inl hne)
    · rw [Function.update_of_ne (Ne.symm hne)] at hs
      exact (h.content_of_free s hs).imp .inr fun hno => ⟨hne, hno⟩
  content_of_taken s o hs := by
    dsimp only at hs
    by_cases hne : slot = s
    · subst hne
      rw [Function.update_self] at hs
      cases hs
    · rw [Function.update_of_ne (Ne.symm hne)] at hs
      exact (h.content_of_taken s o hs).imp (fun hfilled => ⟨hne, hne, hfilled⟩)
        (.imp .inr fun hno => ⟨hne, hno⟩)
  usesOwn := h.usesOwn

/-- One move. -/
lemma Move.consistent (hmove : Move a b) (h : Consistent a) : Consistent b := by
  cases hmove with
  | give owner hfree => exact h.give owner hfree
  | fill content htaken => exact h.fill content htaken
  | use htaken => exact h.use htaken
  | release htaken => exact h.release htaken

/-- Moves one after the other. -/
abbrev Moves : Account σ ω κ → Account σ ω κ → Prop := Relation.ReflTransGen Move

lemma Moves.consistent (hmoves : Moves a b) (h : Consistent a) : Consistent b := by
  induction hmoves with
  | refl => exact h
  | tail _ hmove ih => exact hmove.consistent ih

end Table

end RajNX.Custody
