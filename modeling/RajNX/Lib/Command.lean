import Mathlib.Tactic

/-!
# Commands

Programs that run one after another over a state. A command may stop before its end: by a panic, after which
nothing runs any more, or with a code that it returns early. What it has done to the state until then stays.

`Ensures R s m Q` says what a command does from a state: the state it leaves is related to that state, however
the command ends, and what it returns has a property. The relation is a preorder, so that it holds of a sequence
if it holds of the parts.
-/

namespace RajNX

/-- Why a command stops before its end. -/
inductive Stop (ε : Type) where
  | panic
  | code (e : ε)

/-- A program over a state, which is left behind however the program ends. -/
def Command (σ ε α : Type) : Type := σ → Except (Stop ε) α × σ

namespace Command

variable {σ ε α β : Type}

instance : Monad (Command σ ε) where
  pure a := fun s => (.ok a, s)
  bind m f := fun s =>
    match m s with
    | (.ok a, s') => f a s'
    | (.error e, s') => (.error e, s')

/-- Nothing runs any more. -/
def panic : Command σ ε α := fun s => (.error .panic, s)

/-- Return early. -/
def stop (e : ε) : Command σ ε α := fun s => (.error (.code e), s)

def panicIf (c : Prop) [Decidable c] : Command σ ε Unit := if c then panic else pure ()

def stopIf (c : Prop) [Decidable c] (e : ε) : Command σ ε Unit := if c then stop e else pure ()

/-- Something that the state tells. -/
def look (f : σ → α) : Command σ ε α := fun s => (.ok (f s), s)

/-- Change the state. -/
def update (f : σ → σ) : Command σ ε Unit := fun s => (.ok (), f s)

/-- Run a command to its end, and tell the code if it returned early. -/
def attempt (m : Command σ ε α) : Command σ ε (Except ε α) := fun s =>
  match m s with
  | (.ok a, s') => (.ok (.ok a), s')
  | (.error (.code e), s') => (.ok (.error e), s')
  | (.error .panic, s') => (.error .panic, s')

/-- What a sequence does. -/
lemma bind_apply (m : Command σ ε α) (f : α → Command σ ε β) (s : σ) :
    (m >>= f) s =
      match m s with
      | (.ok a, s') => f a s'
      | (.error e, s') => (.error e, s') := rfl

variable {m : Command σ ε α} {f : α → Command σ ε β} {s s' : σ}

/-- The second command runs where the first one returns. -/
lemma bind_of_ok {a : α} (h : m s = (.ok a, s')) : (m >>= f) s = f a s' := by
  rw [bind_apply, h]

/-- Where the first one ends the sequence, the second does not run. -/
lemma bind_of_error {e : Stop ε} (h : m s = (.error e, s')) : (m >>= f) s = (.error e, s') := by
  rw [bind_apply, h]

/-- Only what the first command does from the state matters. -/
lemma bind_congr {m m' : Command σ ε α} {s : σ} (h : m s = m' s) : (m >>= f) s = (m' >>= f) s := by
  rw [bind_apply, bind_apply, h]

/-- Sequences associate. -/
lemma bind_assoc {γ : Type} (m : Command σ ε α) (f : α → Command σ ε β) (g : β → Command σ ε γ) :
    (m >>= f) >>= g = m >>= fun a => f a >>= g := by
  funext s
  rw [bind_apply, bind_apply, bind_apply]
  cases m s with
  | mk r s' =>
    cases r with
    | ok a => rfl
    | error e => rfl

lemma look_bind (f : σ → α) (g : α → Command σ ε β) (s : σ) : (look f >>= g) s = g (f s) s := rfl

/-! ## How a command ends -/

/-- A sequence returns if both commands return. -/
lemma bind_eq_ok {b : β} (h : (m >>= f) s = (.ok b, s')) : ∃ a s₁, m s = (.ok a, s₁) ∧ f a s₁ = (.ok b, s') := by
  cases hrun : m s with
  | mk r s₁ =>
    cases r with
    | ok a => exact ⟨a, s₁, rfl, (bind_of_ok hrun).symm.trans h⟩
    | error e => cases (bind_of_error hrun).symm.trans h

/-- A sequence returns early if one of the commands does. -/
lemma bind_eq_code {e : ε} (h : (m >>= f) s = (.error (.code e), s')) :
    m s = (.error (.code e), s') ∨ ∃ a s₁, m s = (.ok a, s₁) ∧ f a s₁ = (.error (.code e), s') := by
  cases hrun : m s with
  | mk r s₁ =>
    cases r with
    | ok a => exact .inr ⟨a, s₁, rfl, (bind_of_ok hrun).symm.trans h⟩
    | error e' =>
      cases (bind_of_error hrun).symm.trans h
      exact .inl rfl

/-- A check that is passed leaves the state. -/
lemma panicIf_eq_ok {c : Prop} [Decidable c] {u : Unit}
    (h : (panicIf c : Command σ ε Unit) s = (.ok u, s')) : ¬c ∧ s' = s := by
  unfold panicIf at h
  split at h
  · cases h
  · next hc =>
    cases h
    exact ⟨hc, rfl⟩

lemma stopIf_eq_ok {c : Prop} [Decidable c] {e : ε} {u : Unit} (h : stopIf c e s = (.ok u, s')) : ¬c ∧ s' = s := by
  unfold stopIf at h
  split at h
  · cases h
  · next hc =>
    cases h
    exact ⟨hc, rfl⟩

/-- Only a check that fails returns early. -/
lemma stopIf_eq_code {c : Prop} [Decidable c] {e e' : ε} (h : stopIf c e s = (.error (.code e'), s')) : c := by
  unfold stopIf at h
  split at h
  · next hc => exact hc
  · cases h

/-- A command that is run to its end has returned, or returned early. -/
lemma attempt_eq_ok {r : Except ε α} (h : m.attempt s = (.ok r, s')) :
    (∃ a, r = .ok a ∧ m s = (.ok a, s')) ∨ ∃ e, r = .error e ∧ m s = (.error (.code e), s') := by
  unfold attempt at h
  cases hrun : m s with
  | mk r₁ s₁ =>
    rw [hrun] at h
    cases r₁ with
    | ok a =>
      cases h
      exact .inl ⟨a, rfl, rfl⟩
    | error e =>
      cases e with
      | panic => cases h
      | code e =>
        cases h
        exact .inr ⟨e, rfl, rfl⟩

lemma attempt_of_ok {a : α} (h : m s = (.ok a, s')) : m.attempt s = (.ok (.ok a), s') := by
  rw [attempt, h]

lemma attempt_of_code {e : ε} (h : m s = (.error (.code e), s')) : m.attempt s = (.ok (.error e), s') := by
  rw [attempt, h]

lemma attempt_of_panic (h : m s = (.error .panic, s')) : m.attempt s = (.error .panic, s') := by
  rw [attempt, h]

/-- A command does not return early. -/
def NeverStops (m : Command σ ε α) : Prop := ∀ s e s', m s ≠ (.error (.code e), s')

namespace NeverStops

lemma bind {m : Command σ ε α} {f : α → Command σ ε β} (hm : NeverStops m) (hf : ∀ a, NeverStops (f a)) :
    NeverStops (m >>= f) := by
  intro s e s' h
  rcases bind_eq_code h with h | ⟨a, s₁, -, h⟩
  · exact hm s e s' h
  · exact hf a s₁ e s' h

lemma pure (a : α) : NeverStops (pure a : Command σ ε α) := fun _ _ _ h => by cases h

lemma look (f : σ → α) : NeverStops (look f : Command σ ε α) := fun _ _ _ h => by cases h

lemma update (f : σ → σ) : NeverStops (update f : Command σ ε Unit) := fun _ _ _ h => by cases h

lemma panicIf (c : Prop) [Decidable c] : NeverStops (panicIf c : Command σ ε Unit) := by
  intro s e s' h
  unfold Command.panicIf at h
  split at h
  · cases h
  · cases h

end NeverStops

/-- What holds of every state in which a command returns. -/
def Leaves (m : Command σ ε α) (Q : σ → Prop) : Prop := ∀ s a s', m s = (.ok a, s') → Q s'

/-- The state in which a run returns. -/
lemma Leaves.of_run {Q : σ → Prop} {a : α} (h : m s = (.ok a, s')) (hm : Leaves m Q) : Q s' :=
  hm s a s' h

/-- The last command decides. -/
lemma Leaves.bind {Q : σ → Prop} (hf : ∀ a, Leaves (f a) Q) : Leaves (m >>= f) Q := by
  intro s b s' h
  obtain ⟨a, s₁, -, hrun⟩ := bind_eq_ok h
  exact hf a s₁ b s' hrun

/-- What is returned does not matter. -/
lemma Leaves.bind_pure {f : α → β} {Q : σ → Prop} (hm : Leaves m Q) : Leaves (m >>= fun a => pure (f a)) Q := by
  intro s b s' h
  obtain ⟨a, s₁, hrun, hpure⟩ := bind_eq_ok h
  cases hpure
  exact hm s a s' hrun

/-! ## What a command does -/

/-- From a state, a command leaves a state that is related to it, and what it returns has a property. -/
structure Ensures (R : σ → σ → Prop) (s : σ) (m : Command σ ε α) (Q : α → σ → Prop) : Prop where
  related : R s (m s).2
  returns (a : α) : (m s).1 = .ok a → Q a (m s).2

/-- The state that a command leaves is related to the one it started from. -/
def Keeps (R : σ → σ → Prop) (m : Command σ ε α) : Prop := ∀ s, Ensures R s m fun _ _ => True

namespace Ensures

variable {R R' : σ → σ → Prop} {s : σ} {m : Command σ ε α} {Q Q' : α → σ → Prop}

/-- A property that is weaker. -/
lemma mono (h : Ensures R s m Q) (hQ : ∀ a s', R s s' → Q a s' → Q' a s') : Ensures R s m Q' :=
  ⟨h.related, fun a ha => hQ a _ h.related (h.returns a ha)⟩

/-- A relation that is weaker. -/
lemma weaken (h : Ensures R s m Q) (hR : ∀ s', R s s' → R' s s') : Ensures R' s m Q :=
  ⟨hR _ h.related, h.returns⟩

section Preorder

variable [IsPreorder σ R]

lemma pure {a : α} (h : Q a s) : Ensures R s (pure a : Command σ ε α) Q := by
  refine ⟨refl_of R s, fun b hb => ?_⟩
  cases hb
  exact h

lemma panic : Ensures R s (panic : Command σ ε α) Q := ⟨refl_of R s, fun _ h => by cases h⟩

lemma stop {e : ε} : Ensures R s (stop e : Command σ ε α) Q := ⟨refl_of R s, fun _ h => by cases h⟩

lemma panicIf {c : Prop} [Decidable c] : Ensures R s (panicIf c : Command σ ε Unit) fun _ s' => ¬c ∧ s' = s := by
  unfold Command.panicIf
  split
  · exact .panic
  · next hc => exact .pure ⟨hc, rfl⟩

lemma stopIf {c : Prop} [Decidable c] {e : ε} : Ensures R s (stopIf c e) fun _ s' => ¬c ∧ s' = s := by
  unfold Command.stopIf
  split
  · exact .stop
  · next hc => exact .pure ⟨hc, rfl⟩

lemma look {f : σ → α} : Ensures R s (look f : Command σ ε α) fun a s' => a = f s ∧ s' = s := by
  refine ⟨refl_of R s, fun a ha => ?_⟩
  cases ha
  exact ⟨rfl, rfl⟩

/-- One command after another. -/
lemma bind {f : α → Command σ ε β} {Q' : β → σ → Prop} (hm : Ensures R s m Q)
    (hf : ∀ a s', R s s' → Q a s' → Ensures R s' (f a) Q') : Ensures R s (m >>= f) Q' := by
  obtain ⟨hrelated, hreturns⟩ := hm
  cases hrun : m s with
  | mk r s' =>
    rw [hrun] at hrelated hreturns
    cases r with
    | ok a =>
      have hrest := hf a s' hrelated (hreturns a rfl)
      refine ⟨?_, ?_⟩
      · rw [bind_of_ok hrun]
        exact trans_of R hrelated hrest.related
      · rw [bind_of_ok hrun]
        exact hrest.returns
    | error e =>
      refine ⟨?_, ?_⟩
      · rw [bind_of_error hrun]
        exact hrelated
      · rw [bind_of_error hrun]
        intro a ha
        cases ha

/-- What comes after a check starts from the same state. -/
lemma bind_stopIf {c : Prop} [Decidable c] {e : ε} {f : Unit → Command σ ε α} (hf : ¬c → Ensures R s (f ()) Q) :
    Ensures R s (Command.stopIf c e >>= f) Q := by
  refine stopIf.bind fun _ s' _ hno => ?_
  obtain ⟨hc, rfl⟩ := hno
  exact hf hc

lemma bind_panicIf {c : Prop} [Decidable c] {f : Unit → Command σ ε α} (hf : ¬c → Ensures R s (f ()) Q) :
    Ensures R s (Command.panicIf c >>= f) Q := by
  refine panicIf.bind fun _ s' _ hno => ?_
  obtain ⟨hc, rfl⟩ := hno
  exact hf hc

end Preorder

lemma update {f : σ → σ} {Q : Unit → σ → Prop} (h : R s (f s)) (hQ : Q () (f s)) :
    Ensures R s (update f : Command σ ε Unit) Q :=
  ⟨h, fun _ _ => hQ⟩

lemma attempt (h : Ensures R s m Q) : Ensures R s (attempt m) fun r s' => ∀ a, r = .ok a → Q a s' := by
  obtain ⟨hrelated, hreturns⟩ := h
  cases hrun : m s with
  | mk r s' =>
    rw [hrun] at hrelated hreturns
    cases r with
    | ok a =>
      refine ⟨by rw [Command.attempt, hrun]; exact hrelated, fun b hb a' ha' => ?_⟩
      rw [Command.attempt, hrun] at hb ⊢
      cases hb
      cases ha'
      exact hreturns a rfl
    | error e =>
      cases e with
      | panic =>
        refine ⟨by rw [Command.attempt, hrun]; exact hrelated, fun b hb => ?_⟩
        rw [Command.attempt, hrun] at hb
        cases hb
      | code e =>
        refine ⟨by rw [Command.attempt, hrun]; exact hrelated, fun b hb a' ha' => ?_⟩
        rw [Command.attempt, hrun] at hb
        cases hb
        cases ha'

end Ensures

namespace Keeps

variable {R : σ → σ → Prop} [IsPreorder σ R]

lemma bind {m : Command σ ε α} {f : α → Command σ ε β} (hm : Keeps R m) (hf : ∀ a, Keeps R (f a)) : Keeps R (m >>= f) :=
  fun s => (hm s).bind fun a s' _ _ => hf a s'

lemma pure (a : α) : Keeps R (pure a : Command σ ε α) := fun _ => .pure trivial

lemma panic : Keeps R (panic : Command σ ε α) := fun _ => .panic

lemma stop (e : ε) : Keeps R (stop e : Command σ ε α) := fun _ => .stop

lemma panicIf (c : Prop) [Decidable c] : Keeps R (panicIf c : Command σ ε Unit) := fun _ =>
  Ensures.panicIf.mono fun _ _ _ _ => trivial

lemma stopIf (c : Prop) [Decidable c] (e : ε) : Keeps R (stopIf c e) := fun _ =>
  Ensures.stopIf.mono fun _ _ _ _ => trivial

lemma look (f : σ → α) : Keeps R (look f : Command σ ε α) := fun _ =>
  Ensures.look.mono fun _ _ _ _ => trivial

omit [IsPreorder σ R] in
lemma update {f : σ → σ} (h : ∀ s, R s (f s)) : Keeps R (update f : Command σ ε Unit) := fun s =>
  .update (h s) trivial

end Keeps

end Command

end RajNX
