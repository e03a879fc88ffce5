import Mathlib.Tactic

/-!
# Interruptible procedures

Procedures over a store, made of atomic operations that return or fail. A procedure may be cut off
after any of its operations, and one of its operations may fail without effect: `run` records every
store the procedure leaves behind after an operation, and `runFault` makes an operation of the run
fail. `Sat` speaks of all the stores a cut can find as well as of the result.
-/

namespace RajNX.Interruptible

variable {σ ε α β : Type}

/-- A procedure over stores `σ` with errors `ε`: a result, or an operation and how to go on. -/
inductive Proc (σ ε α : Type) : Type 1
  | done (r : Except ε α)
  | op {β : Type} (f : σ → Except ε β × σ) (next : Except ε β → Proc σ ε α)

/-- A run: the stores after each atomic operation, the result and the last store. -/
structure Run (σ ε α : Type) where
  visited : List σ
  result : Except ε α
  final : σ

namespace Proc

/-- The procedure that fails. -/
def fail (e : ε) : Proc σ ε α := .done (.error e)

/-- Go on with the value of a procedure; an error ends the whole. -/
def andThen (p : Proc σ ε α) (k : α → Proc σ ε β) : Proc σ ε β :=
  match p with
  | .done (.ok a) => k a
  | .done (.error e) => .done (.error e)
  | .op f next => .op f fun r => (next r).andThen k

instance : Monad (Proc σ ε) where
  pure a := .done (.ok a)
  bind := andThen

/-- One atomic operation on the store. -/
def atomic (f : σ → Except ε α × σ) : Proc σ ε α := .op f .done

/-- Run a procedure and return its result, whatever it is. -/
def attempt : Proc σ ε α → Proc σ ε (Except ε α)
  | .done r => .done (.ok r)
  | .op f next => .op f fun r => (next r).attempt

/-- Run a procedure and handle one of its errors. -/
def catchOnly [DecidableEq ε] (p : Proc σ ε Unit) (e : ε) (handler : Proc σ ε Unit) : Proc σ ε Unit :=
  p.attempt >>= fun
    | .ok _ => pure ()
    | .error e' => if e' = e then handler else fail e'

/-- The run of a procedure. -/
def run : Proc σ ε α → σ → Run σ ε α
  | .done r, s => ⟨[], r, s⟩
  | .op f next, s =>
    let rest := (next (f s).1).run (f s).2
    ⟨(f s).2 :: rest.visited, rest.result, rest.final⟩

/-- The store that a cut after `n` operations finds. -/
def cut : Proc σ ε α → Nat → σ → σ
  | .done _, _, s => s
  | .op _ _, 0, s => s
  | .op f next, n + 1, s => (next (f s).1).cut n (f s).2

/-- The run of a procedure whose operation number `n` fails with the error `e` and has no effect. -/
def runFault (e : ε) : Proc σ ε α → Nat → σ → Run σ ε α
  | .done r, _, s => ⟨[], r, s⟩
  | .op _ next, 0, s =>
    let rest := (next (.error e)).run s
    ⟨s :: rest.visited, rest.result, rest.final⟩
  | .op f next, n + 1, s =>
    let rest := (next (f s).1).runFault e n (f s).2
    ⟨(f s).2 :: rest.visited, rest.result, rest.final⟩

/-- No operation fails of itself. -/
def noFault : ε → Prop := fun _ => False

/-- What a procedure does from a store: every store a cut can find meets `R`, and the result and the
last store meet `Q`, also when one operation fails with an error of `F`. -/
def Sat : Proc σ ε α → (ε → Prop) → σ → (σ → Prop) → (Except ε α → σ → Prop) → Prop
  | .done r, _, s, _, Q => Q r s
  | .op f next, F, s, R, Q =>
    R (f s).2 ∧ (next (f s).1).Sat F (f s).2 R Q ∧
      ∀ e, F e → R s ∧ (next (.error e)).Sat noFault s R Q

variable {F : ε → Prop} {s : σ} {R R' : σ → Prop} {p : Proc σ ε α} {Q : Except ε α → σ → Prop}

/-- The judgement says what the run does. -/
lemma Sat.run (h : p.Sat F s R Q) : (∀ t ∈ (p.run s).visited, R t) ∧ Q (p.run s).result (p.run s).final := by
  induction p generalizing F s with
  | done r => exact ⟨nofun, h⟩
  | op f next ih =>
    obtain ⟨hR, hnext, -⟩ := h
    obtain ⟨hvisited, hQ⟩ := ih _ hnext
    refine ⟨?_, hQ⟩
    intro t ht
    rcases List.mem_cons.mp ht with rfl | ht
    · exact hR
    · exact hvisited t ht

variable {e : ε}

/-- The judgement with a fault says what every run with one failing operation does. -/
lemma Sat.runFault (h : p.Sat F s R Q) (he : F e) (n : Nat) :
    (∀ t ∈ (p.runFault e n s).visited, R t) ∧
      Q (p.runFault e n s).result (p.runFault e n s).final := by
  induction p generalizing s n with
  | done r => exact ⟨nofun, h⟩
  | op f next ih =>
    obtain ⟨hR, hnext, hfault⟩ := h
    cases n with
    | zero =>
      obtain ⟨hs, hsat⟩ := hfault e he
      obtain ⟨hvisited, hQ⟩ := hsat.run
      refine ⟨?_, hQ⟩
      intro t ht
      rcases List.mem_cons.mp ht with rfl | ht
      · exact hs
      · exact hvisited t ht
    | succ n =>
      obtain ⟨hvisited, hQ⟩ := ih _ hnext n
      refine ⟨?_, hQ⟩
      intro t ht
      rcases List.mem_cons.mp ht with rfl | ht
      · exact hR
      · exact hvisited t ht

lemma Sat.mono {Q Q' : Except ε α → σ → Prop} (h : p.Sat F s R Q)
    (hR : ∀ t, R t → R' t) (hQ : ∀ r t, Q r t → Q' r t) : p.Sat F s R' Q' := by
  induction p generalizing F s with
  | done r => exact hQ r s h
  | op f next ih =>
    obtain ⟨hRs, hnext, hfault⟩ := h
    refine ⟨hR _ hRs, ih _ hnext, ?_⟩
    intro e he
    obtain ⟨hs, hsat⟩ := hfault e he
    exact ⟨hR _ hs, ih _ hsat⟩

/-- What holds with a fault holds without. -/
lemma Sat.faultless (h : p.Sat F s R Q) : p.Sat noFault s R Q := by
  induction p generalizing s with
  | done r => exact h
  | op f next ih => exact ⟨h.1, ih _ h.2.1, nofun⟩

lemma sat_pure {a : α} (h : Q (.ok a) s) :
    (pure a : Proc σ ε α).Sat F s R Q := h

lemma sat_fail (h : Q (.error e) s) :
    (fail e : Proc σ ε α).Sat F s R Q := h

variable {f : σ → Except ε α × σ}

lemma sat_atomic (hR : R (f s).2) (hQ : Q (f s).1 (f s).2) (hfault : ∀ e, F e → R s ∧ Q (.error e) s) :
    (atomic f).Sat F s R Q :=
  ⟨hR, hQ, hfault⟩

variable {k : α → Proc σ ε β}

/-- The rule of sequencing: what is left to show after an error is the postcondition. -/
lemma sat_bind {Q : Except ε β → σ → Prop}
    (h : p.Sat F s R fun r t =>
      (∀ a, r = .ok a → (k a).Sat F t R Q) ∧ ∀ e, r = .error e → Q (.error e) t) :
    (p >>= k).Sat F s R Q := by
  induction p generalizing F s with
  | done r =>
    cases r with
    | ok a => exact h.1 a rfl
    | error e => exact h.2 e rfl
  | op f next ih =>
    obtain ⟨hR, hnext, hfault⟩ := h
    refine ⟨hR, ih _ hnext, ?_⟩
    intro e he
    obtain ⟨hs, hsat⟩ := hfault e he
    refine ⟨hs, ih _ (hsat.mono (fun _ h => h) ?_)⟩
    rintro r t ⟨hok, herror⟩
    exact ⟨fun a ha => (hok a ha).faultless, herror⟩

/-- The run of a sequence, after a first part that returned. -/
lemma run_bind_ok {a : α} (h : (p.run s).result = .ok a) :
    (p >>= k).run s = ⟨(p.run s).visited ++ ((k a).run (p.run s).final).visited,
      ((k a).run (p.run s).final).result, ((k a).run (p.run s).final).final⟩ := by
  induction p generalizing s with
  | done r =>
    cases h
    rfl
  | op f next ih =>
    show (Proc.op f fun r => (next r).andThen k).run s = _
    have hrest := ih (f s).1 h
    simp only [Proc.run]
    rw [show ((next (f s).1).andThen k).run (f s).2 = _ from hrest]
    rfl

/-- The run of a sequence, after a first part that failed. -/
lemma run_bind_error (h : (p.run s).result = .error e) :
    (p >>= k).run s = ⟨(p.run s).visited, .error e, (p.run s).final⟩ := by
  induction p generalizing s with
  | done r =>
    cases h
    rfl
  | op f next ih =>
    show (Proc.op f fun r => (next r).andThen k).run s = _
    have hrest := ih (f s).1 h
    simp only [Proc.run]
    rw [show ((next (f s).1).andThen k).run (f s).2 = _ from hrest]

lemma pure_bind (a : α) (k : α → Proc σ ε β) : (pure a : Proc σ ε α) >>= k = k a := rfl

lemma fail_bind (e : ε) (k : α → Proc σ ε β) : (fail e : Proc σ ε α) >>= k = fail e := rfl

lemma op_bind {γ : Type} (f : σ → Except ε γ × σ) (next : Except ε γ → Proc σ ε α)
    (k : α → Proc σ ε β) : op f next >>= k = op f fun r => next r >>= k := rfl

lemma catchOnly_op [DecidableEq ε] {γ : Type} (f : σ → Except ε γ × σ)
    (next : Except ε γ → Proc σ ε Unit) (e : ε) (handler : Proc σ ε Unit) :
    (op f next).catchOnly e handler = op f fun r => (next r).catchOnly e handler := rfl

lemma catchOnly_fail [DecidableEq ε] (e e' : ε) (handler : Proc σ ε Unit) :
    (fail e').catchOnly e handler = if e' = e then handler else fail e' := rfl

/-- Sequencing is associative. -/
lemma bind_assoc {γ : Type} (p : Proc σ ε α) (k : α → Proc σ ε β) (l : β → Proc σ ε γ) :
    (p >>= k) >>= l = p >>= fun a => k a >>= l := by
  induction p with
  | done r => cases r <;> rfl
  | op f next ih => exact congrArg (Proc.op f) (funext fun r => ih r)

/-- A fault after the last operation is none. -/
lemma runFault_of_le {n : Nat} (h : (p.run s).visited.length ≤ n) : p.runFault e n s = p.run s := by
  induction p generalizing s n with
  | done r => rfl
  | op f next ih =>
    cases n with
    | zero => exact absurd h (Nat.not_succ_le_zero _)
    | succ n =>
      simp only [runFault, run]
      rw [ih _ (Nat.le_of_succ_le_succ h)]

/-- A fault in the first part of a sequence, which returns all the same. -/
lemma runFault_bind_lt_ok {n : Nat} {a : α}
    (hn : n < (p.run s).visited.length) (h : (p.runFault e n s).result = .ok a) :
    ((p >>= k).runFault e n s).result = ((k a).run (p.runFault e n s).final).result ∧
      ((p >>= k).runFault e n s).final = ((k a).run (p.runFault e n s).final).final := by
  induction p generalizing s n with
  | done r => exact absurd hn (Nat.not_lt_zero n)
  | op f next ih =>
    cases n with
    | zero =>
      have hrun := run_bind_ok (k := k) h
      have hresult := congrArg Run.result hrun
      have hfinal := congrArg Run.final hrun
      exact ⟨hresult, hfinal⟩
    | succ n => exact ih _ (Nat.lt_of_succ_lt_succ hn) h

/-- A fault that ends the first part of a sequence ends the whole. -/
lemma runFault_bind_lt_error {e e' : ε} {n : Nat}
    (hn : n < (p.run s).visited.length) (h : (p.runFault e n s).result = .error e') :
    ((p >>= k).runFault e n s).result = .error e' ∧
      ((p >>= k).runFault e n s).final = (p.runFault e n s).final := by
  induction p generalizing s n with
  | done r => exact absurd hn (Nat.not_lt_zero n)
  | op f next ih =>
    cases n with
    | zero =>
      have hrun := run_bind_error (k := k) h
      exact ⟨congrArg Run.result hrun, congrArg Run.final hrun⟩
    | succ n => exact ih _ (Nat.lt_of_succ_lt_succ hn) h

/-- A fault after the first part of a sequence. -/
lemma runFault_bind_ge {n : Nat} {a : α} (h : (p.run s).result = .ok a) :
    ((p >>= k).runFault e ((p.run s).visited.length + n) s).result = ((k a).runFault e n (p.run s).final).result ∧
      ((p >>= k).runFault e ((p.run s).visited.length + n) s).final =
        ((k a).runFault e n (p.run s).final).final := by
  induction p generalizing s with
  | done r =>
    cases h
    simp only [run, List.length_nil, Nat.zero_add]
    exact ⟨rfl, rfl⟩
  | op f next ih =>
    simp only [run, List.length_cons]
    rw [Nat.succ_add_eq_add_succ, Nat.add_succ]
    exact ih _ h

lemma cut_zero (p : Proc σ ε α) (s : σ) : p.cut 0 s = s := by
  cases p <;> rfl

/-- A cut behind the first operation of a sequence. -/
lemma cut_atomic_bind {a : α} {t : σ}
    (h : f s = (.ok a, t)) (n : Nat) : (atomic f >>= k).cut (n + 1) s = (k a).cut n t := by
  show (Proc.andThen (.done (f s).1) k).cut n (f s).2 = _
  rw [h]
  rfl

lemma cut_attempt_bind {k : Except ε α → Proc σ ε β} {r : Except ε α} {t : σ}
    (h : f s = (r, t)) (n : Nat) : ((atomic f).attempt >>= k).cut (n + 1) s = (k r).cut n t := by
  show (k (f s).1).cut n (f s).2 = _
  rw [h]

lemma sat_attempt {Q : Except ε (Except ε α) → σ → Prop}
    (h : p.Sat F s R fun r t => Q (.ok r) t) : p.attempt.Sat F s R Q := by
  induction p generalizing F s with
  | done r => exact h
  | op f next ih =>
    obtain ⟨hR, hnext, hfault⟩ := h
    refine ⟨hR, ih _ hnext, ?_⟩
    intro e he
    obtain ⟨hs, hsat⟩ := hfault e he
    exact ⟨hs, ih _ hsat⟩

lemma sat_catchOnly [DecidableEq ε] {p handler : Proc σ ε Unit}
    {Q : Except ε Unit → σ → Prop}
    (h : p.Sat F s R fun r t => (r = .ok () → Q (.ok ()) t) ∧
      (r = .error e → handler.Sat F t R Q) ∧
      ∀ e', r = .error e' → e' ≠ e → Q (.error e') t) :
    (p.catchOnly e handler).Sat F s R Q := by
  refine sat_bind (sat_attempt (h.mono (fun _ h => h) ?_))
  rintro r t ⟨hok, he, hother⟩
  refine ⟨?_, nofun⟩
  rintro r' ⟨⟩
  cases r with
  | ok => exact hok rfl
  | error e' =>
    show (if e' = e then handler else fail e').Sat F t R Q
    by_cases heq : e' = e
    · rw [if_pos heq]
      exact he (by rw [heq])
    · rw [if_neg heq]
      exact sat_fail (hother e' rfl heq)

end Proc

end RajNX.Interruptible
