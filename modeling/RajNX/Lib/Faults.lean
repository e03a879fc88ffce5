import RajNX.Lib.Interruptible

/-!
# Faults at any time

Runs of an interruptible procedure under a schedule, which says of each operation whether it fails; where the schedule
ends, the run is cut off. `Guards` speaks of all steps and all results of all these runs. A procedure is `ReadOnly` if
it changes nothing, and returns what it returns without faults or an error.
-/

namespace RajNX.Interruptible

variable {σ ε α β : Type}

/-- A run that may have been cut off: the stores after its operations, its result if it has one, and the last store. -/
structure Play (σ ε α : Type) where
  visited : List σ
  result : Option (Except ε α)
  final : σ

namespace Proc

/-- The run under a schedule: an operation that fails has no effect. -/
def play : Proc σ ε α → List (Option ε) → σ → Play σ ε α
  | .done r, _, s => ⟨[], some r, s⟩
  | .op f next, schedule, s =>
    match schedule with
    | [] => ⟨[], none, s⟩
    | none :: later =>
      let rest := (next (f s).1).play later (f s).2
      ⟨(f s).2 :: rest.visited, rest.result, rest.final⟩
    | some e :: later => (next (.error e)).play later s

/-- All the runs from a store: each step meets `R`, and a result and the store it leaves meet `Q`. -/
def Guards : Proc σ ε α → σ → (σ → σ → Prop) → (Except ε α → σ → Prop) → Prop
  | .done r, s, _, Q => Q r s
  | .op f next, s, R, Q =>
    R s (f s).2 ∧ (next (f s).1).Guards (f s).2 R Q ∧ ∀ e, (next (.error e)).Guards s R Q

/-- Turn an error into another one. -/
def mapError (p : Proc σ ε α) (g : ε → ε) : Proc σ ε α :=
  p.attempt >>= fun r => .done (r.mapError g)

/-- Run a procedure and then another one, whatever the result of the first one is. -/
def followedBy (p : Proc σ ε α) (release : Proc σ ε Unit) : Proc σ ε α :=
  p.attempt >>= fun r => release >>= fun _ => .done r

variable {s t : σ} {R R' : σ → σ → Prop} {p : Proc σ ε α} {Q Q' : Except ε α → σ → Prop}

/-- The judgement says what every run does. -/
lemma Guards.play (h : p.Guards s R Q) (schedule : List (Option ε)) :
    (s :: (p.play schedule s).visited).IsChain R ∧
      ∀ r, (p.play schedule s).result = some r → Q r (p.play schedule s).final := by
  induction p generalizing s schedule with
  | done r =>
    refine ⟨.singleton _, ?_⟩
    rintro r' ⟨⟩
    exact h
  | op f next ih =>
    obtain ⟨hstep, hnext, hfault⟩ := h
    match schedule with
    | [] => exact ⟨.singleton _, nofun⟩
    | none :: later =>
      obtain ⟨hchain, hresult⟩ := ih _ hnext later
      exact ⟨.cons_cons hstep hchain, hresult⟩
    | some e :: later => exact ih _ (hfault e) later

/-- What holds after every step holds of all the stores that are visited. -/
lemma Guards.visited {I : σ → Prop} (h : p.Guards s (fun _ t => I t) Q) (schedule : List (Option ε)) :
    ∀ t ∈ (p.play schedule s).visited, I t := by
  induction p generalizing s schedule with
  | done r => exact fun t ht => nomatch ht
  | op f next ih =>
    obtain ⟨hstep, hnext, hfault⟩ := h
    match schedule with
    | [] => exact fun t ht => nomatch ht
    | none :: later =>
      intro t ht
      rcases List.mem_cons.mp ht with rfl | ht
      · exact hstep
      · exact ih _ hnext later t ht
    | some e :: later => exact ih _ (hfault e) later

lemma Guards.mono (h : p.Guards s R Q) (hR : ∀ t u, R t u → R' t u) (hQ : ∀ r t, Q r t → Q' r t) :
    p.Guards s R' Q' := by
  induction p generalizing s with
  | done r => exact hQ r s h
  | op f next ih =>
    obtain ⟨hstep, hnext, hfault⟩ := h
    exact ⟨hR _ _ hstep, ih _ hnext, fun e => ih _ (hfault e)⟩

/-- What holds of all stores holds before a step, too. -/
lemma Guards.before {I : σ → Prop} (h : p.Guards s (fun _ u => I u) Q) (hs : I s) :
    p.Guards s (fun t u => I t ∧ I u) Q := by
  induction p generalizing s with
  | done r => exact h
  | op f next ih => exact ⟨⟨hs, h.1⟩, ih _ h.2.1 h.1, fun e => ih _ (h.2.2 e) hs⟩

lemma guards_pure {a : α} (h : Q (.ok a) s) : (pure a : Proc σ ε α).Guards s R Q := h

lemma guards_fail {e : ε} (h : Q (.error e) s) : (fail e : Proc σ ε α).Guards s R Q := h

variable {f : σ → Except ε α × σ}

lemma guards_atomic (hR : R s (f s).2) (hQ : Q (f s).1 (f s).2)
    (hfault : ∀ e, Q (.error e) s) : (atomic f).Guards s R Q :=
  ⟨hR, hQ, hfault⟩

variable {k : α → Proc σ ε β}

/-- The rule of sequencing. -/
lemma guards_bind {Q : Except ε β → σ → Prop}
    (h : p.Guards s R fun r t =>
      (∀ a, r = .ok a → (k a).Guards t R Q) ∧ ∀ e, r = .error e → Q (.error e) t) :
    (p >>= k).Guards s R Q := by
  induction p generalizing s with
  | done r =>
    cases r with
    | ok a => exact h.1 a rfl
    | error e => exact h.2 e rfl
  | op f next ih =>
    obtain ⟨hstep, hnext, hfault⟩ := h
    exact ⟨hstep, ih _ hnext, fun e => ih _ (hfault e)⟩

/-- The rule of sequencing for what holds at any time and what holds after a success. -/
lemma guards_seq {p : Proc σ ε Unit} {k : Unit → Proc σ ε Unit} {I P P' : σ → Prop}
    (h : p.Guards s (fun _ t => I t) fun r t => I t ∧ (r = .ok () → P t))
    (hk : ∀ t, I t → P t → (k ()).Guards t (fun _ u => I u) fun r u => I u ∧ (r = .ok () → P' u)) :
    (p >>= k).Guards s (fun _ t => I t) fun r t => I t ∧ (r = .ok () → P' t) := by
  refine guards_bind (h.mono (fun _ _ h => h) ?_)
  rintro r t ⟨ht, hok⟩
  exact ⟨fun _ hr => hk t ht (hok hr), fun _ _ => ⟨ht, nofun⟩⟩

lemma guards_attempt {Q : Except ε (Except ε α) → σ → Prop} (h : p.Guards s R fun r t => Q (.ok r) t) :
    p.attempt.Guards s R Q := by
  induction p generalizing s with
  | done r => exact h
  | op f next ih => exact ⟨h.1, ih _ h.2.1, fun e => ih _ (h.2.2 e)⟩

lemma guards_mapError {g : ε → ε} (h : p.Guards s R fun r t => Q (r.mapError g) t) : (p.mapError g).Guards s R Q := by
  refine guards_bind (guards_attempt (h.mono (fun _ _ h => h) ?_))
  rintro r t hr
  refine ⟨?_, nofun⟩
  rintro r' ⟨⟩
  exact hr

variable {release : Proc σ ε Unit}

lemma guards_followedBy
    (h : p.Guards s R fun r t => release.Guards t R fun r' u =>
      (r' = .ok () → Q r u) ∧ ∀ e, r' = .error e → Q (.error e) u) :
    (p.followedBy release).Guards s R Q := by
  refine guards_bind (guards_attempt (h.mono (fun _ _ h => h) ?_))
  rintro r t hr
  refine ⟨?_, nofun⟩
  rintro r' ⟨⟩
  refine guards_bind (hr.mono (fun _ _ h => h) ?_)
  rintro r'' u ⟨hok, herror⟩
  exact ⟨fun a ha => hok ha, herror⟩

lemma guards_catchOnly [DecidableEq ε] {p handler : Proc σ ε Unit} {e : ε} {Q : Except ε Unit → σ → Prop}
    (h : p.Guards s R fun r t => (r = .ok () → Q (.ok ()) t) ∧
      (r = .error e → handler.Guards t R Q) ∧ ∀ e', r = .error e' → e' ≠ e → Q (.error e') t) :
    (p.catchOnly e handler).Guards s R Q := by
  refine guards_bind (guards_attempt (h.mono (fun _ _ h => h) ?_))
  rintro r t ⟨hok, he, hother⟩
  refine ⟨?_, nofun⟩
  rintro r' ⟨⟩
  cases r with
  | ok => exact hok rfl
  | error e' =>
    show (if e' = e then handler else fail e').Guards t R Q
    by_cases heq : e' = e
    · rw [if_pos heq]
      exact he (by rw [heq])
    · rw [if_neg heq]
      exact guards_fail (hother e' rfl heq)

/-- A first part that fails or is cut off is all of a sequence that is run. -/
lemma play_bind_of_not_ok {schedule : List (Option ε)} (h : ∀ a, (p.play schedule s).result ≠ some (.ok a)) :
    ((p >>= k).play schedule s).visited = (p.play schedule s).visited := by
  induction p generalizing s schedule with
  | done r =>
    cases r with
    | ok a => exact absurd rfl (h a)
    | error e => rfl
  | op f next ih =>
    match schedule with
    | [] => rfl
    | none :: later => exact congrArg ((f s).2 :: ·) (ih _ h)
    | some e :: later => exact ih _ h

/-! ## Procedures that change nothing -/

lemma run_attempt (p : Proc σ ε α) (s : σ) :
    p.attempt.run s = ⟨(p.run s).visited, .ok (p.run s).result, (p.run s).final⟩ := by
  induction p generalizing s with
  | done r => rfl
  | op f next ih =>
    show Run.mk _ _ _ = _
    rw [show ((next (f s).1).attempt).run (f s).2 = _ from ih _ _]
    rfl

lemma run_mapError (p : Proc σ ε α) (g : ε → ε) (s : σ) :
    ((p.mapError g).run s).result = (p.run s).result.mapError g ∧ ((p.mapError g).run s).final = (p.run s).final := by
  have hattempt := run_attempt p s
  have hrun := run_bind_ok (k := fun r : Except ε α => (.done (r.mapError g) : Proc σ ε α))
    (congrArg Run.result hattempt)
  rw [hattempt] at hrun
  have hresult := congrArg Run.result hrun
  have hfinal := congrArg Run.final hrun
  exact ⟨hresult, hfinal⟩

/-- A procedure that changes nothing, whose result without faults depends on what `look` compares, and is an error or
the same with faults. -/
structure ReadOnly (look : σ → σ → Prop) (p : Proc σ ε α) : Prop where
  guards (s : σ) : p.Guards s (fun _ t => t = s) fun r t => t = s ∧ (r = (p.run s).result ∨ ∃ e, r = .error e)
  final (s : σ) : (p.run s).final = s
  result_eq {s t : σ} : look s t → (p.run s).result = (p.run t).result

variable {look : σ → σ → Prop}

lemma readOnly_done (r : Except ε α) : ReadOnly look (.done r : Proc σ ε α) :=
  ⟨fun _ => ⟨rfl, .inl rfl⟩, fun _ => rfl, fun _ => rfl⟩

lemma readOnly_pure (a : α) : ReadOnly look (pure a : Proc σ ε α) := readOnly_done _

lemma readOnly_fail (e : ε) : ReadOnly look (fail e : Proc σ ε α) := readOnly_done _

lemma readOnly_atomic {f : σ → Except ε α} (h : ∀ s t, look s t → f s = f t) :
    ReadOnly look (atomic fun s => (f s, s)) :=
  ⟨fun _ => guards_atomic rfl ⟨rfl, .inl rfl⟩ fun e => ⟨rfl, .inr ⟨e, rfl⟩⟩, fun _ => rfl, fun hlook => h _ _ hlook⟩

section

variable (h : ReadOnly look p)

include h

lemma ReadOnly.guards_ok (s : σ) :
    p.Guards s (fun _ t => t = s) fun r t => t = s ∧ ∀ a, r = .ok a → (p.run s).result = .ok a := by
  refine (h.guards s).mono (fun _ _ h => h) ?_
  rintro r t ⟨ht, hr⟩
  refine ⟨ht, ?_⟩
  rintro a rfl
  rcases hr with hr | ⟨e, he⟩
  · exact hr.symm
  · cases he

/-- The result of a sequence whose first part changes nothing. -/
lemma ReadOnly.result_bind {a : α} (ha : (p.run s).result = .ok a) :
    ((p >>= k).run s).result = ((k a).run s).result ∧ ((p >>= k).run s).final = ((k a).run s).final := by
  have hrun := run_bind_ok (k := k) ha
  rw [h.final] at hrun
  have hresult := congrArg Run.result hrun
  have hfinal := congrArg Run.final hrun
  exact ⟨hresult, hfinal⟩

/-- Going on after a procedure that changes nothing. -/
lemma ReadOnly.bind_guards {Q : Except ε β → σ → Prop} (hs : R s s)
    (herror : ∀ e, Q (.error e) s) (hok : ∀ a, (p.run s).result = .ok a → (k a).Guards s R Q) :
    (p >>= k).Guards s R Q := by
  have hread : p.Guards s R fun r t => t = s ∧ ∀ a, r = .ok a → (p.run s).result = .ok a := by
    refine ((h.guards_ok s).before rfl).mono ?_ fun _ _ h => h
    rintro t u ⟨rfl, rfl⟩
    exact hs
  refine guards_bind (hread.mono (fun _ _ h => h) ?_)
  rintro r t ⟨rfl, hr⟩
  exact ⟨fun a ha => hok a (hr a ha), fun e _ => herror e⟩

lemma readOnly_bind (hk : ∀ a, ReadOnly look (k a)) :
    ReadOnly look (p >>= k) where
  guards s := by
    refine guards_bind ((h.guards_ok s).mono (fun _ _ h => h) ?_)
    rintro r t ⟨rfl, hr⟩
    refine ⟨fun a ha => ?_, fun e _ => ⟨rfl, .inr ⟨e, rfl⟩⟩⟩
    rw [(h.result_bind (hr a ha)).1]
    exact (hk a).guards t
  final s := by
    cases hr : (p.run s).result with
    | ok a => rw [(h.result_bind hr).2, (hk a).final]
    | error e => rw [run_bind_error hr, h.final]
  result_eq {s t} hlook := by
    cases hr : (p.run s).result with
    | ok a =>
      have hr' := hr
      rw [h.result_eq hlook] at hr'
      rw [(h.result_bind hr).1, (h.result_bind hr').1, (hk a).result_eq hlook]
    | error e =>
      have hr' := hr
      rw [h.result_eq hlook] at hr'
      rw [run_bind_error hr, run_bind_error hr']

lemma readOnly_mapError {g : ε → ε} : ReadOnly look (p.mapError g) where
  guards s := by
    refine guards_mapError ((h.guards s).mono (fun _ _ h => h) ?_)
    rintro r t ⟨ht, hr⟩
    refine ⟨ht, ?_⟩
    rw [(run_mapError p g s).1]
    rcases hr with rfl | ⟨e, rfl⟩
    · exact .inl rfl
    · exact .inr ⟨g e, rfl⟩
  final s := by rw [(run_mapError p g s).2, h.final]
  result_eq hlook := by rw [(run_mapError p g _).1, (run_mapError p g _).1, h.result_eq hlook]

/-- What follows may fail, or leave the result as it is. -/
lemma run_followedBy :
    ((p.followedBy release).run s).result = (release.run s).result.bind (fun _ => (p.run s).result) ∧
      ((p.followedBy release).run s).final = (release.run s).final := by
  have hattempt := run_attempt p s
  have hrun := run_bind_ok (k := fun r : Except ε α => release >>= fun _ => (.done r : Proc σ ε α))
    (congrArg Run.result hattempt)
  rw [hattempt, h.final] at hrun
  have hresult := congrArg Run.result hrun
  have hfinal := congrArg Run.final hrun
  cases hr : (release.run s).result with
  | ok a =>
    rw [run_bind_ok hr] at hresult hfinal
    exact ⟨hresult, hfinal⟩
  | error e =>
    rw [run_bind_error hr] at hresult hfinal
    exact ⟨hresult, hfinal⟩

lemma readOnly_followedBy (hrelease : ReadOnly look release) :
    ReadOnly look (p.followedBy release) where
  guards s := by
    refine guards_followedBy ((h.guards s).mono (fun _ _ h => h) ?_)
    rintro r t ⟨rfl, hr⟩
    refine (hrelease.guards_ok t).mono (fun _ _ h => h) ?_
    rintro r' u ⟨rfl, hr'⟩
    refine ⟨fun hok => ⟨rfl, ?_⟩, fun e _ => ⟨rfl, .inr ⟨e, rfl⟩⟩⟩
    rw [(run_followedBy h).1, hr' () hok]
    exact hr
  final s := by rw [(run_followedBy h).2, hrelease.final]
  result_eq hlook := by
    rw [(run_followedBy h).1, (run_followedBy h).1, h.result_eq hlook, hrelease.result_eq hlook]

end

/-! ## What operations look at, and errors that are avoided -/

/-- The results of all operations depend only on what `look` compares. -/
def LooksOnly (look : σ → σ → Prop) : Proc σ ε α → Prop
  | .done _ => True
  | .op f next => (∀ s t, look s t → (f s).1 = (f t).1) ∧ ∀ r, (next r).LooksOnly look

/-- An error does not come about, unless an operation fails with it. -/
def Avoids (e : ε) : Proc σ ε α → Prop
  | .done r => r ≠ .error e
  | .op f next => (∀ s, (f s).1 ≠ .error e) ∧ ∀ r, r ≠ .error e → (next r).Avoids e

variable {e : ε}

lemma looksOnly_atomic {f : σ → Except ε α} (h : ∀ s t, look s t → f s = f t) :
    LooksOnly look (atomic fun s => (f s, s)) :=
  ⟨h, fun _ => trivial⟩

lemma looksOnly_bind (h : p.LooksOnly look) (hk : ∀ a, (k a).LooksOnly look) : (p >>= k).LooksOnly look := by
  induction p with
  | done r =>
    cases r with
    | ok a => exact hk a
    | error e => trivial
  | op f next ih => exact ⟨h.1, fun r => ih r (h.2 r)⟩

lemma avoids_fail {e' : ε} (h : e' ≠ e) : (fail e' : Proc σ ε α).Avoids e := fun heq => h (Except.error.inj heq)

lemma avoids_pure {a : α} : (pure a : Proc σ ε α).Avoids e := nofun

lemma avoids_atomic (h : ∀ s, (f s).1 ≠ .error e) : (atomic f).Avoids e :=
  ⟨h, fun _ hr => hr⟩

lemma avoids_bind (h : p.Avoids e) (hk : ∀ a, (k a).Avoids e) : (p >>= k).Avoids e := by
  induction p with
  | done r =>
    cases r with
    | ok a => exact hk a
    | error e' => exact avoids_fail fun heq => h (congrArg _ heq)
  | op f next ih => exact ⟨h.1, fun r hr => ih r (h.2 r hr)⟩

/-- An error that is avoided is not the result of a run in which no operation fails with it. -/
lemma Avoids.play (h : p.Avoids e) {schedule : List (Option ε)} (hschedule : some e ∉ schedule) :
    (p.play schedule s).result ≠ some (.error e) := by
  induction p generalizing s schedule with
  | done r => exact fun heq => h (Option.some.inj heq)
  | op f next ih =>
    match schedule with
    | [] => exact nofun
    | none :: later => exact ih _ (h.2 _ (h.1 s)) (List.not_mem_of_not_mem_cons hschedule)
    | some e' :: later =>
      have hne : e' ≠ e := fun heq => hschedule (heq ▸ .head _)
      exact ih _ (h.2 _ fun heq => hne (Except.error.inj heq)) (List.not_mem_of_not_mem_cons hschedule)

/-! ## Runs without faults -/

/-- A run without faults is a run under a schedule. -/
lemma play_replicate (p : Proc σ ε α) (s : σ) :
    p.play (List.replicate (p.run s).visited.length none) s =
      ⟨(p.run s).visited, some (p.run s).result, (p.run s).final⟩ := by
  induction p generalizing s with
  | done r => rfl
  | op f next ih =>
    simp only [run, List.length_cons, List.replicate_succ, play, ih]

/-- Without faults, a procedure returns from any store, with a value that meets `P`. -/
def Yields (p : Proc σ ε α) (P : α → Prop) : Prop := ∀ s, ∃ a, (p.run s).result = .ok a ∧ P a

variable {P : α → Prop}

lemma yields_pure {a : α} (h : P a) : (pure a : Proc σ ε α).Yields P := fun _ => ⟨a, rfl, h⟩

lemma yields_atomic (h : ∀ s, ∃ a, (f s).1 = .ok a ∧ P a) : (atomic f).Yields P := h

lemma yields_bind {P' : β → Prop} (h : p.Yields P) (hk : ∀ a, P a → (k a).Yields P') : (p >>= k).Yields P' := by
  intro s
  obtain ⟨a, ha, hP⟩ := h s
  obtain ⟨b, hb, hP'⟩ := hk a hP (p.run s).final
  rw [run_bind_ok ha]
  exact ⟨b, hb, hP'⟩

lemma yields_mapError {g : ε → ε} (h : p.Yields P) : (p.mapError g).Yields P := by
  intro s
  obtain ⟨a, ha, hP⟩ := h s
  rw [(run_mapError p g s).1, ha]
  exact ⟨a, rfl, hP⟩

lemma yields_followedBy (h : p.Yields P) (hrelease : release.Yields fun _ => True) :
    (p.followedBy release).Yields P := by
  intro s
  obtain ⟨a, ha, hP⟩ := h s
  have hattempt := run_attempt p s
  obtain ⟨_, hu, -⟩ := hrelease (p.run s).final
  refine ⟨a, ?_, hP⟩
  rw [followedBy, run_bind_ok (congrArg Run.result hattempt), hattempt]
  dsimp only
  rw [run_bind_ok hu, ha]
  rfl

end Proc

end RajNX.Interruptible
