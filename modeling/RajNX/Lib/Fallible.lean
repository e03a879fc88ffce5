import Mathlib.Tactic

/-!
# Computations that may fail

What a sequence of two computations has done, told from how it ended.
-/

namespace RajNX.Fallible

variable {ε α β : Type} {x : Except ε α} {f : α → Except ε β}

/-- A computation goes on with what it has given. -/
lemma ok_bind (a : α) (f : α → Except ε β) : Except.ok a >>= f = f a := rfl

lemma some_bind (a : α) (f : α → Option β) : some a >>= f = f a := rfl

/-- A computation that has failed does not go on. -/
lemma error_bind (e : ε) (f : α → Except ε β) : Except.error e >>= f = .error e := rfl

lemma bind_eq_ok {b : β} (h : x >>= f = .ok b) : ∃ a, x = .ok a ∧ f a = .ok b := by
  cases x with
  | error e => cases h
  | ok a => exact ⟨a, rfl, h⟩

lemma bind_eq_error {e : ε} (h : x >>= f = .error e) : x = .error e ∨ ∃ a, x = .ok a ∧ f a = .error e := by
  cases x with
  | error e' =>
    cases h
    exact .inl rfl
  | ok a => exact .inr ⟨a, rfl, h⟩

/-- A computation for each element of a list. -/
lemma forM_eq_ok {ι : Type} {l : List ι} {g : ι → Except ε Unit} : l.forM g = .ok () ↔ ∀ x ∈ l, g x = .ok () := by
  induction l with
  | nil => simp [List.forM, pure, Except.pure]
  | cons x l ih =>
    rw [List.forM_eq_forM, List.forM_cons, List.forall_mem_cons, ← ih]
    constructor
    · intro h
      obtain ⟨u, hx, hl⟩ := bind_eq_ok h
      exact ⟨hx, hl⟩
    · rintro ⟨hx, hl⟩
      rw [hx]
      exact hl

section Lists

variable {ι κ σ : Type} {l : List ι} {g : ι → Except ε κ} {step : σ → ι → Except ε σ}

/-- A result for each element of a list, that agrees with the element in some value. -/
lemma mapM_eq_ok {β : Type} {f : ι → β} {f' : κ → β} (h : ∀ x ∈ l, ∃ y, g x = .ok y ∧ f' y = f x) :
    ∃ ys, l.mapM g = .ok ys ∧ ys.map f' = l.map f := by
  induction l with
  | nil => exact ⟨[], rfl, rfl⟩
  | cons x l ih =>
    obtain ⟨y, hy, hf⟩ := h x List.mem_cons_self
    obtain ⟨ys, hys, hfs⟩ := ih fun x hx => h x (List.mem_cons_of_mem _ hx)
    refine ⟨y :: ys, ?_, ?_⟩
    · rw [List.mapM_cons, hy, hys]
      rfl
    · rw [List.map_cons, List.map_cons, hf, hfs]

/-- A list that has its results has one for each element. -/
lemma exists_of_mapM_eq_ok {ys : List κ} (h : l.mapM g = .ok ys) : ∀ x ∈ l, ∃ y, g x = .ok y := by
  induction l generalizing ys with
  | nil => exact fun x hx => absurd hx List.not_mem_nil
  | cons x l ih =>
    rw [List.mapM_cons] at h
    obtain ⟨y, hy, h⟩ := bind_eq_ok h
    obtain ⟨zs, hzs, -⟩ := bind_eq_ok h
    exact List.forall_mem_cons.mpr ⟨⟨y, hy⟩, ih hzs⟩

end Lists

end RajNX.Fallible
