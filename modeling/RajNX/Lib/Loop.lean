import Mathlib.Tactic

/-!
# Loops that end with a result

A loop whose turns go on with a new state or leave it with a result. With an invariant and a measure that
goes down it ends, with a result that says what the last turn says.
-/

namespace RajNX.Loop

/-- What a turn of a loop leads to. -/
inductive Turn (σ ρ : Type)
  | leave (result : ρ)
  | again (state : σ)
deriving DecidableEq

/-- A loop of so many turns at most. -/
def loop {σ ρ : Type} (turn : σ → Turn σ ρ) : Nat → σ → Option ρ
  | 0, _ => none
  | fuel + 1, s =>
    match turn s with
    | .leave r => some r
    | .again s' => loop turn fuel s'

section Loop

variable {σ ρ : Type} {turn : σ → Turn σ ρ} {s s' : σ} {r : ρ}

lemma loop_leave (h : turn s = .leave r) (fuel : Nat) : loop turn (fuel + 1) s = some r := by
  rw [loop, h]

lemma loop_again (h : turn s = .again s') (fuel : Nat) : loop turn (fuel + 1) s = loop turn fuel s' := by
  rw [loop, h]

/-- With an invariant and a measure the loop ends in as many turns. -/
lemma loop_ends {Inv : σ → Prop} {Post : ρ → Prop} (measure : σ → Nat)
    (hleave : ∀ s r, Inv s → turn s = .leave r → Post r)
    (hagain : ∀ s s', Inv s → turn s = .again s' → Inv s' ∧ measure s' < measure s) (hs : Inv s) :
    ∃ r, (∀ fuel, measure s < fuel → loop turn fuel s = some r) ∧ Post r := by
  induction hn : measure s using Nat.strong_induction_on generalizing s with
  | _ n ih =>
    cases hturn : turn s with
    | leave r =>
      refine ⟨r, ?_, hleave s r hs hturn⟩
      intro fuel hfuel
      obtain ⟨fuel, rfl⟩ : ∃ k, fuel = k + 1 := ⟨fuel - 1, by omega⟩
      exact loop_leave hturn fuel
    | again s' =>
      obtain ⟨hs', hlt⟩ := hagain s s' hs hturn
      obtain ⟨r, hloop, hpost⟩ := ih (measure s') (hn ▸ hlt) hs' rfl
      refine ⟨r, ?_, hpost⟩
      intro fuel hfuel
      obtain ⟨fuel, rfl⟩ : ∃ k, fuel = k + 1 := ⟨fuel - 1, by omega⟩
      rw [loop_again hturn]
      exact hloop fuel (by omega)

end Loop

end RajNX.Loop
