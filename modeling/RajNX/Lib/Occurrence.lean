import RajNX.Lib.Splice

/-!
# Occurrences of a pattern

Where a pattern lies in a text, where it does first, and how far a search may go on from a window of the text that
is not the pattern: the last character of the window says how far.
-/

namespace RajNX.Occurrence

open Splice

variable {α : Type}

/-- The pattern lies in the text at a position. -/
def OccursAt (pattern text : List α) (i : Nat) : Prop :=
  i + pattern.length ≤ text.length ∧ slice text i pattern.length = pattern

instance [DecidableEq α] (pattern text : List α) (i : Nat) : Decidable (OccursAt pattern text i) :=
  inferInstanceAs (Decidable (_ ∧ _))

/-- The first position at which it does. -/
def FirstAt (pattern text : List α) (i : Nat) : Prop :=
  OccursAt pattern text i ∧ ∀ j < i, ¬OccursAt pattern text j

/-- The first position, if there is one. -/
def firstMatch [DecidableEq α] (pattern text : List α) : Option Nat :=
  (List.range (text.length + 1)).find? fun i => OccursAt pattern text i

/-- How far the window may be moved when it ends with a character: not further than the last place of the character
in front of the end of the pattern. -/
structure SkipFor (pattern : List α) (c : α) (d : Nat) : Prop where
  pos : 0 < d
  le : d ≤ pattern.length
  bound : ∀ k, k + 1 < pattern.length → pattern[k]? = some c → d + k + 1 ≤ pattern.length

section Occurrence

variable {pattern text : List α} {i j d : Nat} {c : α}

lemma OccursAt.getElem? (h : OccursAt pattern text i) {k : Nat} (hk : k < pattern.length) :
    text[i + k]? = pattern[k]? := by
  have hget := congrArg (fun part => part[k]?) h.2
  simp only [getElem?_slice, if_pos hk] at hget
  exact hget

/-- A pattern that occurs at all has a first occurrence. -/
lemma OccursAt.exists_first (h : OccursAt pattern text i) : ∃ j, FirstAt pattern text j := by
  induction i using Nat.strong_induction_on with
  | _ i ih =>
    by_cases hbefore : ∃ j < i, OccursAt pattern text j
    · obtain ⟨j, hj, hoccurs⟩ := hbefore
      exact ih j hj hoccurs
    · exact ⟨i, h, fun j hj hoccurs => hbefore ⟨j, hj, hoccurs⟩⟩

lemma firstMatch_eq_some_iff [DecidableEq α] : firstMatch pattern text = some i ↔ FirstAt pattern text i := by
  rw [firstMatch, List.find?_range_eq_some]
  simp only [decide_eq_true_eq, Bool.not_eq_true', decide_eq_false_iff_not, List.mem_range]
  constructor
  · rintro ⟨hoccurs, -, hbefore⟩
    exact ⟨hoccurs, hbefore⟩
  · rintro ⟨hoccurs, hbefore⟩
    have hfits := hoccurs.1
    exact ⟨hoccurs, by omega, hbefore⟩

lemma firstMatch_eq_none_iff [DecidableEq α] : firstMatch pattern text = none ↔ ∀ i, ¬OccursAt pattern text i := by
  constructor
  · intro h i hoccurs
    obtain ⟨j, hj⟩ := hoccurs.exists_first
    rw [firstMatch_eq_some_iff.mpr hj] at h
    cases h
  · intro h
    cases hfirst : firstMatch pattern text with
    | none => rfl
    | some i => exact absurd (firstMatch_eq_some_iff.mp hfirst).1 (h i)

/-- A text that is the same where the pattern lies. -/
lemma OccursAt.congr {text' : List α} (h : OccursAt pattern text i) (hlen : text'.length = text.length)
    (hsame : ∀ k < pattern.length, text'[i + k]? = text[i + k]?) : OccursAt pattern text' i :=
  ⟨hlen ▸ h.1, (slice_congr hsame).trans h.2⟩

/-- No occurrence is between a window and where a skip moves it to. -/
lemma SkipFor.not_occursAt (h : SkipFor pattern c d) (hlast : text[i + pattern.length - 1]? = some c) (hij : i < j)
    (hlt : j < i + d) : ¬OccursAt pattern text j := by
  intro hoccurs
  have hle := h.le
  -- the last character of the window, seen from the occurrence
  have hplace : j + (pattern.length - 1 - (j - i)) = i + pattern.length - 1 := by omega
  have hget := hoccurs.getElem? (k := pattern.length - 1 - (j - i)) (by omega)
  rw [hplace, hlast] at hget
  have hbound := h.bound _ (by omega) hget.symm
  omega

end Occurrence

end RajNX.Occurrence
