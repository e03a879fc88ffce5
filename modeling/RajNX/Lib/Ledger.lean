import Mathlib.Data.Finset.Basic

/-!
# Ledgers

What has been acquired and not released, what has been released and not acquired again, and every release of
something that was released already. A release of something that has never been acquired changes nothing.
-/

namespace RajNX

variable {α : Type} [DecidableEq α]

/-- An account of acquired and released things. -/
structure Ledger (α : Type) [DecidableEq α] where
  outstanding : Finset α
  released : Finset α
  doubles : List α

namespace Ledger

/-- Nothing has been acquired. -/
def empty : Ledger α := ⟨∅, ∅, []⟩

/-- Something is acquired. -/
def acquire (l : Ledger α) (r : α) : Ledger α := ⟨insert r l.outstanding, l.released.erase r, l.doubles⟩

/-- Something is released. -/
def release (l : Ledger α) (r : α) : Ledger α :=
  if r ∈ l.outstanding then ⟨l.outstanding.erase r, insert r l.released, l.doubles⟩
  else if r ∈ l.released then { l with doubles := r :: l.doubles }
  else l

/-- Things are released one after another. -/
def releaseAll (l : Ledger α) (rs : List α) : Ledger α := rs.foldl release l

/-- Nothing is both outstanding and released, and nothing has been released twice. -/
structure Sound (l : Ledger α) : Prop where
  disjoint : ∀ r ∈ l.released, r ∉ l.outstanding
  doubles_eq : l.doubles = []

variable {l : Ledger α} {r r' : α} {rs : List α}

lemma sound_empty : (empty : Ledger α).Sound := ⟨fun _ h => absurd h (Finset.notMem_empty _), rfl⟩

@[simp]
lemma mem_outstanding_acquire : r' ∈ (l.acquire r).outstanding ↔ r' = r ∨ r' ∈ l.outstanding := Finset.mem_insert

@[simp]
lemma mem_released_acquire : r' ∈ (l.acquire r).released ↔ r' ≠ r ∧ r' ∈ l.released := Finset.mem_erase

lemma Sound.acquire (h : l.Sound) (r : α) : (l.acquire r).Sound := by
  refine ⟨fun r' hr' => ?_, h.doubles_eq⟩
  obtain ⟨hne, hr'⟩ := mem_released_acquire.mp hr'
  rw [mem_outstanding_acquire, not_or]
  exact ⟨hne, h.disjoint r' hr'⟩

lemma mem_outstanding_release : r' ∈ (l.release r).outstanding ↔ r' ∈ l.outstanding ∧ r' ≠ r := by
  rw [release]
  split
  · exact Finset.mem_erase.trans and_comm
  · next hr =>
    have hiff : r' ∈ l.outstanding ↔ r' ∈ l.outstanding ∧ r' ≠ r :=
      ⟨fun h => ⟨h, fun he => hr (he ▸ h)⟩, fun h => h.1⟩
    split
    · exact hiff
    · exact hiff

/-- What is released afterwards was released before or was outstanding. -/
lemma mem_released_release : r' ∈ (l.release r).released ↔ r' ∈ l.released ∨ r' = r ∧ r ∈ l.outstanding := by
  rw [release]
  split
  · next hr => rw [Finset.mem_insert, or_comm, and_iff_left hr]
  · next hr =>
    have hiff : r' ∈ l.released ↔ r' ∈ l.released ∨ r' = r ∧ r ∈ l.outstanding :=
      ⟨.inl, fun h => h.resolve_right fun h => hr h.2⟩
    split
    · exact hiff
    · exact hiff

/-- The release of something that has not been released. -/
lemma Sound.release (h : l.Sound) (hr : r ∉ l.released) : (l.release r).Sound := by
  refine ⟨fun r' hr' hout => ?_, ?_⟩
  · obtain ⟨hout, hne⟩ := mem_outstanding_release.mp hout
    rcases mem_released_release.mp hr' with hr' | ⟨rfl, -⟩
    · exact h.disjoint r' hr' hout
    · exact hne rfl
  · rw [Ledger.release, if_neg hr]
    split
    · exact h.doubles_eq
    · exact h.doubles_eq

lemma mem_outstanding_releaseAll : r ∈ (l.releaseAll rs).outstanding ↔ r ∈ l.outstanding ∧ r ∉ rs := by
  induction rs generalizing l with
  | nil => exact ⟨fun h => ⟨h, List.not_mem_nil⟩, fun h => h.1⟩
  | cons r' rs ih =>
    refine (ih (l := l.release r')).trans ?_
    rw [mem_outstanding_release, List.mem_cons, not_or, and_assoc]

lemma mem_released_of_releaseAll (h : r ∈ (l.releaseAll rs).released) :
    r ∈ l.released ∨ r ∈ rs ∧ r ∈ l.outstanding := by
  induction rs generalizing l with
  | nil => exact .inl h
  | cons r' rs ih =>
    rcases ih h with h | ⟨hmem, hout⟩
    · rcases mem_released_release.mp h with h | ⟨rfl, hout⟩
      · exact .inl h
      · exact .inr ⟨List.mem_cons_self, hout⟩
    · exact .inr ⟨List.mem_cons_of_mem _ hmem, (mem_outstanding_release.mp hout).1⟩

/-- The release of different things that have not been released. -/
lemma Sound.releaseAll (h : l.Sound) (hnodup : rs.Nodup) (hrs : ∀ r ∈ rs, r ∉ l.released) :
    (l.releaseAll rs).Sound := by
  induction rs generalizing l with
  | nil => exact h
  | cons r rs ih =>
    obtain ⟨hr, hnodup⟩ := List.nodup_cons.mp hnodup
    refine ih (h.release (hrs r List.mem_cons_self)) hnodup fun r' hr' hrel => ?_
    rcases mem_released_release.mp hrel with hrel | ⟨rfl, -⟩
    · exact hrs r' (List.mem_cons_of_mem _ hr') hrel
    · exact hr hr'

end Ledger

end RajNX
