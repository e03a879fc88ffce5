import Mathlib.Data.List.Dedup
import Mathlib.Tactic

/-!
# Order of recency

Keys in the order in which each was accessed last. The accesses are a list, the last one at its end, and
`dedup` leaves the last access of each key.
-/

namespace RajNX.Recency

variable {α : Type} [DecidableEq α]

/-- Distinct keys, each of them accessed, in the order of their last accesses. -/
def InRecencyOrder (keys accesses : List α) : Prop := keys.Sublist accesses.dedup

variable {keys keys' accesses : List α} {k : α}

lemma InRecencyOrder.nodup (h : InRecencyOrder keys accesses) : keys.Nodup :=
  List.Sublist.nodup h (List.nodup_dedup accesses)

lemma inRecencyOrder_nil (accesses : List α) : InRecencyOrder [] accesses := List.nil_sublist _

/-- Keys may leave. -/
lemma InRecencyOrder.sublist (h : InRecencyOrder keys accesses) (hsub : keys'.Sublist keys) :
    InRecencyOrder keys' accesses := hsub.trans h

/-- A key that is accessed goes to the end. -/
lemma InRecencyOrder.access (h : InRecencyOrder keys accesses) (hk : k ∉ keys) :
    InRecencyOrder (keys ++ [k]) (accesses ++ [k]) := by
  unfold InRecencyOrder at h ⊢
  induction accesses generalizing keys with
  | nil =>
    rw [List.dedup_nil, List.sublist_nil] at h
    rw [h]
    exact List.Sublist.refl _
  | cons a accesses ih =>
    rw [List.cons_append]
    by_cases ha : a ∈ accesses
    · rw [List.dedup_cons_of_mem ha] at h
      rw [List.dedup_cons_of_mem (List.mem_append_left _ ha)]
      exact ih h hk
    rw [List.dedup_cons_of_notMem ha] at h
    by_cases hak : a = k
    · -- The access that moves to the end is not one of the keys here.
      rw [List.dedup_cons_of_mem (by rw [hak]; exact List.mem_append_right _ List.mem_cons_self)]
      cases h with
      | cons _ h => exact ih h hk
      | cons_cons _ h => exact absurd (hak ▸ List.mem_cons_self) hk
    · have hmem : a ∉ accesses ++ [k] := by
        intro hmem
        rcases List.mem_append.mp hmem with hmem | hmem
        · exact ha hmem
        · exact hak (List.mem_singleton.mp hmem)
      rw [List.dedup_cons_of_notMem hmem]
      cases h with
      | cons _ h => exact (ih h hk).cons a
      | cons_cons _ h => exact (ih h fun hmem => hk (List.mem_cons_of_mem _ hmem)).cons_cons a

end RajNX.Recency
