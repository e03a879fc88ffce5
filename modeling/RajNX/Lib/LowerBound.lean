import Mathlib.Tactic

/-!
# Lower bounds

The binary search of `std::lower_bound` over the indices of a range, for a test that holds up to some
index and not from there on. It returns that index.
-/

namespace RajNX.LowerBound

/-- The loop of the search over `len` indices from `first` on. As much fuel as there are indices is
never used up. -/
def search (test : Nat → Bool) : Nat → Nat → Nat → Nat
  | 0, first, _ => first
  | fuel + 1, first, len =>
    if 0 < len then
      let half := len / 2
      if test (first + half) then search test fuel (first + half + 1) (len - half - 1)
      else search test fuel first half
    else first

/-- The first index below `len` at which the test does not hold, or `len`. -/
def lowerBound (test : Nat → Bool) (len : Nat) : Nat := search test len 0 len

/-- The search ends at the index where the test changes. -/
lemma search_eq {test : Nat → Bool} {n fuel first len : Nat} (hfuel : len ≤ fuel) (hfirst : first ≤ n)
    (hlen : n ≤ first + len) (hbelow : ∀ i, i < n → test i = true)
    (habove : ∀ i, n ≤ i → i < first + len → test i = false) : search test fuel first len = n := by
  induction fuel generalizing first len with
  | zero =>
    rw [search]
    omega
  | succ fuel ih =>
    rw [search]
    by_cases hpos : 0 < len
    · rw [if_pos hpos]
      dsimp only
      rcases Nat.lt_or_ge (first + len / 2) n with hlt | hge
      · rw [if_pos (hbelow _ hlt)]
        refine ih (by omega) (by omega) (by omega) ?_
        exact fun i hi hi' => habove i hi (by omega)
      · have hfalse : ¬test (first + len / 2) = true := by
          rw [habove _ hge (by omega)]
          decide
        rw [if_neg hfalse]
        refine ih (by omega) hfirst (by omega) ?_
        exact fun i hi hi' => habove i hi (by omega)
    · rw [if_neg hpos]
      omega

lemma lowerBound_eq {test : Nat → Bool} {n len : Nat} (hlen : n ≤ len)
    (hbelow : ∀ i, i < n → test i = true) (habove : ∀ i, n ≤ i → i < len → test i = false) : lowerBound test len = n :=
  search_eq le_rfl (Nat.zero_le n) (by omega) hbelow fun i hi hi' => habove i hi (by omega)

/-! ## Reads out of bounds -/

/-- The loop of the search, with a test that has no answer where nothing can be read. -/
def searchIn (test : Nat → Option Bool) : Nat → Nat → Nat → Option Nat
  | 0, first, _ => some first
  | fuel + 1, first, len =>
    if 0 < len then
      match test (first + len / 2) with
      | none => none
      | some true => searchIn test fuel (first + len / 2 + 1) (len - len / 2 - 1)
      | some false => searchIn test fuel first (len / 2)
    else some first

/-- `std::binary_search` over `len` items, or `none` if it reads one that is not there. -/
def binarySearch {α : Type} (lt : α → α → Bool) (get : Nat → Option α) (len : Nat) (key : α) : Option Bool :=
  match searchIn (fun i => (get i).map (lt · key)) len 0 len with
  | none => none
  | some i => if i = len then some false else (get i).map fun a => !lt key a

/-- The indices that a search looks at which always goes on with the upper half. -/
def upperPath : Nat → Nat → Nat → List Nat
  | 0, _, _ => []
  | fuel + 1, first, len =>
    if 0 < len then (first + len / 2) :: upperPath fuel (first + len / 2 + 1) (len - len / 2 - 1) else []

section Reads

variable {test : Nat → Option Bool} {fuel first len i m : Nat}

/-- The search ends at the end of the range, or at an index that it has looked at. -/
lemma searchIn_result (h : searchIn test fuel first len = some i) (hfuel : len ≤ fuel) :
    i = first + len ∨ (test i).isSome := by
  induction fuel generalizing first len with
  | zero =>
    cases h
    exact .inl (by omega)
  | succ fuel ih =>
    rw [searchIn] at h
    split at h
    · split at h
      · cases h
      · exact (ih h (by omega)).imp_left fun h => by omega
      · next hfalse =>
        rcases ih h (by omega) with rfl | hread
        · exact .inr (by rw [hfalse]; rfl)
        · exact .inr hread
    · cases h
      exact .inl (by omega)

/-- Nothing is read out of bounds in a range that is there. -/
lemma searchIn_of_le (htest : ∀ i < m, (test i).isSome) (hle : first + len ≤ m) :
    (searchIn test fuel first len).isSome := by
  induction fuel generalizing first len with
  | zero => rfl
  | succ fuel ih =>
    rw [searchIn]
    split
    · split
      · next hnone =>
        have hread := htest (first + len / 2) (by omega)
        rw [hnone] at hread
        cases hread
      · exact ih (by omega)
      · exact ih (by omega)
    · rfl

lemma lt_of_mem_upperPath (h : i ∈ upperPath fuel first len) : first ≤ i := by
  induction fuel generalizing first len with
  | zero => cases h
  | succ fuel ih =>
    rw [upperPath] at h
    split at h
    · cases h with
      | head => exact Nat.le_add_right _ _
      | tail _ h =>
        have hle := ih h
        omega
    · cases h

/-- A search that always goes on with the upper half comes to the end of the range or to an index where it
turns. -/
lemma upperPath_of_isSome (h : (searchIn test fuel first len).isSome) (htest : ∀ i, (test i).isSome → i < m)
    (hfuel : len ≤ fuel) : len = 0 ∨ first + len ≤ m ∨ ∃ i ∈ upperPath fuel first len, test i = some false := by
  induction fuel generalizing first len with
  | zero => exact .inl (Nat.le_zero.mp hfuel)
  | succ fuel ih =>
    rw [searchIn] at h
    rw [upperPath]
    split at h
    · next hpos =>
      rw [if_pos hpos]
      right
      split at h
      · cases h
      · next htrue =>
        have hlt := htest (first + len / 2) (by rw [htrue]; rfl)
        rcases ih h (by omega) with hzero | hle | ⟨i, hi, hfalse⟩
        · exact .inl (by omega)
        · exact .inl (by omega)
        · exact .inr ⟨i, .tail _ hi, hfalse⟩
      · next hfalse => exact .inr ⟨_, .head _, hfalse⟩
    · exact .inl (by omega)

/-- A search does not leave the range that is there if one on the upper path turns. -/
lemma searchIn_of_upperPath (htest : ∀ i, (test i).isSome ↔ i < m) (hi : i ∈ upperPath fuel first len)
    (hfalse : test i = some false) : (searchIn test fuel first len).isSome := by
  induction fuel generalizing first len with
  | zero => cases hi
  | succ fuel ih =>
    have hlt : i < m := (htest i).mp (by rw [hfalse]; rfl)
    have hle := lt_of_mem_upperPath hi
    rw [upperPath] at hi
    rw [searchIn]
    split at hi
    · next hpos =>
      rw [if_pos hpos]
      split
      · next hnone =>
        cases hi with
        | head =>
          rw [hnone] at hfalse
          cases hfalse
        | tail _ hi =>
          have hbefore := lt_of_mem_upperPath hi
          have hread := (htest (first + len / 2)).mpr (by omega)
          rw [hnone] at hread
          cases hread
      · next htrue =>
        cases hi with
        | head =>
          rw [htrue] at hfalse
          cases hfalse
        | tail _ hi => exact ih hi
      · next hturn =>
        have hhalf := (htest (first + len / 2)).mp (by rw [hturn]; rfl)
        exact searchIn_of_le (fun j hj => (htest j).mpr hj) (by omega)
    · cases hi

end Reads

/-- Items of which only the first `m` are there, and a greatest item: no search reads out of bounds just when
all items are there or one of the upper path is the greatest. -/
theorem binarySearch_isSome_iff {α : Type} {lt : α → α → Bool} {get : Nat → Option α} {m len : Nat} {top : α}
    (hget : ∀ i, (get i).isSome ↔ i < m) (htop : ∀ key, lt top key = false) (hbelow : ∀ a, lt a top = false → a = top) :
    (∀ key, (binarySearch lt get len key).isSome) ↔
      len = 0 ∨ len ≤ m ∨ ∃ i ∈ upperPath len 0 len, get i = some top := by
  have htest : ∀ key i, ((get i).map (lt · key)).isSome ↔ i < m := by
    intro key i
    rw [Option.isSome_map, hget]
  have hsearch : ∀ key, (binarySearch lt get len key).isSome ↔
      (searchIn (fun i => (get i).map (lt · key)) len 0 len).isSome := by
    intro key
    rw [binarySearch]
    split
    · next hnone =>
      rw [hnone]
      exact Iff.rfl
    · next i hi =>
      rw [hi]
      refine iff_of_true ?_ rfl
      split
      · rfl
      · next hne =>
        rcases searchIn_result hi (Nat.le_refl _) with hend | hread
        · exact absurd (hend.trans (Nat.zero_add _)) hne
        · rw [Option.isSome_map] at hread ⊢
          exact hread
  constructor
  · intro h
    have hpath := upperPath_of_isSome ((hsearch top).mp (h top)) (fun i => (htest top i).mp) (Nat.le_refl _)
    rw [Nat.zero_add] at hpath
    refine hpath.imp_right (Or.imp_right ?_)
    rintro ⟨i, hi, hturn⟩
    obtain ⟨a, ha, hlt⟩ := Option.map_eq_some_iff.mp hturn
    exact ⟨i, hi, by rw [ha, hbelow a hlt]⟩
  · intro h key
    refine (hsearch key).mpr ?_
    rcases h with rfl | hle | ⟨i, hi, htop'⟩
    · rfl
    · exact searchIn_of_le (fun i => (htest key i).mpr) ((Nat.zero_add _).trans_le hle)
    · refine searchIn_of_upperPath (htest key) hi ?_
      rw [htop', Option.map_some, htop]

end RajNX.LowerBound
