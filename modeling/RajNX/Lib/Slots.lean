import Mathlib.Tactic

/-!
# Tables of slots

Lists of slots that are looked up by a key with a scan from the first slot on, and changed one slot at a
time. One key marks the slots that are free.
-/

namespace RajNX.Slots

variable {α κ : Type} [DecidableEq κ] {key : α → κ} {l : List α} {i j : Nat} {x y : α} {k : κ}

/-- The first slot with a key. -/
def find (key : α → κ) (l : List α) (k : κ) : Option (Nat × α) :=
  (l.findIdx? (key · = k)).bind fun i => l[i]?.map fun x => (i, x)

/-- Every key but the one of the free slots is in one slot only. -/
def Unique (key : α → κ) (free : κ) (l : List α) : Prop :=
  ∀ (i j : Nat) (x y : α), l[i]? = some x → l[j]? = some y → key x = key y → key x ≠ free → i = j

lemma find_eq_some : find key l k = some (i, x) ↔
    l[i]? = some x ∧ key x = k ∧ ∀ j y, j < i → l[j]? = some y → key y ≠ k := by
  rw [find, Option.bind_eq_some_iff]
  constructor
  · rintro ⟨i', hi', hx⟩
    obtain ⟨x', hx', heq⟩ := Option.map_eq_some_iff.mp hx
    cases heq
    obtain ⟨hlt, hkey, hbefore⟩ := List.findIdx?_eq_some_iff_getElem.mp hi'
    obtain ⟨-, rfl⟩ := List.getElem?_eq_some_iff.mp hx'
    refine ⟨List.getElem?_eq_getElem hlt, by simpa using hkey, fun j y hj hy => ?_⟩
    obtain ⟨-, rfl⟩ := List.getElem?_eq_some_iff.mp hy
    simpa using hbefore j hj
  · rintro ⟨hx, hkey, hbefore⟩
    obtain ⟨hlt, rfl⟩ := List.getElem?_eq_some_iff.mp hx
    refine ⟨i, List.findIdx?_eq_some_iff_getElem.mpr ⟨hlt, by simpa using hkey, ?_⟩, ?_⟩
    · intro j hj
      simpa using hbefore j _ hj (List.getElem?_eq_getElem (by omega))
    · rw [hx, Option.map_some]

lemma find_eq_none : find key l k = none ↔ ∀ x ∈ l, key x ≠ k := by
  constructor
  · intro h x hx hkey
    have hfind : l.findIdx? (key · = k) = none := by
      cases hidx : l.findIdx? (key · = k) with
      | none => rfl
      | some i =>
        obtain ⟨hlt, -⟩ := List.findIdx?_eq_some_iff_getElem.mp hidx
        rw [find, hidx, Option.bind_some, List.getElem?_eq_getElem hlt] at h
        cases h
    simpa [hkey] using List.findIdx?_eq_none_iff.mp hfind x hx
  · intro h
    have hfind : l.findIdx? (key · = k) = none :=
      List.findIdx?_eq_none_iff.mpr fun x hx => by simpa using h x hx
    rw [find, hfind, Option.bind_none]

/-- The only slot with a key. -/
lemma Unique.find_eq {free : κ} (h : Unique key free l) (hx : l[i]? = some x) (hfree : key x ≠ free) :
    find key l (key x) = some (i, x) := by
  refine find_eq_some.mpr ⟨hx, rfl, fun j y hj hy hkey => ?_⟩
  exact absurd (h j i y x hy hx hkey (hkey ▸ hfree)) (Nat.ne_of_lt hj)

/-- A change of a slot that neither had nor gets a key. -/
lemma find_set_of_ne (hx : l[i]? = some x) (hxk : key x ≠ k) (hyk : key y ≠ k) :
    find key (l.set i y) k = find key l k := by
  have hlt := (List.getElem?_eq_some_iff.mp hx).1
  apply Option.ext
  rintro ⟨j, z⟩
  rw [find_eq_some, find_eq_some]
  -- A slot with the key is not the one that was changed, and has not changed.
  have hslot : ∀ (j : Nat) (z : α), key z = k → ((l.set i y)[j]? = some z ↔ l[j]? = some z) := by
    intro j z hz
    by_cases hj : i = j
    · subst hj
      rw [List.getElem?_set_self hlt, hx, Option.some_inj, Option.some_inj]
      exact ⟨fun h => absurd (h ▸ hz) hyk, fun h => absurd (h ▸ hz) hxk⟩
    · rw [List.getElem?_set_ne hj]
  constructor
  · rintro ⟨hz, hkey, hbefore⟩
    exact ⟨(hslot j z hkey).mp hz, hkey, fun j' z' hj' hz' hkey' =>
      hbefore j' z' hj' ((hslot j' z' hkey').mpr hz') hkey'⟩
  · rintro ⟨hz, hkey, hbefore⟩
    exact ⟨(hslot j z hkey).mpr hz, hkey, fun j' z' hj' hz' hkey' =>
      hbefore j' z' hj' ((hslot j' z' hkey').mp hz') hkey'⟩

/-- A change of the first slot with a key. -/
lemma find_set_self (h : find key l k = some (i, x)) (hy : key y = k) : find key (l.set i y) k = some (i, y) := by
  obtain ⟨hx, -, hbefore⟩ := find_eq_some.mp h
  have hlt := (List.getElem?_eq_some_iff.mp hx).1
  refine find_eq_some.mpr ⟨List.getElem?_set_self hlt, hy, fun j z hj hz => ?_⟩
  rw [List.getElem?_set_ne (by omega)] at hz
  exact hbefore j z hj hz

/-- A key that is given to a slot. -/
lemma find_set_new (h : find key l k = none) (hi : i < l.length) (hy : key y = k) :
    find key (l.set i y) k = some (i, y) := by
  refine find_eq_some.mpr ⟨List.getElem?_set_self hi, hy, fun j z hj hz => ?_⟩
  rw [List.getElem?_set_ne (by omega)] at hz
  exact find_eq_none.mp h z (List.mem_of_getElem? hz)

/-- A key whose slot is made free. -/
lemma find_set_free {free : κ} (hunique : Unique key free l) (h : find key l k = some (i, x))
    (hk : k ≠ free) (hy : key y = free) : find key (l.set i y) k = none := by
  obtain ⟨hx, hkey, -⟩ := find_eq_some.mp h
  rw [find_eq_none]
  intro z hz hzk
  obtain ⟨j, hj⟩ := List.mem_iff_getElem?.mp hz
  by_cases hij : i = j
  · subst hij
    rw [List.getElem?_set_self (List.getElem?_eq_some_iff.mp hx).1, Option.some_inj] at hj
    exact hk (by rw [← hzk, ← hj, hy])
  · rw [List.getElem?_set_ne hij] at hj
    exact hij (hunique i j x z hx hj (by rw [hkey, hzk]) (by rw [hkey]; exact hk))

/-- A slot keeps its key, or gets one that no slot has, or is made free. -/
lemma Unique.set {free : κ} (h : Unique key free l) (hx : l[i]? = some x)
    (hy : key y = key x ∨ find key l (key y) = none ∨ key y = free) : Unique key free (l.set i y) := by
  have hlt := (List.getElem?_eq_some_iff.mp hx).1
  -- Another slot does not have the key that the slot gets.
  have hother : ∀ (j : Nat) (z : α), j ≠ i → l[j]? = some z → key z = key y → key y ≠ free → False := by
    intro j z hj hz hkey hfree
    rcases hy with hy | hy | hy
    · exact hj (h j i z x hz hx (hkey.trans hy) (hkey ▸ hfree))
    · exact find_eq_none.mp hy z (List.mem_of_getElem? hz) hkey
    · exact hfree hy
  intro a b u v hu hv hkey hfree
  by_cases ha : i = a
  · by_cases hb : i = b
    · rw [← ha, ← hb]
    · subst ha
      rw [List.getElem?_set_self hlt, Option.some_inj] at hu
      rw [List.getElem?_set_ne hb] at hv
      subst hu
      exact (hother b v (Ne.symm hb) hv hkey.symm hfree).elim
  · rw [List.getElem?_set_ne ha] at hu
    by_cases hb : i = b
    · subst hb
      rw [List.getElem?_set_self hlt, Option.some_inj] at hv
      subst hv
      exact (hother a u (Ne.symm ha) hu hkey (hkey ▸ hfree)).elim
    · rw [List.getElem?_set_ne hb] at hv
      exact h a b u v hu hv hkey hfree

end RajNX.Slots
