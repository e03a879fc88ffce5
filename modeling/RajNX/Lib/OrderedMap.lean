import Mathlib.Tactic
import Mathlib.Data.List.Sort

/-!
# Ordered maps

The map of `std::map` over values that carry their own key: the values in the order of their keys, each
key once. An insertion of a key that is there changes nothing.
-/

namespace RajNX

variable {ν κ : Type} [LinearOrder κ]

/-- Values in the order of their keys. -/
structure OrderedMap (key : ν → κ) where
  entries : List ν
  sorted : entries.Pairwise fun a b => key a < key b

namespace OrderedMap

variable {key : ν → κ}

/-- The map without entries. -/
def empty : OrderedMap key := ⟨[], .nil⟩

/-- The value of a key. -/
def find (m : OrderedMap key) (k : κ) : Option ν := m.entries.find? fun v => key v = k

variable {m : OrderedMap key}

lemma key_inj {v w : ν} (hv : v ∈ m.entries) (hw : w ∈ m.entries) (h : key v = key w) : v = w := by
  have hpair : m.entries.Pairwise fun a b => key a = key b → a = b :=
    m.sorted.imp fun hlt heq => absurd heq hlt.ne
  have : Std.Symm fun a b : ν => key a = key b → a = b :=
    ⟨fun _ _ hab hkey => (hab hkey.symm).symm⟩
  exact hpair.forall_of_forall (fun _ _ _ => rfl) hv hw h

lemma find_eq_some {k : κ} {v : ν} : m.find k = some v ↔ v ∈ m.entries ∧ key v = k := by
  constructor
  · intro h
    exact ⟨List.mem_of_find?_eq_some h, by simpa using List.find?_some h⟩
  · rintro ⟨hv, rfl⟩
    cases hfind : m.find (key v) with
    | none => simpa using List.find?_eq_none.mp hfind v hv
    | some w =>
      have hkey : key w = key v := by simpa using List.find?_some hfind
      rw [key_inj (List.mem_of_find?_eq_some hfind) hv hkey]

lemma find_eq_none {k : κ} : m.find k = none ↔ ∀ v ∈ m.entries, key v ≠ k := by
  simp [find]

lemma nodup (m : OrderedMap key) : m.entries.Nodup :=
  m.sorted.imp fun hlt heq => hlt.ne (congrArg key heq)

/-- The values with one more put in its place. -/
def insertSorted (key : ν → κ) (v : ν) (l : List ν) : List ν :=
  l.orderedInsert (fun a b => key a ≤ key b) v

lemma insertSorted_perm (v : ν) (l : List ν) : (insertSorted key v l).Perm (v :: l) :=
  List.perm_orderedInsert _ v l

lemma insertSorted_sorted {v : ν} {l : List ν} (hl : l.Pairwise fun a b => key a < key b)
    (hv : ∀ w ∈ l, key w ≠ key v) : (insertSorted key v l).Pairwise fun a b => key a < key b := by
  have hle : (insertSorted key v l).Pairwise fun a b => key a ≤ key b := by
    have : Std.Total fun a b : ν => key a ≤ key b := ⟨fun a b => le_total (key a) (key b)⟩
    have : IsTrans ν fun a b => key a ≤ key b := ⟨fun _ _ _ => le_trans⟩
    exact List.Pairwise.orderedInsert v l (hl.imp le_of_lt)
  have hne : (insertSorted key v l).Pairwise fun a b => key a ≠ key b := by
    rw [(insertSorted_perm v l).pairwise_iff fun h => Ne.symm h, List.pairwise_cons]
    exact ⟨fun w hw => (hv w hw).symm, hl.imp ne_of_lt⟩
  exact hle.imp₂ (fun _ _ h h' => lt_of_le_of_ne h h') hne

/-- `std::map::insert` -/
def insert (m : OrderedMap key) (v : ν) : OrderedMap key :=
  if h : m.find (key v) = none then
    ⟨insertSorted key v m.entries, insertSorted_sorted m.sorted (find_eq_none.mp h)⟩
  else m

lemma insert_perm {v : ν} (h : m.find (key v) = none) : (m.insert v).entries.Perm (v :: m.entries) := by
  rw [insert, dif_pos h]
  exact insertSorted_perm v m.entries

lemma find_insert {v : ν} (h : m.find (key v) = none) (k : κ) :
    (m.insert v).find k = if k = key v then some v else m.find k := by
  have hmem : ∀ w, w ∈ (m.insert v).entries ↔ w = v ∨ w ∈ m.entries := fun w => by
    rw [(insert_perm h).mem_iff, List.mem_cons]
  by_cases hk : k = key v
  · rw [if_pos hk, find_eq_some, hmem]
    exact ⟨.inl rfl, hk.symm⟩
  · rw [if_neg hk]
    apply Option.ext
    intro w
    rw [find_eq_some, find_eq_some, hmem]
    constructor
    · rintro ⟨rfl | hw, hkey⟩
      · exact absurd hkey.symm hk
      · exact ⟨hw, hkey⟩
    · rintro ⟨hw, hkey⟩
      exact ⟨.inr hw, hkey⟩

end OrderedMap

end RajNX
