import Mathlib.Tactic

/-!
# File trees

Trees of named directories and files over arbitrary names and contents. `find` walks down a path,
`setAt` puts a subtree at a path or removes it, and `entryAt` is what a reader sees at a path: two
trees that agree there are the same up to the order of directory entries.
-/

namespace RajNX.FileTree

variable {ν δ : Type}

/-- A file with its contents, or a directory with its named entries. -/
inductive Node (ν δ : Type)
  | file (data : δ)
  | dir (entries : List (ν × Node ν δ))

/-- What stands at a path, without what is below it. -/
inductive Entry (δ : Type)
  | file (data : δ)
  | dir
deriving Repr, DecidableEq

namespace Node

/-- The entry a node is. -/
def entry : Node ν δ → Entry δ
  | .file data => .file data
  | .dir _ => .dir

variable [DecidableEq ν]

/-- The names in a directory, each once. -/
def names : Node ν δ → List ν
  | .file _ => []
  | .dir entries => (entries.map Prod.fst).dedup

/-- The node at a path. -/
def find : Node ν δ → List ν → Option (Node ν δ)
  | n, [] => some n
  | .file _, _ :: _ => none
  | .dir entries, x :: path =>
    match entries.lookup x with
    | none => none
    | some child => child.find path

/-- The entry at a path. -/
def entryAt (n : Node ν δ) (path : List ν) : Option (Entry δ) := (n.find path).map entry

/-- Put a node at a path, or remove what is there. The path's directory has to exist for this to have
an effect. -/
def setAt : Node ν δ → List ν → Option (Node ν δ) → Node ν δ
  | n, [], m => m.getD n
  | .file data, _ :: _, _ => .file data
  | .dir entries, [x], m =>
    .dir (entries.filter (fun e => e.1 ≠ x) ++ (m.map (x, ·)).toList)
  | .dir entries, x :: y :: path, m =>
    .dir (entries.map fun e => if e.1 = x then (e.1, e.2.setAt (y :: path) m) else e)

end Node

section Lookup

variable [DecidableEq ν] {β : Type}

lemma lookup_cons_if (e : ν × β) (es : List (ν × β)) (x : ν) :
    (e :: es).lookup x = if x = e.1 then some e.2 else es.lookup x := by
  obtain ⟨k, b⟩ := e
  rw [List.lookup_cons]
  by_cases h : x = k
  · simp [h]
  · simp [h, beq_false_of_ne h]

lemma lookup_ne_none_iff (es : List (ν × β)) (x : ν) : es.lookup x ≠ none ↔ x ∈ es.map Prod.fst := by
  induction es with
  | nil => simp
  | cons e es ih =>
    rw [lookup_cons_if, List.map_cons, List.mem_cons]
    by_cases h : x = e.1
    · simp [h]
    · simp only [h, false_or]
      exact ih

lemma lookup_filter_ne (es : List (ν × β)) {x z : ν} (h : z ≠ x) (m : Option β) :
    (es.filter (fun e => e.1 ≠ x) ++ (m.map (x, ·)).toList).lookup z = es.lookup z := by
  induction es with
  | nil => cases m <;> simp [lookup_cons_if, h]
  | cons e es ih =>
    by_cases he : e.1 = x
    · rw [List.filter_cons_of_neg (by simpa using he), ih, lookup_cons_if, if_neg (he ▸ h)]
    · rw [List.filter_cons_of_pos (by simpa using he), List.cons_append, lookup_cons_if, ih,
        lookup_cons_if]

lemma lookup_filter_self (es : List (ν × β)) (x : ν) (m : Option β) :
    (es.filter (fun e => e.1 ≠ x) ++ (m.map (x, ·)).toList).lookup x = m := by
  induction es with
  | nil => cases m <;> simp [lookup_cons_if]
  | cons e es ih =>
    by_cases he : e.1 = x
    · rw [List.filter_cons_of_neg (by simpa using he), ih]
    · rw [List.filter_cons_of_pos (by simpa using he), List.cons_append, lookup_cons_if,
        if_neg (Ne.symm he), ih]

lemma lookup_map_self (es : List (ν × β)) (x : ν) (f : β → β) :
    (es.map fun e => if e.1 = x then (e.1, f e.2) else e).lookup x = (es.lookup x).map f := by
  induction es with
  | nil => rfl
  | cons e es ih =>
    rw [List.map_cons, lookup_cons_if, lookup_cons_if]
    by_cases he : e.1 = x
    · simp [he]
    · rw [if_neg he, if_neg (Ne.symm he), if_neg (Ne.symm he), ih]

lemma lookup_map_ne (es : List (ν × β)) {x z : ν} (h : z ≠ x) (f : β → β) :
    (es.map fun e => if e.1 = x then (e.1, f e.2) else e).lookup z = es.lookup z := by
  induction es with
  | nil => rfl
  | cons e es ih =>
    rw [List.map_cons, lookup_cons_if, lookup_cons_if, ih]
    by_cases he : e.1 = x
    · have hz : z ≠ e.1 := he ▸ h
      rw [if_pos he, if_neg hz, if_neg hz]
    · rw [if_neg he]

end Lookup

namespace Node

variable [DecidableEq ν]

@[simp] lemma find_nil (n : Node ν δ) : n.find [] = some n := by
  cases n <;> rfl

lemma find_dir_cons (es : List (ν × Node ν δ)) (x : ν) (path : List ν) :
    (dir es).find (x :: path) = (es.lookup x).bind (·.find path) := by
  rw [find]
  cases es.lookup x <;> rfl

lemma find_append (n : Node ν δ) (p q : List ν) : n.find (p ++ q) = (n.find p).bind (·.find q) := by
  induction p generalizing n with
  | nil => simp
  | cons x p ih =>
    cases n with
    | file => rfl
    | dir es =>
      rw [List.cons_append, find_dir_cons, find_dir_cons]
      cases es.lookup x with
      | none => rfl
      | some child => exact ih child

@[simp] lemma entryAt_nil (n : Node ν δ) : n.entryAt [] = some n.entry := by
  simp [entryAt]

lemma entryAt_append (n : Node ν δ) (p q : List ν) : n.entryAt (p ++ q) = (n.find p).bind (·.entryAt q) := by
  rw [entryAt, find_append]
  cases n.find p <;> rfl

lemma entryAt_dir_cons (es : List (ν × Node ν δ)) (x : ν) (path : List ν) :
    (dir es).entryAt (x :: path) = (es.lookup x).bind (·.entryAt path) := by
  rw [entryAt, find_dir_cons]
  cases es.lookup x <;> rfl

variable {n : Node ν δ}

/-- Something below a path makes it a directory. -/
lemma entryAt_of_below {p q : List ν} (hq : q ≠ []) (h : n.entryAt (p ++ q) ≠ none) : n.entryAt p = some .dir := by
  rw [entryAt_append] at h
  rw [entryAt]
  cases hp : n.find p with
  | none => simp [hp] at h
  | some m =>
    cases m with
    | dir => rfl
    | file =>
      cases q with
      | nil => exact (hq rfl).elim
      | cons x q => simp [hp, entryAt, find] at h

/-- Nothing is below a file. -/
lemma entryAt_below_file {p q : List ν} {data : δ}
    (h : n.entryAt p = some (.file data)) (hq : q ≠ []) : n.entryAt (p ++ q) = none := by
  by_contra hne
  rw [entryAt_of_below hq hne] at h
  cases h

/-- Nothing is below a path where nothing is. -/
lemma entryAt_append_eq_none {p : List ν} (h : n.entryAt p = none) (q : List ν) : n.entryAt (p ++ q) = none := by
  rw [entryAt, Option.map_eq_none_iff] at h
  rw [entryAt_append, h]
  rfl

/-- The names of a directory are those with an entry below it. -/
lemma mem_names_iff {n m : Node ν δ} {p : List ν} (h : n.find p = some m) (x : ν) :
    x ∈ m.names ↔ n.entryAt (p ++ [x]) ≠ none := by
  rw [entryAt_append, h, Option.bind_some]
  cases m with
  | file => simp [names, entryAt, find]
  | dir es =>
    rw [names, List.mem_dedup, ← lookup_ne_none_iff, entryAt_dir_cons]
    cases es.lookup x <;> simp

lemma nodup_names (n : Node ν δ) : n.names.Nodup := by
  cases n with
  | file => exact List.nodup_nil
  | dir es => exact List.nodup_dedup _

/-- Elsewhere nothing changes. -/
lemma entryAt_setAt_of_not_prefix {p q : List ν} (m : Option (Node ν δ))
    (h : ¬p <+: q) : (n.setAt p m).entryAt q = n.entryAt q := by
  induction p generalizing n q with
  | nil => exact (h (List.nil_prefix)).elim
  | cons x p ih =>
    cases n with
    | file data => cases p <;> rfl
    | dir es =>
      cases q with
      | nil => cases p <;> rfl
      | cons z q =>
        cases p with
        | nil =>
          have hz : z ≠ x := by
            rintro rfl
            exact h (by simp)
          rw [setAt, entryAt_dir_cons, entryAt_dir_cons, lookup_filter_ne es hz]
        | cons y p =>
          rw [setAt, entryAt_dir_cons, entryAt_dir_cons]
          by_cases hz : z = x
          · subst hz
            rw [lookup_map_self es z (·.setAt (y :: p) m)]
            have hq : ¬(y :: p) <+: q := fun hp => h (List.cons_prefix_cons.mpr ⟨rfl, hp⟩)
            cases es.lookup z with
            | none => rfl
            | some child => exact ih hq
          · rw [lookup_map_ne es hz (·.setAt (y :: p) m)]

/-- At the path and below it the new node is seen, if its directory exists. -/
lemma entryAt_setAt_append {p : List ν} {x : ν} (m : Option (Node ν δ)) (h : n.entryAt p = some .dir) (q : List ν) :
    (n.setAt (p ++ [x]) m).entryAt (p ++ [x] ++ q) = m.bind (·.entryAt q) := by
  induction p generalizing n with
  | nil =>
    cases n with
    | file data => simp [entry] at h
    | dir es =>
      rw [List.nil_append, setAt, List.singleton_append, entryAt_dir_cons, lookup_filter_self]
  | cons y p ih =>
    cases n with
    | file data => simp [entryAt, find] at h
    | dir es =>
      rw [entryAt_dir_cons] at h
      have hset : (dir es).setAt (y :: p ++ [x]) m =
          .dir (es.map fun e => if e.1 = y then (e.1, e.2.setAt (p ++ [x]) m) else e) := by
        cases p <;> rfl
      rw [hset, List.cons_append, List.cons_append, entryAt_dir_cons, lookup_map_self es y (·.setAt (p ++ [x]) m)]
      cases hy : es.lookup y with
      | none => simp [hy] at h
      | some child => exact ih (by simpa [hy] using h)

end Node

end RajNX.FileTree
