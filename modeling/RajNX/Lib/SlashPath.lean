import Mathlib.Tactic

/-!
# Separated paths

Paths over an arbitrary alphabet with a separator and a dot: the names of a path, the stack that
resolves the names `.` and `..`, and the canonical text of a list of names.
-/

namespace RajNX.SlashPath

variable {α : Type*} [DecidableEq α] (sep dot : α)

/-- The names of a path, in order; repeated separators make no name. -/
def components (s : List α) : List (List α) :=
  (s.splitOn sep).filter (· ≠ [])

/-- Push the names of a path on a stack of names with its top at the end. The name `.` is dropped and
`..` pops; popping the empty stack has no result. -/
def resolve : List (List α) → List (List α) → Option (List (List α))
  | stack, [] => some stack
  | stack, c :: cs =>
    if c = [dot] then resolve stack cs
    else if c = [dot, dot] then
      if stack = [] then none else resolve stack.dropLast cs
    else resolve (stack ++ [c]) cs

/-- Each name with a separator before it. -/
def body (names : List (List α)) : List α := names.flatMap (sep :: ·)

/-- The canonical absolute path of a list of names. -/
def render (names : List (List α)) : List α :=
  if names = [] then [sep] else body sep names

/-- Whether the text of the stack stays shorter than `n` while the names of a path are resolved, with room for the
separator in front of each name. -/
def fits (n : Nat) : List (List α) → List (List α) → Bool
  | _, [] => true
  | stack, c :: cs =>
    (body sep stack).length + 1 < n &&
      match resolve dot stack [c] with
      | none => true
      | some next => (body sep next).length < n && fits n next cs

/-- A name that stands for itself. -/
structure IsName (c : List α) : Prop where
  ne_nil : c ≠ []
  sep_notMem : sep ∉ c
  ne_dot : c ≠ [dot]
  ne_dotdot : c ≠ [dot, dot]

section Components

variable {sep}

@[simp] lemma components_nil : components sep [] = [] := by
  simp [components]

lemma components_append_sep (xs ys : List α) :
    components sep (xs ++ sep :: ys) = components sep xs ++ components sep ys := by
  simp [components, List.splitOn_append_cons_self]

@[simp] lemma components_sep_cons (ys : List α) : components sep (sep :: ys) = components sep ys := by
  rw [← List.nil_append (sep :: ys), components_append_sep, components_nil, List.nil_append]

lemma components_dropWhile_sep (ys : List α) : components sep (ys.dropWhile (· == sep)) = components sep ys := by
  induction ys with
  | nil => rfl
  | cons y ys ih =>
    rw [List.dropWhile_cons]
    split
    next h =>
      rw [eq_of_beq h, components_sep_cons]
      exact ih
    next => rfl

lemma components_name {c : List α} (ne : c ≠ []) (hc : sep ∉ c) : components sep c = [c] := by
  simp [components, List.splitOn_eq_singleton hc, ne]

lemma components_name_append {c t : List α} (ne : c ≠ []) (hc : sep ∉ c)
    (ht : t = [] ∨ t.head? = some sep) : components sep (c ++ t) = c :: components sep t := by
  cases t with
  | nil => rw [List.append_nil, components_name ne hc, components_nil]
  | cons b t =>
    obtain rfl : b = sep := by simpa using ht
    rw [components_append_sep, components_name ne hc, components_sep_cons]
    rfl

/-- Every text is a name, maybe empty, and a rest that is empty or starts with a separator. -/
lemma name_split (sep : α) (s : List α) :
    ∃ c t, s = c ++ t ∧ s.takeWhile (· ≠ sep) = c ∧ sep ∉ c ∧ (t = [] ∨ t.head? = some sep) := by
  induction s with
  | nil => exact ⟨[], [], rfl, rfl, by simp, .inl rfl⟩
  | cons b s ih =>
    by_cases hb : b = sep
    · exact ⟨[], b :: s, rfl, by simp [hb], by simp, .inr (by rw [hb]; rfl)⟩
    · obtain ⟨c, t, rfl, hc, hn, ht⟩ := ih
      refine ⟨b :: c, t, rfl, ?_, ?_, ht⟩
      · rw [List.takeWhile_cons, if_pos (by simpa using hb), hc]
      · simpa [Ne.symm hb] using hn

end Components

section Body

variable {sep}

omit [DecidableEq α] in
@[simp] lemma body_nil : body sep [] = [] := rfl

omit [DecidableEq α] in
lemma body_append (as bs : List (List α)) : body sep (as ++ bs) = body sep as ++ body sep bs := by
  simp [body]

omit [DecidableEq α] in
@[simp] lemma body_singleton (c : List α) : body sep [c] = sep :: c := by
  simp [body]

/-- The names of a body are the names it was made of. -/
lemma components_body {names : List (List α)} (h : ∀ c ∈ names, c ≠ [] ∧ sep ∉ c) :
    components sep (body sep names) = names := by
  induction names using List.reverseRecOn with
  | nil => simp
  | append_singleton cs c ih =>
    have hc := h c (by simp)
    rw [body_append, body_singleton, components_append_sep,
      ih fun c' hc' => h c' (List.mem_append_left _ hc'), components_name hc.1 hc.2]

omit [DecidableEq α] in
@[simp] lemma body_cons (c : List α) (cs : List (List α)) : body sep (c :: cs) = sep :: (c ++ body sep cs) := by
  simp [body]

/-- A canonical path names the names it was made of. -/
lemma components_render {names : List (List α)} (h : ∀ c ∈ names, c ≠ [] ∧ sep ∉ c) :
    components sep (render sep names) = names := by
  unfold render
  split
  next hnil => rw [hnil, components_sep_cons, components_nil]
  next => exact components_body h

omit [DecidableEq α] in
/-- A canonical path is a separator and the names with separators between them. -/
lemma render_eq_intercalate (names : List (List α)) : render sep names = sep :: List.intercalate [sep] names := by
  unfold render
  split
  next hnil => rw [hnil, List.intercalate_nil]
  next hne =>
    induction names with
    | nil => exact (hne rfl).elim
    | cons c cs ih =>
      cases cs with
      | nil => rw [body_singleton, List.intercalate_singleton]
      | cons d ds =>
        rw [body_cons, ih (List.cons_ne_nil d ds), List.intercalate_cons_of_ne_nil (List.cons_ne_nil d ds),
          List.append_assoc, List.singleton_append]

/-- The names of a path that starts with a separator are no longer than the path. If they are as long, the path is
made of them. -/
lemma length_body_components (s : List α) (h : s = [] ∨ s.head? = some sep) :
    (body sep (components sep s)).length < s.length ∨ body sep (components sep s) = s := by
  induction hlength : s.length using Nat.strong_induction_on generalizing s with
  | _ n ih =>
    cases s with
    | nil => exact .inr (by rw [components_nil, body_nil])
    | cons b s =>
      obtain rfl : b = sep := by simpa using h
      obtain ⟨c, t, rfl, -, hc, ht⟩ := name_split b s
      rw [List.length_cons, List.length_append] at hlength
      have hrest := ih t.length (by omega) t ht rfl
      rw [components_sep_cons]
      by_cases hnil : c = []
      · -- A separator that ends no name
        rw [hnil, List.nil_append]
        left
        rw [hnil, List.length_nil] at hlength
        obtain hlt | heq := hrest
        · omega
        · rw [heq]
          omega
      · rw [components_name_append hnil hc ht, body_cons, List.length_cons, List.length_append]
        obtain hlt | heq := hrest
        · exact .inl (by omega)
        · exact .inr (by rw [heq])

/-- A canonical path put after a body names the two lists of names one after the other. -/
lemma components_body_render (names rest : List (List α)) (h : ∀ c ∈ names ++ rest, c ≠ [] ∧ sep ∉ c) :
    components sep (body sep names ++ render sep rest) = names ++ rest := by
  unfold render
  split
  next hr =>
    rw [hr, List.append_nil] at h ⊢
    rw [components_append_sep, components_body h, components_nil, List.append_nil]
  next =>
    rw [← body_append, components_body h]

end Body

omit [DecidableEq α] in
lemma IsName.plain {c : List α} (h : IsName sep dot c) : c ≠ [] ∧ sep ∉ c :=
  ⟨h.ne_nil, h.sep_notMem⟩

/-- What one name does to the stack. -/
lemma resolve_cons_name {c : List α} (h : IsName sep dot c) (stack cs : List (List α)) :
    resolve dot stack (c :: cs) = resolve dot (stack ++ [c]) cs := by
  rw [resolve, if_neg h.ne_dot, if_neg h.ne_dotdot]

section Resolve

variable {dot}

/-- Resolving two lists of names one after the other -/
lemma resolve_append (stack as bs : List (List α)) :
    resolve dot stack (as ++ bs) = (resolve dot stack as).bind (resolve dot · bs) := by
  induction as generalizing stack with
  | nil => rfl
  | cons c cs ih =>
    rw [List.cons_append, resolve, resolve]
    split_ifs
    · exact ih stack
    · rfl
    · exact ih stack.dropLast
    · exact ih (stack ++ [c])

/-- What names do to a stack they do on top of another one, as they do not reach it. -/
lemma resolve_above {stack names result : List (List α)} (h : resolve dot stack names = some result)
    (below : List (List α)) : resolve dot (below ++ stack) names = some (below ++ result) := by
  induction names generalizing stack with
  | nil =>
    cases h
    rfl
  | cons c cs ih =>
    rw [resolve] at h ⊢
    split_ifs at h ⊢ with hdot hdd hboth hnil hnil
    · exact ih h
    · exact absurd (List.append_eq_nil_iff.mp hboth).2 hnil
    · rw [List.dropLast_append_of_ne_nil hnil]
      exact ih h
    · rw [List.append_assoc]
      exact ih h

/-- Names that stand for themselves are pushed. -/
lemma resolve_names {names : List (List α)} (h : ∀ c ∈ names, IsName sep dot c) (stack : List (List α)) :
    resolve dot stack names = some (stack ++ names) := by
  induction names generalizing stack with
  | nil => rw [resolve, List.append_nil]
  | cons c cs ih =>
    rw [resolve_cons_name sep dot (h c List.mem_cons_self), ih fun d hd => h d (List.mem_cons_of_mem c hd),
      List.append_assoc]
    rfl

omit [DecidableEq α] in
lemma length_body_dropLast (names : List (List α)) : (body sep names.dropLast).length ≤ (body sep names).length := by
  have hparts := congrArg (body sep) (List.take_append_drop (names.length - 1) names)
  rw [List.dropLast_eq_take, ← hparts, body_append, List.length_append]
  exact Nat.le_add_right _ _

/-- What names resolve to is no longer than they are. If it is as long, every name was pushed. -/
lemma length_body_resolve {stack names result : List (List α)} (h : resolve dot stack names = some result) :
    (body sep result).length < (body sep stack).length + (body sep names).length ∨ result = stack ++ names := by
  induction names generalizing stack with
  | nil =>
    cases h
    exact .inr (List.append_nil _).symm
  | cons c cs ih =>
    rw [body_cons, List.length_cons, List.length_append]
    rw [resolve] at h
    split_ifs at h with hdot hdd hnil
    · left
      have hlength := ih h
      rw [hdot]
      obtain hlt | rfl := hlength
      · omega
      · rw [body_append, List.length_append]
        omega
    · left
      have hlength := ih h
      have hdrop := length_body_dropLast sep stack
      obtain hlt | rfl := hlength
      · omega
      · rw [body_append, List.length_append]
        omega
    · have hlength := ih h
      rw [body_append, List.length_append, body_singleton, List.length_cons] at hlength
      obtain hlt | heq := hlength
      · exact .inl (by omega)
      · exact .inr (by rw [heq, List.append_assoc, List.singleton_append])

end Resolve

section Fits

variable {sep dot} {n : Nat} {stack cs : List (List α)} {c : List α}

lemma fits_nil : fits sep dot n stack [] = true := rfl

lemma fits_cons : fits sep dot n stack (c :: cs) = true ↔ (body sep stack).length + 1 < n ∧
    ∀ next, resolve dot stack [c] = some next → (body sep next).length < n ∧ fits sep dot n next cs = true := by
  rw [fits]
  cases resolve dot stack [c] with
  | none => simp
  | some next => simp

/-- One name -/
lemma fits_singleton (hsep : (body sep stack).length + 1 < n)
    (hnext : ∀ next, resolve dot stack [c] = some next → (body sep next).length < n) :
    fits sep dot n stack [c] = true :=
  fits_cons.mpr ⟨hsep, fun next h => ⟨hnext next h, fits_nil⟩⟩

/-- The first name and the others -/
lemma fits_cons_bind : fits sep dot n stack (c :: cs) = true ↔ fits sep dot n stack [c] = true ∧
    ∀ next, resolve dot stack [c] = some next → fits sep dot n next cs = true := by
  rw [fits_cons, fits_cons]
  constructor
  · rintro ⟨hsep, hnext⟩
    exact ⟨⟨hsep, fun next h => ⟨(hnext next h).1, fits_nil⟩⟩, fun next h => (hnext next h).2⟩
  · rintro ⟨⟨hsep, hlength⟩, hnext⟩
    exact ⟨hsep, fun next h => ⟨(hlength next h).1, hnext next h⟩⟩

/-- Names that are short together fit. -/
lemma fits_of_length (hcs : ∀ c ∈ cs, c ≠ []) (h : (body sep stack).length + (body sep cs).length < n) :
    fits sep dot n stack cs = true := by
  induction cs generalizing stack with
  | nil => rfl
  | cons c cs ih =>
    have hc := List.length_pos_iff.mpr (hcs c List.mem_cons_self)
    rw [body_cons, List.length_cons, List.length_append] at h
    rw [fits_cons]
    refine ⟨by omega, fun next hnext => ?_⟩
    have hle : (body sep next).length + (body sep cs).length < n := by
      obtain hlt | rfl := length_body_resolve sep hnext
      · rw [body_singleton, List.length_cons] at hlt
        omega
      · rw [body_append, body_singleton, List.length_append, List.length_cons]
        omega
    exact ⟨by omega, ih (fun d hd => hcs d (List.mem_cons_of_mem c hd)) hle⟩

/-- A path that is short fits. -/
lemma fits_components {s : List α} (hs : s = [] ∨ s.head? = some sep) (h : s.length < n) :
    fits sep dot n [] (components sep s) = true := by
  apply fits_of_length
  · intro c hc
    rw [components, List.mem_filter] at hc
    exact of_decide_eq_true hc.2
  · rw [body_nil, List.length_nil, Nat.zero_add]
    obtain hlt | heq := length_body_components s hs
    · exact hlt.trans h
    · rwa [heq]

end Fits

end RajNX.SlashPath
