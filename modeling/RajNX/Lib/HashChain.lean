import RajNX.Lib.Fallible

/-!
# Chained hash tables

A hash table as it is kept in flat memory: an address for the head of each bucket, and in each element the
address of the next one of its bucket, up to a mark that is no address. An element is put in front of its
bucket, so that a bucket is the list of its elements with the last one first.
-/

namespace RajNX.HashChain

variable {α ρ : Type}

/-- Following the links from an address goes through the elements of a list and ends. -/
inductive ChainFrom (address link : α → Nat) (stop : Nat) : Nat → List α → Prop
  | nil : ChainFrom address link stop stop []
  | cons {x xs} : address x ≠ stop → ChainFrom address link stop (link x) xs →
    ChainFrom address link stop (address x) (x :: xs)

/-- The elements of a bucket, the last one first -/
def inBucket (bucket : α → Nat) (b : Nat) (xs : List α) : List α := (xs.filter (bucket · = b)).reverse

/-- Each bucket is a chain through its elements. -/
def Threaded (bucket address link : α → Nat) (stop : Nat) (heads : List Nat) (xs : List α) : Prop :=
  ∀ b head, heads[b]? = some head → ChainFrom address link stop head (inBucket bucket b xs)

section Bucket

variable {bucket : α → Nat} {b : Nat} {xs : List α} {x : α}

lemma mem_inBucket : x ∈ inBucket bucket b xs ↔ x ∈ xs ∧ bucket x = b := by
  simp [inBucket]

lemma length_inBucket_le (bucket : α → Nat) (b : Nat) (xs : List α) : (inBucket bucket b xs).length ≤ xs.length := by
  rw [inBucket, List.length_reverse]
  exact List.length_filter_le _ _

/-- An element is put in front of its bucket. -/
lemma inBucket_snoc_self (h : bucket x = b) : inBucket bucket b (xs ++ [x]) = x :: inBucket bucket b xs := by
  rw [inBucket, List.filter_append, List.filter_cons_of_pos (by simpa using h), List.reverse_append]
  rfl

lemma inBucket_snoc_of_ne (h : bucket x ≠ b) : inBucket bucket b (xs ++ [x]) = inBucket bucket b xs := by
  rw [inBucket, List.filter_append, List.filter_cons_of_neg (by simpa using h), List.filter_nil, List.append_nil]
  rfl

lemma nodup_inBucket (h : xs.Nodup) (bucket : α → Nat) (b : Nat) : (inBucket bucket b xs).Nodup :=
  List.nodup_reverse.mpr (h.filter _)

end Bucket

section Insert

variable {bucket address link : α → Nat} {stop head : Nat} {heads : List Nat} {xs : List α} {x : α}

/-- A chain starts with an element of it, or is empty. -/
lemma ChainFrom.head_eq (h : ChainFrom address link stop head xs) : head = stop ∨ ∃ x ∈ xs, head = address x := by
  cases h with
  | nil => exact .inl rfl
  | @cons x xs _ _ => exact .inr ⟨x, List.mem_cons_self, rfl⟩

/-- A link goes to an element, or is empty. -/
lemma ChainFrom.link_eq (h : ChainFrom address link stop head xs) (hx : x ∈ xs) :
    link x = stop ∨ ∃ y ∈ xs, link x = address y := by
  induction h with
  | nil => cases hx
  | @cons y ys _ hchain ih =>
    cases hx with
    | head =>
      obtain hstop | ⟨z, hz, heq⟩ := hchain.head_eq
      · exact .inl hstop
      · exact .inr ⟨z, List.mem_cons_of_mem x hz, heq⟩
    | tail _ hmem =>
      obtain hstop | ⟨z, hz, heq⟩ := ih hmem
      · exact .inl hstop
      · exact .inr ⟨z, List.mem_cons_of_mem y hz, heq⟩

/-- The link of an element that is not on a chain can be changed. -/
lemma ChainFrom.update [DecidableEq α] (h : ChainFrom address link stop head xs) (hx : x ∉ xs) (next : Nat) :
    ChainFrom address (Function.update link x next) stop head xs := by
  induction h with
  | nil => exact .nil
  | @cons y ys hne _ ih =>
    rw [List.mem_cons, not_or] at hx
    apply ChainFrom.cons hne
    rw [Function.update_of_ne (Ne.symm hx.1)]
    exact ih hx.2

/-- Buckets without elements -/
lemma threaded_replicate (n : Nat) : Threaded bucket address link stop (List.replicate n stop) [] := by
  intro b head hhead
  obtain ⟨-, rfl⟩ := List.mem_replicate.mp (List.mem_of_getElem? hhead)
  exact .nil

/-- An element that is put in front of its bucket -/
lemma Threaded.insert [DecidableEq α] (h : Threaded bucket address link stop heads xs) (hx : x ∉ xs)
    (hne : address x ≠ stop) (hhead : heads[bucket x]? = some head) :
    Threaded bucket address (Function.update link x head) stop (heads.set (bucket x) (address x))
      (xs ++ [x]) := by
  have hoff : ∀ b, x ∉ inBucket bucket b xs := fun b hmem => hx (mem_inBucket.mp hmem).1
  intro b first hfirst
  rw [List.getElem?_set] at hfirst
  split_ifs at hfirst with hb hlt
  · cases hfirst
    rw [inBucket_snoc_self hb]
    apply ChainFrom.cons hne
    rw [Function.update_self, ← hb]
    exact (h _ head hhead).update (hoff _) head
  · rw [inBucket_snoc_of_ne hb]
    exact (h b first hfirst).update (hoff b) head

lemma Threaded.link_eq (h : Threaded bucket address link stop heads xs) (hx : x ∈ xs)
    (hbucket : bucket x < heads.length) : link x = stop ∨ ∃ y ∈ xs, link x = address y := by
  have hchain := h (bucket x) _ (List.getElem?_eq_getElem hbucket)
  obtain hstop | ⟨y, hy, heq⟩ := hchain.link_eq (mem_inBucket.mpr ⟨hx, rfl⟩)
  · exact .inl hstop
  · exact .inr ⟨y, (mem_inBucket.mp hy).1, heq⟩

end Insert

section Walk

variable (read : Nat → Option ρ) (next : ρ → Nat) (stop : Nat)

/-- The addresses along a chain, if it ends -/
def walk : Nat → Nat → Option (List Nat)
  | 0, _ => none
  | fuel + 1, a =>
    if a = stop then some []
    else do
      let record ← read a
      let rest ← walk fuel (next record)
      some (a :: rest)

/-- The first address along a chain with a record of a kind, if there is one before the chain ends -/
def search (hit : ρ → Bool) : Nat → Nat → Option (Option Nat)
  | 0, _ => none
  | fuel + 1, a =>
    if a = stop then some none
    else do
      let record ← read a
      if hit record then some (some a) else search hit fuel (next record)

end Walk

section Read

variable {read : Nat → Option ρ} {next : ρ → Nat} {stop head : Nat} {address link : α → Nat} {xs : List α}
  {record : α → ρ}

/-- A walk goes along the whole chain. -/
lemma ChainFrom.walk_eq (h : ChainFrom address link stop head xs)
    (hread : ∀ x ∈ xs, read (address x) = some (record x) ∧ next (record x) = link x) {fuel : Nat}
    (hfuel : xs.length < fuel) : walk read next stop fuel head = some (xs.map address) := by
  induction h generalizing fuel with
  | nil =>
    cases fuel with
    | zero => cases hfuel
    | succ fuel => exact if_pos rfl
  | @cons x xs hne _ ih =>
    cases fuel with
    | zero => cases hfuel
    | succ fuel =>
      obtain ⟨hrecord, hnext⟩ := hread x List.mem_cons_self
      have hrest := ih (fun y hy => hread y (List.mem_cons_of_mem x hy)) (Nat.lt_of_succ_lt_succ hfuel)
      rw [walk, if_neg hne, hrecord, Fallible.some_bind, hnext, hrest]
      rfl

/-- A search finds the first element of the kind. -/
lemma ChainFrom.search_eq (h : ChainFrom address link stop head xs)
    (hread : ∀ x ∈ xs, read (address x) = some (record x) ∧ next (record x) = link x) (hit : ρ → Bool)
    {fuel : Nat} (hfuel : xs.length < fuel) :
    search read next stop hit fuel head = some ((xs.find? fun x => hit (record x)).map address) := by
  induction h generalizing fuel with
  | nil =>
    cases fuel with
    | zero => cases hfuel
    | succ fuel => exact if_pos rfl
  | @cons x xs hne _ ih =>
    cases fuel with
    | zero => cases hfuel
    | succ fuel =>
      obtain ⟨hrecord, hnext⟩ := hread x List.mem_cons_self
      have hrest := ih (fun y hy => hread y (List.mem_cons_of_mem x hy)) (Nat.lt_of_succ_lt_succ hfuel)
      rw [search, if_neg hne, hrecord, Fallible.some_bind]
      cases hhit : hit (record x) with
      | true =>
        rw [List.find?_cons_of_pos (p := fun x => hit (record x)) hhit]
        rfl
      | false =>
        rw [List.find?_cons_of_neg (p := fun x => hit (record x)) (by rw [hhit]; exact Bool.false_ne_true),
          if_neg Bool.false_ne_true, hnext]
        exact hrest

end Read

end RajNX.HashChain
