import Mathlib.Tactic

/-!
# Linked forests

Nodes that are linked to the first of their children and to their next sibling. `thread` makes the links
of a list of nodes with a loop from its end, which puts each node in front of those of its parent that
are linked already.
-/

namespace RajNX.Forest

variable {α β : Type}

section Links

variable [DecidableEq α] [DecidableEq β]

/-- The links of nodes `α` below parents `β`. -/
structure Links (α β : Type) where
  first : β → Option α
  next : α → Option α

/-- No node is linked. -/
def Links.none : Links α β := ⟨fun _ => .none, fun _ => .none⟩

/-- Put a node in front of the nodes of its parent. -/
def Links.link (l : Links α β) (p : β) (x : α) : Links α β :=
  { first := Function.update l.first p (some x), next := Function.update l.next x (l.first p) }

@[simp] lemma Links.first_link_self (l : Links α β) (p : β) (x : α) : (l.link p x).first p = some x :=
  Function.update_self p _ l.first

lemma Links.first_link_of_ne (l : Links α β) {p q : β} (x : α) (h : q ≠ p) : (l.link p x).first q = l.first q :=
  Function.update_of_ne h _ l.first

lemma Links.next_link (l : Links α β) (p : β) (x : α) :
    (l.link p x).next = Function.update l.next x (l.first p) := rfl

/-- Link the nodes of a list from its end. -/
def thread (parent : α → β) (xs : List α) : Links α β :=
  xs.reverse.foldl (fun l x => l.link (parent x) x) Links.none

/-- Following the siblings from a link gives a list of nodes. -/
inductive Chain (next : α → Option α) : Option α → List α → Prop
  | nil : Chain next none []
  | cons {x xs} : Chain next (next x) xs → Chain next (some x) (x :: xs)

section Thread

variable {parent : α → β}

lemma thread_cons (x : α) (xs : List α) : thread parent (x :: xs) = (thread parent xs).link (parent x) x := by
  rw [thread, List.reverse_cons, List.foldl_append, List.foldl_cons, List.foldl_nil]
  rfl

/-- A link that is not on a chain can be changed. -/
lemma Chain.update {next : α → Option α} {o : Option α} {xs : List α} (h : Chain next o xs) {y : α}
    (hy : y ∉ xs) (z : Option α) : Chain (Function.update next y z) o xs := by
  induction h with
  | nil => exact .nil
  | @cons x xs _ ih =>
    rw [List.mem_cons, not_or] at hy
    apply Chain.cons
    rw [Function.update_of_ne (Ne.symm hy.1)]
    exact ih hy.2

/-- The chain of a parent goes through its nodes, in the order of the list. -/
lemma chain_thread {xs : List α} (h : xs.Nodup) (p : β) :
    Chain (thread parent xs).next ((thread parent xs).first p) (xs.filter (parent · = p)) := by
  induction xs with
  | nil => exact .nil
  | cons x xs ih =>
    rw [List.nodup_cons] at h
    have hx : x ∉ xs.filter (parent · = p) := fun hmem => h.1 (List.mem_of_mem_filter hmem)
    rw [thread_cons]
    by_cases hp : parent x = p
    · rw [List.filter_cons_of_pos (by simpa using hp), hp, Links.first_link_self, Links.next_link]
      apply Chain.cons
      rw [Function.update_self]
      exact (ih h.2).update hx _
    · rw [List.filter_cons_of_neg (by simpa using hp), Links.first_link_of_ne _ x (Ne.symm hp),
        Links.next_link]
      exact (ih h.2).update hx _

/-- The links go to nodes of the list. -/
lemma mem_of_thread (xs : List α) {y : α} :
    (∀ p, (thread parent xs).first p = some y → y ∈ xs) ∧
      ∀ x, (thread parent xs).next x = some y → y ∈ xs := by
  induction xs with
  | nil =>
    constructor
    · intro p h
      cases h
    · intro x h
      cases h
  | cons x xs ih =>
    rw [thread_cons]
    constructor
    · intro p h
      by_cases hp : p = parent x
      · rw [hp, Links.first_link_self] at h
        cases h
        exact List.mem_cons_self
      · rw [Links.first_link_of_ne _ x hp] at h
        exact List.mem_cons_of_mem x (ih.1 p h)
    · intro z h
      rw [Links.next_link] at h
      by_cases hz : z = x
      · rw [hz, Function.update_self] at h
        exact List.mem_cons_of_mem x (ih.1 _ h)
      · rw [Function.update_of_ne hz] at h
        exact List.mem_cons_of_mem x (ih.2 z h)

end Thread

end Links

section Preorder

variable (parent key : α → β) (xs : List α)

/-- A node is somewhere below a place. -/
inductive Below (p : β) : α → Prop
  | child {x} : x ∈ xs → parent x = p → Below p x
  | deeper {y x} : Below p y → x ∈ xs → parent x = key y → Below p x

variable {parent key xs}

/-- A node below a child is below its parent. -/
lemma Below.of_child {p : β} {x y : α} (hy : Below parent key xs (key x) y) (hx : x ∈ xs)
    (hp : parent x = p) : Below parent key xs p y := by
  induction hy with
  | child hmem hparent => exact .deeper (.child hx hp) hmem hparent
  | deeper _ hmem hparent ih => exact .deeper ih hmem hparent

/-- A node below a place is a child of it or below one. -/
lemma Below.cases_child {p : β} {y : α} (hy : Below parent key xs p y) :
    ∃ x ∈ xs, parent x = p ∧ (y = x ∨ Below parent key xs (key x) y) := by
  induction hy with
  | @child y hmem hparent => exact ⟨y, hmem, hparent, Or.inl rfl⟩
  | deeper _ hmem hparent ih =>
    obtain ⟨x, hx, hp, heq | hbelow⟩ := ih
    · subst heq
      exact ⟨_, hx, hp, Or.inr (.child hmem hparent)⟩
    · exact ⟨x, hx, hp, Or.inr (.deeper hbelow hmem hparent)⟩

/-- Nodes have other places than each other, and ranks that grow from their parents on. -/
structure Ranked (parent key : α → β) (xs : List α) (rank : β → Nat) : Prop where
  nodup : xs.Nodup
  key_inj : ∀ x ∈ xs, ∀ y ∈ xs, key x = key y → x = y
  rank_lt : ∀ x ∈ xs, rank (parent x) < rank (key x)

variable {rank : β → Nat}

lemma Below.mem {p : β} {x : α} (h : Below parent key xs p x) : x ∈ xs := by
  cases h with
  | child hmem _ => exact hmem
  | deeper _ hmem _ => exact hmem

lemma Below.rank_le {p : β} {x : α} (h : Below parent key xs p x) (hr : Ranked parent key xs rank) :
    rank p ≤ rank (parent x) := by
  induction h with
  | child _ hparent => rw [hparent]
  | @deeper y x hy hmem hparent ih =>
    rw [hparent]
    exact ih.trans (hr.rank_lt y hy.mem).le

/-- No node is below itself, nor below a child of its parent. -/
lemma Ranked.not_below_sibling (hr : Ranked parent key xs rank) {x y : α} (hx : x ∈ xs)
    (hsame : parent x = parent y) : ¬Below parent key xs (key x) y := by
  intro h
  have hle := h.rank_le hr
  have hlt := hr.rank_lt x hx
  rw [hsame] at hlt
  exact absurd hle hlt.not_ge

/-- A node is below at most one of the children of a place. -/
lemma Ranked.sibling_unique (hr : Ranked parent key xs rank) {x y z : α} (hx : x ∈ xs) (hy : y ∈ xs)
    (hsame : parent x = parent y) (hzx : Below parent key xs (key x) z)
    (hzy : Below parent key xs (key y) z) : x = y := by
  induction hzx with
  | child _ hparent =>
    cases hzy with
    | child _ hparent' => exact hr.key_inj x hx y hy (hparent.symm.trans hparent')
    | @deeper w _ hw _ hparent' =>
      have heq := hr.key_inj x hx w hw.mem (hparent.symm.trans hparent')
      rw [← heq] at hw
      exact absurd hw (hr.not_below_sibling hy hsame.symm)
  | @deeper w _ hwx _ hparent ih =>
    cases hzy with
    | child _ hparent' =>
      have heq := hr.key_inj w hwx.mem y hy (hparent.symm.trans hparent')
      rw [heq] at hwx
      exact absurd hwx (hr.not_below_sibling hx hsame)
    | @deeper w' _ hw' _ hparent' =>
      have heq := hr.key_inj w hwx.mem w' hw'.mem (hparent.symm.trans hparent')
      rw [← heq] at hw'
      exact ih hw'

variable [DecidableEq β]

variable (parent key xs) in
/-- The nodes below a place, each in front of those below it. -/
def preorder : Nat → β → List α
  | 0, _ => []
  | n + 1, p => (xs.filter (parent · = p)).flatMap fun x => x :: preorder n (key x)

/-- A preorder comes upon the nodes below its place, if it goes deep enough. -/
lemma mem_preorder (hr : Ranked parent key xs rank) {n limit : Nat} {p : β}
    (hlimit : ∀ x ∈ xs, rank (key x) ≤ limit) (hn : limit < rank p + n) {y : α} :
    y ∈ preorder parent key xs n p ↔ Below parent key xs p y := by
  induction n generalizing p with
  | zero =>
    constructor
    · intro h
      cases h
    · intro h
      have hle := h.rank_le hr
      have hlt := hr.rank_lt y h.mem
      have hbound := hlimit y h.mem
      omega
  | succ n ih =>
    rw [preorder, List.mem_flatMap]
    have hchild : ∀ x ∈ xs, parent x = p → limit < rank (key x) + n := by
      intro x hx hp
      have hlt := hr.rank_lt x hx
      rw [hp] at hlt
      omega
    constructor
    · intro ⟨x, hx, hy⟩
      obtain ⟨hmem, hparent⟩ := List.mem_filter.mp hx
      have hp : parent x = p := of_decide_eq_true hparent
      cases List.mem_cons.mp hy with
      | inl heq =>
        rw [heq]
        exact .child hmem hp
      | inr hbelow => exact ((ih (hchild x hmem hp)).mp hbelow).of_child hmem hp
    · intro h
      obtain ⟨x, hx, hp, hy⟩ := h.cases_child
      refine ⟨x, List.mem_filter.mpr ⟨hx, decide_eq_true hp⟩, List.mem_cons.mpr ?_⟩
      exact hy.imp id (ih (hchild x hx hp)).mpr

/-- It comes upon each of them once. -/
lemma nodup_preorder (hr : Ranked parent key xs rank) {n limit : Nat} {p : β}
    (hlimit : ∀ x ∈ xs, rank (key x) ≤ limit) (hn : limit < rank p + n) : (preorder parent key xs n p).Nodup := by
  induction n generalizing p with
  | zero => exact List.nodup_nil
  | succ n ih =>
    have hchild : ∀ x ∈ xs, parent x = p → limit < rank (key x) + n := by
      intro x hx hp
      have hlt := hr.rank_lt x hx
      rw [hp] at hlt
      omega
    rw [preorder, List.nodup_flatMap]
    constructor
    · intro x hx
      obtain ⟨hmem, hparent⟩ := List.mem_filter.mp hx
      have hn' := hchild x hmem (of_decide_eq_true hparent)
      refine List.nodup_cons.mpr ⟨fun hx' => ?_, ih hn'⟩
      exact hr.not_below_sibling hmem rfl ((mem_preorder hr hlimit hn').mp hx')
    · apply (hr.nodup.filter _).imp_of_mem
      intro x y hx hy hne z hzx hzy
      obtain ⟨hxmem, hxp⟩ := List.mem_filter.mp hx
      obtain ⟨hymem, hyp⟩ := List.mem_filter.mp hy
      have hxp := of_decide_eq_true hxp
      have hyp := of_decide_eq_true hyp
      have hxz := mem_preorder hr hlimit (hchild x hxmem hxp) (y := z)
      have hyz := mem_preorder hr hlimit (hchild y hymem hyp) (y := z)
      cases List.mem_cons.mp hzx with
      | inl hzx =>
        cases List.mem_cons.mp hzy with
        | inl hzy => exact hne (hzx.symm.trans hzy)
        | inr hzy =>
          rw [hzx] at hyz hzy
          exact hr.not_below_sibling hymem (hyp.trans hxp.symm) (hyz.mp hzy)
      | inr hzx =>
        cases List.mem_cons.mp hzy with
        | inl hzy =>
          rw [hzy] at hxz hzx
          exact hr.not_below_sibling hxmem (hxp.trans hyp.symm) (hxz.mp hzx)
        | inr hzy =>
          exact hne (hr.sibling_unique hxmem hymem (hxp.trans hyp.symm) (hxz.mp hzx) (hyz.mp hzy))

/-- From a root that all nodes are below, a preorder is a permutation of the nodes. -/
lemma preorder_perm (hr : Ranked parent key xs rank) {n limit : Nat} {root : β}
    (hlimit : ∀ x ∈ xs, rank (key x) ≤ limit) (hn : limit < rank root + n)
    (hroot : ∀ x ∈ xs, Below parent key xs root x) : (preorder parent key xs n root).Perm xs := by
  apply (List.perm_ext_iff_of_nodup (nodup_preorder hr hlimit hn) hr.nodup).mpr
  intro x
  rw [mem_preorder hr hlimit hn]
  exact ⟨Below.mem, hroot x⟩

/-- Things that are sorted by where they belong, if each belongs to one of the places. -/
lemma flatMap_filter_perm {γ : Type} {f : γ → β} {places : List β} {l : List γ} (hplaces : places.Nodup)
    (hl : ∀ x ∈ l, f x ∈ places) : (places.flatMap fun p => l.filter (f · = p)).Perm l := by
  induction places generalizing l with
  | nil =>
    cases l with
    | nil => exact List.Perm.nil
    | cons x l => cases hl x List.mem_cons_self
  | cons p places ih =>
    obtain ⟨hp, hplaces⟩ := List.nodup_cons.mp hplaces
    have hrest : (places.flatMap fun q => l.filter (f · = q)) =
        places.flatMap fun q => (l.filter (f · ≠ p)).filter (f · = q) := by
      apply List.flatMap_congr
      intro q hq
      rw [List.filter_filter]
      apply List.filter_congr
      intro x _
      by_cases hx : f x = q
      · have hne : q ≠ p := fun heq => hp (heq ▸ hq)
        simp [hx, hne]
      · simp [hx]
    have hmem : ∀ x ∈ l.filter (f · ≠ p), f x ∈ places := by
      intro x hx
      obtain ⟨hx, hne⟩ := List.mem_filter.mp hx
      exact (List.mem_cons.mp (hl x hx)).resolve_left (of_decide_eq_true hne)
    rw [List.flatMap_cons, hrest]
    apply ((ih hplaces hmem).append_left _).trans
    have hsplit := List.filter_append_perm (fun x => decide (f x = p)) l
    simpa using hsplit

end Preorder

end RajNX.Forest
