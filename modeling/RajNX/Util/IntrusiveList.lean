import RajNX.Lib.Ring

/-!
# Intrusive lists

`IntrusiveListNode`, `IntrusiveListImpl` and `IntrusiveList` of `util_intrusive_list.hpp`. All lists and all nodes are
held in one set of links, so that a node can be taken from one list and linked into another one. A list is the ring
through its root node; `Agrees` says which sequence it stands for, and `reachable_agrees` that every run of operations
ends where the same operations on plain sequences end.

An iterator is the address of a node. The end of a list is its root node.
-/

namespace RajNX.Util

open Links

/-! ## Nodes -/

namespace IntrusiveListNode

section Ops

variable {P : Type} [DecidableEq P]

/-- `IntrusiveListNode::IsLinked`. -/
def isLinked (h : Links P) (this : P) : Bool := h.next this ≠ this

/-- `IntrusiveListNode::SplicePrev`. -/
def splicePrev (h : Links P) (this first last : P) : Links P :=
  let last_prev := h.prev last
  let h := h.setPrev first (h.prev this)
  let h := h.setNext (h.prev this) first
  let h := h.setNext last_prev this
  h.setPrev this last_prev

/-- `IntrusiveListNode::LinkPrev`. A linked node aborts. -/
def linkPrev (h : Links P) (this node : P) : Option (Links P) :=
  if isLinked h node then none else some (splicePrev h this node node)

/-- `IntrusiveListNode::Unlink` from a next node. -/
def unlinkLast (h : Links P) (this last : P) : Links P :=
  let last_prev := h.prev last
  let h := h.setNext (h.prev this) last
  let h := h.setPrev last (h.prev this)
  let h := h.setNext last_prev this
  h.setPrev this last_prev

/-- `IntrusiveListNode::Unlink`. -/
def unlink (h : Links P) (this : P) : Links P := unlinkLast h this (h.next this)

end Ops

section Ring

variable {P : Type} [DecidableEq P] {h : Links P} {pos node x : P} {xs : List P}

lemma isLinked_eq_false_iff : isLinked h node = false ↔ h.next node = node := by
  rw [isLinked, decide_eq_false_iff_not, not_not]

lemma next_splicePrev (hprev : h.prev node = node) (hne : pos ≠ node) :
    (splicePrev h pos node node).next x = if x = node then pos else if x = h.prev pos then node else h.next x := by
  simp [splicePrev, hprev, hne]

lemma prev_splicePrev (hprev : h.prev node = node) :
    (splicePrev h pos node node).prev x = if x = pos then node else if x = node then h.prev pos else h.prev x := by
  simp [splicePrev, hprev]

lemma next_unlink (hback : h.prev (h.next node) = node) :
    (unlink h node).next x = if x = node then node else if x = h.prev node then h.next node else h.next x := by
  simp [unlink, unlinkLast, hback]

lemma prev_unlink (hback : h.prev (h.next node) = node) :
    (unlink h node).prev x = if x = node then node else if x = h.next node then h.prev node else h.prev x := by
  simp [unlink, unlinkLast, hback]

/-- A node alone is linked before the first node of a ring, that is behind the last one. -/
lemma ring_splicePrev (hring : h.Ring pos xs) (halone : h.Ring node []) (hnode : node ∉ pos :: xs) :
    (splicePrev h pos node node).Ring pos (xs ++ [node]) := by
  have hprev := (ring_nil_iff.mp halone).2
  have hpos : pos ≠ node := fun heq => hnode (heq ▸ .head _)
  have hlast : h.prev pos ≠ node := fun heq => hnode (heq ▸ hring.prev_mem)
  apply hring.insert hnode
  · rw [next_splicePrev hprev hpos, if_neg hlast, if_pos rfl]
  · rw [prev_splicePrev hprev, if_neg (Ne.symm hpos), if_pos rfl]
  · rw [next_splicePrev hprev hpos, if_pos rfl]
  · rw [prev_splicePrev hprev, if_pos rfl]
  · intro x hx hxnode
    rw [next_splicePrev hprev hpos, if_neg hxnode, if_neg hx]
  · intro x hx hxnode
    rw [prev_splicePrev hprev, if_neg hx, if_neg hxnode]

/-- Linking a node before another one touches nothing but the ring and the node. -/
lemma splicePrev_other (hring : h.Ring pos xs) (halone : h.Ring node []) (hnode : node ∉ pos :: xs) (hxnode : x ≠ node)
    (hx : x ∉ pos :: xs) :
    (splicePrev h pos node node).next x = h.next x ∧ (splicePrev h pos node node).prev x = h.prev x := by
  have hprev := (ring_nil_iff.mp halone).2
  have hpos : pos ≠ node := fun heq => hnode (heq ▸ .head _)
  have hxpos : x ≠ pos := fun heq => hx (heq ▸ .head _)
  have hxlast : x ≠ h.prev pos := fun heq => hx (heq ▸ hring.prev_mem)
  constructor
  · rw [next_splicePrev hprev hpos, if_neg hxnode, if_neg hxlast]
  · rw [prev_splicePrev hprev, if_neg hxpos, if_neg hxnode]

/-- What remains of a ring without its first node. -/
lemma ring_unlink (hring : h.Ring node (x :: xs)) : (unlink h node).Ring x xs := by
  obtain ⟨hnext, hback⟩ := hring.linked_head
  have hprev := (List.nodup_cons.mp hring.nodup).1
  have hx : x ≠ node := fun heq => hprev (heq ▸ .head _)
  have hlast : h.prev node ≠ node := by
    obtain ⟨ws, hws⟩ := hring.exists_last_cons
    have hmem : h.prev node ∈ x :: xs := hws ▸ List.mem_append_right _ (.head _)
    exact fun heq => hprev (heq ▸ hmem)
  rw [← hnext] at hback
  apply hring.remove
  · rw [next_unlink hback, if_neg hlast, if_pos rfl, hnext]
  · rw [prev_unlink hback, if_neg hx, if_pos hnext.symm]
  · intro y hy hynode
    rw [next_unlink hback, if_neg hynode, if_neg hy]
  · intro y hy hynode
    rw [prev_unlink hback, if_neg hynode, if_neg (hnext.symm ▸ hy)]

/-- An unlinked node is alone. -/
lemma ring_unlink_self (hring : h.Ring node (x :: xs)) : (unlink h node).Ring node [] := by
  obtain ⟨hnext, hback⟩ := hring.linked_head
  rw [← hnext] at hback
  rw [ring_nil_iff, next_unlink hback, prev_unlink hback, if_pos rfl]
  exact ⟨rfl, if_pos rfl⟩

/-- Unlinking a node touches nothing but its ring. -/
lemma unlink_other {y : P} (hring : h.Ring node (x :: xs)) (hy : y ∉ node :: x :: xs) :
    (unlink h node).next y = h.next y ∧ (unlink h node).prev y = h.prev y := by
  obtain ⟨hnext, hback⟩ := hring.linked_head
  have hynode : y ≠ node := fun heq => hy (heq ▸ .head _)
  have hynext : y ≠ h.next node := fun heq => hy (heq ▸ hnext ▸ .tail _ (.head _))
  have hylast : y ≠ h.prev node := fun heq => hy (heq ▸ hring.prev_mem)
  rw [← hnext] at hback
  constructor
  · rw [next_unlink hback, if_neg hynode, if_neg hylast]
  · rw [prev_unlink hback, if_neg hynode, if_neg hynext]

/-- The first node of a ring is linked iff there are others. -/
lemma isLinked_of_ring (hring : h.Ring node xs) : isLinked h node = !xs.isEmpty := by
  cases xs with
  | nil => exact isLinked_eq_false_iff.mpr (ring_nil_iff.mp hring).1
  | cons x xs =>
    refine decide_eq_true fun heq => (List.nodup_cons.mp hring.nodup).1 ?_
    rw [hring.linked_head.1] at heq
    exact heq ▸ .head _

end Ring

end IntrusiveListNode

/-! ## Lists -/

/-- The node of a list or of one of its members. -/
inductive NodePtr (L N : Type) where
  | root (l : L)
  | node (n : N)
deriving DecidableEq

/-- `IntrusiveListNode::IntrusiveListNode`, of every node. -/
def constructed {P : Type} : Links P := ⟨id, id⟩

namespace IntrusiveList

open IntrusiveListNode

variable {L N : Type} [DecidableEq L] [DecidableEq N]

section

variable (h : Links (NodePtr L N)) (l : L)

/-- `IntrusiveList::begin`. -/
def begin : NodePtr L N := h.next (.root l)

/-- `IntrusiveList::empty`. -/
def empty : Bool := !isLinked h (.root l)

/-- `IntrusiveList::push_back`. -/
def pushBack (n : N) : Option (Links (NodePtr L N)) := linkPrev h (.root l) (.node n)

/-- `IntrusiveList::push_front`, which calls `push_back`. -/
def pushFront (n : N) : Option (Links (NodePtr L N)) := pushBack h l n

/-- `IntrusiveListImpl::pop_front`. -/
def implPopFront : Links (NodePtr L N) := unlink h (h.next (.root l))

/-- `IntrusiveList::pop_front`. An empty list aborts. -/
def popFront : Option (Links (NodePtr L N)) :=
  if empty h l then none else some (implPopFront h l)

/-- `IntrusiveList::pop_back`. An empty list aborts. -/
def popBack : Option (Links (NodePtr L N)) :=
  if empty h l then none else some (unlink h (h.prev (.root l)))

/-- `IntrusiveList::insert`, with the iterator it returns. -/
def insert (pos : NodePtr L N) (n : N) : Option (NodePtr L N × Links (NodePtr L N)) :=
  (linkPrev h pos (.node n)).map (.node n, ·)

/-- `IntrusiveList::erase`, with the iterator it returns. -/
def erase (pos : NodePtr L N) : NodePtr L N × Links (NodePtr L N) :=
  if pos = .root l then (.root l, h) else (h.next pos, unlink h pos)

end

/-- `IntrusiveList::clear`. -/
def clear (l : L) : Nat → Links (NodePtr L N) → Option (Links (NodePtr L N))
  | fuel, h =>
    if empty h l then some h
    else
      match fuel with
      | 0 => none
      | fuel + 1 => clear l fuel (implPopFront h l)

/-- The nodes from `begin` to `end`. -/
def forwards (h : Links (NodePtr L N)) (l : L) (fuel : Nat) : Option (List (NodePtr L N)) :=
  h.walk (.root l) fuel (begin h l)

/-- The nodes from `rbegin` to `rend`. A reverse iterator stands behind the node it refers to. -/
def backwards (h : Links (NodePtr L N)) (l : L) (fuel : Nat) : Option (List (NodePtr L N)) :=
  h.walkBack (begin h l) fuel (.root l)

/-- `IntrusiveList::size`, the distance from `begin` to `end`. -/
def size (h : Links (NodePtr L N)) (l : L) (fuel : Nat) : Option Nat := (forwards h l fuel).map List.length

/-- A call of a member function. -/
inductive Op (L N : Type) where
  | pushBack (l : L) (n : N)
  | insert (l : L) (pos : NodePtr L N) (n : N)
  | erase (l : L) (pos : NodePtr L N)
  | popFront (l : L)
  | popBack (l : L)
  | clear (l : L)

/-- The links after a call. Nothing if it aborts. -/
def Op.call (fuel : Nat) (h : Links (NodePtr L N)) : Op L N → Option (Links (NodePtr L N))
  | .pushBack l n => IntrusiveList.pushBack h l n
  | .insert _ pos n => (IntrusiveList.insert h pos n).map Prod.snd
  | .erase l pos => some (IntrusiveList.erase h l pos).2
  | .popFront l => IntrusiveList.popFront h l
  | .popBack l => IntrusiveList.popBack h l
  | .clear l => IntrusiveList.clear l fuel h

/-- The links after a sequence of calls. -/
def callAll (fuel : Nat) (h : Links (NodePtr L N)) (ops : List (Op L N)) : Option (Links (NodePtr L N)) :=
  ops.foldlM (Op.call fuel) h

/-! ## Sequences -/

/-- A call on plain sequences. A node to insert is in no list, a list to pop from is not empty, and an iterator
belongs to the list it is used with. -/
inductive SeqCall (s : L → List N) : Op L N → (L → List N) → Prop where
  | pushBack {l n} (hfresh : ∀ l, n ∉ s l) : SeqCall s (.pushBack l n) (Function.update s l (s l ++ [n]))
  | insertEnd {l n} (hfresh : ∀ l, n ∉ s l) :
    SeqCall s (.insert l (.root l) n) (Function.update s l (s l ++ [n]))
  | insert {l n x xs ys} (hfresh : ∀ l, n ∉ s l) (hlist : s l = xs ++ x :: ys) :
    SeqCall s (.insert l (.node x) n) (Function.update s l (xs ++ n :: x :: ys))
  | eraseEnd {l} : SeqCall s (.erase l (.root l)) s
  | erase {l x xs ys} (hlist : s l = xs ++ x :: ys) :
    SeqCall s (.erase l (.node x)) (Function.update s l (xs ++ ys))
  | popFront {l x xs} (hlist : s l = x :: xs) : SeqCall s (.popFront l) (Function.update s l xs)
  | popBack {l x xs} (hlist : s l = xs ++ [x]) : SeqCall s (.popBack l) (Function.update s l xs)
  | clear {l} : SeqCall s (.clear l) (Function.update s l [])

/-- The iterators of a call belong to the list they are used with. -/
def Op.Positioned (s : L → List N) : Op L N → Prop
  | .insert l pos _ | .erase l pos => pos = .root l ∨ ∃ x ∈ s l, pos = .node x
  | _ => True

/-- A sequence of calls on plain sequences. -/
inductive SeqRun : (L → List N) → List (Op L N) → (L → List N) → Prop where
  | nil {s} : SeqRun s [] s
  | cons {s s' s'' op ops} (hcall : SeqCall s op s') (hrun : SeqRun s' ops s'') : SeqRun s (op :: ops) s''

/-- Every list is a ring through its root node, no node is in two lists, and a node in none is linked to itself. -/
structure Agrees (h : Links (NodePtr L N)) (s : L → List N) : Prop where
  ring (l : L) : h.Ring (.root l) ((s l).map .node)
  once {l l' : L} {n : N} : n ∈ s l → n ∈ s l' → l = l'
  alone {n : N} : (∀ l, n ∉ s l) → h.Ring (.node n) []

/-! ## Agreement -/

section Members

variable {L N : Type} {l l' : L} {n : N} {xs : List N}

lemma node_injective : Function.Injective (NodePtr.node : N → NodePtr L N) := fun _ _ => NodePtr.node.inj

lemma mem_ring_node : NodePtr.node n ∈ NodePtr.root l :: xs.map .node ↔ n ∈ xs := by
  rw [List.mem_cons, List.mem_map_of_injective node_injective]
  exact or_iff_right nofun

lemma mem_ring_root : NodePtr.root l' ∈ NodePtr.root l :: xs.map (NodePtr.node (N := N)) ↔ l' = l := by
  rw [List.mem_cons]
  constructor
  · rintro (heq | hmem)
    · exact NodePtr.root.inj heq
    · obtain ⟨_, -, heq⟩ := List.mem_map.mp hmem
      cases heq
  · rintro rfl
    exact .inl rfl

lemma Agrees.constructed : Agrees (L := L) (N := N) constructed fun _ => [] where
  ring _ := ring_nil_iff.mpr ⟨rfl, rfl⟩
  once h := absurd h List.not_mem_nil
  alone _ := ring_nil_iff.mpr ⟨rfl, rfl⟩

end Members

section Agreement

variable {h h' : Links (NodePtr L N)} {s s' : L → List N} {l l' : L} {n x : N} {xs ys : List N}

/-- One list is changed. The links outside its old and its new ring are the same. -/
lemma Agrees.update (hs : Agrees h s) (hring : h'.Ring (.root l) (ys.map .node))
    (hfresh : ∀ n ∈ ys, n ∈ s l ∨ ∀ l, n ∉ s l) (hout : ∀ n ∈ s l, n ∉ ys → h'.Ring (.node n) [])
    (hsame : ∀ p, p ∉ NodePtr.root l :: (s l).map .node → p ∉ NodePtr.root l :: ys.map .node →
      h'.next p = h.next p ∧ h'.prev p = h.prev p) : Agrees h' (Function.update s l ys) := by
  have hother {l' : L} {n : N} (hne : l' ≠ l) (hn : n ∈ s l') : n ∉ s l ∧ n ∉ ys := by
    refine ⟨fun hmem => hne (hs.once hn hmem), fun hmem => ?_⟩
    rcases hfresh n hmem with hmem | hnone
    · exact hne (hs.once hn hmem)
    · exact hnone l' hn
  have hmem {l' : L} {n : N} (hn : n ∈ Function.update s l ys l') : l' = l ∧ n ∈ ys ∨ l' ≠ l ∧ n ∈ s l' := by
    rcases eq_or_ne l' l with rfl | hne
    · rw [Function.update_self] at hn
      exact .inl ⟨rfl, hn⟩
    · rw [Function.update_of_ne hne] at hn
      exact .inr ⟨hne, hn⟩
  constructor
  · intro l'
    rcases eq_or_ne l' l with rfl | hne
    · rw [Function.update_self]
      exact hring
    · rw [Function.update_of_ne hne]
      refine (hs.ring l').congr fun p hp => ?_
      cases p with
      | root l'' =>
        obtain rfl := mem_ring_root.mp hp
        exact hsame _ (mt mem_ring_root.mp hne) (mt mem_ring_root.mp hne)
      | node n =>
        obtain ⟨hold, hnew⟩ := hother hne (mem_ring_node.mp hp)
        exact hsame _ (mt mem_ring_node.mp hold) (mt mem_ring_node.mp hnew)
  · intro l₁ l₂ n hn₁ hn₂
    rcases hmem hn₁ with ⟨rfl, hys₁⟩ | ⟨hne₁, hold₁⟩
    · rcases hmem hn₂ with ⟨rfl, -⟩ | ⟨hne₂, hold₂⟩
      · rfl
      · exact absurd hys₁ (hother hne₂ hold₂).2
    · rcases hmem hn₂ with ⟨rfl, hys₂⟩ | ⟨-, hold₂⟩
      · exact absurd hys₂ (hother hne₁ hold₁).2
      · exact hs.once hold₁ hold₂
  · intro n hnone
    have hys : n ∉ ys := by
      have := hnone l
      rwa [Function.update_self] at this
    by_cases hn : n ∈ s l
    · exact hout n hn hys
    · have hall : ∀ l', n ∉ s l' := by
        intro l'
        rcases eq_or_ne l' l with rfl | hne
        · exact hn
        · have := hnone l'
          rwa [Function.update_of_ne hne] at this
      obtain ⟨hnext, hprev⟩ := hsame _ (mt mem_ring_node.mp hn) (mt mem_ring_node.mp hys)
      rw [ring_nil_iff, hnext, hprev]
      exact ring_nil_iff.mp (hs.alone hall)

/-- A node in no list is linked before a node of a list. -/
lemma Agrees.linkPrev {pos : NodePtr L N} {ps : List (NodePtr L N)} (hs : Agrees h s) (hfresh : ∀ l, n ∉ s l)
    (hring : h.Ring pos ps) (hps : ∀ p, p ∈ pos :: ps ↔ p ∈ NodePtr.root l :: (s l).map .node)
    (hys : ∀ m, m ∈ ys ↔ m = n ∨ m ∈ s l)
    (hnew : ∀ h' : Links (NodePtr L N), h'.Ring pos (ps ++ [.node n]) → h'.Ring (.root l) (ys.map .node)) :
    ∃ h', linkPrev h pos (.node n) = some h' ∧ Agrees h' (Function.update s l ys) := by
  have halone := hs.alone hfresh
  have hnode : NodePtr.node n ∉ pos :: ps := fun hmem => hfresh l (mem_ring_node.mp ((hps _).mp hmem))
  have hunlinked := isLinked_eq_false_iff.mpr (ring_nil_iff.mp halone).1
  refine ⟨splicePrev h pos (.node n) (.node n), if_neg (Bool.eq_false_iff.mp hunlinked), ?_⟩
  apply hs.update
  · exact hnew _ (ring_splicePrev hring halone hnode)
  · intro m hm
    rcases (hys m).mp hm with rfl | hm
    · exact .inr hfresh
    · exact .inl hm
  · exact fun m hm hnot => absurd ((hys m).mpr (.inr hm)) hnot
  · intro p hold hp
    have hpn : p ≠ .node n := by
      rintro rfl
      exact hp (mem_ring_node.mpr ((hys n).mpr (.inl rfl)))
    exact splicePrev_other hring halone hnode hpn (mt (hps p).mp hold)

lemma Agrees.linkRoot (hs : Agrees h s) (hfresh : ∀ l, n ∉ s l) :
    ∃ h', IntrusiveListNode.linkPrev h (.root l) (.node n) = some h' ∧
      Agrees h' (Function.update s l (s l ++ [n])) := by
  apply hs.linkPrev hfresh (hs.ring l) fun _ => Iff.rfl
  · intro m
    rw [List.mem_append, List.mem_singleton, or_comm]
  · intro h' hring
    rwa [List.map_append]

lemma Agrees.linkNode (hs : Agrees h s) (hfresh : ∀ l, n ∉ s l) (hlist : s l = xs ++ x :: ys) :
    ∃ h', IntrusiveListNode.linkPrev h (.node x) (.node n) = some h' ∧
      Agrees h' (Function.update s l (xs ++ n :: x :: ys)) := by
  have hring := hs.ring l
  rw [hlist, List.map_append, List.map_cons] at hring
  apply hs.linkPrev hfresh hring.rotate
  · intro p
    rw [hlist]
    simp only [List.map_append, List.map_cons, List.mem_cons, List.mem_append]
    tauto
  · intro m
    rw [hlist]
    simp only [List.mem_cons, List.mem_append]
    tauto
  · intro h' hring'
    rw [List.append_assoc, List.cons_append] at hring'
    have hback := hring'.rotate
    rw [List.append_assoc] at hback
    rwa [List.map_append]

/-- A node of a list is unlinked. -/
lemma Agrees.unlink (hs : Agrees h s) (hlist : s l = xs ++ x :: ys) :
    Agrees (unlink h (.node x)) (Function.update s l (xs ++ ys)) := by
  have hring := hs.ring l
  rw [hlist, List.map_append, List.map_cons] at hring
  obtain ⟨y, ps, hps, hnew⟩ : ∃ y ps, (ys.map NodePtr.node ++ NodePtr.root l :: xs.map .node) = y :: ps ∧
      ∀ h' : Links (NodePtr L N), h'.Ring y ps → h'.Ring (.root l) ((xs ++ ys).map .node) := by
    cases ys with
    | nil => exact ⟨_, _, rfl, fun h' hring' => by rwa [List.append_nil]⟩
    | cons y ys =>
      refine ⟨_, _, rfl, fun h' hring' => ?_⟩
      have hback := hring'.rotate
      rwa [List.map_append]
  have hat := hps ▸ hring.rotate
  apply hs.update
  · exact hnew _ (ring_unlink hat)
  · intro m hm
    left
    rw [hlist]
    simp only [List.mem_cons, List.mem_append] at hm ⊢
    tauto
  · intro m hm hnot
    obtain rfl : m = x := by
      rw [hlist] at hm
      simp only [List.mem_cons, List.mem_append] at hm hnot
      tauto
    exact ring_unlink_self hat
  · intro p hold hp
    apply unlink_other hat
    rw [← hps]
    rw [hlist] at hold
    simp only [List.map_append, List.map_cons, List.mem_cons, List.mem_append] at hold ⊢
    tauto

/-- A node is linked iff it is in a list. -/
lemma Agrees.isLinked_iff (hs : Agrees h s) : isLinked h (.node n) = true ↔ ∃ l, n ∈ s l := by
  constructor
  · intro hlinked
    by_contra hnone
    rw [isLinked_of_ring (hs.alone (not_exists.mp hnone))] at hlinked
    cases hlinked
  · rintro ⟨l, hn⟩
    obtain ⟨xs, ys, hlist⟩ := List.append_of_mem hn
    have hring := hs.ring l
    rw [hlist, List.map_append, List.map_cons] at hring
    rw [isLinked_of_ring hring.rotate, Bool.not_eq_true', List.isEmpty_eq_false_iff]
    exact List.append_ne_nil_of_right_ne_nil _ (List.cons_ne_nil _ _)

lemma Agrees.empty_eq (hs : Agrees h s) : empty h l = (s l).isEmpty := by
  rw [empty, isLinked_of_ring (hs.ring l), Bool.not_not, List.isEmpty_map]

variable {fuel : Nat}

lemma Agrees.forwards (hs : Agrees h s) (hfuel : (s l).length ≤ fuel) : forwards h l fuel = some ((s l).map .node) :=
  (hs.ring l).walk (by rwa [List.length_map])

lemma Agrees.backwards (hs : Agrees h s) (hfuel : (s l).length ≤ fuel) :
    backwards h l fuel = some ((s l).reverse.map .node) := by
  rw [List.map_reverse]
  exact (hs.ring l).walkBack (by rwa [List.length_map])

lemma Agrees.size (hs : Agrees h s) (hfuel : (s l).length ≤ fuel) : size h l fuel = some (s l).length := by
  rw [IntrusiveList.size, hs.forwards hfuel, Option.map_some, List.length_map]

/-- The first node of a list is taken out of it. -/
lemma Agrees.implPopFront (hs : Agrees h s) (hlist : s l = x :: xs) :
    Agrees (implPopFront h l) (Function.update s l xs) := by
  have hring := hs.ring l
  rw [hlist, List.map_cons] at hring
  rw [IntrusiveList.implPopFront, hring.linked_head.1]
  have hlist' : s l = [] ++ x :: xs := hlist
  exact hs.unlink hlist'

/-- An empty list is cleared already. -/
lemma Agrees.clear_nil (hs : Agrees h s) (hlist : s l = []) :
    ∃ h', clear l fuel h = some h' ∧ Agrees h' (Function.update s l []) := by
  have hempty : empty h l = true := by rw [hs.empty_eq, hlist, List.isEmpty_nil]
  rw [← hlist, Function.update_eq_self]
  refine ⟨h, ?_, hs⟩
  unfold IntrusiveList.clear
  exact if_pos hempty

lemma Agrees.clear (hs : Agrees h s) (hfuel : (s l).length ≤ fuel) :
    ∃ h', clear l fuel h = some h' ∧ Agrees h' (Function.update s l []) := by
  induction fuel generalizing h s with
  | zero => exact hs.clear_nil (List.length_eq_zero_iff.mp (Nat.le_zero.mp hfuel))
  | succ fuel ih =>
    cases hlist : s l with
    | nil => exact hs.clear_nil hlist
    | cons x xs =>
      have hempty : empty h l = false := by rw [hs.empty_eq, hlist, List.isEmpty_cons]
      have hpop := hs.implPopFront hlist
      rw [hlist, List.length_cons] at hfuel
      obtain ⟨h', hclear, hs'⟩ := ih hpop (by rw [Function.update_self]; exact Nat.le_of_succ_le_succ hfuel)
      rw [Function.update_idem] at hs'
      refine ⟨h', ?_, hs'⟩
      unfold IntrusiveList.clear
      rw [if_neg (Bool.eq_false_iff.mp hempty)]
      exact hclear

omit [DecidableEq L] [DecidableEq N] in
/-- The last node of a list. -/
lemma Agrees.prev_root (hs : Agrees h s) (hlist : s l = xs ++ [x]) : h.prev (.root l) = .node x := by
  obtain ⟨ws, hws, -⟩ := (hs.ring l).exists_last
  rw [hlist, List.map_append, ← List.cons_append] at hws
  exact (List.singleton_inj.mp (List.append_inj_right' hws rfl)).symm

/-- A call on the links does what it does on the sequences. -/
lemma Agrees.call {op : Op L N} (hs : Agrees h s) (hcall : SeqCall s op s')
    (hfuel : ∀ l, (s l).length ≤ fuel) : ∃ h', op.call fuel h = some h' ∧ Agrees h' s' := by
  cases hcall with
  | pushBack hfresh => exact hs.linkRoot hfresh
  | insertEnd hfresh =>
    obtain ⟨h', hlink, hs'⟩ := hs.linkRoot hfresh
    exact ⟨h', by rw [Op.call, IntrusiveList.insert, hlink]; rfl, hs'⟩
  | insert hfresh hlist =>
    obtain ⟨h', hlink, hs'⟩ := hs.linkNode hfresh hlist
    exact ⟨h', by rw [Op.call, IntrusiveList.insert, hlink]; rfl, hs'⟩
  | eraseEnd => exact ⟨h, by rw [Op.call, IntrusiveList.erase, if_pos rfl], hs⟩
  | erase hlist => exact ⟨_, by rw [Op.call, IntrusiveList.erase, if_neg nofun], hs.unlink hlist⟩
  | @popFront l x xs hlist =>
    have hempty : IntrusiveList.empty h l = false := by rw [hs.empty_eq, hlist, List.isEmpty_cons]
    exact ⟨_, if_neg (Bool.eq_false_iff.mp hempty), hs.implPopFront hlist⟩
  | @popBack l x xs hlist =>
    have hempty : IntrusiveList.empty h l = false := by
      rw [hs.empty_eq, hlist, List.isEmpty_eq_false_iff]
      exact List.append_ne_nil_of_right_ne_nil _ (List.cons_ne_nil _ _)
    have hpop := hs.unlink hlist
    rw [List.append_nil] at hpop
    refine ⟨_, if_neg (Bool.eq_false_iff.mp hempty), ?_⟩
    rwa [hs.prev_root hlist]
  | clear => exact hs.clear (hfuel _)

omit [DecidableEq N] in
lemma length_update_le {k : Nat} (hk : ∀ l, (s l).length ≤ k) (hys : ys.length ≤ k) (l' : L) :
    (Function.update s l ys l').length ≤ k := by
  rcases eq_or_ne l' l with rfl | hne
  · rwa [Function.update_self]
  · rw [Function.update_of_ne hne]
    exact hk l'

omit [DecidableEq N] in
/-- A call makes a list at most one longer. -/
lemma SeqCall.length_le {op : Op L N} {k : Nat} (hcall : SeqCall s op s') (hk : ∀ l, (s l).length ≤ k) (l : L) :
    (s' l).length ≤ k + 1 := by
  have hk' (l : L) : (s l).length ≤ k + 1 := (hk l).trans (Nat.le_succ k)
  cases hcall with
  | @pushBack l _ _ | @insertEnd l _ _ =>
    apply length_update_le hk'
    rw [List.length_append, List.length_singleton]
    exact Nat.succ_le_succ (hk l)
  | @insert l _ _ _ _ _ hlist | @erase l _ _ _ hlist | @popFront l _ _ hlist | @popBack l _ _ hlist =>
    have hlen := hk l
    apply length_update_le hk'
    rw [hlist] at hlen
    simp only [List.length_append, List.length_cons] at hlen ⊢
    omega
  | eraseEnd => exact hk' l
  | clear => exact length_update_le hk' (Nat.zero_le _) l

lemma Agrees.callAll {ops : List (Op L N)} {fuel k : Nat} (hs : Agrees h s) (hrun : SeqRun s ops s')
    (hk : ∀ l, (s l).length ≤ k) (hfuel : k + ops.length ≤ fuel) :
    ∃ h', callAll fuel h ops = some h' ∧ Agrees h' s' := by
  induction hrun generalizing h k with
  | nil => exact ⟨h, rfl, hs⟩
  | cons hcall hrun ih =>
    rw [List.length_cons] at hfuel
    have hlen (l : L) : _ ≤ fuel := (hk l).trans (by omega)
    obtain ⟨h₁, hcall₁, hs₁⟩ := hs.call hcall hlen
    obtain ⟨h₂, hrun₂, hs₂⟩ := ih hs₁ (k := k + 1) (hcall.length_le hk) (by omega)
    refine ⟨h₂, ?_, hs₂⟩
    rw [IntrusiveList.callAll, List.foldlM_cons, hcall₁]
    exact hrun₂

/-- A call that passes the checks, with an iterator of the list it is used with, is a call on the sequences. -/
theorem Agrees.exists_seqCall_iff {op : Op L N} (hs : Agrees h s) (hpos : op.Positioned s)
    (hfuel : ∀ l, (s l).length ≤ fuel) : (∃ s', SeqCall s op s') ↔ (op.call fuel h).isSome := by
  have hfresh {pos : NodePtr L N} {n : N} (hlink : (IntrusiveListNode.linkPrev h pos (.node n)).isSome) (l : L) :
      n ∉ s l := by
    intro hmem
    rw [IntrusiveListNode.linkPrev, if_pos (hs.isLinked_iff.mpr ⟨l, hmem⟩)] at hlink
    cases hlink
  have hnonempty {l : L} {h' : Links (NodePtr L N)} (hpop : (if empty h l then none else some h').isSome) :
      s l ≠ [] := by
    rintro hlist
    rw [hs.empty_eq, hlist, if_pos List.isEmpty_nil] at hpop
    cases hpop
  constructor
  · rintro ⟨s', hcall⟩
    obtain ⟨h', hsome, -⟩ := hs.call hcall hfuel
    exact Option.isSome_of_eq_some hsome
  · intro hsome
    cases op with
    | pushBack l n => exact ⟨_, .pushBack (hfresh hsome)⟩
    | insert l pos n =>
      rw [Op.call, IntrusiveList.insert, Option.isSome_map, Option.isSome_map] at hsome
      rcases hpos with rfl | ⟨x, hx, rfl⟩
      · exact ⟨_, .insertEnd (hfresh hsome)⟩
      · obtain ⟨xs, ys, hlist⟩ := List.append_of_mem hx
        exact ⟨_, .insert (hfresh hsome) hlist⟩
    | erase l pos =>
      rcases hpos with rfl | ⟨x, hx, rfl⟩
      · exact ⟨_, .eraseEnd⟩
      · obtain ⟨xs, ys, hlist⟩ := List.append_of_mem hx
        exact ⟨_, .erase hlist⟩
    | popFront l =>
      obtain ⟨x, xs, hlist⟩ := List.exists_cons_of_ne_nil (hnonempty hsome)
      exact ⟨_, .popFront hlist⟩
    | popBack l =>
      obtain ⟨xs, x, hlist⟩ := (List.eq_nil_or_concat' (s l)).resolve_left (hnonempty hsome)
      exact ⟨_, .popBack hlist⟩
    | clear l => exact ⟨_, .clear⟩

/-- A new node passes; a linked node and `pop_front` of an empty list are no calls, and the checks stop them. -/
theorem Agrees.exists_seqCall_iff_example :
    (∃ s', SeqCall (Function.update (fun _ => []) true [1]) (.pushBack false 2) s') ∧
      (¬∃ s', SeqCall (Function.update (fun _ => []) true [1]) (.pushBack false 1) s') ∧
      ¬∃ s', SeqCall (Function.update (fun _ => ([] : List Nat)) true [1]) (.popFront false) s' := by
  have hrun : SeqRun (fun _ : Bool => ([] : List Nat)) [.pushBack true 1] (Function.update (fun _ => []) true [1]) :=
    .cons (.pushBack fun _ => List.not_mem_nil) .nil
  obtain ⟨h, hcall, hs⟩ := Agrees.constructed.callAll hrun (fun _ => Nat.le_refl 0) (Nat.le_refl (0 + 1))
  have hlen (l : Bool) : (Function.update (fun _ => ([] : List Nat)) true [1] l).length ≤ 1 := by
    revert l
    decide
  have hchecks (op : Op Bool Nat) :
      ((IntrusiveList.callAll 1 Util.constructed [.pushBack true 1]).bind (op.call 1)).isSome =
      (op.call 1 h).isSome := by
    rw [hcall, Option.bind_some]
  have hpushed (n : Nat) : (Op.pushBack false n : Op Bool Nat).Positioned (Function.update (fun _ => []) true [1]) :=
    trivial
  have hpopped : (Op.popFront false : Op Bool Nat).Positioned (Function.update (fun _ => []) true [1]) := trivial
  rw [hs.exists_seqCall_iff (hpushed 2) hlen, hs.exists_seqCall_iff (hpushed 1) hlen,
    hs.exists_seqCall_iff hpopped hlen, ← hchecks, ← hchecks, ← hchecks]
  decide

/-- `push_front` puts the node where `push_back` puts it. -/
theorem Agrees.pushFront (hs : Agrees h s) (hfresh : ∀ l, n ∉ s l) :
    ∃ h', pushFront h l n = some h' ∧ Agrees h' (Function.update s l (s l ++ [n])) :=
  hs.linkRoot hfresh

end Agreement

/-! ## Runs -/

section Runs

variable {ops : List (Op L N)} {s : L → List N} {fuel : Nat}

/-- Calls on lists and nodes as they are constructed do what the same calls do on empty sequences. -/
theorem reachable_agrees (hrun : SeqRun (fun _ => []) ops s) (hfuel : ops.length ≤ fuel) :
    ∃ h, callAll fuel constructed ops = some h ∧
      (∀ l, h.Ring (.root l) ((s l).map .node)) ∧
      (∀ n l l', n ∈ s l → n ∈ s l' → l = l') ∧
      (∀ n, isLinked h (.node n) = true ↔ ∃ l, n ∈ s l) ∧
      ∀ l, empty h l = (s l).isEmpty ∧ ∀ fuel, (s l).length ≤ fuel →
        forwards h l fuel = some ((s l).map .node) ∧ backwards h l fuel = some ((s l).reverse.map .node) ∧
        size h l fuel = some (s l).length := by
  have hfuel' : 0 + ops.length ≤ fuel := by rwa [Nat.zero_add]
  obtain ⟨h, hcall, hs⟩ := Agrees.constructed.callAll hrun (fun _ => Nat.le_refl 0) hfuel'
  refine ⟨h, hcall, hs.ring, fun _ _ _ => hs.once, fun _ => hs.isLinked_iff, fun l => ⟨hs.empty_eq, ?_⟩⟩
  exact fun fuel hlen => ⟨hs.forwards hlen, hs.backwards hlen, hs.size hlen⟩

/-- A node that was popped can be pushed to another list. -/
theorem reachable_agrees_example :
    ∃ h, callAll 4 constructed [.pushBack true 1, .insert true (.node 1) 2, .popBack true, .pushBack false 1] = some h ∧
      forwards h true 1 = some [NodePtr.node 2] ∧ backwards h false 1 = some [NodePtr.node 1] := by
  have hrun : SeqRun (fun _ : Bool => ([] : List Nat))
      [.pushBack true 1, .insert true (.node 1) 2, .popBack true, .pushBack false 1]
      (Function.update (Function.update (Function.update (Function.update (fun _ => []) true [1]) true [2, 1]) true [2])
        false [1]) := by
    refine .cons (.pushBack fun _ => List.not_mem_nil) (.cons (.insert ?_ (show _ = [] ++ 1 :: [] from rfl))
      (.cons (.popBack (show _ = [2] ++ [1] from rfl)) (.cons (.pushBack ?_) .nil)))
    · decide
    · decide
  obtain ⟨h, hcall, -, -, -, hlists⟩ := reachable_agrees hrun (Nat.le_refl 4)
  exact ⟨h, hcall, ((hlists true).2 1 (Nat.le_refl 1)).1, ((hlists false).2 1 (Nat.le_refl 1)).2.1⟩

end Runs

end IntrusiveList

end RajNX.Util
