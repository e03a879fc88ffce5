import RajNX.Util.IntrusiveList

/-!
# Pushing to the front and splicing

`push_front` and `splice` of `util_intrusive_list.hpp`, with `LinkNext` and `SpliceNext` of the nodes.

`SpliceNext` reads the link to the next node after it has written it, so that it links the new node to itself.
`push_front` of the wrapper calls `push_back`. `splice_impl` takes the range out by `Unlink`, which makes the node
behind the range point to the node in front of it; `SplicePrev` looks for the end of the range there.
-/

namespace RajNX.Util

open Links

namespace IntrusiveListNode

section Ops

variable {P : Type} [DecidableEq P]

/-- `IntrusiveListNode::SpliceNext`. The link to the next node is read again after it is written. -/
def spliceNext (h : Links P) (this first last : P) : Links P :=
  let last_prev := h.prev last
  let h := h.setPrev first this
  let h := h.setNext this first
  let h := h.setNext last_prev (h.next this)
  h.setPrev (h.next this) last_prev

/-- `IntrusiveListNode::LinkNext`. A linked node aborts. -/
def linkNext (h : Links P) (this node : P) : Option (Links P) :=
  if isLinked h node then none else some (spliceNext h this node node)

end Ops

section Ring

variable {P : Type} [DecidableEq P] {h : Links P} {root node this first last : P} {xs ys zs : List P}

/-- A node that is linked behind another one is linked to itself. -/
lemma spliceNext_self (hprev : h.prev node = node) (hne : this ≠ node) :
    (spliceNext h this node node).next node = node ∧ (spliceNext h this node node).prev node = node := by
  simp [spliceNext, hprev, hne]

/-- The node in front of `this` and the last node of a range that has been taken out go on to the first one. -/
lemma splicePrev_unlinkLast (hfirst : h.prev this ≠ h.prev first) (hlast : h.prev last ≠ h.prev first)
    (hother : h.prev last ≠ h.prev this) (hthis : this ≠ first) (hthis' : this ≠ last) (hne : first ≠ last) :
    (splicePrev (unlinkLast h first last) this first last).next (h.prev this) = first ∧
      (splicePrev (unlinkLast h first last) this first last).next (h.prev last) = first := by
  simp [splicePrev, unlinkLast, hfirst, hlast, hother, hthis, hthis', hne.symm]

/-- A range of another ring that is taken out and linked before a node does not end in the ring of the node. -/
lemma splicePrev_unlinkLast_not_ring {root' : P} (hring : h.Ring root xs) (hring' : h.Ring root' ys)
    (hdisj : List.Disjoint (root :: xs) (root' :: ys)) (hthis : this ∈ root :: xs) (hfirst : first ∈ root' :: ys)
    (hlast : last ∈ root' :: ys) (hne : first ≠ last) (hxs : xs ⊆ zs) (hend : h.prev last ∈ zs) :
    ¬(splicePrev (unlinkLast h first last) this first last).Ring root zs := by
  intro hspliced
  obtain ⟨hback, -⟩ := hring.next_prev hthis
  obtain ⟨hback₁, hnext₁⟩ := hring'.next_prev hfirst
  obtain ⟨hback₂, hnext₂⟩ := hring'.next_prev hlast
  have hfront : h.prev this ≠ h.prev first := fun heq => hdisj hback (heq ▸ hback₁)
  have hother : h.prev last ≠ h.prev this := fun heq => hdisj hback (heq ▸ hback₂)
  have hapart : h.prev last ≠ h.prev first := fun heq => hne (by rw [← hnext₁, ← hnext₂, heq])
  have hthis₁ : this ≠ first := fun heq => hdisj hthis (heq ▸ hfirst)
  have hthis₂ : this ≠ last := fun heq => hdisj hthis (heq ▸ hlast)
  obtain ⟨hgo, hgo'⟩ := splicePrev_unlinkLast hfront hapart hother hthis₁ hthis₂ hne
  -- Two nodes of the ring go on to the same one.
  have hleft := hspliced.prev_next (List.cons_subset_cons root hxs hback)
  have hright := hspliced.prev_next (.tail _ hend)
  rw [hgo] at hleft
  rw [hgo'] at hright
  exact hother (hright.symm.trans hleft)

end Ring

end IntrusiveListNode

/-! ## Lists -/

namespace IntrusiveList

open IntrusiveListNode

variable {L N : Type} [DecidableEq L] [DecidableEq N]

/-- `IntrusiveListImpl::push_front`. -/
def implPushFront (h : Links (NodePtr L N)) (l : L) (n : N) : Option (Links (NodePtr L N)) :=
  linkNext h (.root l) (.node n)

/-- `IntrusiveListImpl::splice_impl`. -/
def spliceImpl (h : Links (NodePtr L N)) (pos first last : NodePtr L N) : Links (NodePtr L N) :=
  if first = last then h else splicePrev (unlinkLast h first last) pos first last

/-- `IntrusiveList::splice` of a whole list. -/
def spliceList (h : Links (NodePtr L N)) (pos : NodePtr L N) (o : L) : Links (NodePtr L N) :=
  spliceImpl h pos (begin h o) (.root o)

/-- `IntrusiveList::splice` of one node. -/
def spliceNode (h : Links (NodePtr L N)) (pos first : NodePtr L N) : Links (NodePtr L N) :=
  spliceImpl h pos first (h.next first)

/-- `IntrusiveList::splice` of a range. -/
def spliceRange (h : Links (NodePtr L N)) (pos first last : NodePtr L N) : Links (NodePtr L N) :=
  spliceImpl h pos first last

/-- The iterator that stands in front of some members of a list, which are all that are left of it. -/
def iteratorAt (l : L) (xs : List N) : NodePtr L N := (xs.map NodePtr.node ++ [NodePtr.root l]).head (by simp)

/-- What a list is, as the ring of its root node. -/
def IsList (h : Links (NodePtr L N)) (l : L) (xs : List N) : Prop := h.Ring (.root l) (xs.map .node)

/-- A node is put in front of a list. -/
def PutsInFront (l : L) (n : N) (xs : List N) (result : Option (Links (NodePtr L N))) : Prop :=
  ∃ h', result = some h' ∧ IsList h' l (n :: xs)

/-- A range is taken out of a list and put into another one. -/
structure Moves (l o : L) (front back range front' back' : List N) (h' : Links (NodePtr L N)) : Prop where
  into : IsList h' l (front ++ range ++ back)
  out : IsList h' o (front' ++ back')

section Lists

variable {h : Links (NodePtr L N)} {l o : L} {n : N} {xs front back range front' back' : List N}

/-- A node that is linked by `LinkNext` is no part of a ring of others. -/
lemma implPushFront_not_front (halone : h.Ring (.node n) []) : ¬PutsInFront l n xs (implPushFront h l n) := by
  rintro ⟨h', hpush, hlist⟩
  obtain ⟨hnext, hprev⟩ := ring_nil_iff.mp halone
  have hself := @spliceNext_self _ _ h _ (.root l) hprev nofun
  rw [implPushFront, linkNext, if_neg (Bool.eq_false_iff.mp (isLinked_eq_false_iff.mpr hnext))] at hpush
  obtain rfl := Option.some.inj hpush
  rw [IsList, List.map_cons] at hlist
  have hback := hlist.linked_head.2
  rw [hself.2] at hback
  cases hback

/-- `push_front` of the wrapper puts the node behind the others. -/
lemma pushFront_front_iff (hlist : IsList h l xs) (halone : h.Ring (.node n) []) (hfresh : n ∉ xs) :
    PutsInFront l n xs (pushFront h l n) ↔ xs = [] := by
  have hnode : NodePtr.node n ∉ NodePtr.root l :: xs.map .node := mt mem_ring_node.mp hfresh
  have hback := ring_splicePrev hlist halone hnode
  have hpush : pushFront h l n = some (splicePrev h (.root l) (.node n) (.node n)) :=
    if_neg (Bool.eq_false_iff.mp (isLinked_eq_false_iff.mpr (ring_nil_iff.mp halone).1))
  constructor
  · rintro ⟨h', hsome, hfront⟩
    obtain rfl := Option.some.inj (hpush.symm.trans hsome)
    have hsame := hfront.unique hback
    cases xs with
    | nil => rfl
    | cons x xs =>
      rw [List.map_cons, List.map_cons, List.cons_append] at hsame
      obtain rfl := NodePtr.node.inj (List.cons_eq_cons.mp hsame).1
      exact absurd (.head _) hfresh
  · rintro rfl
    exact ⟨_, hpush, hback⟩

/-- `push_front` of the implementation breaks every list, and `push_front` of the wrapper puts a node in front of an
empty list only. -/
theorem pushFront_iff (hlist : IsList h l xs) (halone : h.Ring (.node n) []) (hfresh : n ∉ xs) :
    ¬PutsInFront l n xs (implPushFront h l n) ∧ (PutsInFront l n xs (pushFront h l n) ↔ xs = []) :=
  ⟨implPushFront_not_front halone, pushFront_front_iff hlist halone hfresh⟩

/-- The links of a list of one node. -/
def exampleLinks : Links (NodePtr Bool Nat) := splicePrev constructed (.root true) (.node 1) (.node 1)

lemma exampleLinks_list : IsList exampleLinks true [1] :=
  ring_splicePrev (ring_nil_iff.mpr ⟨rfl, rfl⟩) (ring_nil_iff.mpr ⟨rfl, rfl⟩) (by decide)

/-- In front of one node. -/
theorem pushFront_iff_example :
    ¬PutsInFront true 2 [1] (implPushFront exampleLinks true 2) ∧
      (PutsInFront true 2 [1] (pushFront exampleLinks true 2) ↔ [1] = []) :=
  pushFront_iff exampleLinks_list (ring_nil_iff.mpr ⟨by decide, by decide⟩) (by decide)

/-- Neither function puts a second node in front of the first one. -/
theorem pushFront_not_front :
    IsList exampleLinks true [1] ∧ exampleLinks.Ring (.node 2) [] ∧
      ¬PutsInFront true 2 [1] (implPushFront exampleLinks true 2) ∧
      ¬PutsInFront true 2 [1] (pushFront exampleLinks true 2) := by
  have halone : exampleLinks.Ring (.node 2) [] := ring_nil_iff.mpr ⟨by decide, by decide⟩
  refine ⟨exampleLinks_list, halone, implPushFront_not_front halone, ?_⟩
  rw [pushFront_front_iff exampleLinks_list halone (by decide)]
  decide

omit [DecidableEq L] [DecidableEq N] in
/-- An iterator stands on a member or on the root node. -/
lemma iteratorAt_mem (l : L) (xs ys : List N) : iteratorAt l ys ∈ NodePtr.root l :: (xs ++ ys).map .node := by
  cases ys with
  | nil => exact .head _
  | cons y ys => exact mem_ring_node.mpr (List.mem_append_right _ (.head _))

omit [DecidableEq L] [DecidableEq N] in
/-- The node in front of an iterator. -/
lemma IsList.prev_iteratorAt {x : N} (hlist : IsList h l (front ++ x :: back)) :
    h.next (.node x) = iteratorAt l back ∧ h.prev (iteratorAt l back) = .node x := by
  have hring := hlist
  rw [IsList, List.map_append, List.map_cons] at hring
  have hnext : h.next (.node x) = iteratorAt l back := by
    rw [hring.rotate.next_root]
    cases back <;> rfl
  refine ⟨hnext, ?_⟩
  rw [← hnext]
  exact hring.prev_next (.tail _ (List.mem_append_right _ (.head _)))

omit [DecidableEq L] [DecidableEq N] in
/-- A range that is not empty begins and ends at different nodes. -/
lemma IsList.iteratorAt_ne (ho : IsList h o (front ++ range ++ back)) (hrange : range ≠ []) :
    iteratorAt o (range ++ back) ≠ iteratorAt o back := by
  obtain ⟨x, xs, rfl⟩ := List.exists_cons_of_ne_nil hrange
  have hnodup := (List.nodup_cons.mp ho.nodup).2.of_map
  intro heq
  cases back with
  | nil => cases heq
  | cons b bs =>
    obtain rfl : x = b := NodePtr.node.inj heq
    exact (List.disjoint_of_nodup_append hnodup) (List.mem_append_right _ (.head _)) (.head _)

omit [DecidableEq L] [DecidableEq N] in
/-- Two lists without a common member have no common node. -/
lemma disjoint_nodes {ys : List N} (hne : l ≠ o) (hdisj : List.Disjoint xs ys) :
    List.Disjoint (NodePtr.root l :: xs.map .node) (NodePtr.root o :: ys.map .node) := by
  intro p hp hp'
  cases p with
  | root l' => exact hne ((mem_ring_root.mp hp).symm.trans (mem_ring_root.mp hp'))
  | node n => exact hdisj (mem_ring_node.mp hp) (mem_ring_node.mp hp')

/-- `splice_impl` moves no range but the empty one. -/
lemma spliceImpl_moves_iff (hl : IsList h l (front ++ back)) (ho : IsList h o (front' ++ range ++ back'))
    (hne : l ≠ o) (hdisj : List.Disjoint (front ++ back) (front' ++ range ++ back')) :
    Moves l o front back range front' back'
        (spliceImpl h (iteratorAt l back) (iteratorAt o (range ++ back')) (iteratorAt o back')) ↔
      range = [] := by
  constructor
  · rintro ⟨hinto, -⟩
    by_contra hrange
    have hends := ho.iteratorAt_ne hrange
    obtain ⟨rs, z, rfl⟩ := (List.eq_nil_or_concat' range).resolve_left hrange
    have hprev : h.prev (iteratorAt o back') = .node z := by
      refine (@IsList.prev_iteratorAt L N h o (front' ++ rs) back' z ?_).2
      rwa [List.append_assoc front', List.append_assoc, List.singleton_append, ← List.append_assoc] at ho
    have hfirst := iteratorAt_mem o front' (rs ++ [z] ++ back')
    rw [← List.append_assoc] at hfirst
    rw [spliceImpl, if_neg hends] at hinto
    refine splicePrev_unlinkLast_not_ring hl ho (disjoint_nodes hne hdisj) (iteratorAt_mem l front back) hfirst
      (iteratorAt_mem o _ back') hends (List.map_subset _ ?_) ?_ hinto
    · intro x hx
      simp only [List.mem_append] at hx ⊢
      tauto
    · rw [hprev]
      refine List.mem_map_of_mem ?_
      simp
  · rintro rfl
    rw [spliceImpl, List.nil_append, if_pos rfl]
    rw [List.append_nil] at ho
    exact ⟨by rwa [List.append_nil], ho⟩

/-- None of the functions moves a range but the empty one. -/
theorem splice_moves_iff (hl : IsList h l (front ++ back)) (ho : IsList h o (front' ++ range ++ back')) (hne : l ≠ o)
    (hdisj : List.Disjoint (front ++ back) (front' ++ range ++ back')) :
    (Moves l o front back range front' back'
        (spliceRange h (iteratorAt l back) (iteratorAt o (range ++ back')) (iteratorAt o back')) ↔ range = []) ∧
      (∀ x, range = [x] → ¬Moves l o front back range front' back' (spliceNode h (iteratorAt l back) (.node x))) ∧
      (front' = [] → back' = [] →
        (Moves l o front back range front' back' (spliceList h (iteratorAt l back) o) ↔ range = [])) := by
  have hmoves := spliceImpl_moves_iff hl ho hne hdisj
  refine ⟨hmoves, ?_, ?_⟩
  · rintro x rfl
    have hnext : h.next (.node x) = iteratorAt o back' := by
      refine (@IsList.prev_iteratorAt L N h o front' back' x ?_).1
      rwa [List.append_assoc, List.singleton_append] at ho
    rw [spliceNode, hnext]
    exact mt hmoves.mp (List.cons_ne_nil x [])
  · rintro rfl rfl
    have hbegin : begin h o = iteratorAt o (range ++ []) := by
      rw [begin, ho.next_root]
      simp only [List.nil_append, List.append_nil]
      rfl
    rw [spliceList, hbegin]
    exact hmoves

/-- The links of two lists of one node each. -/
def exampleLinks₂ : Links (NodePtr Bool Nat) := splicePrev exampleLinks (.root false) (.node 2) (.node 2)

lemma exampleLinks₂_lists : IsList exampleLinks₂ true [1] ∧ IsList exampleLinks₂ false [2] := by
  have hempty : exampleLinks.Ring (.root false) [] := ring_nil_iff.mpr ⟨by decide, by decide⟩
  have halone : exampleLinks.Ring (.node 2) [] := ring_nil_iff.mpr ⟨by decide, by decide⟩
  exact ⟨exampleLinks_list.congr (by decide), ring_splicePrev hempty halone (by decide)⟩

/-- One node to the end of a list of one. -/
theorem splice_moves_iff_example :
    (Moves true false [1] [] [2] [] []
        (spliceRange exampleLinks₂ (iteratorAt true []) (iteratorAt false ([2] ++ [])) (iteratorAt false [])) ↔
          [2] = []) ∧
      (∀ x, [2] = [x] → ¬Moves true false [1] [] [2] [] [] (spliceNode exampleLinks₂ (iteratorAt true []) (.node x))) ∧
      (([] : List Nat) = [] → ([] : List Nat) = [] →
        (Moves true false [1] [] [2] [] [] (spliceList exampleLinks₂ (iteratorAt true []) false) ↔ [2] = [])) :=
  splice_moves_iff exampleLinks₂_lists.1 exampleLinks₂_lists.2 (by decide) (by simp)

/-- A list of one node that is spliced to the end of another one is not moved there. -/
theorem splice_not_moved :
    IsList exampleLinks₂ true [1] ∧ IsList exampleLinks₂ false [2] ∧
      ¬Moves true false [1] [] [2] [] [] (spliceList exampleLinks₂ (.root true) false) := by
  obtain ⟨htrue, hfalse⟩ := exampleLinks₂_lists
  refine ⟨htrue, hfalse, ?_⟩
  have hmoves : Moves true false [1] [] [2] [] [] _ ↔ [2] = [] :=
    spliceImpl_moves_iff htrue hfalse (by decide) (by simp)
  exact mt hmoves.mp (List.cons_ne_nil 2 [])

end Lists

end IntrusiveList

end RajNX.Util
