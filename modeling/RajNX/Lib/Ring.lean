import Mathlib.Data.List.Chain
import Mathlib.Data.List.Nodup

/-!
# Rings of doubly linked nodes

Nodes with a link to the previous node and one to the next. A ring is a node with the ones that come behind it, up to
itself again. A ring can be looked at from each of its nodes (`Ring.rotate`), so that it is enough to say what linking
and unlinking do at its end.
-/

namespace RajNX

variable {P : Type}

/-- The links of all nodes. -/
structure Links (P : Type) where
  prev : P → P
  next : P → P

namespace Links

section Set

variable [DecidableEq P] {h : Links P} {a b x : P}

/-- Write a link. -/
def setPrev (h : Links P) (a b : P) : Links P := { h with prev := Function.update h.prev a b }

/-- Write a link. -/
def setNext (h : Links P) (a b : P) : Links P := { h with next := Function.update h.next a b }

@[simp] lemma prev_setPrev : (h.setPrev a b).prev x = if x = a then b else h.prev x := Function.update_apply _ _ _ _

@[simp] lemma next_setPrev : (h.setPrev a b).next x = h.next x := rfl

@[simp] lemma next_setNext : (h.setNext a b).next x = if x = a then b else h.next x := Function.update_apply _ _ _ _

@[simp] lemma prev_setNext : (h.setNext a b).prev x = h.prev x := rfl

end Set

/-- Two nodes are linked in both directions. -/
def Linked (h : Links P) (a b : P) : Prop := h.next a = b ∧ h.prev b = a

/-- The nodes behind a node, up to itself again. -/
structure Ring (h : Links P) (root : P) (xs : List P) : Prop where
  nodup : (root :: xs).Nodup
  chain : (root :: xs ++ [root]).IsChain h.Linked

section Ring

variable {h h' : Links P} {root node x y : P} {xs ys zs : List P}

/-- A part of a ring depends on the links inside. -/
lemma chain_congr (hchain : xs.IsChain h.Linked) (hnext : ∀ x ∈ xs.dropLast, h'.next x = h.next x)
    (hprev : ∀ x ∈ xs.tail, h'.prev x = h.prev x) : xs.IsChain h'.Linked := by
  induction xs with
  | nil => exact .nil
  | cons x xs ih =>
    cases xs with
    | nil => exact .singleton x
    | cons y xs =>
      rw [List.isChain_cons_cons] at hchain ⊢
      obtain ⟨⟨hx, hy⟩, hchain⟩ := hchain
      refine ⟨⟨?_, ?_⟩, ih hchain (fun z hz => hnext z ?_) fun z hz => hprev z (.tail _ hz)⟩
      · rw [hnext x (by rw [List.dropLast_cons_cons]; exact .head _), hx]
      · rw [hprev y (.head _), hy]
      · rw [List.dropLast_cons_cons]
        exact .tail _ hz

/-- A ring is a ring from each of its nodes. -/
lemma Ring.rotate (hring : h.Ring root (ys ++ x :: zs)) : h.Ring x (zs ++ root :: ys) := by
  have hperm : (x :: zs ++ root :: ys).Perm (root :: ys ++ x :: zs) := List.perm_append_comm
  have hchain : (root :: ys ++ x :: (zs ++ [root])).IsChain h.Linked := by
    have hchain := hring.chain
    rwa [List.cons_append, List.append_assoc, List.cons_append, ← List.cons_append] at hchain
  obtain ⟨hfront, hback⟩ := List.isChain_split.mp hchain
  have hgoal : (x :: zs ++ root :: (ys ++ [x])).IsChain h.Linked := List.isChain_split.mpr ⟨hback, hfront⟩
  refine ⟨hperm.nodup_iff.mpr hring.nodup, ?_⟩
  rwa [List.cons_append, List.append_assoc, List.cons_append, ← List.cons_append]

/-- A ring of one node. -/
lemma ring_nil_iff : h.Ring root [] ↔ h.next root = root ∧ h.prev root = root :=
  ⟨fun hring => (List.isChain_pair (R := h.Linked)).mp hring.chain,
    fun hlinked => ⟨List.nodup_singleton root, (List.isChain_pair (R := h.Linked)).mpr hlinked⟩⟩

lemma Ring.linked_head (hring : h.Ring root (x :: xs)) : h.next root = x ∧ h.prev x = root :=
  (List.isChain_cons_cons.mp hring.chain).1

section

variable (hring : h.Ring root xs)

include hring

/-- A ring depends on the links of its nodes. -/
lemma Ring.congr (hsame : ∀ x ∈ root :: xs, h'.next x = h.next x ∧ h'.prev x = h.prev x) :
    h'.Ring root xs := by
  refine ⟨hring.nodup, chain_congr hring.chain (fun x hx => (hsame x ?_).1) fun x hx => (hsame x ?_).2⟩
  · rwa [List.dropLast_concat] at hx
  · rw [List.cons_append, List.tail_cons, List.mem_append, List.mem_singleton] at hx
    rcases hx with hx | rfl
    · exact .tail _ hx
    · exact .head _

/-- The last node of a ring. -/
lemma Ring.exists_last :
    ∃ ws, root :: xs = ws ++ [h.prev root] ∧ h.next (h.prev root) = root := by
  obtain ⟨ws, last, heq⟩ := (List.eq_nil_or_concat (root :: xs)).resolve_left (List.cons_ne_nil _ _)
  have hchain := hring.chain
  rw [List.concat_eq_append] at heq
  rw [heq, List.append_assoc, List.cons_append, List.nil_append] at hchain
  obtain ⟨hnext, hprev⟩ := List.isChain_pair.mp (List.isChain_split.mp hchain).2
  exact ⟨ws, by rw [heq, hprev], by rw [hprev, hnext]⟩

/-- What comes first in a ring. -/
lemma Ring.next_root : h.next root = (xs ++ [root]).head (by simp) := by
  have hchain := hring.chain
  cases xs with
  | nil => exact (List.isChain_pair.mp hchain).1
  | cons x xs => exact (List.isChain_cons_cons.mp hchain).1.1

/-- Going on from a node and back again. -/
lemma Ring.prev_next (hx : x ∈ root :: xs) : h.prev (h.next x) = x := by
  have hroot {root : P} {xs : List P} (hring : h.Ring root xs) : h.prev (h.next root) = root := by
    cases xs with
    | nil =>
      obtain ⟨hnext, hprev⟩ := ring_nil_iff.mp hring
      rw [hnext, hprev]
    | cons y ys =>
      obtain ⟨hnext, hprev⟩ := hring.linked_head
      rw [hnext, hprev]
  rcases List.mem_cons.mp hx with rfl | hx
  · exact hroot hring
  · obtain ⟨ys, zs, rfl⟩ := List.append_of_mem hx
    exact hroot hring.rotate

lemma Ring.prev_mem : h.prev root ∈ root :: xs := by
  obtain ⟨ws, hws, -⟩ := hring.exists_last
  exact hws ▸ List.mem_append_right _ (.head _)

/-- Going back from a node stays in the ring, and leads on to it again. -/
lemma Ring.next_prev (hx : x ∈ root :: xs) :
    h.prev x ∈ root :: xs ∧ h.next (h.prev x) = x := by
  have hroot {root : P} {xs : List P} (hring : h.Ring root xs) :
      h.prev root ∈ root :: xs ∧ h.next (h.prev root) = root := by
    obtain ⟨-, -, hnext⟩ := hring.exists_last
    exact ⟨hring.prev_mem, hnext⟩
  rcases List.mem_cons.mp hx with rfl | hx
  · exact hroot hring
  · obtain ⟨ys, zs, rfl⟩ := List.append_of_mem hx
    obtain ⟨hmem, hnext⟩ := hroot hring.rotate
    refine ⟨?_, hnext⟩
    simp only [List.mem_cons, List.mem_append] at hmem ⊢
    tauto

/-- A node is linked behind the last one. -/
lemma Ring.insert (hnode : node ∉ root :: xs) (hlast : h'.next (h.prev root) = node)
    (hback : h'.prev node = h.prev root) (hnext : h'.next node = root) (hroot : h'.prev root = node)
    (hnexts : ∀ x, x ≠ h.prev root → x ≠ node → h'.next x = h.next x)
    (hprevs : ∀ x, x ≠ root → x ≠ node → h'.prev x = h.prev x) : h'.Ring root (xs ++ [node]) := by
  obtain ⟨ws, hws, -⟩ := hring.exists_last
  have hnodup : (ws ++ [h.prev root]).Nodup := hws ▸ hring.nodup
  have hmem {x : P} (hx : x ∈ root :: xs) : x ≠ node := fun heq => hnode (heq ▸ hx)
  refine ⟨?_, ?_⟩
  · rw [← List.cons_append]
    exact hring.nodup.append (List.nodup_singleton node) (List.disjoint_singleton.mpr hnode)
  · have hold : (ws ++ [h.prev root]).IsChain h.Linked := hws ▸ hring.chain.left_of_append
    have hnew : (ws ++ [h.prev root]).IsChain h'.Linked := by
      refine chain_congr hold (fun x hx => ?_) fun x hx => ?_
      · rw [List.dropLast_concat] at hx
        refine hnexts x ?_ (hmem (hws ▸ List.mem_append_left _ hx))
        rintro rfl
        exact (List.disjoint_of_nodup_append hnodup) hx (List.mem_singleton.mpr rfl)
      · rw [← hws, List.tail_cons] at hx
        refine hprevs x ?_ (hmem (.tail _ hx))
        rintro rfl
        exact (List.nodup_cons.mp hring.nodup).1 hx
    have hgoal : (ws ++ h.prev root :: node :: [root]).IsChain h'.Linked :=
      List.isChain_append_cons_cons.mpr ⟨hnew, ⟨hlast, hback⟩, List.isChain_pair.mpr ⟨hnext, hroot⟩⟩
    have heq : root :: (xs ++ [node]) ++ [root] = ws ++ h.prev root :: node :: [root] := by
      rw [← List.cons_append, hws]
      simp only [List.append_assoc, List.cons_append, List.nil_append]
    rw [heq]
    exact hgoal

end

/-- The last node of a ring of more than one node. -/
lemma Ring.exists_last_cons (hring : h.Ring root (x :: xs)) : ∃ ws, x :: xs = ws ++ [h.prev root] := by
  obtain ⟨ws, hws, -⟩ := hring.exists_last
  cases ws with
  | nil => exact absurd (congrArg List.length hws) (by simp)
  | cons w ws => exact ⟨ws, (List.cons_eq_cons.mp hws).2⟩

/-- A node is taken out, and the ring is looked at from the one behind it. -/
lemma Ring.remove (hring : h.Ring node (root :: xs)) (hlast : h'.next (h.prev node) = root)
    (hroot : h'.prev root = h.prev node) (hnexts : ∀ x, x ≠ h.prev node → x ≠ node → h'.next x = h.next x)
    (hprevs : ∀ x, x ≠ root → x ≠ node → h'.prev x = h.prev x) : h'.Ring root xs := by
  obtain ⟨vs, hvs⟩ := hring.exists_last_cons
  obtain ⟨hnode, hnodup⟩ := List.nodup_cons.mp hring.nodup
  have hmem {x : P} (hx : x ∈ root :: xs) : x ≠ node := fun heq => hnode (heq ▸ hx)
  refine ⟨hnodup, ?_⟩
  have hold : (vs ++ [h.prev node]).IsChain h.Linked := by
    have hchain := hring.chain.left_of_append
    rw [hvs] at hchain
    exact hchain.tail
  have hnodup' : (vs ++ [h.prev node]).Nodup := hvs ▸ hnodup
  have hnew : (vs ++ [h.prev node]).IsChain h'.Linked := by
    refine chain_congr hold (fun x hx => ?_) fun x hx => ?_
    · rw [List.dropLast_concat] at hx
      refine hnexts x ?_ (hmem (hvs ▸ List.mem_append_left _ hx))
      rintro rfl
      exact (List.disjoint_of_nodup_append hnodup') hx (List.mem_singleton.mpr rfl)
    · rw [← hvs, List.tail_cons] at hx
      refine hprevs x ?_ (hmem (.tail _ hx))
      rintro rfl
      exact (List.nodup_cons.mp hnodup).1 hx
  rw [hvs, List.append_assoc]
  exact List.isChain_split.mpr ⟨hnew, List.isChain_pair.mpr ⟨hlast, hroot⟩⟩

end Ring

/-! ## Walks -/

section Walk

variable [DecidableEq P] {h : Links P} {root stop x y : P} {xs : List P}

/-- The nodes from a node on, forwards up to another one. It ends in nothing if it takes too long. -/
def walk (h : Links P) (stop : P) : Nat → P → Option (List P)
  | fuel, x =>
    if x = stop then some []
    else
      match fuel with
      | 0 => none
      | fuel + 1 => (walk h stop fuel (h.next x)).map (x :: ·)

/-- The nodes before a node, backwards down to another one. -/
def walkBack (h : Links P) (stop : P) : Nat → P → Option (List P)
  | fuel, x =>
    if x = stop then some []
    else
      match fuel with
      | 0 => none
      | fuel + 1 => (walkBack h stop fuel (h.prev x)).map (h.prev x :: ·)

/-- A walk through a part of a ring. -/
lemma walk_of_chain {fuel : Nat} (hchain : (xs ++ [stop]).IsChain h.Linked) (hstop : stop ∉ xs)
    (hfuel : xs.length ≤ fuel) : h.walk stop fuel ((xs ++ [stop]).head (by simp)) = some xs := by
  induction xs generalizing fuel with
  | nil =>
    unfold walk
    exact if_pos rfl
  | cons x xs ih =>
    obtain ⟨hx, hstop⟩ := not_or.mp (mt List.mem_cons.mpr hstop)
    cases fuel with
    | zero => cases hfuel
    | succ fuel =>
      have hnext : h.next x = (xs ++ [stop]).head (by simp) := by
        cases xs with
        | nil => exact (List.isChain_pair.mp hchain).1
        | cons y xs => exact (List.isChain_cons_cons.mp hchain).1.1
      simp only [List.cons_append, List.head_cons]
      unfold walk
      rw [if_neg (Ne.symm hx)]
      dsimp only
      rw [hnext, ih hchain.tail hstop (Nat.le_of_succ_le_succ hfuel)]
      rfl

/-- Every node of a ring, in order. -/
lemma Ring.walk {fuel : Nat} (hring : h.Ring root xs) (hfuel : xs.length ≤ fuel) :
    h.walk root fuel (h.next root) = some xs := by
  rw [hring.next_root]
  exact walk_of_chain hring.chain.tail (List.nodup_cons.mp hring.nodup).1 hfuel

/-- A ring has its nodes in one order only. -/
lemma Ring.unique {ys : List P} (hring : h.Ring root xs) (hring' : h.Ring root ys) : xs = ys := by
  have hwalk := hring.walk (Nat.le_max_left xs.length ys.length)
  rw [hring'.walk (Nat.le_max_right xs.length ys.length)] at hwalk
  exact (Option.some.inj hwalk).symm

/-- A walk back through a part of a ring. -/
lemma walkBack_of_chain {fuel : Nat} (hchain : (x :: xs ++ [y]).IsChain h.Linked) (hnodup : (x :: xs ++ [y]).Nodup)
    (hfuel : xs.length + 1 ≤ fuel) : h.walkBack x fuel y = some (xs.reverse ++ [x]) := by
  induction xs using List.reverseRecOn generalizing fuel y with
  | nil =>
    have hne : y ≠ x := fun heq => (List.nodup_cons.mp hnodup).1 (heq ▸ .head _)
    have hprev : h.prev y = x := ((List.isChain_pair (R := h.Linked)).mp hchain).2
    cases fuel with
    | zero => cases hfuel
    | succ fuel =>
      unfold walkBack
      rw [if_neg hne]
      dsimp only
      unfold walkBack
      rw [hprev, if_pos rfl]
      rfl
  | append_singleton xs z ih =>
    have hne : y ≠ x := by
      rintro rfl
      exact (List.nodup_cons.mp hnodup).1 (List.mem_append_right _ (.head _))
    have hparts : (x :: xs ++ z :: [y]).IsChain h.Linked := by
      simpa only [List.cons_append, List.append_assoc, List.nil_append] using hchain
    obtain ⟨hfront, hback⟩ := List.isChain_split.mp hparts
    have hprev : h.prev y = z := (List.isChain_pair.mp hback).2
    rw [List.length_append, List.length_singleton] at hfuel
    cases fuel with
    | zero => cases hfuel
    | succ fuel =>
      have hpart := ih hfront hnodup.of_append_left (Nat.le_of_succ_le_succ hfuel)
      unfold walkBack
      rw [if_neg hne]
      dsimp only
      rw [hprev, hpart, List.reverse_append]
      rfl

/-- Every node of a ring, in the opposite order. -/
lemma Ring.walkBack {fuel : Nat} (hring : h.Ring root xs) (hfuel : xs.length ≤ fuel) :
    h.walkBack (h.next root) fuel root = some xs.reverse := by
  cases xs with
  | nil =>
    unfold Links.walkBack
    exact if_pos (ring_nil_iff.mp hring).1.symm
  | cons x xs =>
    have hchain := hring.chain
    rw [List.cons_append, List.cons_append] at hchain
    have hnodup : (x :: xs ++ [root]).Nodup :=
      (@List.perm_append_comm _ [root] (x :: xs)).nodup_iff.mp hring.nodup
    rw [(List.isChain_cons_cons.mp hchain).1.1, List.reverse_cons]
    exact walkBack_of_chain hchain.tail hnodup hfuel

end Walk

end Links

end RajNX
