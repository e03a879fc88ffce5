import Mathlib.Tactic

/-!
# Walks over blocks of addresses

Addresses of some bits that are cut into blocks, with the block of an address told for some of them. A walk goes from
the end of a block to the next one until it halts. Its blocks follow each other, and walks that start behind different
halting blocks have no block in common.
-/

namespace RajNX.BlockWalk

/-- Blocks, and the block that is told for an address. -/
structure Blocks (β : Type) where
  start : β → Nat
  size : β → Nat
  query : Nat → Option β

namespace Blocks

variable {β : Type}

/-- Where a block ends. -/
def stop (bs : Blocks β) (b : β) : Nat := bs.start b + bs.size b

/-- A block that is told for some address. -/
def Known (bs : Blocks β) (b : β) : Prop := ∃ a, bs.query a = some b

/-- The end of a block that is told. -/
def Edge (bs : Blocks β) (a : Nat) : Prop := ∃ b, bs.Known b ∧ bs.stop b = a

/-- The block of an address has the address, and two blocks are the same or apart. -/
structure Lawful (bs : Blocks β) (bits : Nat) : Prop where
  start_le : ∀ {a b}, bs.query a = some b → bs.start b ≤ a
  lt_stop : ∀ {a b}, bs.query a = some b → a < bs.stop b
  stop_le : ∀ {b}, bs.Known b → bs.stop b ≤ 2 ^ bits
  apart : ∀ {b b'}, bs.Known b → bs.Known b' → b = b' ∨ bs.stop b ≤ bs.start b' ∨ bs.stop b' ≤ bs.start b

/-- The blocks from an address on, up to one that halts or where the addresses wrap around. -/
def walk (bs : Blocks β) (bits : Nat) (halts : β → Bool) (cur : Nat) : List β :=
  match bs.query cur with
  | none => []
  | some b =>
    if ¬halts b ∧ cur < (cur + bs.size b) % 2 ^ bits then
      b :: walk bs bits halts ((cur + bs.size b) % 2 ^ bits)
    else [b]
termination_by 2 ^ bits - cur
decreasing_by
  have := Nat.mod_lt (cur + bs.size b) (Nat.two_pow_pos bits)
  omega

variable {bs : Blocks β} {bits cur : Nat} {halts : β → Bool} {b b' u u' : β}

lemma walk_none (h : bs.query cur = none) : bs.walk bits halts cur = [] := by
  rw [walk, h]

lemma walk_again (h : bs.query cur = some b) (hb : ¬halts b) (hlt : cur < (cur + bs.size b) % 2 ^ bits) :
    bs.walk bits halts cur = b :: bs.walk bits halts ((cur + bs.size b) % 2 ^ bits) := by
  rw [walk, h]
  exact if_pos ⟨hb, hlt⟩

lemma walk_last (h : bs.query cur = some b) (hb : ¬(¬halts b ∧ cur < (cur + bs.size b) % 2 ^ bits)) :
    bs.walk bits halts cur = [b] := by
  rw [walk, h]
  exact if_neg hb

/-- Induction over a walk, by its first block. -/
lemma walk_induction {motive : Nat → List β → Prop} (none : ∀ cur, bs.query cur = none → motive cur [])
    (last : ∀ cur b, bs.query cur = some b → motive cur [b])
    (again : ∀ cur b next, bs.query cur = some b → ¬halts b → next = (cur + bs.size b) % 2 ^ bits → cur < next →
      motive next (bs.walk bits halts next) → motive cur (b :: bs.walk bits halts next)) (cur : Nat) :
    motive cur (bs.walk bits halts cur) := by
  induction cur using walk.induct bs bits halts with
  | case1 cur h =>
    rw [walk_none h]
    exact none cur h
  | case2 cur b h hgo ih =>
    rw [walk_again h hgo.1 hgo.2]
    exact again cur b _ h hgo.1 rfl hgo.2 ih
  | case3 cur b h hstay =>
    rw [walk_last h hstay]
    exact last cur b h

lemma known_of_mem_walk (hmem : b ∈ bs.walk bits halts cur) : bs.Known b := by
  revert hmem
  refine walk_induction (motive := fun _ l => b ∈ l → bs.Known b) ?_ ?_ ?_ cur
  · intro _ _ hb
    cases hb
  · intro cur c h hb
    obtain rfl := List.mem_singleton.mp hb
    exact ⟨cur, h⟩
  · intro cur c next h _ _ _ ih hb
    obtain rfl | hb := List.mem_cons.mp hb
    · exact ⟨cur, h⟩
    · exact ih hb

lemma mem_walk_of_query (h : bs.query cur = some b) : b ∈ bs.walk bits halts cur := by
  rw [walk, h]
  dsimp only
  split
  · exact List.mem_cons_self
  · exact List.mem_singleton_self _

section Lawful

variable (hbs : bs.Lawful bits)
include hbs

/-- The block that is told for an edge starts there. -/
lemma Lawful.start_eq (hcur : bs.Edge cur) (h : bs.query cur = some b) : bs.start b = cur := by
  obtain ⟨u, hu, rfl⟩ := hcur
  have hle := hbs.start_le h
  have hlt := hbs.lt_stop h
  obtain rfl | hafter | hbefore := hbs.apart hu ⟨_, h⟩
  · exact absurd hlt (Nat.lt_irrefl _)
  · exact Nat.le_antisymm hle hafter
  · have hpos : bs.start u < bs.stop u := by
      obtain ⟨a, ha⟩ := hu
      exact Nat.lt_of_le_of_lt (hbs.start_le ha) (hbs.lt_stop ha)
    omega

/-- A walk that goes on from an edge goes to the end of the block. -/
lemma Lawful.next_eq (hcur : bs.Edge cur) (h : bs.query cur = some b) (hlt : cur < (cur + bs.size b) % 2 ^ bits) :
    (cur + bs.size b) % 2 ^ bits = bs.stop b := by
  have hstart := hbs.start_eq hcur h
  have hstop : bs.stop b = cur + bs.size b := by rw [stop, hstart]
  obtain hfit | hfull := Nat.lt_or_eq_of_le (hbs.stop_le ⟨_, h⟩)
  · rw [hstop, Nat.mod_eq_of_lt (hstop ▸ hfit)]
  · rw [← hstop, hfull, Nat.mod_self] at hlt
    exact absurd hlt (Nat.not_lt_zero _)

/-- Induction over a walk from an edge: each block starts where the walk is. -/
lemma Lawful.walk_induction {motive : Nat → List β → Prop} (none : ∀ cur, motive cur [])
    (last : ∀ b, bs.Known b → motive (bs.start b) [b])
    (again : ∀ b, bs.Known b → ¬halts b → bs.Edge (bs.stop b) → motive (bs.stop b) (bs.walk bits halts (bs.stop b)) →
      motive (bs.start b) (b :: bs.walk bits halts (bs.stop b))) (hcur : bs.Edge cur) :
    motive cur (bs.walk bits halts cur) := by
  revert hcur
  refine Blocks.walk_induction (motive := fun cur l => bs.Edge cur → motive cur l) ?_ ?_ ?_ cur
  · exact fun cur _ _ => none cur
  · intro cur b h hcur
    rw [← hbs.start_eq hcur h]
    exact last b ⟨cur, h⟩
  · intro cur b next h hb hnext hlt ih hcur
    have hstop : next = bs.stop b := hnext.trans (hbs.next_eq hcur h (hnext ▸ hlt))
    have hedge : bs.Edge (bs.stop b) := ⟨b, ⟨cur, h⟩, rfl⟩
    rw [← hbs.start_eq hcur h]
    rw [hstop] at ih ⊢
    exact again b ⟨cur, h⟩ hb hedge (ih hedge)

lemma Lawful.le_start_of_mem_walk (hcur : bs.Edge cur) (hmem : b ∈ bs.walk bits halts cur) : cur ≤ bs.start b := by
  revert hmem
  refine hbs.walk_induction (motive := fun cur l => b ∈ l → cur ≤ bs.start b) ?_ ?_ ?_ hcur
  · intro _ hb
    cases hb
  · intro c _ hb
    rw [List.mem_singleton.mp hb]
  · intro c _ _ _ ih hb
    obtain rfl | hb := List.mem_cons.mp hb
    · exact Nat.le_refl _
    · exact (Nat.le_add_right _ _).trans (ih hb)

/-- The block of a walk that starts where the walk does is the first one. -/
lemma Lawful.query_of_mem_walk (hcur : bs.Edge cur) (hmem : b ∈ bs.walk bits halts cur) (hstart : bs.start b = cur) :
    bs.query cur = some b := by
  cases h : bs.query cur with
  | none =>
    rw [walk_none h] at hmem
    cases hmem
  | some c =>
    by_cases hgo : ¬halts c ∧ cur < (cur + bs.size c) % 2 ^ bits
    · rw [walk_again h hgo.1 hgo.2, hbs.next_eq hcur h hgo.2] at hmem
      obtain rfl | hmem := List.mem_cons.mp hmem
      · rfl
      · have hafter := hbs.le_start_of_mem_walk ⟨c, ⟨cur, h⟩, rfl⟩ hmem
        have hlt := hbs.lt_stop h
        omega
    · rw [walk_last h hgo] at hmem
      rw [List.mem_singleton.mp hmem]

/-- The blocks of a walk follow each other. -/
lemma Lawful.walk_pairwise (hcur : bs.Edge cur) :
    (bs.walk bits halts cur).Pairwise fun b b' => bs.stop b ≤ bs.start b' := by
  refine hbs.walk_induction (motive := fun _ l => l.Pairwise fun b b' => bs.stop b ≤ bs.start b') ?_ ?_ ?_ hcur
  · exact fun _ => List.Pairwise.nil
  · exact fun _ _ => List.pairwise_singleton _ _
  · intro b _ _ hedge ih
    exact ih.cons fun b' hb' => hbs.le_start_of_mem_walk hedge hb'

/-- A walk does not pass a block that halts. -/
lemma Lawful.stop_le_of_mem_walk (hu : bs.Known u) (hhalts : halts u) (hcur : bs.Edge cur) (hlt : cur < bs.stop u)
    (hmem : b ∈ bs.walk bits halts cur) : bs.stop b ≤ bs.stop u := by
  have hfirst : ∀ c, bs.Known c → bs.start c < bs.stop u → c = u ∨ bs.stop c ≤ bs.start u := by
    intro c hc hcu
    obtain h | h | h := hbs.apart hc hu
    · exact .inl h
    · exact .inr h
    · omega
  have hin : bs.start u ≤ bs.stop u := Nat.le_add_right _ _
  revert hlt hmem
  refine hbs.walk_induction (motive := fun cur l => cur < bs.stop u → b ∈ l → bs.stop b ≤ bs.stop u) ?_ ?_ ?_ hcur
  · intro _ _ hb
    cases hb
  · intro c hc hlt hb
    obtain rfl := List.mem_singleton.mp hb
    obtain rfl | hle := hfirst b hc hlt
    · exact Nat.le_refl _
    · exact hle.trans hin
  · intro c hc hgo _ ih hlt hb
    obtain rfl | hle := hfirst c hc hlt
    · exact absurd hhalts hgo
    obtain rfl | hb := List.mem_cons.mp hb
    · exact hle.trans hin
    · obtain ⟨a, ha⟩ := hu
      have hpos := Nat.lt_of_le_of_lt (hbs.start_le ha) (hbs.lt_stop ha)
      exact ih (Nat.lt_of_le_of_lt hle hpos) hb

/-- Walks that start behind two halting blocks are apart. -/
lemma Lawful.walk_apart (hu : bs.Known u) (hu' : bs.Known u') (hhalts : halts u) (hhalts' : halts u')
    (hne : bs.stop u ≠ bs.stop u') (hb : b ∈ bs.walk bits halts (bs.stop u))
    (hb' : b' ∈ bs.walk bits halts (bs.stop u')) : bs.stop b ≤ bs.start b' ∨ bs.stop b' ≤ bs.start b := by
  have hstart := hbs.le_start_of_mem_walk ⟨u, hu, rfl⟩ hb
  have hstart' := hbs.le_start_of_mem_walk ⟨u', hu', rfl⟩ hb'
  obtain hlt | hlt := Nat.lt_or_gt_of_ne hne
  · exact .inl ((hbs.stop_le_of_mem_walk hu' hhalts' ⟨u, hu, rfl⟩ hlt hb).trans hstart')
  · exact .inr ((hbs.stop_le_of_mem_walk hu hhalts ⟨u', hu', rfl⟩ hlt hb').trans hstart)

end Lawful

end Blocks

end RajNX.BlockWalk
