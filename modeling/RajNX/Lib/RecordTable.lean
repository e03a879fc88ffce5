import RajNX.Lib.Splice

/-!
# Tables of records

Records of different sizes that stand one behind the other, as a table that is filled from its start on
leaves them.
-/

namespace RajNX.RecordTable

open Splice

variable {α β : Type}

/-- Each record starts where the one in front of it ends. -/
def Consecutive (offset size : α → Nat) : Nat → List α → Prop
  | _, [] => True
  | start, x :: xs => offset x = start ∧ Consecutive offset size (start + size x) xs

/-- The bytes of some records, where a record may have different bytes. -/
def Filled (IsEntry : α → List β → Prop) (xs : List α) (table : List β) : Prop :=
  ∃ entries, List.Forall₂ IsEntry xs entries ∧ table = entries.flatten

section Filled

variable {IsEntry : α → List β → Prop} {xs ys : List α} {x : α} {table entry : List β} {offset size : α → Nat}

lemma filled_nil : Filled IsEntry [] [] := ⟨[], .nil, rfl⟩

/-- One more record -/
lemma Filled.snoc (h : Filled IsEntry xs table) (hentry : IsEntry x entry) :
    Filled IsEntry (xs ++ [x]) (table ++ entry) := by
  obtain ⟨entries, hforall, rfl⟩ := h
  refine ⟨entries ++ [entry], List.rel_append hforall (.cons hentry .nil), ?_⟩
  rw [List.flatten_append, List.flatten_singleton]

lemma Filled.length_eq (h : Filled IsEntry xs table)
    (hsize : ∀ x entry, IsEntry x entry → entry.length = size x) : table.length = (xs.map size).sum := by
  obtain ⟨entries, hforall, rfl⟩ := h
  induction hforall with
  | nil => rfl
  | cons hentry _ ih =>
    rw [List.flatten_cons, List.length_append, ih, hsize _ _ hentry, List.map_cons, List.sum_cons]

/-- A record stands at its offset. -/
lemma Filled.at_offset (h : Filled IsEntry xs table) (hsize : ∀ x entry, IsEntry x entry → entry.length = size x)
    {start : Nat} (hxs : Consecutive offset size start xs) (hx : x ∈ xs) :
    ∃ before entry behind, table = before ++ entry ++ behind ∧ IsEntry x entry ∧
      offset x = start + before.length := by
  obtain ⟨entries, hforall, rfl⟩ := h
  induction hforall generalizing start with
  | nil => cases hx
  | @cons y entry ys entries hentry _ ih =>
    cases hx with
    | head => exact ⟨[], entry, entries.flatten, rfl, hentry, hxs.1⟩
    | tail _ hmem =>
      obtain ⟨before, found, behind, htable, hfound, hoffset⟩ := ih hxs.2 hmem
      refine ⟨entry ++ before, found, behind, ?_, hfound, ?_⟩
      · rw [List.flatten_cons, htable, List.append_assoc, List.append_assoc, List.append_assoc]
      · rw [hoffset, List.length_append, hsize y entry hentry, Nat.add_assoc]

end Filled

/-- A write behind what is filled. -/
lemma splice_append (filled rest entry : List β) :
    splice (filled ++ rest) filled.length entry = filled ++ entry ++ rest.drop entry.length := by
  rw [splice, List.take_left', List.drop_append, List.drop_eq_nil_of_le (Nat.le_add_right _ _),
    Nat.add_sub_cancel_left, List.nil_append]
  rfl

variable {start : Nat} {offset size : α → Nat} {xs : List α}

variable (h : Consecutive offset size start xs)

include h

/-- No record ends behind the sum of the sizes. -/
lemma Consecutive.le_sum {x : α} (hx : x ∈ xs) : offset x + size x ≤ start + (xs.map size).sum := by
  induction xs generalizing start with
  | nil => cases hx
  | cons y xs ih =>
    rw [List.map_cons, List.sum_cons]
    cases hx with
    | head =>
      rw [h.1]
      omega
    | tail _ hmem =>
      have hle := ih h.2 hmem
      omega

/-- No record starts in front of the table. -/
lemma Consecutive.le_offset {x : α} (hx : x ∈ xs) : start ≤ offset x := by
  induction xs generalizing start with
  | nil => cases hx
  | cons y xs ih =>
    cases hx with
    | head => exact h.1.ge
    | tail _ hmem => exact (Nat.le_add_right start (size y)).trans (ih h.2 hmem)

/-- No record reaches into one behind it. -/
lemma Consecutive.pairwise : xs.Pairwise fun x y => offset x + size x ≤ offset y := by
  induction xs generalizing start with
  | nil => exact .nil
  | cons x xs ih =>
    apply List.Pairwise.cons
    · intro y hy
      rw [h.1]
      exact h.2.le_offset hy
    · exact ih h.2

/-- Records that are not empty start at different places. -/
lemma Consecutive.nodup_offset (hsize : ∀ x, 0 < size x) : (xs.map offset).Nodup := by
  rw [List.Nodup, List.pairwise_map]
  apply h.pairwise.imp
  intro x y hle heq
  have hpos := hsize x
  omega

end RajNX.RecordTable
