import RajNX.Lib.Splice

/-!
# Lists in parts

A list that is kept in parts. All parts are of one size, except for the last one, which may be shorter. Where a
position of the whole list lies follows from the size: in the part `a / size`, at `a % size`.
-/

namespace RajNX.Parts

open Splice

variable {α : Type} {parts : List (List α)} {part xs : List α} {size p i n a : Nat}

/-- All parts but the last one are of one size, and the last one is not longer. -/
structure Sized (size : Nat) (parts : List (List α)) : Prop where
  full {p : Nat} {part : List α} : p + 1 < parts.length → parts[p]? = some part → part.length = size
  le : ∀ part ∈ parts, part.length ≤ size

/-- Parts of one size. -/
lemma sized_of_forall (h : ∀ part ∈ parts, part.length = size) : Sized size parts where
  full _ hpart := h _ (List.mem_of_getElem? hpart)
  le part hpart := (h part hpart).le

lemma length_flatten (h : ∀ part ∈ parts, part.length = size) : parts.flatten.length = parts.length * size := by
  rw [List.length_flatten, List.map_congr_left h, List.map_const', List.sum_replicate_nat]

lemma flatten_eq (hpart : parts[p]? = some part) :
    parts.flatten = (parts.take p).flatten ++ (part ++ (parts.drop (p + 1)).flatten) := by
  obtain ⟨hp, rfl⟩ := List.getElem?_eq_some_iff.mp hpart
  rw [← List.flatten_cons, ← List.flatten_append, ← List.drop_eq_getElem_cons hp, List.take_append_drop]

variable (hs : Sized size parts)

include hs

/-- What is in front of a part. -/
lemma Sized.length_take (hp : p < parts.length) : (parts.take p).flatten.length = p * size := by
  have hfull : ∀ part ∈ parts.take p, part.length = size := by
    intro part hpart
    obtain ⟨q, hq, rfl⟩ := List.mem_take_iff_getElem.mp hpart
    have hlt : q < p := hq.trans_le (Nat.min_le_left _ _)
    exact hs.full (Nat.lt_of_le_of_lt hlt hp) (List.getElem?_eq_getElem _)
  rw [length_flatten hfull, List.length_take, Nat.min_eq_left hp.le]

lemma Sized.length_flatten_le : parts.flatten.length ≤ parts.length * size := by
  rw [List.length_flatten]
  have h := List.sum_le_card_nsmul (parts.map List.length) size (by simpa using hs.le)
  rwa [List.length_map, smul_eq_mul] at h

/-- A range that does not cross the size of the parts lies in one of them. -/
lemma Sized.exists_part (ha : a < parts.flatten.length) (hn : a + n ≤ parts.flatten.length)
    (hfit : a % size + n ≤ size) : ∃ part, parts[a / size]? = some part ∧ a % size + n ≤ part.length := by
  have hpos : 0 < size := by
    rcases Nat.eq_zero_or_pos size with rfl | hpos
    · have := hs.length_flatten_le
      omega
    · exact hpos
  have hp : a / size < parts.length := by
    rw [Nat.div_lt_iff_lt_mul hpos]
    exact ha.trans_le hs.length_flatten_le
  refine ⟨_, List.getElem?_eq_getElem hp, ?_⟩
  rcases Nat.lt_or_ge (a / size + 1) parts.length with hlast | hlast
  · rwa [hs.full hlast (List.getElem?_eq_getElem hp)]
  · have hsplit := congrArg List.length (flatten_eq (List.getElem?_eq_getElem hp))
    rw [List.length_append, List.length_append, hs.length_take hp, List.drop_of_length_le hlast] at hsplit
    have hdiv := Nat.div_add_mod' a size
    rw [List.flatten_nil, List.length_nil] at hsplit
    omega

/-- A slice of the whole is a slice of the part that it lies in. -/
lemma Sized.slice_flatten (hpart : parts[p]? = some part) (hin : i + n ≤ part.length) :
    slice parts.flatten (p * size + i) n = slice part i n := by
  have hp : p < parts.length := (List.getElem?_eq_some_iff.mp hpart).1
  rw [flatten_eq hpart, ← hs.length_take hp, slice_append_right, slice_append_left hin]

/-- A splice into the whole is a splice into the part that it lies in. -/
lemma Sized.splice_flatten (hpart : parts[p]? = some part) (hin : i + xs.length ≤ part.length) :
    splice parts.flatten (p * size + i) xs = (parts.set p (splice part i xs)).flatten := by
  have hp : p < parts.length := (List.getElem?_eq_some_iff.mp hpart).1
  have hset : (parts.set p (splice part i xs))[p]? = some (splice part i xs) := by
    rw [List.getElem?_set_self hp]
  rw [flatten_eq hpart, flatten_eq hset, List.take_set_of_le (Nat.le_refl p), List.drop_set_of_lt (Nat.lt_succ_self p),
    ← hs.length_take hp, splice_append_right, splice_append_left hin]

/-- A part is replaced by one as long. -/
lemma Sized.set (hpart : parts[p]? = some part) (hlen : xs.length = part.length) :
    Sized size (parts.set p xs) := by
  have hp : p < parts.length := (List.getElem?_eq_some_iff.mp hpart).1
  constructor
  · intro q ys hq hys
    rw [List.length_set] at hq
    rcases eq_or_ne p q with rfl | hne
    · rw [List.getElem?_set_self hp] at hys
      rw [← Option.some.inj hys, hlen]
      exact hs.full hq hpart
    · rw [List.getElem?_set_ne hne] at hys
      exact hs.full hq hys
  · intro ys hys
    rcases List.mem_or_eq_of_mem_set hys with hys | rfl
    · exact hs.le ys hys
    · rw [hlen]
      exact hs.le part (List.mem_of_getElem? hpart)

end RajNX.Parts
