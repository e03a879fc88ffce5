import Mathlib.Tactic

/-!
# Splicing lists

`splice l i xs` is the list `l` with the elements from `i` on replaced by `xs`, and `slice l i n` the
`n` elements from `i` on. Both are said by what stands at each index.
-/

namespace RajNX.Splice

variable {α : Type}

/-- Replace the elements from `i` on. -/
def splice (l : List α) (i : Nat) (xs : List α) : List α := l.take i ++ xs ++ l.drop (i + xs.length)

/-- The `n` elements from `i` on. -/
def slice (l : List α) (i n : Nat) : List α := (l.drop i).take n

variable {l xs : List α} {i : Nat}

@[simp] lemma length_splice (h : i + xs.length ≤ l.length) : (splice l i xs).length = l.length := by
  simp only [splice, List.length_append, List.length_take, List.length_drop]
  omega

variable {l : List α} {i n : Nat}

@[simp] lemma length_slice (h : i + n ≤ l.length) : (slice l i n).length = n := by
  simp only [slice, List.length_take, List.length_drop]
  omega

lemma getElem?_slice (l : List α) (i n k : Nat) : (slice l i n)[k]? = if k < n then l[i + k]? else none := by
  rw [slice, List.getElem?_take]
  by_cases h : k < n
  · rw [if_pos h, if_pos h, List.getElem?_drop]
  · rw [if_neg h, if_neg h]

/-- Lists that hold the same in a part. -/
lemma slice_congr {l l' : List α} (h : ∀ k < n, l[i + k]? = l'[i + k]?) : slice l i n = slice l' i n := by
  apply List.ext_getElem?
  intro k
  rw [getElem?_slice, getElem?_slice]
  split
  · next hk => exact h k hk
  · rfl

lemma getElem?_of_slice_eq {l l' : List α} {i n k : Nat} (h : slice l i n = slice l' i n) (hk : k < n) :
    l[i + k]? = l'[i + k]? := by
  have hget := congrArg (fun part => part[k]?) h
  simp only [getElem?_slice, if_pos hk] at hget
  exact hget

/-- Two neighbouring parts. -/
lemma slice_append_slice (l : List α) (i m n : Nat) : slice l i m ++ slice l (i + m) n = slice l i (m + n) := by
  rw [slice, slice, slice, List.take_add, List.drop_drop]

/-- What a splice holds at each index. -/
lemma getElem?_splice (h : i + xs.length ≤ l.length) (k : Nat) :
    (splice l i xs)[k]? = if i ≤ k ∧ k < i + xs.length then xs[k - i]? else l[k]? := by
  have hlen : (l.take i).length = i := by
    rw [List.length_take]
    omega
  rw [splice, List.append_assoc]
  rcases Nat.lt_or_ge k i with hk | hk
  · rw [List.getElem?_append_left (by omega), List.getElem?_take, if_pos hk, if_neg (by omega)]
  rw [List.getElem?_append_right (by omega), hlen]
  rcases Nat.lt_or_ge k (i + xs.length) with hk' | hk'
  · rw [List.getElem?_append_left (by omega), if_pos ⟨hk, hk'⟩]
  · rw [List.getElem?_append_right (by omega), List.getElem?_drop, if_neg (by omega)]
    congr 1
    omega

/-- A list made of pieces of one length. -/
lemma getElem?_flatMap_of_length {β : Type} {f : α → List β} {n : Nat} (hn : 0 < n)
    (hf : ∀ x, (f x).length = n) (l : List α) (k : Nat) :
    (l.flatMap f)[k]? = l[k / n]?.bind fun x => (f x)[k % n]? := by
  induction l generalizing k with
  | nil => rfl
  | cons x l ih =>
    rw [List.flatMap_cons]
    rcases Nat.lt_or_ge k n with hk | hk
    · rw [List.getElem?_append_left (by rwa [hf]), Nat.div_eq_of_lt hk, Nat.mod_eq_of_lt hk]
      rfl
    · obtain ⟨j, rfl⟩ := Nat.exists_eq_add_of_le hk
      rw [List.getElem?_append_right (by rwa [hf]), hf, Nat.add_sub_cancel_left, ih,
        Nat.add_div_left j hn, Nat.add_mod_left]
      rfl

/-- Inside of the spliced range. -/
lemma getElem?_splice_of_mem {i k : Nat} (h : i + xs.length ≤ l.length) (hk : i ≤ k)
    (hk' : k < i + xs.length) : (splice l i xs)[k]? = xs[k - i]? := by
  rw [getElem?_splice h, if_pos ⟨hk, hk'⟩]

/-- Outside of the spliced range. -/
lemma getElem?_splice_of_notMem {i k : Nat} (h : i + xs.length ≤ l.length)
    (hk : k < i ∨ i + xs.length ≤ k) : (splice l i xs)[k]? = l[k]? := by
  rw [getElem?_splice h, if_neg (by omega)]

/-- Splicing the middle one of three parts. -/
lemma splice_middle {a b c xs : List α} (hi : a.length = i) (hb : b.length = xs.length) :
    splice (a ++ (b ++ c)) i xs = a ++ (xs ++ c) := by
  rw [splice, List.take_left' hi, ← List.drop_drop, List.drop_left' hi, List.drop_left' hb, List.append_assoc]

/-- The middle one of three parts. -/
lemma slice_middle {a b c : List α} (hi : a.length = i) (hn : b.length = n) : slice (a ++ (b ++ c)) i n = b := by
  rw [slice, List.drop_left' hi, List.take_left' hn]

/-- What was spliced at the start. -/
lemma take_splice_zero : (splice l 0 xs).take xs.length = xs := by
  rw [splice, List.take_zero, List.nil_append, List.take_left]

lemma splice_zero_inj {l xs ys : List α} (hlen : xs.length = ys.length) (h : splice l 0 xs = splice l 0 ys) :
    xs = ys := by
  have htake := congrArg (List.take xs.length) h
  rw [take_splice_zero, hlen, take_splice_zero] at htake
  exact htake

/-- A part of what was spliced. -/
lemma slice_splice_of_inside {l xs : List α} {i j n : Nat} (h : i + xs.length ≤ l.length)
    (hj : j + n ≤ xs.length) : slice (splice l i xs) (i + j) n = slice xs j n := by
  apply List.ext_getElem?
  intro k
  rw [getElem?_slice, getElem?_slice]
  split
  · rw [getElem?_splice_of_mem h (by omega) (by omega)]
    congr 1
    omega
  · rfl

/-- What was spliced. -/
lemma slice_splice_self {l xs : List α} {i : Nat} (h : i + xs.length ≤ l.length) :
    slice (splice l i xs) i xs.length = xs := by
  have hpart := @slice_splice_of_inside α l xs i 0 xs.length h (Nat.zero_add _).le
  rw [Nat.add_zero, slice, slice, List.drop_zero, List.take_length] at hpart
  exact hpart

/-- Splicing twice at the same place. -/
lemma splice_splice_self {l xs ys : List α} (h : i + xs.length ≤ l.length) (hlen : ys.length = xs.length) :
    splice (splice l i xs) i ys = splice l i ys := by
  have hfront : (l.take i).length = i := by
    rw [List.length_take]
    omega
  have hmiddle : (l.take i ++ xs).length = i + ys.length := by
    rw [List.length_append, hfront, hlen]
  rw [splice, splice, splice, List.append_assoc (l.take i), List.take_left' hfront, ← List.append_assoc (l.take i) xs,
    List.drop_left' hmiddle, hlen]

/-- A part that nothing was spliced into. -/
lemma slice_splice_of_apart {i j n : Nat} (h : i + xs.length ≤ l.length)
    (hj : j + n ≤ i ∨ i + xs.length ≤ j) : slice (splice l i xs) j n = slice l j n := by
  apply List.ext_getElem?
  intro k
  rw [getElem?_slice, getElem?_slice]
  split
  · rw [getElem?_splice_of_notMem h (by omega)]
  · rfl

/-- One element. -/
lemma slice_one (h : i < l.length) (d : α) : slice l i 1 = [l.getD i d] := by
  rw [slice, List.drop_eq_getElem_cons h, List.take_succ_cons, List.take_zero,
    List.getD_eq_getElem?_getD, List.getElem?_eq_getElem h, Option.getD_some]

/-- What is in front of a splice. -/
lemma take_splice_of_le (h : i ≤ l.length) (hn : n ≤ i) : (splice l i xs).take n = l.take n := by
  rw [splice, List.append_assoc, List.take_append_of_le_length (by rw [List.length_take]; omega), List.take_take,
    Nat.min_eq_left hn]

/-- A part of the second of two parts. -/
lemma slice_append_right (a b : List α) (i n : Nat) : slice (a ++ b) (a.length + i) n = slice b i n := by
  rw [slice, ← List.drop_drop, List.drop_left, slice]

lemma slice_drop (l : List α) (i j n : Nat) : slice (l.drop i) j n = slice l (i + j) n := by
  rw [slice, slice, List.drop_drop]

/-- A part of the first of two parts. -/
lemma slice_append_left {a : List α} (h : i + n ≤ a.length) (b : List α) : slice (a ++ b) i n = slice a i n := by
  rw [slice, slice, List.drop_append_of_le_length (by omega),
    List.take_append_of_le_length (by rw [List.length_drop]; omega)]

/-- Splicing the second of two parts. -/
lemma splice_append_right (a b : List α) (i : Nat) (xs : List α) :
    splice (a ++ b) (a.length + i) xs = a ++ splice b i xs := by
  rw [splice, splice, List.take_length_add_append, Nat.add_assoc, List.drop_length_add_append, List.append_assoc,
    List.append_assoc, List.append_assoc]

/-- Splicing the first of two parts. -/
lemma splice_append_left {a xs : List α} (h : i + xs.length ≤ a.length) (b : List α) :
    splice (a ++ b) i xs = splice a i xs ++ b := by
  rw [splice, splice, List.take_append_of_le_length (by omega), List.drop_append_of_le_length h, List.append_assoc,
    List.append_assoc, List.append_assoc]

/-- Splicing all of the first of two parts. -/
lemma splice_front {a xs : List α} (h : a.length = xs.length) (b : List α) : splice (a ++ b) 0 xs = xs ++ b := by
  rw [splice, List.take_zero, List.nil_append, Nat.zero_add, ← h, List.drop_left]

/-- A part of a part. -/
lemma slice_slice {i j m n : Nat} (h : j + m ≤ n) : slice (slice l i n) j m = slice l (i + j) m := by
  rw [slice, slice, slice, List.drop_take, List.take_take, List.drop_drop, Nat.min_eq_left (by omega)]

/-- A splice behind the front of a list. -/
lemma drop_splice (h : i ≤ l.length) (j : Nat) (xs : List α) :
    (splice l (i + j) xs).drop i = splice (l.drop i) j xs := by
  obtain ⟨a, b, rfl, rfl⟩ : ∃ a b, l = a ++ b ∧ a.length = i :=
    ⟨l.take i, l.drop i, (List.take_append_drop i l).symm, List.length_take_of_le h⟩
  rw [splice_append_right, List.drop_left, List.drop_left]

/-- A splice into the back of a list. -/
lemma take_append_splice_drop (h : i ≤ l.length) (xs : List α) :
    l.take i ++ splice (l.drop i) 0 xs = splice l i xs := by
  obtain ⟨a, b, rfl, rfl⟩ : ∃ a b, l = a ++ b ∧ a.length = i :=
    ⟨l.take i, l.drop i, (List.take_append_drop i l).symm, List.length_take_of_le h⟩
  rw [List.take_left, List.drop_left, ← splice_append_right, Nat.add_zero]

/-- A part is spliced where it was cut out. -/
lemma splice_slice_self (h : i + n ≤ l.length) : splice l i (slice l i n) = l := by
  rw [splice, length_slice h, slice, List.append_assoc, ← List.drop_drop, List.take_append_drop, List.take_append_drop]

/-- Two splices, one behind the other. -/
lemma splice_splice_append {l xs ys : List α} {i : Nat} (h : i + (xs.length + ys.length) ≤ l.length) :
    splice (splice l i xs) (i + xs.length) ys = splice l i (xs ++ ys) := by
  have hfront : (l.take i ++ xs).length = i + xs.length := by
    rw [List.length_append, List.length_take]
    omega
  have htake : (splice l i xs).take (i + xs.length) = l.take i ++ xs := by
    rw [splice, ← hfront, List.take_left]
  have hdrop : (splice l i xs).drop (i + xs.length + ys.length) = l.drop (i + xs.length + ys.length) := by
    rw [splice, ← hfront, List.drop_length_add_append, List.drop_drop, hfront]
  rw [splice, htake, hdrop, splice, List.length_append, ← Nat.add_assoc, List.append_assoc (l.take i)]

/-- Two splices, one in front of the other. -/
lemma splice_splice_front {l xs ys : List α} (h : i + (xs.length + ys.length) ≤ l.length) :
    splice (splice l (i + xs.length) ys) i xs = splice l i (xs ++ ys) := by
  have hback : i + xs.length + ys.length ≤ l.length := by omega
  have hfront : i + xs.length ≤ (splice l (i + xs.length) ys).length := by
    rw [length_splice hback]
    omega
  apply List.ext_getElem?
  intro k
  rw [getElem?_splice hfront, getElem?_splice hback, getElem?_splice (by rwa [List.length_append]), List.length_append]
  by_cases hk : i ≤ k ∧ k < i + xs.length
  · rw [if_pos hk, if_pos (by omega), List.getElem?_append_left (by omega)]
  · rw [if_neg hk]
    by_cases hk' : i + xs.length ≤ k ∧ k < i + xs.length + ys.length
    · rw [if_pos hk', if_pos (by omega), List.getElem?_append_right (by omega), Nat.sub_sub]
    · rw [if_neg hk', if_neg (by omega)]

@[simp] lemma splice_nil (l : List α) (i : Nat) : splice l i [] = l := by
  simp [splice]

/-- The elements behind one, moved over it: it is gone from the first `n`. -/
lemma take_splice_slice (hi : i < n) (hn : n ≤ l.length) :
    (splice l i (slice l (i + 1) (n - (i + 1)))).take (n - 1) = (l.take n).eraseIdx i := by
  have hslice : (slice l (i + 1) (n - (i + 1))).length = n - (i + 1) := length_slice (by omega)
  have hlength : (l.take i ++ slice l (i + 1) (n - (i + 1))).length = n - 1 := by
    rw [List.length_append, hslice, List.length_take]
    omega
  rw [splice, List.take_append_of_le_length hlength.ge, List.take_of_length_le hlength.le,
    List.eraseIdx_eq_take_drop_succ, List.take_take, Nat.min_eq_left hi.le, List.drop_take, slice]

/-- Splicing a part that was cut out and spliced itself. -/
lemma splice_splice_slice {i n j : Nat} (hn : i + n ≤ l.length)
    (hj : j + xs.length ≤ n) : splice l i (splice (slice l i n) j xs) = splice l (i + j) xs := by
  have hslice := length_slice hn
  have hlen : (splice (slice l i n) j xs).length = n := by
    rw [length_splice (by omega), hslice]
  apply List.ext_getElem?
  intro k
  rw [getElem?_splice (by omega), hlen]
  by_cases hk : i ≤ k ∧ k < i + n
  · rw [if_pos hk, getElem?_splice (by omega), getElem?_splice (by omega), getElem?_slice,
      if_pos (show k - i < n by omega)]
    by_cases hk' : i + j ≤ k ∧ k < i + j + xs.length
    · rw [if_pos (by omega), if_pos hk']
      congr 1
      omega
    · rw [if_neg (by omega), if_neg hk']
      congr 1
      omega
  · rw [if_neg hk, getElem?_splice_of_notMem (by omega) (by omega)]

end RajNX.Splice
