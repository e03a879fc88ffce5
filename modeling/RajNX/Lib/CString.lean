import Mathlib.Tactic
import Mathlib.Data.List.TakeWhile

/-!
# C strings in byte buffers

The string a buffer holds up to its terminator, and the standard functions on it. A buffer is the
list of its bytes.
-/

namespace RajNX.CString

/-- The bytes before the terminator. -/
def cString (buf : List UInt8) : List UInt8 := buf.takeWhile (· ≠ 0)

/-- `strnlen` -/
def strnlen (s : List UInt8) (n : Nat) : Nat := min (cString s).length n

/-- Whether `strncmp` finds the first `n` bytes of two strings equal. -/
def strncmpEq (a b : List UInt8) (n : Nat) : Bool := (cString a).take n == (cString b).take n

/-- The buffer after `strncpy` of a string into it with its own size as the bound. -/
def strncpy (out src : List UInt8) : List UInt8 :=
  (cString src ++ List.replicate out.length 0).take out.length

/-- The buffer after `strcat` of a string that it has room for. -/
def strcat (out s : List UInt8) : List UInt8 :=
  cString out ++ s ++ 0 :: out.drop ((cString out).length + s.length + 1)

lemma zero_notMem_cString (buf : List UInt8) : 0 ∉ cString buf := fun h => by
  simpa using List.mem_takeWhile_imp h

variable {s : List UInt8}

/-- A buffer without a terminator is all string. -/
lemma cString_of_notMem (h : 0 ∉ s) : cString s = s :=
  List.takeWhile_eq_self_iff.mpr fun _ hc => decide_eq_true fun heq => h (heq ▸ hc)

lemma length_cString_lt (h : 0 ∈ s) : (cString s).length < s.length := by
  have hinit : cString s <+: s := List.takeWhile_prefix _
  refine Nat.lt_of_le_of_ne hinit.length_le fun heq => zero_notMem_cString s ?_
  rwa [hinit.eq_of_length heq]

section Terminators

variable {s : List UInt8} {n : Nat} (hlen : s.length = n)
include hlen

lemma strnlen_full (h : 0 ∉ s) : strnlen s n = n := by
  rw [strnlen, cString_of_notMem h, hlen, Nat.min_self]

/-- A string is shorter than its buffer unless that has no terminator. -/
lemma strnlen_lt_or : strnlen s n < n ∨ 0 ∉ s := by
  by_cases h : 0 ∈ s
  · exact .inl (hlen ▸ Nat.lt_of_le_of_lt (Nat.min_le_left _ _) (length_cString_lt h))
  · exact .inr h

end Terminators

/-- A terminated string is read back from the buffer. -/
lemma cString_append (h : 0 ∉ s) (rest : List UInt8) : cString (s ++ 0 :: rest) = s := by
  induction s with
  | nil => rfl
  | cons b s ih =>
    rw [List.mem_cons, not_or] at h
    rw [cString, List.cons_append, List.takeWhile_cons, if_pos (by simpa using Ne.symm h.1)]
    exact congrArg _ (ih h.2)

/-- The string from an index inside of it on -/
lemma cString_drop {n : Nat} (h : n ≤ (cString s).length) : cString (s.drop n) = (cString s).drop n := by
  induction n generalizing s with
  | zero => rfl
  | succ n ih =>
    cases s with
    | nil => rfl
    | cons b s =>
      by_cases hb : b = 0
      · rw [hb] at h
        cases h
      · have hcons : cString (b :: s) = b :: cString s := by
          rw [cString, List.takeWhile_cons, if_pos (by simpa using hb), cString]
        rw [hcons, List.length_cons] at h
        rw [hcons, List.drop_succ_cons, List.drop_succ_cons]
        exact ih (Nat.le_of_succ_le_succ h)

@[simp] lemma length_strncpy (out src : List UInt8) : (strncpy out src).length = out.length := by
  simp [strncpy]

/-- Copying a string that fits leaves it at the start of the buffer. -/
lemma strncpy_of_le {out s : List UInt8} (h : 0 ∉ s) (hle : s.length ≤ out.length) (rest : List UInt8) :
    strncpy out (s ++ 0 :: rest) = s ++ List.replicate (out.length - s.length) 0 := by
  rw [strncpy, cString_append h, List.take_append, List.take_of_length_le hle,
    List.take_replicate, Nat.min_eq_left (Nat.sub_le _ _)]

/-- Appending to a terminated string. -/
lemma strcat_append (h : 0 ∉ s) (rest t : List UInt8) : ∃ rest', strcat (s ++ 0 :: rest) t = s ++ t ++ 0 :: rest' := by
  rw [strcat, cString_append h]
  exact ⟨_, rfl⟩

/-- Clearing the last byte of a buffer keeps the string in front of it. -/
lemma set_last (s : List UInt8) {rest : List UInt8} (h : rest ≠ []) (n : Nat) (hn : n = (s ++ rest).length - 1) :
    (s ++ rest).set n 0 = s ++ rest.set (rest.length - 1) 0 := by
  have hpos := List.length_pos_iff.mpr h
  rw [List.length_append] at hn
  rw [List.set_append_right _ _ (by omega), show n - s.length = rest.length - 1 by omega]

/-- Clearing the last byte of a buffer keeps a terminated string terminated. -/
lemma set_last_terminated (s rest : List UInt8) :
    ∃ rest', (s ++ 0 :: rest).set ((s ++ 0 :: rest).length - 1) 0 = s ++ 0 :: rest' := by
  rw [set_last s (List.cons_ne_nil 0 rest) _ rfl]
  cases rest with
  | nil => exact ⟨[], rfl⟩
  | cons b rest => exact ⟨_, rfl⟩

end RajNX.CString
