import Mathlib.Tactic
import Mathlib.Data.List.TakeWhile

/-!
# Numbers in C strings

`strtoul` with its white space, sign, prefix and saturation, in the C locale. Strings are the bytes in front of the
terminator.
-/

namespace RajNX.Strtoul

/-- `isspace` -/
def isSpace (c : UInt8) : Bool := c = 0x20 || (0x09 ≤ c && c ≤ 0x0D)

/-- The value of a digit or a letter; other characters have one that no base reaches. -/
def digitValue (c : UInt8) : Nat :=
  if 0x30 ≤ c ∧ c ≤ 0x39 then c.toNat - 0x30
  else if 0x61 ≤ c ∧ c ≤ 0x7A then c.toNat - 0x57
  else if 0x41 ≤ c ∧ c ≤ 0x5A then c.toNat - 0x37
  else 36

/-- The sign, if there is one. -/
def takeSign : List UInt8 → Bool × List UInt8
  | [] => (false, [])
  | c :: s => if c = 0x2D then (true, s) else if c = 0x2B then (false, s) else (false, c :: s)

/-- The base zero leaves the base to the string, and a hexadecimal number may have a prefix. -/
def takePrefix (base : Nat) (s : List UInt8) : Nat × List UInt8 :=
  match s with
  | zero :: x :: c :: rest =>
    if zero = 0x30 ∧ (x = 0x78 ∨ x = 0x58) ∧ digitValue c < 16 ∧ (base = 0 ∨ base = 16) then (16, c :: rest)
    else (if base = 0 then (if zero = 0x30 then 8 else 10) else base, s)
  | zero :: _ => (if base = 0 then (if zero = 0x30 then 8 else 10) else base, s)
  | [] => (if base = 0 then 10 else base, s)

/-- The number that digits stand for, the most significant one first. -/
def ofDigits (base : Nat) (digits : List UInt8) : Nat := digits.foldl (fun v c => v * base + digitValue c) 0

/-- `strtoul(s, nullptr, base)` -/
def strtoul (base : Nat) (s : List UInt8) : Nat :=
  let (negative, s) := takeSign (s.dropWhile isSpace)
  let (base, s) := takePrefix base s
  let v := ofDigits base (s.takeWhile (digitValue · < base))
  if 2 ^ 64 ≤ v then 2 ^ 64 - 1 else if negative then (2 ^ 64 - v) % 2 ^ 64 else v

section Digits

variable {c : UInt8} {s : List UInt8} {base : Nat}

/-- The hexadecimal digits. -/
lemma digitValue_lt_sixteen (h : digitValue c < 16) :
    48 ≤ c.toNat ∧ c.toNat ≤ 57 ∨ 97 ≤ c.toNat ∧ c.toNat ≤ 102 ∨ 65 ≤ c.toNat ∧ c.toNat ≤ 70 := by
  simp only [digitValue, UInt8.le_iff_toNat_le, UInt8.reduceToNat] at h
  split at h
  · omega
  split at h
  · omega
  split at h <;> omega

lemma not_isSpace_of_digit (h : digitValue c < 16) : isSpace c = false := by
  have hrange := digitValue_lt_sixteen h
  simp only [isSpace, ← UInt8.toNat_inj, UInt8.le_iff_toNat_le, UInt8.reduceToNat]
  simp only [Bool.or_eq_false_iff, Bool.and_eq_false_iff, decide_eq_false_iff_not]
  omega

lemma takeSign_digit (h : digitValue c < 16) : takeSign (c :: s) = (false, c :: s) := by
  have hrange := digitValue_lt_sixteen h
  simp only [takeSign, ← UInt8.toNat_inj, UInt8.reduceToNat]
  rw [if_neg (by omega), if_neg (by omega)]

lemma takePrefix_digits (hs : ∀ c ∈ s, digitValue c < 16) : takePrefix 16 s = (16, s) := by
  match s with
  | [] => rfl
  | [_] => rfl
  | [_, _] => rfl
  | zero :: x :: c :: rest =>
    have hrange := digitValue_lt_sixteen (hs x (by simp))
    rw [takePrefix, if_neg]
    · rfl
    · rintro ⟨-, hx | hx, -⟩ <;> rw [hx] at hrange <;> revert hrange <;> decide

lemma ofDigits_lt (hs : ∀ c ∈ s, digitValue c < base) : ofDigits base s < base ^ s.length := by
  induction s using List.reverseRecOn with
  | nil => exact Nat.one_pos
  | append_singleton s c ih =>
    have hc := hs c (by simp)
    have hinit := ih fun c hc => hs c (List.mem_append_left _ hc)
    have hmul := Nat.mul_le_mul_right base (Nat.succ_le_of_lt hinit)
    rw [Nat.succ_mul] at hmul
    rw [ofDigits, List.foldl_append, List.length_append, List.length_singleton, pow_succ]
    rw [ofDigits] at hmul
    simp only [List.foldl_cons, List.foldl_nil]
    omega

/-- Up to sixteen hexadecimal digits are read as the number that they stand for. -/
lemma strtoul_digits (hs : ∀ c ∈ s, digitValue c < 16) (hlen : s.length ≤ 16) : strtoul 16 s = ofDigits 16 s := by
  have hlt : ofDigits 16 s < 2 ^ 64 := by
    refine (ofDigits_lt hs).trans_le ?_
    rw [show 2 ^ 64 = 16 ^ 16 from rfl]
    exact Nat.pow_le_pow_right (by decide) hlen
  have hspace : s.dropWhile isSpace = s := by
    cases s with
    | nil => rfl
    | cons c s => rw [List.dropWhile_cons, if_neg (by rw [not_isSpace_of_digit (hs c (.head _))]; decide)]
  have hsign : takeSign s = (false, s) := by
    cases s with
    | nil => rfl
    | cons c s => exact takeSign_digit (hs c (.head _))
  have hall : s.takeWhile (fun c => decide (digitValue c < 16)) = s :=
    List.takeWhile_eq_self_iff.mpr fun c hc => decide_eq_true (hs c hc)
  rw [strtoul, hspace, hsign]
  dsimp only
  rw [takePrefix_digits hs]
  dsimp only
  rw [hall, if_neg (Nat.not_le.mpr hlt), if_neg Bool.false_ne_true]

end Digits

end RajNX.Strtoul
