import Mathlib.Tactic

/-!
# Little-endian numbers

Fixed-width little-endian byte strings and the numbers they stand for.
-/

namespace RajNX.LittleEndian

/-- The low `n` bytes of a number, least significant first. -/
def leBytes : Nat → Nat → List UInt8
  | 0, _ => []
  | n + 1, v => UInt8.ofNat v :: leBytes n (v / 256)

/-- The number a byte string stands for. -/
def leValue : List UInt8 → Nat
  | [] => 0
  | b :: bs => b.toNat + 256 * leValue bs

@[simp] lemma length_leBytes (n v : Nat) : (leBytes n v).length = n := by
  induction n generalizing v with
  | zero => rfl
  | succ n ih => rw [leBytes, List.length_cons, ih]

/-- Reading back gives the number, cut to the width. -/
lemma leValue_leBytes (n v : Nat) : leValue (leBytes n v) = v % 256 ^ n := by
  induction n generalizing v with
  | zero => rw [leBytes, leValue, Nat.pow_zero, Nat.mod_one]
  | succ n ih =>
    rw [leBytes, leValue, ih, UInt8.toNat_ofNat', Nat.pow_succ' (m := 256), Nat.mod_mul]

/-- A byte string is the one of its number. -/
lemma leBytes_leValue (bs : List UInt8) : leBytes bs.length (leValue bs) = bs := by
  induction bs with
  | nil => rfl
  | cons b bs ih =>
    have hb := b.toNat_lt
    have hdiv : (b.toNat + 256 * leValue bs) / 256 = leValue bs := by omega
    have hmod : UInt8.ofNat (b.toNat + 256 * leValue bs) = b := by
      apply UInt8.toNat_inj.mp
      rw [UInt8.toNat_ofNat']
      omega
    rw [List.length_cons, leValue, leBytes, hdiv, hmod, ih]

lemma leValue_lt (bs : List UInt8) : leValue bs < 256 ^ bs.length := by
  induction bs with
  | nil => exact Nat.one_pos
  | cons b bs ih =>
    have hb := b.toNat_lt
    rw [leValue, List.length_cons, Nat.pow_succ]
    omega

lemma leValue_append (as bs : List UInt8) : leValue (as ++ bs) = leValue as + 256 ^ as.length * leValue bs := by
  induction as with
  | nil => rw [List.nil_append, leValue, List.length_nil, Nat.pow_zero, Nat.zero_add, Nat.one_mul]
  | cons a as ih =>
    rw [List.cons_append, leValue, leValue, ih, List.length_cons, Nat.pow_succ]
    ring

/-- The low bytes and the high bytes of a value. -/
lemma leBytes_add (n k v : Nat) : leBytes (n + k) v = leBytes n v ++ leBytes k (v / 256 ^ n) := by
  induction n generalizing v with
  | zero => simp [leBytes]
  | succ n ih =>
    rw [Nat.add_right_comm, leBytes, leBytes, ih, List.cons_append, Nat.div_div_eq_div_mul, ← Nat.pow_succ']

end RajNX.LittleEndian
