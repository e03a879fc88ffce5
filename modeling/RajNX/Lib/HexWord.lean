import Mathlib.Data.Nat.Bitwise
import Mathlib.Tactic

/-!
# Words as hexadecimal digits

32-bit words written digit by digit, as instruction layouts such as `0TMR00AA` are, and the ways of
taking them apart again: one nybble at a time, the low bits under a mask, or two words as one 64-bit
value. Every equation is proved over `Nat`, where the digits of a sum of multiples of powers of 16
are what `omega` can read off.
-/

namespace RajNX.HexWord

/-- `(w >> shift) & 0xF` -/
def nybble (w shift : UInt32) : Nat := ((w >>> shift) &&& 0xF).toNat

/-- `((u64)hi << 32) | lo` -/
def dwords (hi lo : UInt32) : UInt64 := (hi.toUInt64 <<< 32) ||| lo.toUInt64

/-- The word with the given hexadecimal digits, most significant first. -/
def hexWord (n₇ n₆ n₅ n₄ n₃ n₂ n₁ n₀ : Fin 16) : UInt32 :=
  UInt32.ofNat (n₇ * 0x10000000 + n₆ * 0x1000000 + n₅ * 0x100000 + n₄ * 0x10000
    + n₃ * 0x1000 + n₂ * 0x100 + n₁ * 0x10 + n₀)

/-- The `i`-th hexadecimal digit of a number, counted from the least significant. -/
def digit (n i : Nat) : Fin 16 := ⟨n / 16 ^ i % 16, Nat.mod_lt _ (by decide)⟩

@[simp] lemma val_digit (n i : Nat) : (digit n i : Nat) = n / 16 ^ i % 16 := rfl

/-- The word as a number. -/
lemma toNat_hexWord (n₇ n₆ n₅ n₄ n₃ n₂ n₁ n₀ : Fin 16) :
    (hexWord n₇ n₆ n₅ n₄ n₃ n₂ n₁ n₀).toNat = n₇ * 0x10000000 + n₆ * 0x1000000 + n₅ * 0x100000 + n₄ * 0x10000
        + n₃ * 0x1000 + n₂ * 0x100 + n₁ * 0x10 + n₀ := by
  rw [hexWord, UInt32.toNat_ofNat']
  apply Nat.mod_eq_of_lt
  omega

/-- A nybble as a number. -/
lemma nybble_eq (w shift : UInt32) : nybble w shift = w.toNat / 2 ^ (shift.toNat % 32) % 16 := by
  rw [nybble, UInt32.toNat_and, UInt32.toNat_shiftRight, Nat.shiftRight_eq_div_pow]
  exact Nat.and_two_pow_sub_one_eq_mod _ 4

section Digits

variable (n₇ n₆ n₅ n₄ n₃ n₂ n₁ n₀ : Fin 16)

@[simp] lemma nybble_hexWord_28 : nybble (hexWord n₇ n₆ n₅ n₄ n₃ n₂ n₁ n₀) 28 = n₇ := by
  rw [nybble_eq, toNat_hexWord, show UInt32.toNat 28 % 32 = 28 from rfl]; omega

@[simp] lemma nybble_hexWord_24 : nybble (hexWord n₇ n₆ n₅ n₄ n₃ n₂ n₁ n₀) 24 = n₆ := by
  rw [nybble_eq, toNat_hexWord, show UInt32.toNat 24 % 32 = 24 from rfl]; omega

@[simp] lemma nybble_hexWord_20 : nybble (hexWord n₇ n₆ n₅ n₄ n₃ n₂ n₁ n₀) 20 = n₅ := by
  rw [nybble_eq, toNat_hexWord, show UInt32.toNat 20 % 32 = 20 from rfl]; omega

@[simp] lemma nybble_hexWord_16 : nybble (hexWord n₇ n₆ n₅ n₄ n₃ n₂ n₁ n₀) 16 = n₄ := by
  rw [nybble_eq, toNat_hexWord, show UInt32.toNat 16 % 32 = 16 from rfl]; omega

@[simp] lemma nybble_hexWord_12 : nybble (hexWord n₇ n₆ n₅ n₄ n₃ n₂ n₁ n₀) 12 = n₃ := by
  rw [nybble_eq, toNat_hexWord, show UInt32.toNat 12 % 32 = 12 from rfl]; omega

@[simp] lemma nybble_hexWord_8 : nybble (hexWord n₇ n₆ n₅ n₄ n₃ n₂ n₁ n₀) 8 = n₂ := by
  rw [nybble_eq, toNat_hexWord, show UInt32.toNat 8 % 32 = 8 from rfl]; omega

@[simp] lemma nybble_hexWord_4 : nybble (hexWord n₇ n₆ n₅ n₄ n₃ n₂ n₁ n₀) 4 = n₁ := by
  rw [nybble_eq, toNat_hexWord, show UInt32.toNat 4 % 32 = 4 from rfl]; omega

@[simp] lemma nybble_hexWord_0 : nybble (hexWord n₇ n₆ n₅ n₄ n₃ n₂ n₁ n₀) 0 = n₀ := by
  rw [nybble_eq, toNat_hexWord, show UInt32.toNat 0 % 32 = 0 from rfl]; omega

lemma toNat_hexWord_and_ff : (hexWord n₇ n₆ n₅ n₄ n₃ n₂ n₁ n₀ &&& 0xFF).toNat = n₁ * 0x10 + n₀ := by
  rw [UInt32.toNat_and, show (0xFF : UInt32).toNat = 2 ^ 8 - 1 from rfl, Nat.and_two_pow_sub_one_eq_mod, toNat_hexWord]
  omega

lemma toNat_hexWord_and_f : (hexWord n₇ n₆ n₅ n₄ n₃ n₂ n₁ n₀ &&& 0xF).toNat = n₀ := by
  rw [UInt32.toNat_and, show (0xF : UInt32).toNat = 2 ^ 4 - 1 from rfl, Nat.and_two_pow_sub_one_eq_mod, toNat_hexWord]
  omega

end Digits

/-- Two words as one number. -/
lemma toNat_dwords (hi lo : UInt32) : (dwords hi lo).toNat = hi.toNat * 2 ^ 32 + lo.toNat := by
  have h1 := hi.toNat_lt
  have h2 := lo.toNat_lt
  rw [dwords, UInt64.toNat_or, UInt64.toNat_shiftLeft, UInt32.toNat_toUInt64,
    UInt32.toNat_toUInt64, show UInt64.toNat 32 % 64 = 32 from rfl]
  rw [Nat.mod_eq_of_lt (by rw [Nat.shiftLeft_eq]; omega), ← Nat.shiftLeft_add_eq_or_of_lt h2, Nat.shiftLeft_eq]

/-- A 64-bit value is its high word and its low word. -/
@[simp] lemma dwords_ofNat (v : Nat) : dwords (UInt32.ofNat (v / 2 ^ 32)) (UInt32.ofNat v) = UInt64.ofNat v := by
  apply UInt64.toNat_inj.mp
  rw [toNat_dwords, UInt32.toNat_ofNat', UInt32.toNat_ofNat', UInt64.toNat_ofNat']
  omega

/-- A 40-bit address: its top two digits close the first word, the rest is the second word. -/
@[simp] lemma dwords_hexWord_and_ff (n₇ n₆ n₅ n₄ n₃ n₂ : Fin 16) {a : Nat} (h : a < 2 ^ 40) :
    dwords (hexWord n₇ n₆ n₅ n₄ n₃ n₂ (digit a 9) (digit a 8) &&& 0xFF) (UInt32.ofNat a) =
      UInt64.ofNat a := by
  apply UInt64.toNat_inj.mp
  rw [toNat_dwords, toNat_hexWord_and_ff, UInt32.toNat_ofNat', UInt64.toNat_ofNat']
  simp only [val_digit]
  omega

/-- A 36-bit address: its top digit closes the first word, the rest is the second word. -/
@[simp] lemma dwords_hexWord_and_f (n₇ n₆ n₅ n₄ n₃ n₂ n₁ : Fin 16) {a : Nat} (h : a < 2 ^ 36) :
    dwords (hexWord n₇ n₆ n₅ n₄ n₃ n₂ n₁ (digit a 8) &&& 0xF) (UInt32.ofNat a) =
      UInt64.ofNat a := by
  apply UInt64.toNat_inj.mp
  rw [toNat_dwords, toNat_hexWord_and_f, UInt32.toNat_ofNat', UInt64.toNat_ofNat']
  simp only [val_digit]
  omega

/-- A 28-bit mask under a first digit. -/
lemma hexWord_and_fffffff (n₇ : Fin 16) {a : Nat} (h : a < 2 ^ 28) :
    hexWord n₇ (digit a 6) (digit a 5) (digit a 4) (digit a 3) (digit a 2) (digit a 1) (digit a 0)
      &&& 0x0FFFFFFF = UInt32.ofNat a := by
  apply UInt32.toNat_inj.mp
  rw [UInt32.toNat_and, show (0x0FFFFFFF : UInt32).toNat = 2 ^ 28 - 1 from rfl,
    Nat.and_two_pow_sub_one_eq_mod, toNat_hexWord, UInt32.toNat_ofNat']
  simp only [val_digit]
  omega

/-- A bit of the low half of a word. -/
lemma hexWord_and_one_shiftLeft (n₇ n₆ n₅ n₄ : Fin 16) {a i : Nat} (h : a < 2 ^ 16) (hi : i < 16) :
    (hexWord n₇ n₆ n₅ n₄ (digit a 3) (digit a 2) (digit a 1) (digit a 0)
      &&& (1 <<< UInt32.ofNat i) != 0) = a.testBit i := by
  have hlow : (hexWord n₇ n₆ n₅ n₄ (digit a 3) (digit a 2) (digit a 1) (digit a 0)).toNat % 2 ^ 16
      = a := by
    rw [toNat_hexWord]; simp only [val_digit]; omega
  have hshift : ((1 : UInt32) <<< UInt32.ofNat i).toNat = 2 ^ i := by
    have : 2 ^ i < 2 ^ 16 := Nat.pow_lt_pow_right (by decide) hi
    rw [UInt32.toNat_shiftLeft, UInt32.toNat_ofNat', Nat.mod_eq_of_lt (by omega : i < 2 ^ 32),
      Nat.mod_eq_of_lt (by omega : i < 32), Nat.shiftLeft_eq, show UInt32.toNat 1 = 1 from rfl]
    omega
  have hbit := Nat.testBit_mod_two_pow
    (hexWord n₇ n₆ n₅ n₄ (digit a 3) (digit a 2) (digit a 1) (digit a 0)).toNat 16 i
  rw [hlow] at hbit
  rw [hbit, Bool.eq_iff_iff, bne_iff_ne, ne_eq, ← UInt32.toNat_inj, UInt32.toNat_and, hshift,
    show UInt32.toNat 0 = 0 from rfl, Nat.and_two_pow]
  simp [hi]

end RajNX.HexWord
