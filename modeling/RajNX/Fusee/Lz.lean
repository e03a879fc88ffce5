import RajNX.Lib.Lz77

/-!
# The LZ77 coder of `lz.c`

`LZ_Compress` and `LZ_Uncompress` with the functions they call. The input of the coder is a memory and a size, since
the test of a candidate may look at the byte behind the input. The decoder fails where it would read outside of its
input or in front of its output. What has been in its output before is a parameter: a reference of offset 0 copies each
byte onto itself. The output is one of fewer than 2^32 bytes, so that `outpos` does not wrap.

The first byte of a compressed stream is the marker. Every other byte stands for itself, and the marker starts either
a zero, for the byte itself, or the length and the offset of a reference, in seven bits a byte.
-/

namespace RajNX.Fusee

open Lz77

/-! ### Numbers of variable size -/

/-- The first loop of `_LZ_WriteVarSize`, with `num_bytes` one above the count. -/
def countVarSize (y : ℕ) : ℕ → ℕ
  | 0 => 1
  | n + 1 => if y &&& 0xfe000000 ≠ 0 then n + 2 else countVarSize ((y <<< 7) % 2 ^ 32) n

/-- The second loop, with `i` one below the count. -/
def varSizeBytes (x : ℕ) : ℕ → List UInt8
  | 0 => []
  | i + 1 =>
    let b := x >>> (i * 7) &&& 0x7f
    UInt8.ofNat (if 0 < i then b ||| 0x80 else b) :: varSizeBytes x i

/-- `_LZ_WriteVarSize`. -/
def writeVarSize (x : ℕ) : List UInt8 := varSizeBytes x (countVarSize (x >>> 3) 4)

/-- The loop of `_LZ_ReadVarSize`, with the bytes that are left. -/
def readVarSizeFrom (y : ℕ) : List UInt8 → Option (ℕ × List UInt8)
  | [] => none
  | b :: bs =>
    let y' := (y <<< 7) % 2 ^ 32 ||| (b.toNat &&& 0x7f)
    if b.toNat &&& 0x80 ≠ 0 then readVarSizeFrom y' bs else some (y', bs)

/-- `_LZ_ReadVarSize`. -/
def readVarSize (bs : List UInt8) : Option (ℕ × List UInt8) := readVarSizeFrom 0 bs

/-! ### The decoder -/

section Decoder

variable (initial : ℕ → UInt8)

/-- A turn of the loop of `LZ_Uncompress`: the output then, and the input that is left. -/
def uncompressTurn (marker : UInt8) (out : List UInt8) : List UInt8 → Option (List UInt8 × List UInt8)
  | [] => none
  | symbol :: rest =>
    if symbol = marker then
      match rest with
      | [] => none
      | b :: rest' =>
        if b = 0 then some (out ++ [marker], rest')
        else (readVarSize (b :: rest')).bind fun l => (readVarSize l.2).bind fun o =>
          (copy initial out o.1 l.1).map fun out' => (out', o.2)
    else some (out ++ [symbol], rest)

/-- The loop of `LZ_Uncompress`, for so many turns at most. -/
def uncompressLoop (marker : UInt8) : ℕ → List UInt8 → List UInt8 → Option (List UInt8)
  | 0, _, _ => none
  | turns + 1, out, rest => (uncompressTurn initial marker out rest).bind fun s =>
    if s.2 = [] then some s.1 else uncompressLoop marker turns s.1 s.2

/-- `LZ_Uncompress`. Each turn reads a byte at least. -/
def uncompress : List UInt8 → Option (List UInt8)
  | [] => some []
  | marker :: rest => uncompressLoop initial marker (rest.length + 1) [] rest

end Decoder

/-! ### The coder -/

/-- `_LZ_StringCompare`, for so many more bytes at most. -/
def stringCompareFrom (str1 str2 : ℕ → UInt8) : ℕ → ℕ → ℕ
  | 0, len => len
  | n + 1, len => if str1 len = str2 len then stringCompareFrom str1 str2 n (len + 1) else len

/-- `_LZ_StringCompare`. -/
def stringCompare (str1 str2 : ℕ → UInt8) (minlen maxlen : ℕ) : ℕ :=
  stringCompareFrom str1 str2 (maxlen - minlen) minlen

/-- How often each byte is in the input. -/
def histogram (mem : ℕ → UInt8) (insize : ℕ) : List ℕ :=
  (List.range insize).foldl (fun h i => h.modify (mem i).toNat (· + 1)) (List.replicate 256 0)

/-- The first of the least common bytes. -/
def leastCommon (h : List ℕ) : ℕ :=
  (List.range' 1 255).foldl (fun marker i => if h.getD i 0 < h.getD marker 0 then i else marker) 0

def lzMaxOffset : ℕ := 100000

/-- A turn of the search: `bestlength` and `bestoffset` after the candidate at an offset. -/
def matchTurn (mem : ℕ → UInt8) (inpos bytesleft : ℕ) (best : ℕ × ℕ) (offset : ℕ) : ℕ × ℕ :=
  let ptr1 := fun k => mem (inpos + k)
  let ptr2 := fun k => mem (inpos - offset + k)
  if ptr1 0 = ptr2 0 ∧ ptr1 best.1 = ptr2 best.1 then
    let maxlength := if bytesleft < offset then bytesleft else offset
    let length := stringCompare ptr1 ptr2 0 maxlength
    if best.1 < length then (length, offset) else best
  else best

/-- The search of the history window. -/
def bestMatch (mem : ℕ → UInt8) (inpos bytesleft : ℕ) : ℕ × ℕ :=
  let maxoffset := if lzMaxOffset < inpos then lzMaxOffset else inpos
  (List.range' 3 (maxoffset + 1 - 3)).foldl (matchTurn mem inpos bytesleft) (3, 0)

/-- A reference takes less space than the string. -/
def GoodEnough (bestlength bestoffset : ℕ) : Prop :=
  8 ≤ bestlength ∨ bestlength = 4 ∧ bestoffset ≤ 0x0000007f ∨ bestlength = 5 ∧ bestoffset ≤ 0x00003fff ∨
    bestlength = 6 ∧ bestoffset ≤ 0x001fffff ∨ bestlength = 7 ∧ bestoffset ≤ 0x0fffffff

instance (bestlength bestoffset : ℕ) : Decidable (GoodEnough bestlength bestoffset) := by
  unfold GoodEnough
  infer_instance

/-- A byte, or two if it is the marker. -/
def writeSymbol (marker symbol : UInt8) : List UInt8 := if symbol = marker then [symbol, 0] else [symbol]

/-- A turn of the main loop of `LZ_Compress`: what it writes, and how many bytes it has coded. -/
def compressTurn (mem : ℕ → UInt8) (marker : UInt8) (inpos bytesleft : ℕ) : List UInt8 × ℕ :=
  let best := bestMatch mem inpos bytesleft
  if GoodEnough best.1 best.2 then (marker :: (writeVarSize best.1 ++ writeVarSize best.2), best.1)
  else (writeSymbol marker (mem inpos), 1)

/-- The main loop, for so many turns at most: what it writes, and where it ends. -/
def compressLoop (mem : ℕ → UInt8) (marker : UInt8) : ℕ → ℕ → ℕ → Option (List UInt8 × ℕ)
  | 0, _, _ => none
  | turns + 1, inpos, bytesleft =>
    let turn := compressTurn mem marker inpos bytesleft
    if 3 < bytesleft - turn.2 then
      (compressLoop mem marker turns (inpos + turn.2) (bytesleft - turn.2)).map fun r => (turn.1 ++ r.1, r.2)
    else some (turn.1, inpos + turn.2)

/-- The bytes that the main loop has left. -/
def dumpRemaining (mem : ℕ → UInt8) (marker : UInt8) (inpos insize : ℕ) : List UInt8 :=
  (List.range' inpos (insize - inpos)).flatMap fun i => writeSymbol marker (mem i)

/-- `LZ_Compress`. Each turn codes a byte at least. -/
def compress (mem : ℕ → UInt8) (insize : ℕ) : Option (List UInt8) :=
  if insize < 1 then some []
  else
    let marker := UInt8.ofNat (leastCommon (histogram mem insize))
    (compressLoop mem marker insize 0 insize).map fun r => marker :: (r.1 ++ dumpRemaining mem marker r.2 insize)

/-! ### Numbers round trip -/

section VarSize

variable {x y n : ℕ}

/-- The mask finds the upper seven bits of 32. -/
lemma and_upper (hy : y < 2 ^ 32) : y &&& 0xfe000000 ≠ 0 ↔ 2 ^ 25 ≤ y := by
  have hdiv : (y &&& 0xfe000000) / 2 ^ 25 = y / 2 ^ 25 := by
    rw [Nat.and_div_two_pow, show 0xfe000000 / 2 ^ 25 = 2 ^ 7 - 1 by norm_num, Nat.and_two_pow_sub_one_eq_mod]
    omega
  have hmod : (y &&& 0xfe000000) % 2 ^ 25 = 0 := by
    rw [Nat.and_mod_two_pow, show 0xfe000000 % 2 ^ 25 = 0 by norm_num, Nat.and_zero]
  omega

lemma countVarSize_succ (hy : y < 2 ^ 32) :
    countVarSize y (n + 1) = if 2 ^ 25 ≤ y then n + 2 else countVarSize (y * 2 ^ 7) n := by
  rw [countVarSize, Nat.shiftLeft_eq]
  split_ifs with hupper hle hle
  · rfl
  · exact absurd ((and_upper hy).mp hupper) hle
  · exact absurd ((and_upper hy).mpr hle) hupper
  · rw [Nat.mod_eq_of_lt (by omega)]

/-- The count is the least one that is enough. -/
lemma countVarSize_spec (hx : x < 2 ^ 32) : ∃ n ≤ 4, countVarSize (x >>> 3) 4 = n + 1 ∧ x < 2 ^ (7 * (n + 1)) ∧
    (n = 0 ∨ 2 ^ (7 * n) ≤ x) := by
  rw [Nat.shiftRight_eq_div_pow, countVarSize_succ (by omega)]
  split_ifs with h4
  · exact ⟨4, le_rfl, rfl, by omega, .inr (by omega)⟩
  rw [countVarSize_succ (by omega)]
  split_ifs with h3
  · exact ⟨3, by decide, rfl, by omega, .inr (by omega)⟩
  rw [countVarSize_succ (by omega)]
  split_ifs with h2
  · exact ⟨2, by decide, rfl, by omega, .inr (by omega)⟩
  rw [countVarSize_succ (by omega)]
  split_ifs with h1
  · exact ⟨1, by decide, rfl, by omega, .inr (by omega)⟩
  · exact ⟨0, by decide, rfl, by omega, .inl rfl⟩

/-- Seven bits of a number, and the upper bit while more bytes follow. -/
def varSizeByte (x i : ℕ) : ℕ := if 0 < i then x / 2 ^ (7 * i) % 2 ^ 7 + 2 ^ 7 else x / 2 ^ (7 * i) % 2 ^ 7

lemma varSizeByte_lt (x i : ℕ) : varSizeByte x i < 2 ^ 8 := by
  rw [varSizeByte]
  split_ifs <;> omega

lemma varSizeBytes_succ (x i : ℕ) : varSizeBytes x (i + 1) = UInt8.ofNat (varSizeByte x i) :: varSizeBytes x i := by
  rw [varSizeBytes, varSizeByte, Nat.shiftRight_eq_div_pow, show 0x7f = 2 ^ 7 - 1 by norm_num,
    Nat.and_two_pow_sub_one_eq_mod, Nat.mul_comm i 7]
  have hor : x / 2 ^ (7 * i) % 2 ^ 7 ||| 0x80 = x / 2 ^ (7 * i) % 2 ^ 7 + 2 ^ 7 := by
    rw [Nat.or_comm, show 0x80 = 2 ^ 7 * 1 by norm_num, ← Nat.two_pow_add_eq_or_of_lt (Nat.mod_lt _ (by norm_num))]
    omega
  rw [hor]

lemma length_varSizeBytes (x n : ℕ) : (varSizeBytes x n).length = n := by
  induction n with
  | zero => rfl
  | succ n ih => rw [varSizeBytes_succ, List.length_cons, ih]

lemma toNat_varSizeByte (x i : ℕ) : (UInt8.ofNat (varSizeByte x i)).toNat = varSizeByte x i :=
  Nat.mod_eq_of_lt (varSizeByte_lt x i)

/-- What reading a byte of a number does to the value. -/
lemma readVarSizeFrom_cons (y i : ℕ) (bs : List UInt8) :
    readVarSizeFrom y (UInt8.ofNat (varSizeByte x i) :: bs) =
      if 0 < i then readVarSizeFrom ((y * 2 ^ 7 + x / 2 ^ (7 * i) % 2 ^ 7) % 2 ^ 32) bs
      else some ((y * 2 ^ 7 + x / 2 ^ (7 * i) % 2 ^ 7) % 2 ^ 32, bs) := by
  have hlow : varSizeByte x i &&& 0x7f = x / 2 ^ (7 * i) % 2 ^ 7 := by
    rw [show 0x7f = 2 ^ 7 - 1 by norm_num, Nat.and_two_pow_sub_one_eq_mod, varSizeByte]
    split_ifs <;> omega
  have hhigh : varSizeByte x i &&& 0x80 ≠ 0 ↔ 0 < i := by
    have hdiv : (varSizeByte x i &&& 0x80) / 2 ^ 7 = varSizeByte x i / 2 ^ 7 := by
      rw [Nat.and_div_two_pow, show 0x80 / 2 ^ 7 = 2 ^ 1 - 1 by norm_num, Nat.and_two_pow_sub_one_eq_mod]
      have := varSizeByte_lt x i
      omega
    have hmod : (varSizeByte x i &&& 0x80) % 2 ^ 7 = 0 := by
      rw [Nat.and_mod_two_pow, show 0x80 % 2 ^ 7 = 0 by norm_num, Nat.and_zero]
    have hbyte : 2 ^ 7 ≤ varSizeByte x i ↔ 0 < i := by
      rw [varSizeByte]
      split_ifs with hi <;> simp only [hi, iff_true, iff_false] <;> omega
    rw [← hbyte]
    omega
  have hor : (y <<< 7) % 2 ^ 32 ||| x / 2 ^ (7 * i) % 2 ^ 7 = (y * 2 ^ 7 + x / 2 ^ (7 * i) % 2 ^ 7) % 2 ^ 32 := by
    have hshift : (y <<< 7) % 2 ^ 32 = 2 ^ 7 * (y % 2 ^ 25) := by
      rw [Nat.shiftLeft_eq]
      omega
    rw [hshift, ← Nat.two_pow_add_eq_or_of_lt (Nat.mod_lt _ (by norm_num))]
    omega
  rw [readVarSizeFrom, toNat_varSizeByte, hlow, hor]
  simp only [hhigh]

lemma readVarSizeFrom_bytes (x n y : ℕ) (rest : List UInt8) :
    readVarSizeFrom y (varSizeBytes x (n + 1) ++ rest) =
      some ((y * 2 ^ (7 * (n + 1)) + x % 2 ^ (7 * (n + 1))) % 2 ^ 32, rest) := by
  induction n generalizing y with
  | zero =>
    rw [varSizeBytes_succ, List.cons_append, readVarSizeFrom_cons]
    simp [varSizeBytes]
  | succ n ih =>
    rw [varSizeBytes_succ, List.cons_append, readVarSizeFrom_cons, if_pos n.succ_pos, ih]
    have hdigit : x % 2 ^ (7 * (n + 1 + 1)) = x % 2 ^ (7 * (n + 1)) + 2 ^ (7 * (n + 1)) *
        (x / 2 ^ (7 * (n + 1)) % 2 ^ 7) := by
      rw [show 7 * (n + 1 + 1) = 7 * (n + 1) + 7 by omega, pow_add, Nat.mod_mul]
    rw [hdigit, show 7 * (n + 1 + 1) = 7 * (n + 1) + 7 by omega, pow_add]
    congr 2
    rw [Nat.add_mod, Nat.mod_mul_mod, ← Nat.add_mod]
    congr 1
    ring

/-- What is written is read back. -/
lemma readVarSize_write (hx : x < 2 ^ 32) (rest : List UInt8) :
    readVarSize (writeVarSize x ++ rest) = some (x, rest) := by
  obtain ⟨n, -, hcount, hlt, -⟩ := countVarSize_spec hx
  rw [readVarSize, writeVarSize, hcount, readVarSizeFrom_bytes, Nat.zero_mul, Nat.zero_add, Nat.mod_eq_of_lt hlt,
    Nat.mod_eq_of_lt hx]

/-- The first byte of a number that is not zero is not zero. -/
lemma writeVarSize_eq_cons (hpos : 0 < x) (hx : x < 2 ^ 32) : ∃ b bs, writeVarSize x = b :: bs ∧ b ≠ 0 := by
  obtain ⟨n, -, hcount, hlt, hn⟩ := countVarSize_spec hx
  refine ⟨UInt8.ofNat (varSizeByte x n), varSizeBytes x n, by rw [writeVarSize, hcount, varSizeBytes_succ], ?_⟩
  intro hzero
  have hbyte : varSizeByte x n = 0 := by rw [← toNat_varSizeByte, hzero]; rfl
  rw [varSizeByte] at hbyte
  obtain rfl | hle := hn
  · simp at hbyte
    omega
  · split_ifs at hbyte with h0
    obtain rfl : n = 0 := by omega
    simp at hbyte
    omega

lemma length_writeVarSize_le (hx : x < 2 ^ 32) (hn : x < 2 ^ (7 * (n + 1))) : (writeVarSize x).length ≤ n + 1 := by
  obtain ⟨k, -, hcount, -, hk⟩ := countVarSize_spec hx
  rw [writeVarSize, hcount, length_varSizeBytes]
  obtain rfl | hle := hk
  · omega
  · have := (Nat.pow_lt_pow_iff_right (by norm_num : 1 < 2)).mp (hle.trans_lt hn)
    omega

end VarSize

/-! ### What the decoder makes of items -/

/-- How an item is written. -/
def encodeItem (marker : UInt8) : Item UInt8 → List UInt8
  | .literal v => writeSymbol marker v
  | .reference length offset => marker :: (writeVarSize length ++ writeVarSize offset)

/-- A reference that can be written: it is not empty, and its numbers have 32 bits. -/
def Coded : Item UInt8 → Prop
  | .literal _ => True
  | .reference length offset => 0 < length ∧ length < 2 ^ 32 ∧ offset < 2 ^ 32

lemma encodeItem_ne_nil (marker : UInt8) (item : Item UInt8) : encodeItem marker item ≠ [] := by
  cases item with
  | literal v =>
    rw [encodeItem, writeSymbol]
    split_ifs <;> exact List.cons_ne_nil _ _
  | reference length offset => exact List.cons_ne_nil _ _

/-- A turn of the decoder reads an item and does what it says. -/
lemma uncompressTurn_encode {item : Item UInt8} (h : Coded item) (initial : ℕ → UInt8) (marker : UInt8)
    (out rest : List UInt8) : uncompressTurn initial marker out (encodeItem marker item ++ rest) =
      (expand initial out item).map fun out' => (out', rest) := by
  cases item with
  | literal v =>
    rw [encodeItem, writeSymbol]
    split_ifs with hv
    · subst hv
      simp [uncompressTurn, expand]
    · simp [uncompressTurn, expand, hv]
  | reference length offset =>
    obtain ⟨hpos, hlength, hoffset⟩ := h
    obtain ⟨b, bs, hbytes, hb⟩ := writeVarSize_eq_cons hpos hlength
    have hread : readVarSize (b :: (bs ++ (writeVarSize offset ++ rest))) =
        some (length, writeVarSize offset ++ rest) := by
      rw [← List.cons_append, ← hbytes]
      exact readVarSize_write hlength _
    rw [encodeItem, hbytes, expand]
    simp only [List.cons_append, List.append_assoc, uncompressTurn, if_true, if_neg hb, hread, Option.bind_some,
      readVarSize_write hoffset]

lemma uncompressLoop_encode (initial : ℕ → UInt8) (marker : UInt8) {items : List (Item UInt8)} (hne : items ≠ [])
    (hcoded : ∀ item ∈ items, Coded item) {turns : ℕ} (hturns : items.length ≤ turns) (out : List UInt8) :
    uncompressLoop initial marker turns out (items.flatMap (encodeItem marker)) = expandAll initial out items := by
  induction items generalizing turns out with
  | nil => exact absurd rfl hne
  | cons item items ih =>
    obtain ⟨turns, rfl⟩ : ∃ k, turns = k + 1 := ⟨turns - 1, by simp at hturns; omega⟩
    rw [uncompressLoop, List.flatMap_cons, uncompressTurn_encode (hcoded item List.mem_cons_self), expandAll,
      Option.bind_map]
    refine Option.bind_congr fun out' _ => ?_
    cases items with
    | nil => rfl
    | cons item' items =>
      have hrest : (item' :: items).flatMap (encodeItem marker) ≠ [] := by
        rw [List.flatMap_cons]
        exact List.append_ne_nil_of_left_ne_nil (encodeItem_ne_nil _ _) _
      exact (if_neg hrest).trans (ih (List.cons_ne_nil _ _) (fun x hx => hcoded x (List.mem_cons_of_mem _ hx))
        (Nat.le_of_succ_le_succ hturns) out')

lemma length_le_flatMap_encode (marker : UInt8) (items : List (Item UInt8)) :
    items.length ≤ (items.flatMap (encodeItem marker)).length := by
  induction items with
  | nil => exact Nat.zero_le _
  | cons item items ih =>
    have := List.length_pos_iff.mpr (encodeItem_ne_nil marker item)
    rw [List.flatMap_cons, List.length_append, List.length_cons]
    omega

/-- A stream of items is decoded to what the items stand for, and the decoder stays inside of its buffers exactly if no
reference reaches in front of the output. -/
theorem uncompress_encode (initial : ℕ → UInt8) (marker : UInt8) {items : List (Item UInt8)} (hne : items ≠ [])
    (hcoded : ∀ item ∈ items, Coded item) (_hsize : (items.map Item.size).sum < 2 ^ 32) :
    uncompress initial (marker :: items.flatMap (encodeItem marker)) = expandAll initial [] items ∧
      ((uncompress initial (marker :: items.flatMap (encodeItem marker))).isSome ↔ Inside 0 items) := by
  have hdecode : uncompress initial (marker :: items.flatMap (encodeItem marker)) = expandAll initial [] items :=
    uncompressLoop_encode initial marker hne hcoded ((length_le_flatMap_encode marker items).trans (Nat.le_succ _)) []
  exact ⟨hdecode, hdecode ▸ isSome_expandAll_iff []⟩

/-- A reference that reaches into itself, and one to the place it is written to. -/
theorem uncompress_encode_overlap :
    uncompress (fun _ => 9) (0 :: [.literal 1, .reference 4 1, .reference 2 0].flatMap (encodeItem 0)) =
      some [1, 1, 1, 1, 1, 9, 9] := by
  refine (uncompress_encode (fun _ => 9) 0 (List.cons_ne_nil _ _) ?_ (by decide)).1.trans (by decide)
  simp only [List.forall_mem_cons, Coded]
  exact ⟨trivial, ⟨by decide, by decide, by decide⟩, ⟨by decide, by decide, by decide⟩, by rintro _ ⟨⟩⟩

/-! ### What the coder finds -/

section Search

variable {str1 str2 mem : ℕ → UInt8} {inpos bytesleft insize : ℕ}

lemma stringCompareFrom_spec (n len : ℕ) (h : ∀ k < len, str1 k = str2 k) :
    stringCompareFrom str1 str2 n len ≤ len + n ∧ ∀ k < stringCompareFrom str1 str2 n len, str1 k = str2 k := by
  induction n generalizing len with
  | zero => exact ⟨le_rfl, h⟩
  | succ n ih =>
    rw [stringCompareFrom]
    split_ifs with heq
    · obtain ⟨hle, hall⟩ := ih (len + 1) fun k hk => by
        obtain hk | rfl := Nat.lt_succ_iff_lt_or_eq.mp hk
        · exact h k hk
        · exact heq
      exact ⟨by omega, hall⟩
    · exact ⟨by omega, h⟩

/-- The strings are the same as far as the comparison says. -/
lemma stringCompare_spec (str1 str2 : ℕ → UInt8) (maxlen : ℕ) :
    stringCompare str1 str2 0 maxlen ≤ maxlen ∧ ∀ k < stringCompare str1 str2 0 maxlen, str1 k = str2 k := by
  have h := @stringCompareFrom_spec str1 str2 (maxlen - 0) 0 fun k hk => absurd hk (Nat.not_lt_zero k)
  exact ⟨by rw [stringCompare]; omega, h.2⟩

/-- The best match so far: none, or a string in the window that the input goes on with. -/
def Matches (mem : ℕ → UInt8) (inpos bytesleft : ℕ) (best : ℕ × ℕ) : Prop :=
  best = (3, 0) ∨ 3 < best.1 ∧ 0 < best.2 ∧ best.2 ≤ inpos ∧ best.2 ≤ lzMaxOffset ∧ best.1 ≤ bytesleft ∧
    ∀ k < best.1, mem (inpos + k) = mem (inpos - best.2 + k)

lemma matchTurn_matches {best : ℕ × ℕ} {offset : ℕ} (hbest : Matches mem inpos bytesleft best) (hlo : 3 ≤ offset)
    (hin : offset ≤ inpos) (hmax : offset ≤ lzMaxOffset) :
    Matches mem inpos bytesleft (matchTurn mem inpos bytesleft best offset) := by
  have hthree : 3 ≤ best.1 := by
    obtain rfl | h := hbest
    · exact le_rfl
    · exact h.1.le
  simp only [matchTurn]
  split_ifs with hcandidate hleft hlonger hlonger
  · obtain ⟨hle, hall⟩ := stringCompare_spec (fun k => mem (inpos + k)) (fun k => mem (inpos - offset + k)) bytesleft
    exact .inr ⟨by omega, by omega, hin, hmax, hle, hall⟩
  · exact hbest
  · obtain ⟨hle, hall⟩ := stringCompare_spec (fun k => mem (inpos + k)) (fun k => mem (inpos - offset + k)) offset
    exact .inr ⟨by omega, by omega, hin, hmax, by omega, hall⟩
  · exact hbest
  · exact hbest

lemma bestMatch_matches (mem : ℕ → UInt8) (inpos bytesleft : ℕ) :
    Matches mem inpos bytesleft (bestMatch mem inpos bytesleft) := by
  have hfold : ∀ offsets : List ℕ, (∀ o ∈ offsets, 3 ≤ o ∧ o ≤ inpos ∧ o ≤ lzMaxOffset) →
      ∀ best, Matches mem inpos bytesleft best →
        Matches mem inpos bytesleft (offsets.foldl (matchTurn mem inpos bytesleft) best) := by
    intro offsets
    induction offsets with
    | nil => exact fun _ _ hbest => hbest
    | cons o offsets ih =>
      intro hall best hbest
      obtain ⟨hlo, hin, hmax⟩ := hall o List.mem_cons_self
      exact ih (fun x hx => hall x (List.mem_cons_of_mem _ hx)) _ (matchTurn_matches hbest hlo hin hmax)
  refine hfold _ ?_ _ (.inl rfl)
  intro o ho
  rw [List.mem_range'_1] at ho
  split_ifs at ho <;> omega

/-- What is written for a reference is no longer than what it stands for. -/
def Cheap (marker : UInt8) : Item UInt8 → Prop
  | .literal _ => True
  | .reference length offset => (encodeItem marker (.reference length offset)).length ≤ length

lemma cheap_of_goodEnough {marker : UInt8} {length offset : ℕ} (h : GoodEnough length offset)
    (hlength : length < 2 ^ 32) (hoffset : offset ≤ lzMaxOffset) : Cheap marker (.reference length offset) := by
  rw [lzMaxOffset] at hoffset
  have hfive := length_writeVarSize_le (n := 4) hlength (hlength.trans (by norm_num))
  have hthree := length_writeVarSize_le (x := offset) (n := 2) (by omega) (by omega)
  simp only [Cheap, encodeItem, List.length_cons, List.length_append]
  by_cases hshort : length < 2 ^ 7
  · have hone := length_writeVarSize_le (n := 0) hlength (by omega)
    by_cases h4 : length = 4
    · have := length_writeVarSize_le (x := offset) (n := 0) (by omega) (by simp [GoodEnough, h4] at h; omega)
      omega
    · by_cases h5 : length = 5
      · have := length_writeVarSize_le (x := offset) (n := 1) (by omega) (by simp [GoodEnough, h5] at h; omega)
        omega
      · simp only [GoodEnough] at h
        omega
  · omega

/-- The input as a list. -/
def input (mem : ℕ → UInt8) (insize : ℕ) : List UInt8 := (List.range insize).map mem

lemma getElem?_input {k : ℕ} (hk : k < insize) : (input mem insize)[k]? = some (mem k) := by
  rw [input, List.getElem?_map, List.getElem?_range hk]
  rfl

lemma length_input : (input mem insize).length = insize := by rw [input, List.length_map, List.length_range]

/-- A turn writes an item that stands for what it has coded. -/
lemma compressTurn_item (mem : ℕ → UInt8) (marker : UInt8) (hsize : inpos + bytesleft = insize) (hleft : 0 < bytesleft)
    (hinsize : insize < 2 ^ 32) : ∃ item n, compressTurn mem marker inpos bytesleft = (encodeItem marker item, n) ∧
      Coded item ∧ Cheap marker item ∧ 0 < n ∧ n ≤ bytesleft ∧ Covers (input mem insize) inpos [item] (inpos + n) := by
  simp only [compressTurn]
  split_ifs with hgood
  · obtain hnone | ⟨hlong, hpos, hin, hmax, hleft', hall⟩ := bestMatch_matches mem inpos bytesleft
    · rw [hnone] at hgood
      simp [GoodEnough] at hgood
    · generalize bestMatch mem inpos bytesleft = best at *
      refine ⟨.reference best.1 best.2, best.1, rfl, ⟨by omega, by omega, by omega⟩,
        cheap_of_goodEnough hgood (by omega) hmax, by omega, hleft', ?_⟩
      refine .reference hpos hin (by rw [length_input]; omega) ?_ .nil
      intro k hk
      rw [getElem?_input (by omega), getElem?_input (by omega), hall k hk]
  · exact ⟨.literal (mem inpos), 1, rfl, trivial, trivial, one_pos, hleft, .literal (getElem?_input (by omega)) .nil⟩

/-- Items that are written as they are coded, for a part of the input. -/
structure Codes (mem : ℕ → UInt8) (insize : ℕ) (marker : UInt8) (i : ℕ) (items : List (Item UInt8)) (k : ℕ) : Prop where
  coded : ∀ item ∈ items, Coded item
  cheap : ∀ item ∈ items, Cheap marker item
  covers : Covers (input mem insize) i items k

lemma Codes.append {marker : UInt8} {i j k : ℕ} {items items' : List (Item UInt8)}
    (h : Codes mem insize marker i items j) (h' : Codes mem insize marker j items' k) :
    Codes mem insize marker i (items ++ items') k where
  coded := fun item hitem => (List.mem_append.mp hitem).elim (h.coded item) (h'.coded item)
  cheap := fun item hitem => (List.mem_append.mp hitem).elim (h.cheap item) (h'.cheap item)
  covers := h.covers.append h'.covers

lemma compressLoop_items (mem : ℕ → UInt8) (marker : UInt8) (hinsize : insize < 2 ^ 32) (turns : ℕ)
    (hsize : inpos + bytesleft = insize) (hleft : 0 < bytesleft) (hturns : bytesleft ≤ turns) : ∃ items k, items ≠ [] ∧
      k ≤ insize ∧
      compressLoop mem marker turns inpos bytesleft = some (items.flatMap (encodeItem marker), k) ∧
      Codes mem insize marker inpos items k := by
  induction turns generalizing inpos bytesleft with
  | zero => omega
  | succ turns ih =>
    obtain ⟨item, n, hturn, hcoded, hcheap, hpos, hle, hcovers⟩ := compressTurn_item mem marker hsize hleft hinsize
    have hitem : Codes mem insize marker inpos [item] (inpos + n) :=
      ⟨List.forall_mem_singleton.mpr hcoded, List.forall_mem_singleton.mpr hcheap, hcovers⟩
    simp only [compressLoop, hturn]
    split_ifs with hmore
    · obtain ⟨items, k, -, hk, hloop, hcodes⟩ := ih (show inpos + n + (bytesleft - n) = insize by omega)
        (by omega) (by omega)
      refine ⟨item :: items, k, List.cons_ne_nil _ _, hk, ?_, hitem.append hcodes⟩
      rw [hloop, Option.map_some, List.flatMap_cons]
    · refine ⟨[item], inpos + n, List.cons_ne_nil _ _, by omega, ?_, hitem⟩
      rw [List.flatMap_cons, List.flatMap_nil, List.append_nil]

lemma dumpRemaining_items (mem : ℕ → UInt8) (marker : UInt8) (n : ℕ) {i : ℕ} (h : i + n = insize) :
    ∃ items, dumpRemaining mem marker i insize = items.flatMap (encodeItem marker) ∧
      Codes mem insize marker i items insize := by
  induction n generalizing i with
  | zero =>
    subst h
    refine ⟨[], ?_, List.forall_mem_nil _, List.forall_mem_nil _, .nil⟩
    rw [dumpRemaining, Nat.add_zero, Nat.sub_self]
    rfl
  | succ n ih =>
    obtain ⟨items, hdump, hcodes⟩ := ih (i := i + 1) (by omega)
    refine ⟨.literal (mem i) :: items, ?_, ?_, ?_, .literal (getElem?_input (by omega)) hcodes.covers⟩
    · rw [List.flatMap_cons, ← hdump, dumpRemaining, dumpRemaining, show insize - i = insize - (i + 1) + 1 by omega,
        List.range'_succ, List.flatMap_cons]
      rfl
    · exact List.forall_mem_cons.mpr ⟨trivial, hcodes.coded⟩
    · exact List.forall_mem_cons.mpr ⟨trivial, hcodes.cheap⟩

/-- The coder writes the marker and items that stand for the whole input. -/
lemma compress_items (mem : ℕ → UInt8) (hpos : 0 < insize) (hinsize : insize < 2 ^ 32) : ∃ items, items ≠ [] ∧
    compress mem insize = some (UInt8.ofNat (leastCommon (histogram mem insize)) ::
      items.flatMap (encodeItem (UInt8.ofNat (leastCommon (histogram mem insize))))) ∧
    Codes mem insize (UInt8.ofNat (leastCommon (histogram mem insize))) 0 items insize := by
  generalize hmarker : UInt8.ofNat (leastCommon (histogram mem insize)) = marker
  obtain ⟨items, k, hne, hk, hloop, hcodes⟩ := compressLoop_items mem marker hinsize insize (Nat.zero_add _)
    hpos le_rfl
  obtain ⟨items', hdump, hcodes'⟩ := dumpRemaining_items mem marker (insize - k) (Nat.add_sub_of_le hk)
  refine ⟨items ++ items', by simp [hne], ?_, hcodes.append hcodes'⟩
  rw [compress, if_neg (by omega)]
  simp only [hmarker, hloop, Option.map_some, hdump, List.flatMap_append]

/-- What the coder gives is decoded to the input, whatever is behind the input and in the output. The sizes are those
whose bound the `int` of the result can tell. -/
theorem uncompress_compress (initial mem : ℕ → UInt8) (hfits : insize + insize / 256 + 1 < 2 ^ 31) :
    (compress mem insize).bind (uncompress initial) = some (input mem insize) := by
  have hinsize : insize < 2 ^ 32 := by omega
  obtain rfl | hpos := Nat.eq_zero_or_pos insize
  · rfl
  · obtain ⟨items, hne, hcompress, hcodes⟩ := compress_items mem hpos hinsize
    have hcovers := @expandAll_of_covers _ initial _ _ _ _ hcodes.covers
    rw [List.take_zero, List.take_of_length_le length_input.le] at hcovers
    rw [hcompress, Option.bind_some, ← hcovers]
    refine uncompressLoop_encode initial _ hne hcodes.coded ?_ []
    exact (length_le_flatMap_encode _ items).trans (Nat.le_succ _)

/-- The bytes that count up, with references to the 256 ones before. -/
theorem uncompress_compress_counted :
    (compress UInt8.ofNat 1000).bind (uncompress fun _ => 0) = some (input UInt8.ofNat 1000) :=
  uncompress_compress (fun _ => 0) UInt8.ofNat (by norm_num)

end Search

/-! ### The size -/

section Size

variable {mem : ℕ → UInt8} {insize : ℕ}

lemma sum_modify_succ {h : List ℕ} {i : ℕ} (hi : i < h.length) : (h.modify i (· + 1)).sum = h.sum + 1 := by
  induction h generalizing i with
  | nil => exact absurd hi (Nat.not_lt_zero i)
  | cons x h ih =>
    cases i with
    | zero =>
      rw [List.modify_zero_cons, List.sum_cons, List.sum_cons]
      omega
    | succ i =>
      rw [List.modify_succ_cons, List.sum_cons, List.sum_cons, ih (Nat.lt_of_succ_lt_succ hi)]
      omega

/-- The histogram counts each byte of the input. -/
lemma histogram_spec (mem : ℕ → UInt8) (insize : ℕ) : (histogram mem insize).length = 256 ∧
    (histogram mem insize).sum = insize ∧
    ∀ b : UInt8, (histogram mem insize).getD b.toNat 0 = (input mem insize).count b := by
  induction insize with
  | zero =>
    have hzero : histogram mem 0 = List.replicate 256 0 := rfl
    refine ⟨by rw [hzero, List.length_replicate], by rw [hzero, List.sum_replicate, smul_zero], fun b => ?_⟩
    rw [hzero, List.getD_eq_getElem?_getD, List.getElem?_replicate_of_lt b.toNat_lt]
    rfl
  | succ n ih =>
    obtain ⟨hlen, hsum, hcount⟩ := ih
    have hsucc : histogram mem (n + 1) = (histogram mem n).modify (mem n).toNat (· + 1) := by
      rw [histogram, List.range_succ, List.foldl_append]
      rfl
    have hinput : input mem (n + 1) = input mem n ++ [mem n] := by
      rw [input, List.range_succ, List.map_append]
      rfl
    have hin : (mem n).toNat < (histogram mem n).length := hlen ▸ (mem n).toNat_lt
    refine ⟨by rw [hsucc, List.length_modify, hlen], by rw [hsucc, sum_modify_succ hin, hsum], fun b => ?_⟩
    rw [hsucc, hinput, List.count_append, ← hcount b, List.getD_eq_getElem?_getD, List.getElem?_modify,
      List.getD_eq_getElem?_getD]
    have hb : b.toNat < (histogram mem n).length := hlen ▸ b.toNat_lt
    rw [List.getElem?_eq_getElem hb]
    by_cases heq : mem n = b
    · subst heq
      simp
    · have hne : (mem n).toNat ≠ b.toNat := fun h => heq (UInt8.toNat_inj.mp h)
      simp [hne, heq]

/-- No byte is less common than the one that is found. -/
lemma leastCommon_spec (h : List ℕ) : leastCommon h < 256 ∧ ∀ i < 256, h.getD (leastCommon h) 0 ≤ h.getD i 0 := by
  have hfold : ∀ n ≤ 255, (List.range' 1 n).foldl (fun m i => if h.getD i 0 < h.getD m 0 then i else m) 0 < n + 1 ∧
      ∀ i < n + 1, h.getD ((List.range' 1 n).foldl (fun m i => if h.getD i 0 < h.getD m 0 then i else m) 0) 0 ≤
        h.getD i 0 := by
    intro n
    induction n with
    | zero =>
      intro _
      refine ⟨Nat.one_pos, fun i hi => ?_⟩
      rw [Nat.lt_one_iff.mp hi]
      exact le_rfl
    | succ n ih =>
      intro hn
      obtain ⟨hlt, hall⟩ := ih (Nat.le_of_succ_le hn)
      rw [List.range'_1_concat, List.foldl_append, List.foldl_cons, List.foldl_nil, Nat.add_comm 1 n]
      generalize (List.range' 1 n).foldl (fun m i => if h.getD i 0 < h.getD m 0 then i else m) 0 = m at *
      split_ifs with hless
      · refine ⟨by omega, fun i hi => ?_⟩
        obtain hi | rfl := Nat.lt_succ_iff_lt_or_eq.mp hi
        · exact hless.le.trans (hall i hi)
        · exact le_rfl
      · refine ⟨by omega, fun i hi => ?_⟩
        obtain hi | rfl := Nat.lt_succ_iff_lt_or_eq.mp hi
        · exact hall i hi
        · exact not_lt.mp hless
  exact hfold 255 le_rfl

/-- The marker is at most every 256th byte of the input. -/
lemma count_marker_le (mem : ℕ → UInt8) (insize : ℕ) :
    256 * (input mem insize).count (UInt8.ofNat (leastCommon (histogram mem insize))) ≤ insize := by
  obtain ⟨hlen, hsum, hcount⟩ := histogram_spec mem insize
  obtain ⟨hlt, hleast⟩ := leastCommon_spec (histogram mem insize)
  have hmarker : (UInt8.ofNat (leastCommon (histogram mem insize))).toNat = leastCommon (histogram mem insize) :=
    Nat.mod_eq_of_lt hlt
  have hall : ∀ n ∈ histogram mem insize, (histogram mem insize).getD (leastCommon (histogram mem insize)) 0 ≤ n := by
    intro n hn
    obtain ⟨i, hi, rfl⟩ := List.mem_iff_getElem.mp hn
    refine (hleast i (hlen ▸ hi)).trans_eq ?_
    rw [List.getD_eq_getElem?_getD, List.getElem?_eq_getElem hi, Option.getD_some]
  have := List.card_nsmul_le_sum _ _ hall
  rw [hlen, hsum, smul_eq_mul] at this
  rwa [← hcount, hmarker]

/-- Every reference is paid for by what it stands for, and every literal too unless it is the marker. -/
lemma length_encode_le {marker : UInt8} {xs : List UInt8} {i k : ℕ} {items : List (Item UInt8)}
    (h : Covers xs i items k) (hcheap : ∀ item ∈ items, Cheap marker item) :
    (items.flatMap (encodeItem marker)).length + (xs.take i).count marker + i ≤ (xs.take k).count marker + k := by
  induction h with
  | nil => simp
  | @literal i k v items hv _ ih =>
    have htail := ih fun item hitem => hcheap item (List.mem_cons_of_mem _ hitem)
    rw [← take_succ_of_getElem? hv, List.count_append, List.count_singleton] at htail
    have hlen : (encodeItem marker (.literal v)).length = 1 + if v == marker then 1 else 0 := by
      rw [encodeItem, writeSymbol]
      split_ifs with heq heq' heq' <;> simp_all
    rw [List.flatMap_cons, List.length_append, hlen]
    omega
  | @reference i k length offset items _ _ _ _ _ ih =>
    have htail := ih fun item hitem => hcheap item (List.mem_cons_of_mem _ hitem)
    have hitem : (encodeItem marker (.reference length offset)).length ≤ length := hcheap _ List.mem_cons_self
    have hmono : (xs.take i).count marker ≤ (xs.take (i + length)).count marker :=
      (List.take_sublist_take_left (Nat.le_add_right ..)).count_le _
    rw [List.flatMap_cons, List.length_append]
    omega

/-- The bound on the size that the header of `lz.c` gives. -/
theorem length_compress_le (hfits : insize + insize / 256 + 1 < 2 ^ 31) {bytes : List UInt8}
    (h : compress mem insize = some bytes) : bytes.length ≤ insize + insize / 256 + 1 := by
  have hinsize : insize < 2 ^ 32 := by omega
  obtain rfl | hpos := Nat.eq_zero_or_pos insize
  · cases h
    exact Nat.zero_le _
  · obtain ⟨items, -, hcompress, hcodes⟩ := compress_items mem hpos hinsize
    cases h.symm.trans hcompress
    have hlen := length_encode_le hcodes.covers hcodes.cheap
    have hcount := count_marker_le mem insize
    rw [List.take_zero, List.take_of_length_le length_input.le] at hlen
    simp only [List.count_nil, List.length_cons] at hlen ⊢
    omega

/-- A byte that is new stands for itself. -/
lemma compressTurn_new {inpos : ℕ} (hnew : ∀ j < inpos, mem j ≠ mem inpos) (marker : UInt8) (bytesleft : ℕ) :
    compressTurn mem marker inpos bytesleft = (writeSymbol marker (mem inpos), 1) := by
  rw [compressTurn]
  obtain hnone | ⟨hlong, hpos, hin, -, -, hall⟩ := bestMatch_matches mem inpos bytesleft
  · rw [hnone]
    rfl
  · exact absurd (hall 0 (Nat.zero_lt_of_lt hlong)).symm (hnew _ (by omega))

/-- Bytes that are all different stand for themselves. -/
lemma compressLoop_new {k n inpos bytesleft : ℕ} (hnew : ∀ i < n, ∀ j < i, mem j ≠ mem i) (hk : inpos + k = n)
    (hleft : 3 < bytesleft) (marker : UInt8) (turns : ℕ) :
    compressLoop mem marker (turns + k) inpos (bytesleft + k) =
      (compressLoop mem marker turns n bytesleft).map fun r =>
        ((List.range' inpos k).flatMap (fun i => writeSymbol marker (mem i)) ++ r.1, r.2) := by
  induction k generalizing inpos with
  | zero => simp [← hk]
  | succ k ih =>
    have hrest := @ih (inpos + 1) (by omega)
    rw [← Nat.add_assoc, compressLoop, compressTurn_new (hnew inpos (by omega)), if_pos (by omega)]
    simp [← Nat.add_assoc, hrest, List.range'_succ, Function.comp_def]

/-- The bytes 0 to 255, and the first 44 of them again. -/
lemma compress_ofNat : compress UInt8.ofNat 300 =
    some ((44 :: (List.range 256).flatMap fun i => writeSymbol 44 (.ofNat i)) ++ [44, 44, 0x82, 0]) := by
  have hmarker : leastCommon (histogram UInt8.ofNat 300) = 44 := by decide +kernel
  have hnew : ∀ i < 256, ∀ j < i, UInt8.ofNat j ≠ UInt8.ofNat i := fun i hi j hj h => by
    have h := congrArg UInt8.toNat h
    simp only [UInt8.toNat_ofNat'] at h
    omega
  have hrest : compressLoop UInt8.ofNat 44 44 256 44 = some ([44, 44, 0x82, 0], 300) := by decide +kernel
  have hloop := compressLoop_new (k := 256) hnew (Nat.zero_add _) (by decide : 3 < 44) 44 44
  rw [hrest] at hloop
  rw [compress, if_neg (by decide), hmarker, List.range_eq_range']
  simp [hloop, dumpRemaining]

/-- All bytes in turn and the first ones again: byte 44 is the marker, and the last 44 bytes are a reference. -/
theorem length_compress_le_marker :
    ((44 :: (List.range 256).flatMap fun i => writeSymbol 44 (.ofNat i)) ++ [44, 44, 0x82, 0]).length ≤
      300 + 300 / 256 + 1 :=
  @length_compress_le UInt8.ofNat 300 (by norm_num) _ compress_ofNat

end Size

end RajNX.Fusee
