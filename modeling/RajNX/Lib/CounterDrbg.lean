import RajNX.Lib.CounterMode

/-!
# The CTR_DRBG generator

The standard random bit generator on a block cipher, without a derivation function and without additional
input. The counter is a number that is counted up before each block. Limits are those of an implementation.
-/

namespace RajNX.CounterDrbg

open BigEndian CounterMode Mask

variable {blockLen keyLen : Nat}

/-- The internal state. -/
structure WorkingState where
  v : Nat
  key : List UInt8
  reseedCounter : Nat

/-- What an implementation allows. -/
structure Limits where
  maxRequest : Nat
  reseedInterval : Nat

/-- The next counter. -/
def nextV (blockLen v : Nat) : Nat := (v + 1) % 256 ^ blockLen

/-- Output blocks from a counter on, and the last counter. -/
def outputBlocks (cipher : BlockCipher blockLen) : Nat → Nat → List UInt8 × Nat
  | 0, v => ([], v)
  | n + 1, v =>
    let v := nextV blockLen v
    let (rest, last) := outputBlocks cipher n v
    (cipher.encrypt (beBytes blockLen v) ++ rest, last)

/-- As many output bytes as are asked for, from as many blocks as are needed. -/
def outputBytes (cipher : BlockCipher blockLen) (n v : Nat) : List UInt8 × Nat :=
  let (temp, last) := outputBlocks cipher ((n + blockLen - 1) / blockLen) v
  (temp.take n, last)

/-- CTR_DRBG_Update: the leftmost bytes are the key and the rightmost ones are the counter. -/
def update (keyLen : Nat) (cipher : List UInt8 → BlockCipher blockLen) (providedData : List UInt8)
    (s : WorkingState) : WorkingState :=
  let temp := mask (outputBytes (cipher s.key) (keyLen + blockLen) s.v).1 providedData
  { s with key := temp.take keyLen, v := beValue (temp.drop keyLen) }

/-- CTR_DRBG_Instantiate_algorithm -/
def instantiate (keyLen : Nat) (cipher : List UInt8 → BlockCipher blockLen) (entropyInput : List UInt8) :
    WorkingState :=
  { update keyLen cipher entropyInput ⟨0, List.replicate keyLen 0, 0⟩ with reseedCounter := 1 }

/-- CTR_DRBG_Reseed_algorithm -/
def reseed (keyLen : Nat) (cipher : List UInt8 → BlockCipher blockLen) (entropyInput : List UInt8)
    (s : WorkingState) : WorkingState :=
  { update keyLen cipher entropyInput s with reseedCounter := 1 }

/-- CTR_DRBG_Generate_algorithm. A request that is too large, or that needs a new seed, is refused. -/
def generate (keyLen : Nat) (cipher : List UInt8 → BlockCipher blockLen) (limits : Limits) (n : Nat)
    (s : WorkingState) : Option (List UInt8 × WorkingState) :=
  if limits.maxRequest < n ∨ limits.reseedInterval < s.reseedCounter then none
  else
    let (returned, v) := outputBytes (cipher s.key) n s.v
    let t := update keyLen cipher (List.replicate (keyLen + blockLen) 0) { s with v := v }
    some (returned, { t with reseedCounter := s.reseedCounter + 1 })

section Output

variable (cipher : BlockCipher blockLen)

lemma outputBlocks_succ (n v : Nat) : outputBlocks cipher (n + 1) v =
    (cipher.encrypt (beBytes blockLen (nextV blockLen v)) ++ (outputBlocks cipher n (nextV blockLen v)).1,
      (outputBlocks cipher n (nextV blockLen v)).2) := rfl

@[simp] lemma length_outputBlocks (n v : Nat) : (outputBlocks cipher n v).1.length = n * blockLen := by
  induction n generalizing v with
  | zero => rw [Nat.zero_mul]; rfl
  | succ n ih =>
    rw [outputBlocks_succ, List.length_append, cipher.length_encrypt, ih, Nat.succ_mul, Nat.add_comm]

/-- One block more. -/
lemma outputBlocks_last (n v : Nat) : outputBlocks cipher (n + 1) v =
    ((outputBlocks cipher n v).1 ++ cipher.encrypt (beBytes blockLen (nextV blockLen (outputBlocks cipher n v).2)),
      nextV blockLen (outputBlocks cipher n v).2) := by
  induction n generalizing v with
  | zero => rw [outputBlocks_succ, outputBlocks, outputBlocks, List.append_nil, List.nil_append]
  | succ n ih => rw [outputBlocks_succ, ih, outputBlocks_succ, List.append_assoc]

/-- Whole blocks. -/
lemma outputBytes_mul (hpos : 0 < blockLen) (n v : Nat) :
    outputBytes cipher (n * blockLen) v = outputBlocks cipher n v := by
  have hdiv : (n * blockLen + blockLen - 1) / blockLen = n := by
    rw [Nat.add_sub_assoc hpos, Nat.mul_comm, Nat.mul_add_div hpos, Nat.div_eq_of_lt (by omega), Nat.add_zero]
  rw [outputBytes, hdiv]
  dsimp only
  rw [← length_outputBlocks cipher n v, List.take_length]

/-- Whole blocks and a part of one more. -/
lemma outputBytes_mul_add {n r : Nat} (v : Nat) (hpos : 0 < r) (hr : r < blockLen) :
    outputBytes cipher (n * blockLen + r) v = ((outputBlocks cipher n v).1 ++
        (cipher.encrypt (beBytes blockLen (nextV blockLen (outputBlocks cipher n v).2))).take r,
        nextV blockLen (outputBlocks cipher n v).2) := by
  have hdiv : (n * blockLen + r + blockLen - 1) / blockLen = n + 1 := by
    have heq : n * blockLen + r + blockLen - 1 = blockLen * (n + 1) + (r - 1) := by
      rw [Nat.mul_add, Nat.mul_comm blockLen n]
      omega
    rw [heq, Nat.mul_add_div (by omega), Nat.div_eq_of_lt (by omega), Nat.add_zero]
  rw [outputBytes, hdiv, outputBlocks_last]
  dsimp only
  rw [← length_outputBlocks cipher n v, List.take_length_add_append]

lemma length_outputBytes (hpos : 0 < blockLen) (n v : Nat) : (outputBytes cipher n v).1.length = n := by
  have hle := BlockSource.le_ceil_mul n hpos
  rw [outputBytes]
  dsimp only
  rw [List.length_take, length_outputBlocks]
  omega

end Output

end RajNX.CounterDrbg
