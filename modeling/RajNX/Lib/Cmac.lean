import RajNX.Lib.BlockBits

/-!
# CMAC

The message authentication code of RFC 4493 over a permutation of the blocks of 16 bytes. The blocks of a message are
chained. The last one is masked with a subkey: with the first one if it is complete, and else, also for the empty
message, with the second one and filled up with a bit and zeros.
-/

namespace RajNX.Cmac

open Block

/-- The first bytes as a block, filled up with zeros. -/
def blockOf (l : List UInt8) : Block 0x10 := fun i => l.getD i 0

/-- A block of a message. -/
def blockAt (m : List UInt8) (j : Nat) : Block 0x10 := fun i => m.getD (0x10 * j + i) 0

/-- The doubling that makes a subkey: a shift to the left, and the constant if a bit is lost. -/
def double (x : BitVec 128) : BitVec 128 := if x.msb then (x <<< 1) ^^^ 0x87#128 else x <<< 1

section Cmac

variable (e : Equiv.Perm (Block 0x10))

/-- The chain over so many blocks, from a block on. -/
def chain (x : Block 0x10) (b : Nat → Block 0x10) : Nat → Block 0x10
  | 0 => x
  | n + 1 => e ((chain x b n).xor (b n))

/-- The subkey `K1`. -/
def subkey1 : Block 0x10 := ofBits (double (e (zeros 0x10)).bits)

/-- The subkey `K2`. -/
def subkey2 : Block 0x10 := ofBits (double (subkey1 e).bits)

/-- How many blocks a message has. The empty one has a block that is not complete. -/
def numBlocks (m : List UInt8) : Nat := max 1 ((m.length + 0xF) / 0x10)

/-- The last block with its subkey. -/
def lastBlock (m : List UInt8) : Block 0x10 :=
  if m ≠ [] ∧ m.length % 0x10 = 0 then (blockAt m (numBlocks m - 1)).xor (subkey1 e)
  else (blockOf (m.drop (0x10 * (numBlocks m - 1)) ++ [0x80])).xor (subkey2 e)

/-- The CMAC of a message. -/
def cmac (m : List UInt8) : Block 0x10 :=
  e ((chain e (zeros 0x10) (blockAt m) (numBlocks m - 1)).xor (lastBlock e m))

variable {e} {x : Block 0x10} {b b' : Nat → Block 0x10} {n : Nat}

lemma chain_congr (h : ∀ i < n, b i = b' i) : chain e x b n = chain e x b' n := by
  induction n with
  | zero => rfl
  | succ n ih => rw [chain, chain, ih fun i hi => h i (Nat.lt_succ_of_lt hi), h n (Nat.lt_succ_self n)]

/-- Chains that differ in their last blocks only are different. -/
lemma chain_succ_inj (h : ∀ i < n, b i = b' i) (heq : chain e x b (n + 1) = chain e x b' (n + 1)) : b n = b' n := by
  rw [chain, chain, chain_congr h] at heq
  have hmasked := e.injective heq
  rw [Block.xor_comm, Block.xor_comm _ (b' n)] at hmasked
  exact xor_left_inj.mp hmasked

end Cmac

end RajNX.Cmac
