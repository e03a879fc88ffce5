import Mathlib.Tactic

/-!
# Branches of AArch64

The unconditional branch with its immediate of 26 bits: where it leads, and which targets it can have.
-/

namespace RajNX.Branch

/-- The bits in front of the immediate. -/
def opcode : Nat := 5

/-- Where a branch leads with the distance of the places of two instructions, of which the immediate keeps 26 bits. -/
def landing (pc distance : Int) : Int := pc + 4 * Int.bmod distance (2 ^ 26)

/-- The target of a branch, or nothing for another instruction. -/
def target (word : UInt32) (pc : Int) : Option Int :=
  if word.toNat / 2 ^ 26 = opcode then some (landing pc (word.toNat % 2 ^ 26 : Nat)) else none

/-- The targets that a branch can have: whole instructions away, and not more than 128 MiB. -/
structure Reaches (pc dest : Int) : Prop where
  aligned : (dest - pc) % 4 = 0
  lower : -2 ^ 27 ≤ dest - pc
  upper : dest - pc < 2 ^ 27

section Landing

variable {pc dest distance : Int}

/-- The immediate of a distance. -/
lemma target_of_toNat_eq {word : UInt32} {imm : Nat} (hword : word.toNat = 2 ^ 26 * opcode + imm)
    (himm : (imm : Int) = distance % 2 ^ 26) : target word pc = some (landing pc distance) := by
  have hlt : imm < 2 ^ 26 := by omega
  have hopcode : word.toNat / 2 ^ 26 = opcode := by omega
  have hrest : word.toNat % 2 ^ 26 = imm := by omega
  have hmod : Int.bmod (distance % 2 ^ 26) (2 ^ 26) = Int.bmod distance (2 ^ 26) := Int.emod_bmod distance (2 ^ 26)
  rw [target, if_pos hopcode, hrest, himm, landing, hmod]
  rfl

/-- A branch leads as far as the distance says, but for whole turns of the immediate, and not more than 128 MiB. -/
lemma landing_spec (pc distance : Int) :
    ∃ turns : Int, landing pc distance = pc + 4 * distance + 2 ^ 28 * turns ∧
      -2 ^ 27 ≤ landing pc distance - pc ∧ landing pc distance - pc < 2 ^ 27 := by
  rw [landing, Int.bmod_def]
  push_cast
  split
  · exact ⟨-(distance / 2 ^ 26), by omega, by omega, by omega⟩
  · exact ⟨-(distance / 2 ^ 26) - 1, by omega, by omega, by omega⟩

/-- A branch leads to its target exactly if it can have it. -/
lemma landing_eq_iff : landing pc ((dest - pc) / 4) = dest ↔ Reaches pc dest := by
  obtain ⟨turns, heq, hlower, hupper⟩ := landing_spec pc ((dest - pc) / 4)
  constructor
  · intro h
    rw [h] at hlower hupper heq
    exact ⟨by omega, hlower, hupper⟩
  · rintro ⟨haligned, hlower', hupper'⟩
    omega

/-- A branch that leads close to its target leads to the last instruction in front of it. -/
lemma landing_eq_of_close (hlower : dest - 2 ^ 27 ≤ landing pc ((dest - pc) / 4))
    (hupper : landing pc ((dest - pc) / 4) ≤ dest + 2 ^ 27) :
    landing pc ((dest - pc) / 4) = dest - (dest - pc) % 4 := by
  obtain ⟨turns, heq, -, -⟩ := landing_spec pc ((dest - pc) / 4)
  omega

end Landing

end RajNX.Branch
