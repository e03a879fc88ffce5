import RajNX.Ro.CodeMemory

/-!
# The context of a process

`ProcessContext` of `ro_service_impl.cpp`: what is kept about the NRRs and the NROs of one process.
-/

namespace RajNX.Ro

/-- `ModuleId` -/
abbrev ModuleId := List UInt8

/-- `NroInfo` -/
structure NroInfo where
  baseAddress : Nat
  nroHeapAddress : Nat
  nroHeapSize : Nat
  bssHeapAddress : Nat
  bssHeapSize : Nat
  codeSize : Nat
  rwSize : Nat
  moduleId : ModuleId
  inUse : Bool
deriving Repr, DecidableEq

/-- A `NroInfo` of zeros. -/
def NroInfo.zero : NroInfo := ⟨0, 0, 0, 0, 0, 0, 0, List.replicate 0x20 0, false⟩

/-- `NrrInfo`, with the bytes that the header points at. They are those of the heap, which the process can no
longer write to. -/
structure NrrInfo where
  contents : List UInt8
  nrrHeapAddress : Nat
  nrrHeapSize : Nat
  mappedCodeAddress : Nat
  inUse : Bool
deriving Repr, DecidableEq

/-- A `NrrInfo` of zeros. -/
def NrrInfo.zero : NrrInfo := ⟨[], 0, 0, 0, false⟩

/-- `ProcessContext` -/
structure ProcessContext where
  nroInfos : List NroInfo
  nrrInfos : List NrrInfo

/-- A context that `AllocateContext` returns, with `MaxNroInfos` and `MaxNrrInfos` infos. -/
def ProcessContext.empty : ProcessContext := ⟨List.replicate 0x40 .zero, List.replicate 0x40 .zero⟩

/-- A sum of `u64` values. -/
def add64 (a b : Nat) : Nat := (a + b) % 2 ^ 64

lemma add64_eq {a b : Nat} (h : a + b < 2 ^ 64) : add64 a b = a + b := Nat.mod_eq_of_lt h

/-- What the requests check of an address and a size. -/
def validateAddressAndSize (address size : Nat) : Except RoError Unit :=
  if address % 0x1000 ≠ 0 then .error .invalidAddress
  else if size = 0 ∨ size % 0x1000 ≠ 0 ∨ ¬address < add64 address size then .error .invalidSize
  else .ok ()

end RajNX.Ro
