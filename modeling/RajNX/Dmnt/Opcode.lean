import Mathlib.Tactic

/-!
# Cheat VM opcodes

The data model of `dmnt_cheat_vm.hpp`: the opcode numbers, the enumerations an instruction's nybbles
are cast to, and the decoded instruction `CheatVmOpcode`.

A nybble that is cast to an enumeration need not name one of its enumerators; such a field is `none`
here, and every `switch` over it takes its default branch. The source's union of opcode structures
is the sum type `CheatVmOpcode`; the fields a form of an instruction does not use are left `0`, as
`CheatVmOpcode opcode = {}` leaves them. `VmInt`, a union of `u8`, `u16`, `u32` and `u64` on a
little-endian machine, is the `u64` whose low bytes are the narrower members.
-/

namespace RajNX.Dmnt

/-- There are nybbles to write down. -/
lemma neZero_nybble : NeZero 16 := ⟨by decide⟩

/-- The opcode numbers the decoder knows. -/
inductive CheatVmOpcodeType where
  | storeStatic
  | beginConditionalBlock
  | endConditionalBlock
  | controlLoop
  | loadRegisterStatic
  | loadRegisterMemory
  | storeStaticToAddress
  | performArithmeticStatic
  | beginKeypressConditionalBlock
  | performArithmeticRegister
  | storeRegisterToAddress
  | beginRegisterConditionalBlock
  | saveRestoreRegister
  | saveRestoreRegisterMask
  | debugLog
deriving Repr, DecidableEq

/-- The opcode type with a given number; the reserved and meta numbers have none. -/
def CheatVmOpcodeType.ofU32 (n : Nat) : Option CheatVmOpcodeType :=
  if n = 0 then some storeStatic
  else if n = 1 then some beginConditionalBlock
  else if n = 2 then some endConditionalBlock
  else if n = 3 then some controlLoop
  else if n = 4 then some loadRegisterStatic
  else if n = 5 then some loadRegisterMemory
  else if n = 6 then some storeStaticToAddress
  else if n = 7 then some performArithmeticStatic
  else if n = 8 then some beginKeypressConditionalBlock
  else if n = 9 then some performArithmeticRegister
  else if n = 10 then some storeRegisterToAddress
  else if n = 0xC0 then some beginRegisterConditionalBlock
  else if n = 0xC1 then some saveRestoreRegister
  else if n = 0xC2 then some saveRestoreRegisterMask
  else if n = 0xFFF then some debugLog
  else none

inductive MemoryAccessType where
  | mainNso
  | heap
deriving Repr, DecidableEq

def MemoryAccessType.toNybble : MemoryAccessType → Fin 16
  | mainNso => 0
  | heap => 1

def MemoryAccessType.ofU32 : Nat → Option MemoryAccessType
  | 0 => some mainNso
  | 1 => some heap
  | _ => none

@[simp] lemma MemoryAccessType.ofU32_toNybble (t : MemoryAccessType) : ofU32 t.toNybble = some t := by
  cases t <;> rfl

inductive ConditionalComparisonType where
  | gt
  | ge
  | lt
  | le
  | eq
  | ne
deriving Repr, DecidableEq

def ConditionalComparisonType.toNybble : ConditionalComparisonType → Fin 16
  | gt => 1
  | ge => 2
  | lt => 3
  | le => 4
  | eq => 5
  | ne => 6

def ConditionalComparisonType.ofU32 : Nat → Option ConditionalComparisonType
  | 1 => some gt
  | 2 => some ge
  | 3 => some lt
  | 4 => some le
  | 5 => some eq
  | 6 => some ne
  | _ => none

@[simp] lemma ConditionalComparisonType.ofU32_toNybble (t : ConditionalComparisonType) : ofU32 t.toNybble = some t := by
  cases t <;> rfl

inductive RegisterArithmeticType where
  | addition
  | subtraction
  | multiplication
  | leftShift
  | rightShift
  | logicalAnd
  | logicalOr
  | logicalNot
  | logicalXor
  | none
deriving Repr, DecidableEq

def RegisterArithmeticType.toNybble : RegisterArithmeticType → Fin 16
  | addition => 0
  | subtraction => 1
  | multiplication => 2
  | leftShift => 3
  | rightShift => 4
  | logicalAnd => 5
  | logicalOr => 6
  | logicalNot => 7
  | logicalXor => 8
  | none => 9

def RegisterArithmeticType.ofU32 : Nat → Option RegisterArithmeticType
  | 0 => some addition
  | 1 => some subtraction
  | 2 => some multiplication
  | 3 => some leftShift
  | 4 => some rightShift
  | 5 => some logicalAnd
  | 6 => some logicalOr
  | 7 => some logicalNot
  | 8 => some logicalXor
  | 9 => some none
  | _ => Option.none

@[simp] lemma RegisterArithmeticType.ofU32_toNybble (t : RegisterArithmeticType) : ofU32 t.toNybble = some t := by
  cases t <;> rfl

inductive StoreRegisterOffsetType where
  | none
  | reg
  | imm
  | memReg
  | memImm
  | memImmReg
deriving Repr, DecidableEq

def StoreRegisterOffsetType.ofU32 : Nat → Option StoreRegisterOffsetType
  | 0 => some none
  | 1 => some reg
  | 2 => some imm
  | 3 => some memReg
  | 4 => some memImm
  | 5 => some memImmReg
  | _ => Option.none

inductive CompareRegisterValueType where
  | memoryRelAddr
  | memoryOfsReg
  | registerRelAddr
  | registerOfsReg
  | staticValue
  | otherRegister
deriving Repr, DecidableEq

def CompareRegisterValueType.ofU32 : Nat → Option CompareRegisterValueType
  | 0 => some memoryRelAddr
  | 1 => some memoryOfsReg
  | 2 => some registerRelAddr
  | 3 => some registerOfsReg
  | 4 => some staticValue
  | 5 => some otherRegister
  | _ => none

inductive SaveRestoreRegisterOpType where
  | restore
  | save
  | clearSaved
  | clearRegs
deriving Repr, DecidableEq

def SaveRestoreRegisterOpType.toNybble : SaveRestoreRegisterOpType → Fin 16
  | restore => 0
  | save => 1
  | clearSaved => 2
  | clearRegs => 3

def SaveRestoreRegisterOpType.ofU32 : Nat → Option SaveRestoreRegisterOpType
  | 0 => some restore
  | 1 => some save
  | 2 => some clearSaved
  | 3 => some clearRegs
  | _ => none

@[simp] lemma SaveRestoreRegisterOpType.ofU32_toNybble (t : SaveRestoreRegisterOpType) : ofU32 t.toNybble = some t := by
  cases t <;> rfl

inductive DebugLogValueType where
  | memoryRelAddr
  | memoryOfsReg
  | registerRelAddr
  | registerOfsReg
  | registerValue
deriving Repr, DecidableEq

def DebugLogValueType.ofU32 : Nat → Option DebugLogValueType
  | 0 => some memoryRelAddr
  | 1 => some memoryOfsReg
  | 2 => some registerRelAddr
  | 3 => some registerOfsReg
  | 4 => some registerValue
  | _ => none

/-- The raw bytes of a `VmInt`. -/
abbrev VmInt := UInt64

structure StoreStaticOpcode where
  bitWidth : Nat
  memType : Option MemoryAccessType
  offsetRegister : Nat
  relAddress : UInt64
  value : VmInt
deriving Repr, DecidableEq

structure BeginConditionalOpcode where
  bitWidth : Nat
  memType : Option MemoryAccessType
  condType : Option ConditionalComparisonType
  relAddress : UInt64
  value : VmInt
deriving Repr, DecidableEq

structure ControlLoopOpcode where
  startLoop : Bool
  regIndex : Nat
  numIters : UInt32 := 0
deriving Repr, DecidableEq

structure LoadRegisterStaticOpcode where
  regIndex : Nat
  value : UInt64
deriving Repr, DecidableEq

structure LoadRegisterMemoryOpcode where
  bitWidth : Nat
  memType : Option MemoryAccessType
  regIndex : Nat
  loadFromReg : Bool
  relAddress : UInt64
deriving Repr, DecidableEq

structure StoreStaticToAddressOpcode where
  bitWidth : Nat
  regIndex : Nat
  incrementReg : Bool
  addOffsetReg : Bool
  offsetRegIndex : Nat
  value : UInt64
deriving Repr, DecidableEq

structure PerformArithmeticStaticOpcode where
  bitWidth : Nat
  regIndex : Nat
  mathType : Option RegisterArithmeticType
  value : UInt32
deriving Repr, DecidableEq

structure BeginKeypressConditionalOpcode where
  keyMask : UInt32
deriving Repr, DecidableEq

structure PerformArithmeticRegisterOpcode where
  bitWidth : Nat
  mathType : Option RegisterArithmeticType
  dstRegIndex : Nat
  srcReg1Index : Nat
  srcReg2Index : Nat := 0
  hasImmediate : Bool
  value : VmInt := 0
deriving Repr, DecidableEq

structure StoreRegisterToAddressOpcode where
  bitWidth : Nat
  strRegIndex : Nat
  addrRegIndex : Nat
  incrementReg : Bool
  ofsType : StoreRegisterOffsetType
  memType : Option MemoryAccessType := some .mainNso
  ofsRegIndex : Nat
  relAddress : UInt64 := 0
deriving Repr, DecidableEq

structure BeginRegisterConditionalOpcode where
  bitWidth : Nat
  condType : Option ConditionalComparisonType
  valRegIndex : Nat
  compType : Option CompareRegisterValueType
  memType : Option MemoryAccessType := some .mainNso
  addrRegIndex : Nat := 0
  otherRegIndex : Nat := 0
  ofsRegIndex : Nat := 0
  relAddress : UInt64 := 0
  value : VmInt := 0
deriving Repr, DecidableEq

structure SaveRestoreRegisterOpcode where
  dstIndex : Nat
  srcIndex : Nat
  opType : Option SaveRestoreRegisterOpType
deriving Repr, DecidableEq

structure SaveRestoreRegisterMaskOpcode where
  opType : Option SaveRestoreRegisterOpType
  shouldOperate : List Bool
deriving Repr, DecidableEq

structure DebugLogOpcode where
  bitWidth : Nat
  logId : Nat
  valType : Option DebugLogValueType
  memType : Option MemoryAccessType := some .mainNso
  addrRegIndex : Nat := 0
  valRegIndex : Nat := 0
  ofsRegIndex : Nat := 0
  relAddress : UInt64 := 0
deriving Repr, DecidableEq

/-- A decoded instruction. -/
inductive CheatVmOpcode where
  | storeStatic (o : StoreStaticOpcode)
  | beginCond (o : BeginConditionalOpcode)
  | endCond
  | ctrlLoop (o : ControlLoopOpcode)
  | ldrStatic (o : LoadRegisterStaticOpcode)
  | ldrMemory (o : LoadRegisterMemoryOpcode)
  | strStatic (o : StoreStaticToAddressOpcode)
  | performMathStatic (o : PerformArithmeticStaticOpcode)
  | beginKeypressCond (o : BeginKeypressConditionalOpcode)
  | performMathReg (o : PerformArithmeticRegisterOpcode)
  | strRegister (o : StoreRegisterToAddressOpcode)
  | beginRegCond (o : BeginRegisterConditionalOpcode)
  | saveRestoreReg (o : SaveRestoreRegisterOpcode)
  | saveRestoreRegmask (o : SaveRestoreRegisterMaskOpcode)
  | debugLog (o : DebugLogOpcode)
deriving Repr, DecidableEq

namespace CheatVmOpcode

/-- The flag the decoder sets on the three instructions that open a conditional block. -/
def beginConditionalBlock : CheatVmOpcode → Bool
  | beginCond _ => true
  | beginKeypressCond _ => true
  | beginRegCond _ => true
  | _ => false

end CheatVmOpcode

end RajNX.Dmnt
