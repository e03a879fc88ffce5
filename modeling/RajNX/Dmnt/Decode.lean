import RajNX.Lib.HexWord
import RajNX.Lib.WordStream
import RajNX.Dmnt.Opcode

/-!
# Cheat VM decoder

`DmntCheatVm` and `DmntCheatVm::DecodeNextOpcode` (`dmnt_cheat_vm.cpp`). The decoder fetches words
through `getNextDword`, which is `WordStream.next` over the VM's program cut off at `numOpcodes`, so
the rules of `WordStream.Reads` specify every operand form: `Reads.decodeOperands` says how many
words each first word calls for, and `decodeNextOpcode_complete` / `decodeNextOpcode_short` /
`decodeNextOpcode_failed` are the three ways a decode can go.

Both operands of `|` in the source's two-word immediates fetch a word; the order taken here is left
to right. The array cells `program[numOpcodes..]`, like registers past `0xF`, exist in the model as
the rest of a total function and are never reached.
-/

namespace RajNX.Dmnt

open WordStream HexWord

/-- The VM's state. -/
structure DmntCheatVm where
  numOpcodes : Nat := 0
  instructionPtr : Nat := 0
  conditionDepth : Nat := 0
  decodeSuccess : Bool := false
  program : Nat → UInt32 := fun _ => 0
  registers : Nat → UInt64 := fun _ => 0
  savedValues : Nat → UInt64 := fun _ => 0
  loopTops : Nat → Nat := fun _ => 0

/-- The loaded program. -/
def DmntCheatVm.words (vm : DmntCheatVm) : List UInt32 := window vm.program 0 vm.numOpcodes

/-- `MaximumProgramOpcodeCount` -/
def maximumProgramOpcodeCount : Nat := 0x400

/-- `NumRegisters` -/
def numRegisters : Nat := 0x10

/-- The opcode number in the top one, two or three nybbles of the first word. -/
def opcodeNumber (firstDword : UInt32) : Nat :=
  let opcode := nybble firstDword 28
  let opcode := if opcode ≥ 12 then (opcode <<< 4) ||| nybble firstDword 24 else opcode
  if opcode ≥ 0xF0 then (opcode <<< 4) ||| nybble firstDword 20 else opcode

section Fetch

variable (program : Nat → UInt32) (numOpcodes : Nat)

/-- The decoder's `GetNextDword`. -/
def getNextDword : StateM Cursor UInt32 := next program numOpcodes

/-- The decoder's `GetNextVmInt`. -/
def getNextVmInt (bitWidth : Nat) : StateM Cursor VmInt := do
  let firstDword ← getNextDword program numOpcodes
  if bitWidth = 1 then return firstDword.toUInt8.toUInt64
  else if bitWidth = 2 then return firstDword.toUInt16.toUInt64
  else if bitWidth = 4 then return firstDword.toUInt64
  else if bitWidth = 8 then
    let secondDword ← getNextDword program numOpcodes
    return dwords firstDword secondDword
  else return 0

/-- The operands of code type 10, by offset type. -/
def decodeStoreRegister (firstDword : UInt32) (ofsType : Option StoreRegisterOffsetType) :
    StateM Cursor StoreRegisterToAddressOpcode := do
  let bitWidth := nybble firstDword 24
  let strRegIndex := nybble firstDword 20
  let addrRegIndex := nybble firstDword 16
  let incrementReg := nybble firstDword 12 != 0
  let ofsRegIndex := nybble firstDword 4
  match ofsType with
  | some .none | none =>
    return { bitWidth, strRegIndex, addrRegIndex, incrementReg, ofsRegIndex, ofsType := .none }
  | some .reg =>
    return { bitWidth, strRegIndex, addrRegIndex, incrementReg, ofsRegIndex, ofsType := .reg }
  | some .imm =>
    let secondDword ← getNextDword program numOpcodes
    return { bitWidth, strRegIndex, addrRegIndex, incrementReg, ofsRegIndex, ofsType := .imm
             relAddress := dwords (firstDword &&& 0xF) secondDword }
  | some .memReg =>
    return { bitWidth, strRegIndex, addrRegIndex, incrementReg, ofsRegIndex, ofsType := .memReg
             memType := MemoryAccessType.ofU32 (nybble firstDword 4) }
  | some .memImm =>
    let secondDword ← getNextDword program numOpcodes
    return { bitWidth, strRegIndex, addrRegIndex, incrementReg, ofsRegIndex, ofsType := .memImm
             memType := MemoryAccessType.ofU32 (nybble firstDword 4)
             relAddress := dwords (firstDword &&& 0xF) secondDword }
  | some .memImmReg =>
    let secondDword ← getNextDword program numOpcodes
    return { bitWidth, strRegIndex, addrRegIndex, incrementReg, ofsRegIndex, ofsType := .memImmReg
             memType := MemoryAccessType.ofU32 (nybble firstDword 4)
             relAddress := dwords (firstDword &&& 0xF) secondDword }

/-- The operands of code type 0xC0, by operand type. -/
def decodeRegisterConditional (firstDword : UInt32) (compType : Option CompareRegisterValueType) :
    StateM Cursor BeginRegisterConditionalOpcode := do
  let bitWidth := nybble firstDword 20
  let condType := ConditionalComparisonType.ofU32 (nybble firstDword 16)
  let valRegIndex := nybble firstDword 12
  match compType with
  | some .staticValue =>
    let value ← getNextVmInt program numOpcodes bitWidth
    return { bitWidth, condType, valRegIndex, compType, value }
  | some .otherRegister =>
    return { bitWidth, condType, valRegIndex, compType, otherRegIndex := nybble firstDword 4 }
  | some .memoryRelAddr =>
    let secondDword ← getNextDword program numOpcodes
    return { bitWidth, condType, valRegIndex, compType, memType := MemoryAccessType.ofU32 (nybble firstDword 4)
             relAddress := dwords (firstDword &&& 0xF) secondDword }
  | some .memoryOfsReg =>
    return { bitWidth, condType, valRegIndex, compType, memType := MemoryAccessType.ofU32 (nybble firstDword 4)
             ofsRegIndex := nybble firstDword 0 }
  | some .registerRelAddr =>
    let secondDword ← getNextDword program numOpcodes
    return { bitWidth, condType, valRegIndex, compType, addrRegIndex := nybble firstDword 4
             relAddress := dwords (firstDword &&& 0xF) secondDword }
  | some .registerOfsReg =>
    return { bitWidth, condType, valRegIndex, compType, addrRegIndex := nybble firstDword 4
             ofsRegIndex := nybble firstDword 0 }
  | none => return { bitWidth, condType, valRegIndex, compType }

/-- The operands of code type 0xFFF, by operand type. -/
def decodeDebugLog (firstDword : UInt32) (valType : Option DebugLogValueType) :
    StateM Cursor DebugLogOpcode := do
  let bitWidth := nybble firstDword 16
  let logId := nybble firstDword 12
  match valType with
  | some .registerValue =>
    return { bitWidth, logId, valType, valRegIndex := nybble firstDword 4 }
  | some .memoryRelAddr =>
    let secondDword ← getNextDword program numOpcodes
    return { bitWidth, logId, valType, memType := MemoryAccessType.ofU32 (nybble firstDword 4)
             relAddress := dwords (firstDword &&& 0xF) secondDword }
  | some .memoryOfsReg =>
    return { bitWidth, logId, valType, memType := MemoryAccessType.ofU32 (nybble firstDword 4)
             ofsRegIndex := nybble firstDword 0 }
  | some .registerRelAddr =>
    let secondDword ← getNextDword program numOpcodes
    return { bitWidth, logId, valType, addrRegIndex := nybble firstDword 4
             relAddress := dwords (firstDword &&& 0xF) secondDword }
  | some .registerOfsReg =>
    return { bitWidth, logId, valType, addrRegIndex := nybble firstDword 4
             ofsRegIndex := nybble firstDword 0 }
  | none => return { bitWidth, logId, valType }

/-- The second `switch` of the decoder: the operands of an instruction whose first word is known. -/
def decodeOperands (firstDword : UInt32) : CheatVmOpcodeType → StateM Cursor CheatVmOpcode
  | .storeStatic => do
    let secondDword ← getNextDword program numOpcodes
    let bitWidth := nybble firstDword 24
    let value ← getNextVmInt program numOpcodes bitWidth
    return .storeStatic {
      bitWidth
      memType := MemoryAccessType.ofU32 (nybble firstDword 20)
      offsetRegister := nybble firstDword 16
      relAddress := dwords (firstDword &&& 0xFF) secondDword
      value }
  | .beginConditionalBlock => do
    let secondDword ← getNextDword program numOpcodes
    -- the source reads the width through `store_static`, where it lies in the same slot
    let bitWidth := nybble firstDword 24
    let value ← getNextVmInt program numOpcodes bitWidth
    return .beginCond {
      bitWidth
      memType := MemoryAccessType.ofU32 (nybble firstDword 20)
      condType := ConditionalComparisonType.ofU32 (nybble firstDword 16)
      relAddress := dwords (firstDword &&& 0xFF) secondDword
      value }
  | .endConditionalBlock => return .endCond
  | .controlLoop => do
    let startLoop := nybble firstDword 24 == 0
    let regIndex := nybble firstDword 20
    if startLoop then
      let numIters ← getNextDword program numOpcodes
      return .ctrlLoop { startLoop, regIndex, numIters }
    else return .ctrlLoop { startLoop, regIndex }
  | .loadRegisterStatic => do
    let hi ← getNextDword program numOpcodes
    let lo ← getNextDword program numOpcodes
    return .ldrStatic { regIndex := nybble firstDword 16, value := dwords hi lo }
  | .loadRegisterMemory => do
    let secondDword ← getNextDword program numOpcodes
    return .ldrMemory {
      bitWidth := nybble firstDword 24
      memType := MemoryAccessType.ofU32 (nybble firstDword 20)
      regIndex := nybble firstDword 16
      loadFromReg := nybble firstDword 12 != 0
      relAddress := dwords (firstDword &&& 0xFF) secondDword }
  | .storeStaticToAddress => do
    let hi ← getNextDword program numOpcodes
    let lo ← getNextDword program numOpcodes
    return .strStatic {
      bitWidth := nybble firstDword 24
      regIndex := nybble firstDword 16
      incrementReg := nybble firstDword 12 != 0
      addOffsetReg := nybble firstDword 8 != 0
      offsetRegIndex := nybble firstDword 4
      value := dwords hi lo }
  | .performArithmeticStatic => do
    let value ← getNextDword program numOpcodes
    return .performMathStatic {
      bitWidth := nybble firstDword 24
      regIndex := nybble firstDword 16
      mathType := RegisterArithmeticType.ofU32 (nybble firstDword 12)
      value }
  | .beginKeypressConditionalBlock =>
    return .beginKeypressCond { keyMask := firstDword &&& 0x0FFFFFFF }
  | .performArithmeticRegister => do
    let bitWidth := nybble firstDword 24
    let mathType := RegisterArithmeticType.ofU32 (nybble firstDword 20)
    let dstRegIndex := nybble firstDword 16
    let srcReg1Index := nybble firstDword 12
    let hasImmediate := nybble firstDword 8 != 0
    if hasImmediate then
      let value ← getNextVmInt program numOpcodes bitWidth
      return .performMathReg { bitWidth, mathType, dstRegIndex, srcReg1Index, hasImmediate, value }
    else
      return .performMathReg { bitWidth, mathType, dstRegIndex, srcReg1Index, hasImmediate,
                               srcReg2Index := nybble firstDword 4 }
  | .storeRegisterToAddress => do
    let opcode ← decodeStoreRegister program numOpcodes firstDword
      (StoreRegisterOffsetType.ofU32 (nybble firstDword 8))
    return .strRegister opcode
  | .beginRegisterConditionalBlock => do
    let opcode ← decodeRegisterConditional program numOpcodes firstDword
      (CompareRegisterValueType.ofU32 (nybble firstDword 8))
    return .beginRegCond opcode
  | .saveRestoreRegister =>
    return .saveRestoreReg {
      dstIndex := nybble firstDword 16
      srcIndex := nybble firstDword 8
      opType := SaveRestoreRegisterOpType.ofU32 (nybble firstDword 4) }
  | .saveRestoreRegisterMask =>
    return .saveRestoreRegmask {
      opType := SaveRestoreRegisterOpType.ofU32 (nybble firstDword 20)
      shouldOperate := (List.range numRegisters).map fun i =>
        firstDword &&& (1 <<< UInt32.ofNat i) != 0 }
  | .debugLog => do
    let opcode ← decodeDebugLog program numOpcodes firstDword
      (DebugLogValueType.ofU32 (nybble firstDword 8))
    return .debugLog opcode

end Fetch

/-- What `ON_SCOPE_EXIT` does with the cursor the decoder ends with. -/
def finishDecode (vm : DmntCheatVm) (opcode : CheatVmOpcode) (s : Cursor) : Option CheatVmOpcode × DmntCheatVm :=
  (if s.valid then some opcode else none,
    { vm with instructionPtr := s.pos, decodeSuccess := vm.decodeSuccess && s.valid })

/-- `DmntCheatVm::DecodeNextOpcode`: the decoded instruction, or `none` where the source returns
`false`, and the VM after it. -/
def decodeNextOpcode (vm : DmntCheatVm) : Option CheatVmOpcode × DmntCheatVm :=
  let fetched := getNextDword vm.program vm.numOpcodes ⟨vm.instructionPtr, vm.decodeSuccess⟩
  if fetched.2.valid then
    match CheatVmOpcodeType.ofU32 (opcodeNumber fetched.1) with
    | some t =>
      let decoded := decodeOperands vm.program vm.numOpcodes fetched.1 t fetched.2
      finishDecode vm decoded.1 decoded.2
    | none => finishDecode vm .endCond { fetched.2 with valid := false }
  else finishDecode vm .endCond fetched.2

/-! ## How many words an instruction takes -/

/-- The words an immediate of a given width takes. -/
def vmIntWords (bitWidth : Nat) : Nat := if bitWidth = 8 then 2 else 1

/-- The words after the first one of a store with a given offset type. -/
def storeOffsetWords : Option StoreRegisterOffsetType → Nat
  | some .imm | some .memImm | some .memImmReg => 1
  | _ => 0

/-- The words after the first one of a register conditional with a given operand type. -/
def compareOperandWords (bitWidth : Nat) : Option CompareRegisterValueType → Nat
  | some .staticValue => vmIntWords bitWidth
  | some .memoryRelAddr | some .registerRelAddr => 1
  | _ => 0

/-- The words after the first one of a debug log with a given operand type. -/
def logOperandWords : Option DebugLogValueType → Nat
  | some .memoryRelAddr | some .registerRelAddr => 1
  | _ => 0

/-- The words after the first one, which the first word alone determines. -/
def operandWords (firstDword : UInt32) : CheatVmOpcodeType → Nat
  | .storeStatic | .beginConditionalBlock => 1 + vmIntWords (nybble firstDword 24)
  | .controlLoop => if nybble firstDword 24 = 0 then 1 else 0
  | .loadRegisterStatic | .storeStaticToAddress => 2
  | .loadRegisterMemory | .performArithmeticStatic => 1
  | .performArithmeticRegister =>
    if nybble firstDword 8 = 0 then 0 else vmIntWords (nybble firstDword 24)
  | .storeRegisterToAddress => storeOffsetWords (StoreRegisterOffsetType.ofU32 (nybble firstDword 8))
  | .beginRegisterConditionalBlock =>
    compareOperandWords (nybble firstDword 20)
      (CompareRegisterValueType.ofU32 (nybble firstDword 8))
  | .debugLog => logOperandWords (DebugLogValueType.ofU32 (nybble firstDword 8))
  | .endConditionalBlock | .beginKeypressConditionalBlock => 0
  | .saveRestoreRegister | .saveRestoreRegisterMask => 0

lemma reads_getNextVmInt (bitWidth : Nat) : ∃ f, ∀ program numOpcodes,
    Reads program numOpcodes (getNextVmInt program numOpcodes bitWidth) (vmIntWords bitWidth) f := by
  unfold getNextVmInt getNextDword vmIntWords
  by_cases h8 : bitWidth = 8
  · subst h8
    exact ⟨_, fun _ _ => Reads.next.bind fun _ => Reads.next.bind fun _ => Reads.pure _⟩
  · simp only [h8, if_false]
    by_cases h1 : bitWidth = 1
    · subst h1
      exact ⟨_, fun _ _ => Reads.next.bind fun _ => Reads.pure _⟩
    by_cases h2 : bitWidth = 2
    · subst h2
      exact ⟨_, fun _ _ => Reads.next.bind fun _ => Reads.pure _⟩
    by_cases h4 : bitWidth = 4
    · subst h4
      exact ⟨_, fun _ _ => Reads.next.bind fun _ => Reads.pure _⟩
    · simp only [h1, h2, h4, if_false]
      exact ⟨_, fun _ _ => Reads.next.bind fun _ => Reads.pure _⟩

lemma reads_decodeStoreRegister (firstDword : UInt32) (ofsType : Option StoreRegisterOffsetType) :
    ∃ f, ∀ program numOpcodes, Reads program numOpcodes
      (decodeStoreRegister program numOpcodes firstDword ofsType) (storeOffsetWords ofsType) f := by
  cases ofsType with
  | none => exact ⟨_, fun _ _ => Reads.pure _⟩
  | some ofsType =>
    cases ofsType with
    | none => exact ⟨_, fun _ _ => Reads.pure _⟩
    | reg => exact ⟨_, fun _ _ => Reads.pure _⟩
    | imm => exact ⟨_, fun _ _ => Reads.next.bind fun _ => Reads.pure _⟩
    | memReg => exact ⟨_, fun _ _ => Reads.pure _⟩
    | memImm => exact ⟨_, fun _ _ => Reads.next.bind fun _ => Reads.pure _⟩
    | memImmReg => exact ⟨_, fun _ _ => Reads.next.bind fun _ => Reads.pure _⟩

lemma reads_decodeRegisterConditional (firstDword : UInt32) (compType : Option CompareRegisterValueType) :
    ∃ f, ∀ program numOpcodes, Reads program numOpcodes
      (decodeRegisterConditional program numOpcodes firstDword compType)
      (compareOperandWords (nybble firstDword 20) compType) f := by
  cases compType with
  | none => exact ⟨_, fun _ _ => Reads.pure _⟩
  | some compType =>
    cases compType with
    | memoryRelAddr => exact ⟨_, fun _ _ => Reads.next.bind fun _ => Reads.pure _⟩
    | memoryOfsReg => exact ⟨_, fun _ _ => Reads.pure _⟩
    | registerRelAddr => exact ⟨_, fun _ _ => Reads.next.bind fun _ => Reads.pure _⟩
    | registerOfsReg => exact ⟨_, fun _ _ => Reads.pure _⟩
    | staticValue =>
      obtain ⟨_, h⟩ := reads_getNextVmInt (nybble firstDword 20)
      exact ⟨_, fun _ _ => (h _ _).bind fun _ => Reads.pure _⟩
    | otherRegister => exact ⟨_, fun _ _ => Reads.pure _⟩

lemma reads_decodeDebugLog (firstDword : UInt32) (valType : Option DebugLogValueType) :
    ∃ f, ∀ program numOpcodes, Reads program numOpcodes
      (decodeDebugLog program numOpcodes firstDword valType) (logOperandWords valType) f := by
  cases valType with
  | none => exact ⟨_, fun _ _ => Reads.pure _⟩
  | some valType =>
    cases valType with
    | memoryRelAddr => exact ⟨_, fun _ _ => Reads.next.bind fun _ => Reads.pure _⟩
    | memoryOfsReg => exact ⟨_, fun _ _ => Reads.pure _⟩
    | registerRelAddr => exact ⟨_, fun _ _ => Reads.next.bind fun _ => Reads.pure _⟩
    | registerOfsReg => exact ⟨_, fun _ _ => Reads.pure _⟩
    | registerValue => exact ⟨_, fun _ _ => Reads.pure _⟩

/-- Every operand form fetches `operandWords` words, whatever program it is decoded from. -/
lemma reads_decodeOperands (firstDword : UInt32) (t : CheatVmOpcodeType) :
    ∃ f, ∀ program numOpcodes, Reads program numOpcodes
      (decodeOperands program numOpcodes firstDword t) (operandWords firstDword t) f := by
  cases t with
  | storeStatic | beginConditionalBlock =>
    obtain ⟨_, h⟩ := reads_getNextVmInt (nybble firstDword 24)
    exact ⟨_, fun _ _ => Reads.next.bind fun _ => (h _ _).bind fun _ => Reads.pure _⟩
  | endConditionalBlock => exact ⟨_, fun _ _ => Reads.pure _⟩
  | controlLoop =>
    simp only [decodeOperands, operandWords, beq_iff_eq]
    by_cases h : nybble firstDword 24 = 0
    · simp only [h, if_true]
      exact ⟨_, fun _ _ => Reads.next.bind fun _ => Reads.pure _⟩
    · simp only [h, if_false]
      exact ⟨_, fun _ _ => Reads.pure _⟩
  | loadRegisterStatic =>
    exact ⟨_, fun _ _ => Reads.next.bind fun _ => Reads.next.bind fun _ => Reads.pure _⟩
  | loadRegisterMemory => exact ⟨_, fun _ _ => Reads.next.bind fun _ => Reads.pure _⟩
  | storeStaticToAddress =>
    exact ⟨_, fun _ _ => Reads.next.bind fun _ => Reads.next.bind fun _ => Reads.pure _⟩
  | performArithmeticStatic => exact ⟨_, fun _ _ => Reads.next.bind fun _ => Reads.pure _⟩
  | beginKeypressConditionalBlock => exact ⟨_, fun _ _ => Reads.pure _⟩
  | performArithmeticRegister =>
    simp only [decodeOperands, operandWords, bne_iff_ne]
    by_cases h : nybble firstDword 8 = 0
    · simp only [h, ne_eq, not_true, if_true, if_false]
      exact ⟨_, fun _ _ => Reads.pure _⟩
    · obtain ⟨_, h'⟩ := reads_getNextVmInt (nybble firstDword 24)
      simp only [h, ne_eq, not_false_iff, if_true, if_false]
      exact ⟨_, fun _ _ => (h' _ _).bind fun _ => Reads.pure _⟩
  | storeRegisterToAddress =>
    obtain ⟨_, h⟩ := reads_decodeStoreRegister firstDword
      (StoreRegisterOffsetType.ofU32 (nybble firstDword 8))
    exact ⟨_, fun _ _ => (h _ _).bind fun _ => Reads.pure _⟩
  | beginRegisterConditionalBlock =>
    obtain ⟨_, h⟩ := reads_decodeRegisterConditional firstDword
      (CompareRegisterValueType.ofU32 (nybble firstDword 8))
    exact ⟨_, fun _ _ => (h _ _).bind fun _ => Reads.pure _⟩
  | saveRestoreRegister => exact ⟨_, fun _ _ => Reads.pure _⟩
  | saveRestoreRegisterMask => exact ⟨_, fun _ _ => Reads.pure _⟩
  | debugLog =>
    obtain ⟨_, h⟩ := reads_decodeDebugLog firstDword (DebugLogValueType.ofU32 (nybble firstDword 8))
    exact ⟨_, fun _ _ => (h _ _).bind fun _ => Reads.pure _⟩

/-! ## The ways a decode can go -/

/-- A decode moves the instruction pointer and may clear `decodeSuccess`; the rest of the VM stays. -/
lemma decodeNextOpcode_frame (vm : DmntCheatVm) :
    ∃ pos ok, (decodeNextOpcode vm).2 =
      { vm with instructionPtr := pos, decodeSuccess := vm.decodeSuccess && ok } := by
  unfold decodeNextOpcode
  dsimp only
  split
  · split
    · exact ⟨_, _, rfl⟩
    · exact ⟨_, _, rfl⟩
  · exact ⟨_, _, rfl⟩

/-- The first fetch of a decode that starts inside the program. -/
lemma getNextDword_inside {vm : DmntCheatVm} (h : vm.instructionPtr < vm.numOpcodes) :
    getNextDword vm.program vm.numOpcodes ⟨vm.instructionPtr, vm.decodeSuccess⟩ =
      (vm.program vm.instructionPtr, ⟨vm.instructionPtr + 1, vm.decodeSuccess⟩) := by
  rw [getNextDword, next, if_neg (by simp only; omega)]

/-- The first fetch of a decode that starts at the end of the program. -/
lemma getNextDword_outside {vm : DmntCheatVm} (h : ¬ vm.instructionPtr < vm.numOpcodes) :
    getNextDword vm.program vm.numOpcodes ⟨vm.instructionPtr, vm.decodeSuccess⟩ =
      (default, ⟨vm.instructionPtr, false⟩) := by
  rw [getNextDword, next, if_pos (by simp only; omega)]

/-- An instruction that is there in full is decoded from its words. -/
lemma decodeNextOpcode_complete {vm : DmntCheatVm} {w : UInt32} {t : CheatVmOpcodeType}
    {f : List UInt32 → CheatVmOpcode} (hv : vm.decodeSuccess = true)
    (hw : vm.program vm.instructionPtr = w)
    (ht : CheatVmOpcodeType.ofU32 (opcodeNumber w) = some t)
    (hf : ∀ program numOpcodes, Reads program numOpcodes
      (decodeOperands program numOpcodes w t) (operandWords w t) f)
    (hfit : vm.instructionPtr + 1 + operandWords w t ≤ vm.numOpcodes) :
    decodeNextOpcode vm = (some (f (window vm.program (vm.instructionPtr + 1) (operandWords w t))),
        { vm with instructionPtr := vm.instructionPtr + 1 + operandWords w t }) := by
  have h1 := @getNextDword_inside vm (by omega)
  have h2 := (hf vm.program vm.numOpcodes).complete ⟨vm.instructionPtr + 1, true⟩ hfit
  rw [hw, hv] at h1
  unfold decodeNextOpcode
  rw [hv, h1]
  simp only [if_true, ht, h2, finishDecode, Bool.and_true, hv]

/-- An instruction whose last word is missing is not decoded. -/
lemma decodeNextOpcode_short {vm : DmntCheatVm}
    (hshort : vm.instructionPtr < vm.numOpcodes →
      ∀ t, CheatVmOpcodeType.ofU32 (opcodeNumber (vm.program vm.instructionPtr)) = some t → vm.numOpcodes <
          vm.instructionPtr + 1 + operandWords (vm.program vm.instructionPtr) t) :
    (decodeNextOpcode vm).1 = none ∧ (decodeNextOpcode vm).2.decodeSuccess = false := by
  unfold decodeNextOpcode
  by_cases hip : vm.instructionPtr < vm.numOpcodes
  · rw [getNextDword_inside hip]
    dsimp only
    split
    · cases ht : CheatVmOpcodeType.ofU32 (opcodeNumber (vm.program vm.instructionPtr)) with
      | none => simp [finishDecode]
      | some t =>
        obtain ⟨_, hf⟩ := reads_decodeOperands (vm.program vm.instructionPtr) t
        have h2 := (hf vm.program vm.numOpcodes).short ⟨vm.instructionPtr + 1, vm.decodeSuccess⟩
          hip (hshort hip t ht)
        simp [finishDecode, h2]
    · rename_i h
      simp [finishDecode, Bool.not_eq_true _ ▸ h]
  · rw [getNextDword_outside hip]
    simp [finishDecode]

/-- After a failed decode every further decode fails. -/
lemma decodeNextOpcode_failed {vm : DmntCheatVm} (h : vm.decodeSuccess = false) :
    (decodeNextOpcode vm).1 = none ∧ (decodeNextOpcode vm).2.decodeSuccess = false := by
  have hs := (@Reads.next UInt32 vm.program vm.numOpcodes _).sticky
    ⟨vm.instructionPtr, vm.decodeSuccess⟩ h
  simp [decodeNextOpcode, getNextDword, hs, finishDecode]

/-- `Later vm vm'`: a run that was at `vm` can be at `vm'` afterwards. Between two decodes a run may
change everything but the program and `decodeSuccess`, which only `resetState` at the start of the
next run sets again. -/
inductive Later (vm : DmntCheatVm) : DmntCheatVm → Prop where
  | refl :
    Later vm vm
  | decode {vm'} :
    Later vm vm' →
    Later vm (decodeNextOpcode vm').2
  | execute {vm' vm''} :
    Later vm vm' →
    vm''.program = vm'.program →
    vm''.numOpcodes = vm'.numOpcodes →
    vm''.decodeSuccess = vm'.decodeSuccess →
    Later vm vm''

/-- A run that has failed to decode once stays failed. -/
lemma Later.decodeSuccess_eq_false {vm vm'} (l : Later vm vm') (h : vm.decodeSuccess = false) :
    vm'.decodeSuccess = false := by
  induction l with
  | refl => exact h
  | decode _ ih => exact (decodeNextOpcode_failed ih).2
  | execute _ _ _ hs ih => exact hs.trans ih

end RajNX.Dmnt
