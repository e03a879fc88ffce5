import RajNX.Lib.LittleEndian
import RajNX.Dmnt.Decode

/-!
# Cheat VM execution

`DmntCheatVm::ResetState`, `DmntCheatVm::SkipConditionalBlock`, `DmntCheatVm::LoadProgram` and
`DmntCheatVm::Execute` (`dmnt_cheat_vm.cpp`).

The process a VM runs against is a parameter `CheatProcess σ`: a read hands back the bytes that
reached the destination, which may be all of them, some, or none, and both a read and a write may
change the state `σ` of the process, and of whatever else stands behind
`DmntCheatManager::ReadCheatProcessMemoryForVm` and `WriteCheatProcessMemoryForVm`. The writes a run
asks for, and the values it hands to `DebugLog`, are recorded in `ExecState`; the textual trace in
the debug log file is left out.

`Execute` need not return, since a loop can restart itself, so `executeLoop` takes fuel. The skip
loop always returns: it advances by at least one word per turn, and `skipLoop_fuel` says that the
fuel it gets is enough.
-/

namespace RajNX.Dmnt

open WordStream LittleEndian

/-- `MemoryRegionExtents` -/
structure MemoryRegionExtents where
  base : UInt64 := 0
  size : UInt64 := 0
deriving Repr, DecidableEq

/-- `CheatProcessMetadata` -/
structure CheatProcessMetadata where
  processId : UInt64 := 0
  titleId : UInt64 := 0
  mainNsoExtents : MemoryRegionExtents := {}
  heapExtents : MemoryRegionExtents := {}
  aliasExtents : MemoryRegionExtents := {}
  addressSpaceExtents : MemoryRegionExtents := {}
  mainNsoBuildId : List UInt8 := List.replicate 0x20 0
deriving Repr, DecidableEq

/-- The memory accesses the VM makes. -/
structure CheatProcess (σ : Type) where
  read : σ → UInt64 → Nat → List UInt8 × σ
  write : σ → UInt64 → List UInt8 → σ

/-- A running VM, the process it runs against and what it has asked for so far. -/
structure ExecState (σ : Type) where
  vm : DmntCheatVm
  process : σ
  writes : List (UInt64 × List UInt8) := []
  debugLogs : List (Nat × UInt64) := []

/-- `DmntCheatVm::ResetState` -/
def resetState (vm : DmntCheatVm) : DmntCheatVm :=
  { vm with
    registers := fun _ => 0
    savedValues := fun _ => 0
    loopTops := fun _ => 0
    instructionPtr := 0
    conditionDepth := 0
    decodeSuccess := true }

/-- Assignment to a register. -/
def DmntCheatVm.setRegister (vm : DmntCheatVm) (i : Nat) (v : UInt64) : DmntCheatVm :=
  { vm with registers := Function.update vm.registers i v }

/-- Assignment to a saved register. -/
def DmntCheatVm.setSavedValue (vm : DmntCheatVm) (i : Nat) (v : UInt64) : DmntCheatVm :=
  { vm with savedValues := Function.update vm.savedValues i v }

/-! ## Skipping -/

/-- What one skipped instruction does to the condition depth. -/
def skipOpcode (vm : DmntCheatVm) (opcode : CheatVmOpcode) : DmntCheatVm :=
  if opcode.beginConditionalBlock then { vm with conditionDepth := vm.conditionDepth + 1 }
  else match opcode with
    | .endCond => { vm with conditionDepth := vm.conditionDepth - 1 }
    | _ => vm

/-- The loop of `DmntCheatVm::SkipConditionalBlock`. -/
def skipLoop (desiredDepth : Nat) : Nat → DmntCheatVm → DmntCheatVm
  | 0, vm => vm
  | fuel + 1, vm =>
    if vm.conditionDepth > desiredDepth then
      match decodeNextOpcode vm with
      | (some opcode, vm) => skipLoop desiredDepth fuel (skipOpcode vm opcode)
      | (none, vm) => vm
    else vm

/-- `DmntCheatVm::SkipConditionalBlock`; `none` is the fatal error at depth zero. -/
def skipConditionalBlock (vm : DmntCheatVm) : Option DmntCheatVm :=
  if vm.conditionDepth > 0 then
    some (skipLoop (vm.conditionDepth - 1) (vm.numOpcodes + 1) vm)
  else none

/-! ## Operands -/

/-- `DmntCheatVm::GetVmInt`. The same truncation is written out for the registers that code types
0xC0 and 0xFFF read. -/
def getVmInt (value : VmInt) (bitWidth : Nat) : UInt64 :=
  if bitWidth = 1 then value.toUInt8.toUInt64
  else if bitWidth = 2 then value.toUInt16.toUInt64
  else if bitWidth = 4 then value.toUInt32.toUInt64
  else if bitWidth = 8 then value
  else 0

/-- The truncation after arithmetic, which leaves a value of an invalid width alone. -/
def applyBitWidth (value : UInt64) (bitWidth : Nat) : UInt64 :=
  if bitWidth = 1 then value.toUInt8.toUInt64
  else if bitWidth = 2 then value.toUInt16.toUInt64
  else if bitWidth = 4 then value.toUInt32.toUInt64
  else value

/-- The widths at which memory is accessed. -/
def validBitWidth (bitWidth : Nat) : Bool :=
  bitWidth = 1 || bitWidth = 2 || bitWidth = 4 || bitWidth = 8

/-- `DmntCheatVm::GetCheatProcessAddress` -/
def getCheatProcessAddress (metadata : CheatProcessMetadata) (memType : Option MemoryAccessType)
    (relAddress : UInt64) : UInt64 :=
  match memType with
  | some .heap => metadata.heapExtents.base + relAddress
  | some .mainNso | none => metadata.mainNsoExtents.base + relAddress

/-- The comparison of code types 1 and 0xC0. -/
def condMet (condType : Option ConditionalComparisonType) (srcValue condValue : UInt64) : Bool :=
  match condType with
  | some .gt => srcValue > condValue
  | some .ge => srcValue ≥ condValue
  | some .lt => srcValue < condValue
  | some .le => srcValue ≤ condValue
  | some .eq => srcValue == condValue
  | some .ne => srcValue != condValue
  | none => false

/-- The arithmetic of code type 7. A shift by 64 or more, which the language leaves open, takes the
amount modulo 64 as the target does. -/
def staticMath (mathType : Option RegisterArithmeticType) (reg value : UInt64) : UInt64 :=
  match mathType with
  | some .addition => reg + value
  | some .subtraction => reg - value
  | some .multiplication => reg * value
  | some .leftShift => reg <<< value
  | some .rightShift => reg >>> value
  | _ => reg

/-- The arithmetic of code type 9. -/
def registerMath (mathType : Option RegisterArithmeticType) (operand1 operand2 : UInt64) : UInt64 :=
  match mathType with
  | some .addition => operand1 + operand2
  | some .subtraction => operand1 - operand2
  | some .multiplication => operand1 * operand2
  | some .leftShift => operand1 <<< operand2
  | some .rightShift => operand1 >>> operand2
  | some .logicalAnd => operand1 &&& operand2
  | some .logicalOr => operand1 ||| operand2
  | some .logicalNot => ~~~operand1
  | some .logicalXor => operand1 ^^^ operand2
  | some .none => operand1
  | none => 0

/-- The address code type 10 stores to. -/
def storeRegisterAddress (metadata : CheatProcessMetadata) (o : StoreRegisterToAddressOpcode)
    (registers : Nat → UInt64) : UInt64 :=
  match o.ofsType with
  | .none => registers o.addrRegIndex
  | .reg => registers o.addrRegIndex + registers o.ofsRegIndex
  | .imm => registers o.addrRegIndex + o.relAddress
  | .memReg => getCheatProcessAddress metadata o.memType (registers o.addrRegIndex)
  | .memImm => getCheatProcessAddress metadata o.memType o.relAddress
  | .memImmReg =>
    getCheatProcessAddress metadata o.memType (registers o.addrRegIndex + o.relAddress)

/-- The address code type 0xC0 compares with, for the operand types that read memory. -/
def compareAddress (metadata : CheatProcessMetadata) (o : BeginRegisterConditionalOpcode)
    (registers : Nat → UInt64) : UInt64 :=
  match o.compType with
  | some .memoryRelAddr => getCheatProcessAddress metadata o.memType o.relAddress
  | some .memoryOfsReg => getCheatProcessAddress metadata o.memType (registers o.ofsRegIndex)
  | some .registerRelAddr => registers o.addrRegIndex + o.relAddress
  | some .registerOfsReg => registers o.addrRegIndex + registers o.ofsRegIndex
  | _ => 0

/-- The address code type 0xFFF logs, for the operand types that read memory. -/
def logAddress (metadata : CheatProcessMetadata) (o : DebugLogOpcode)
    (registers : Nat → UInt64) : UInt64 :=
  match o.valType with
  | some .memoryRelAddr => getCheatProcessAddress metadata o.memType o.relAddress
  | some .memoryOfsReg => getCheatProcessAddress metadata o.memType (registers o.ofsRegIndex)
  | some .registerRelAddr => registers o.addrRegIndex + o.relAddress
  | some .registerOfsReg => registers o.addrRegIndex + registers o.ofsRegIndex
  | _ => 0

/-! ## Execution -/

/-- The bytes that arrive replace the low bytes of what the destination holds. -/
def overlay (old : UInt64) (bytes : List UInt8) : UInt64 :=
  UInt64.ofNat (leValue (bytes ++ (leBytes 8 old.toNat).drop bytes.length))

section Execute

variable {σ : Type} (P : CheatProcess σ)

/-- `DmntCheatManager::ReadCheatProcessMemoryForVm` into a variable that holds `old`: the variable
afterwards and the state. The result code is ignored by all callers. -/
def readCheatProcessMemoryForVm (st : ExecState σ) (address old : UInt64) (size : Nat) : UInt64 × ExecState σ :=
  if validBitWidth size then
    let (bytes, process) := P.read st.process address size
    (overlay old (bytes.take size), { st with process })
  else (old, st)

/-- `DmntCheatManager::WriteCheatProcessMemoryForVm` of the low bytes of a variable. -/
def writeCheatProcessMemoryForVm (st : ExecState σ) (address value : UInt64) (size : Nat) : ExecState σ :=
  if validBitWidth size then
    let data := leBytes size value.toNat
    { st with
      process := P.write st.process address data
      writes := st.writes ++ [(address, data)] }
  else st

lemma readCheatProcessMemoryForVm_vm (st : ExecState σ) (address old : UInt64) (size : Nat) :
    (readCheatProcessMemoryForVm P st address old size).2.vm = st.vm := by
  unfold readCheatProcessMemoryForVm
  split <;> rfl

lemma writeCheatProcessMemoryForVm_vm (st : ExecState σ) (address value : UInt64) (size : Nat) :
    (writeCheatProcessMemoryForVm P st address value size).vm = st.vm := by
  unfold writeCheatProcessMemoryForVm
  split <;> rfl

/-- The value code type 0xC0 compares with. -/
def compareValue (metadata : CheatProcessMetadata) (o : BeginRegisterConditionalOpcode)
    (st : ExecState σ) : UInt64 × ExecState σ :=
  match o.compType with
  | some .staticValue => (getVmInt o.value o.bitWidth, st)
  | some .otherRegister => (getVmInt (st.vm.registers o.otherRegIndex) o.bitWidth, st)
  | _ => readCheatProcessMemoryForVm P st (compareAddress metadata o st.vm.registers) 0 o.bitWidth

/-- The value code type 0xFFF logs. -/
def logValue (metadata : CheatProcessMetadata) (o : DebugLogOpcode) (st : ExecState σ) : UInt64 × ExecState σ :=
  match o.valType with
  | some .registerValue => (getVmInt (st.vm.registers o.valRegIndex) o.bitWidth, st)
  | _ => readCheatProcessMemoryForVm P st (logAddress metadata o st.vm.registers) 0 o.bitWidth

/-- `if (!cond_met) SkipConditionalBlock();` -/
def enterBlock (condMet : Bool) (st : ExecState σ) : Option (ExecState σ) :=
  if condMet then some st
  else (skipConditionalBlock st.vm).map fun vm => { st with vm }

/-- Code type 3. -/
def controlLoop (o : ControlLoopOpcode) (vm : DmntCheatVm) : DmntCheatVm :=
  if o.startLoop then
    { vm.setRegister o.regIndex o.numIters.toUInt64 with
      loopTops := Function.update vm.loopTops o.regIndex vm.instructionPtr }
  else
    let vm := vm.setRegister o.regIndex (vm.registers o.regIndex - 1)
    if vm.registers o.regIndex != 0 then { vm with instructionPtr := vm.loopTops o.regIndex }
    else vm

/-- Code type 0xC1. -/
def saveRestoreRegister (o : SaveRestoreRegisterOpcode) (vm : DmntCheatVm) : DmntCheatVm :=
  match o.opType with
  | some .clearRegs => vm.setRegister o.dstIndex 0
  | some .clearSaved => vm.setSavedValue o.dstIndex 0
  | some .save => vm.setSavedValue o.dstIndex (vm.registers o.srcIndex)
  | some .restore | none => vm.setRegister o.dstIndex (vm.savedValues o.srcIndex)

/-- Code type 0xC2. In both branches of the source `src` is the registers and `dst` the saved
values, so restoring and clearing registers do what saving and clearing saved values do. -/
def saveRestoreRegisterMask (o : SaveRestoreRegisterMaskOpcode) (vm : DmntCheatVm) : DmntCheatVm :=
  (List.range numRegisters).foldl (fun vm i =>
    if o.shouldOperate.getD i false then
      match o.opType with
      | some .clearSaved | some .clearRegs => vm.setSavedValue i 0
      | some .save | some .restore | none => vm.setSavedValue i (vm.registers i)
    else vm) vm

variable (metadata : CheatProcessMetadata) (kDown : UInt64)

/-- The `switch` of `DmntCheatVm::Execute`; `none` is a fatal error. -/
def executeSwitch (opcode : CheatVmOpcode) (st : ExecState σ) : Option (ExecState σ) :=
  match opcode with
  | .storeStatic o =>
    let dstAddress := getCheatProcessAddress metadata o.memType
      (o.relAddress + st.vm.registers o.offsetRegister)
    some (writeCheatProcessMemoryForVm P st dstAddress (getVmInt o.value o.bitWidth) o.bitWidth)
  | .beginCond o =>
    let srcAddress := getCheatProcessAddress metadata o.memType o.relAddress
    let (srcValue, st) := readCheatProcessMemoryForVm P st srcAddress 0 o.bitWidth
    enterBlock (condMet o.condType srcValue (getVmInt o.value o.bitWidth)) st
  | .endCond =>
    -- a mismatched end is a nop, as the truncated subtraction makes it
    some { st with vm := { st.vm with conditionDepth := st.vm.conditionDepth - 1 } }
  | .ctrlLoop o => some { st with vm := controlLoop o st.vm }
  | .ldrStatic o => some { st with vm := st.vm.setRegister o.regIndex o.value }
  | .ldrMemory o =>
    let srcAddress :=
      if o.loadFromReg then st.vm.registers o.regIndex + o.relAddress
      else getCheatProcessAddress metadata o.memType o.relAddress
    let (value, st) :=
      readCheatProcessMemoryForVm P st srcAddress (st.vm.registers o.regIndex) o.bitWidth
    some { st with vm := st.vm.setRegister o.regIndex value }
  | .strStatic o =>
    let dstAddress := st.vm.registers o.regIndex
    let dstAddress :=
      if o.addOffsetReg then dstAddress + st.vm.registers o.offsetRegIndex else dstAddress
    let st := writeCheatProcessMemoryForVm P st dstAddress o.value o.bitWidth
    if o.incrementReg then
      some { st with
        vm := st.vm.setRegister o.regIndex (st.vm.registers o.regIndex + .ofNat o.bitWidth) }
    else some st
  | .performMathStatic o =>
    let value := staticMath o.mathType (st.vm.registers o.regIndex) o.value.toUInt64
    some { st with vm := st.vm.setRegister o.regIndex (applyBitWidth value o.bitWidth) }
  | .beginKeypressCond o =>
    enterBlock (o.keyMask.toUInt64 &&& kDown == o.keyMask.toUInt64) st
  | .performMathReg o =>
    let operand2 :=
      if o.hasImmediate then getVmInt o.value o.bitWidth else st.vm.registers o.srcReg2Index
    let value := registerMath o.mathType (st.vm.registers o.srcReg1Index) operand2
    some { st with vm := st.vm.setRegister o.dstRegIndex (applyBitWidth value o.bitWidth) }
  | .strRegister o =>
    let dstValue := st.vm.registers o.strRegIndex
    let st := writeCheatProcessMemoryForVm P st
      (storeRegisterAddress metadata o st.vm.registers) dstValue o.bitWidth
    if o.incrementReg then
      some { st with
        vm := st.vm.setRegister o.addrRegIndex
          (st.vm.registers o.addrRegIndex + .ofNat o.bitWidth) }
    else some st
  | .beginRegCond o =>
    let srcValue := getVmInt (st.vm.registers o.valRegIndex) o.bitWidth
    let (condValue, st) := compareValue P metadata o st
    enterBlock (condMet o.condType srcValue condValue) st
  | .saveRestoreReg o => some { st with vm := saveRestoreRegister o st.vm }
  | .saveRestoreRegmask o => some { st with vm := saveRestoreRegisterMask o st.vm }
  | .debugLog o =>
    let (value, st) := logValue P metadata o st
    some { st with debugLogs := st.debugLogs ++ [(o.logId, value)] }

/-- The body of the loop of `DmntCheatVm::Execute`. -/
def executeOpcode (opcode : CheatVmOpcode) (st : ExecState σ) : Option (ExecState σ) :=
  let st :=
    if opcode.beginConditionalBlock then
      { st with vm := { st.vm with conditionDepth := st.vm.conditionDepth + 1 } }
    else st
  executeSwitch P metadata kDown opcode st

/-- How a run can go. -/
inductive Outcome (α : Type) where
  | finished (a : α)
  | fatal
  | outOfFuel
deriving Repr, DecidableEq

/-- The loop of `DmntCheatVm::Execute`. -/
def executeLoop : Nat → ExecState σ → Outcome (ExecState σ)
  | 0, _ => .outOfFuel
  | fuel + 1, st =>
    match decodeNextOpcode st.vm with
    | (some opcode, vm) =>
      match executeOpcode P metadata kDown opcode { st with vm } with
      | some st => executeLoop fuel st
      | none => .fatal
    | (none, vm) => .finished { st with vm }

/-- `DmntCheatVm::Execute` -/
def execute (fuel : Nat) (vm : DmntCheatVm) (process : σ) : Outcome (ExecState σ) :=
  executeLoop P metadata kDown fuel { vm := resetState vm, process }

end Execute

/-! ## The skip loop's fuel -/

/-- A decode that succeeds advances, and not past the end. -/
lemma decodeNextOpcode_advances {vm vm' : DmntCheatVm} {opcode : CheatVmOpcode}
    (h : decodeNextOpcode vm = (some opcode, vm')) :
    vm.instructionPtr < vm'.instructionPtr ∧ vm'.instructionPtr ≤ vm.numOpcodes ∧
      vm'.numOpcodes = vm.numOpcodes := by
  by_cases hip : vm.instructionPtr < vm.numOpcodes
  · rw [decodeNextOpcode, getNextDword_inside hip] at h
    dsimp only at h
    split at h
    · split at h
      · rename_i t _
        obtain ⟨_, hf⟩ := reads_decodeOperands (vm.program vm.instructionPtr) t
        have hr := hf vm.program vm.numOpcodes
        have hm := hr.mono ⟨vm.instructionPtr + 1, vm.decodeSuccess⟩
        have hb := hr.bounded ⟨vm.instructionPtr + 1, vm.decodeSuccess⟩ hip
        obtain ⟨_, rfl⟩ := Prod.mk.inj h
        exact ⟨hm, hb, rfl⟩
      · simp [finishDecode] at h
    · rename_i hv
      simp [finishDecode, hv] at h
  · rw [decodeNextOpcode, getNextDword_outside hip] at h
    simp [finishDecode] at h

lemma skipOpcode_frame (vm : DmntCheatVm) (opcode : CheatVmOpcode) :
    ∃ depth, skipOpcode vm opcode = { vm with conditionDepth := depth } := by
  unfold skipOpcode
  split
  · exact ⟨_, rfl⟩
  · split <;> exact ⟨_, rfl⟩

/-- Any fuel above the number of words left gives the same result. -/
lemma skipLoop_fuel {d fuel fuel' : Nat} {vm : DmntCheatVm}
    (h : vm.numOpcodes ≤ vm.instructionPtr + fuel) (h' : vm.numOpcodes ≤ vm.instructionPtr + fuel') :
    skipLoop d (fuel + 1) vm = skipLoop d (fuel' + 1) vm := by
  induction fuel generalizing fuel' vm with
  | zero =>
    rw [skipLoop, skipLoop]
    split
    · split
      · rename_i hdec
        obtain ⟨h1, h2, _⟩ := decodeNextOpcode_advances hdec
        omega
      · rfl
    · rfl
  | succ fuel ih =>
    rw [skipLoop, skipLoop]
    split
    · split
      · rename_i opcode vm₁ hdec
        obtain ⟨h1, h2, h3⟩ := decodeNextOpcode_advances hdec
        obtain ⟨k, rfl⟩ : ∃ k, fuel' = k + 1 := ⟨fuel' - 1, by omega⟩
        obtain ⟨depth, hskip⟩ := skipOpcode_frame vm₁ opcode
        rw [hskip]
        apply ih <;> simp only [h3] <;> omega
      · rfl
    · rfl

/-! ## What a run leaves alone -/

/-- Skipping moves the cursor and the depth only. -/
lemma skipLoop_frame (d fuel : Nat) (vm : DmntCheatVm) :
    ∃ pos depth ok, skipLoop d fuel vm =
      { vm with instructionPtr := pos, conditionDepth := depth, decodeSuccess := ok } := by
  induction fuel generalizing vm with
  | zero => exact ⟨_, _, _, rfl⟩
  | succ fuel ih =>
    obtain ⟨pos, ok, hdec⟩ := decodeNextOpcode_frame vm
    rw [skipLoop]
    split
    · split
      · rename_i opcode vm₁ h
        rw [h] at hdec
        change vm₁ = _ at hdec
        obtain ⟨depth, hskip⟩ := skipOpcode_frame vm₁ opcode
        obtain ⟨pos', depth', ok', ih⟩ := ih (skipOpcode vm₁ opcode)
        exact ⟨pos', depth', ok', by rw [ih, hskip, hdec]⟩
      · rename_i h
        rw [h] at hdec
        exact ⟨pos, vm.conditionDepth, _, hdec⟩
    · exact ⟨_, _, _, rfl⟩

section Frame

variable {σ : Type} {P : CheatProcess σ} {I : σ → Prop}

/-- `st'` runs the program `st` runs, and whatever `I` says of the process of `st` it says of the
process of `st'`. -/
structure Frame (I : σ → Prop) (st st' : ExecState σ) : Prop where
  program : st'.vm.program = st.vm.program
  numOpcodes : st'.vm.numOpcodes = st.vm.numOpcodes
  process : I st.process → I st'.process

lemma Frame.refl (st : ExecState σ) : Frame I st st := ⟨rfl, rfl, id⟩

lemma Frame.trans {st st' st'' : ExecState σ} (h : Frame I st st') (h' : Frame I st' st'') : Frame I st st'' :=
  ⟨h'.program.trans h.program, h'.numOpcodes.trans h.numOpcodes, h'.process ∘ h.process⟩

variable {st st' : ExecState σ}

/-- The program a VM holds is all that `words` depends on. -/
lemma Frame.words (h : Frame I st st') : st'.vm.words = st.vm.words := by
  rw [DmntCheatVm.words, DmntCheatVm.words, h.program, h.numOpcodes]

/-- `I` is kept by every memory access. -/
structure Keeps (P : CheatProcess σ) (I : σ → Prop) : Prop where
  read : ∀ s address size, I s → I (P.read s address size).2
  write : ∀ s address data, I s → I (P.write s address data)

lemma Keeps.read_frame (hk : Keeps P I) (st : ExecState σ) (address old : UInt64) (size : Nat) :
    Frame I st (readCheatProcessMemoryForVm P st address old size).2 := by
  unfold readCheatProcessMemoryForVm
  split
  · exact ⟨rfl, rfl, hk.read _ _ _⟩
  · exact .refl st

lemma Keeps.write_frame (hk : Keeps P I) (st : ExecState σ) (address value : UInt64) (size : Nat) :
    Frame I st (writeCheatProcessMemoryForVm P st address value size) := by
  unfold writeCheatProcessMemoryForVm
  split
  · exact ⟨rfl, rfl, hk.write _ _ _⟩
  · exact .refl st

lemma enterBlock_frame {b : Bool} (h : enterBlock b st = some st') : Frame I st st' := by
  unfold enterBlock at h
  split at h
  · cases h
    exact .refl st
  · unfold skipConditionalBlock at h
    split at h
    · obtain ⟨_, _, _, hskip⟩ :=
        skipLoop_frame (st.vm.conditionDepth - 1) (st.vm.numOpcodes + 1) st.vm
      rw [hskip] at h
      cases h
      exact ⟨rfl, rfl, id⟩
    · cases h

lemma controlLoop_frame (o : ControlLoopOpcode) (vm : DmntCheatVm) :
    (controlLoop o vm).program = vm.program ∧ (controlLoop o vm).numOpcodes = vm.numOpcodes := by
  unfold controlLoop
  split
  · exact ⟨rfl, rfl⟩
  · dsimp only
    split <;> exact ⟨rfl, rfl⟩

lemma saveRestoreRegister_frame (o : SaveRestoreRegisterOpcode) (vm : DmntCheatVm) :
    (saveRestoreRegister o vm).program = vm.program ∧
      (saveRestoreRegister o vm).numOpcodes = vm.numOpcodes := by
  unfold saveRestoreRegister
  split <;> exact ⟨rfl, rfl⟩

lemma saveRestoreRegisterMask_frame (o : SaveRestoreRegisterMaskOpcode) (vm : DmntCheatVm) :
    (saveRestoreRegisterMask o vm).program = vm.program ∧
      (saveRestoreRegisterMask o vm).numOpcodes = vm.numOpcodes := by
  unfold saveRestoreRegisterMask
  generalize List.range numRegisters = is
  induction is generalizing vm with
  | nil => exact ⟨rfl, rfl⟩
  | cons i is ih =>
    obtain ⟨h1, h2⟩ := ih (if o.shouldOperate.getD i false then
      match o.opType with
      | some .clearSaved | some .clearRegs => vm.setSavedValue i 0
      | some .save | some .restore | none => vm.setSavedValue i (vm.registers i) else vm)
    rw [List.foldl_cons]
    refine ⟨h1.trans ?_, h2.trans ?_⟩
    · split
      · split <;> rfl
      · rfl
    · split
      · split <;> rfl
      · rfl

variable {metadata : CheatProcessMetadata} {kDown : UInt64}

lemma Keeps.compareValue_frame (hk : Keeps P I) (o : BeginRegisterConditionalOpcode)
    (st : ExecState σ) : Frame I st (compareValue P metadata o st).2 := by
  unfold compareValue
  split
  · exact .refl st
  · exact .refl st
  · exact hk.read_frame _ _ _ _

lemma Keeps.logValue_frame (hk : Keeps P I) (o : DebugLogOpcode) (st : ExecState σ) :
    Frame I st (logValue P metadata o st).2 := by
  unfold logValue
  split
  · exact .refl st
  · exact hk.read_frame _ _ _ _

/-- No instruction changes the program, and what every memory access keeps every instruction
keeps. -/
lemma Keeps.executeSwitch_frame (hk : Keeps P I) {opcode : CheatVmOpcode}
    (h : executeSwitch P metadata kDown opcode st = some st') : Frame I st st' := by
  cases opcode with
  | storeStatic o =>
    cases h
    exact hk.write_frame _ _ _ _
  | beginCond o => exact (hk.read_frame _ _ _ _).trans (enterBlock_frame h)
  | endCond =>
    cases h
    exact ⟨rfl, rfl, id⟩
  | ctrlLoop o =>
    cases h
    obtain ⟨h1, h2⟩ := controlLoop_frame o st.vm
    exact ⟨h1, h2, id⟩
  | ldrStatic o =>
    cases h
    exact ⟨rfl, rfl, id⟩
  | ldrMemory o =>
    cases h
    exact (hk.read_frame _ _ _ _).trans ⟨rfl, rfl, id⟩
  | strStatic o =>
    simp only [executeSwitch] at h
    split at h
    · cases h
      exact (hk.write_frame _ _ _ _).trans ⟨rfl, rfl, id⟩
    · cases h
      exact hk.write_frame _ _ _ _
  | performMathStatic o =>
    cases h
    exact ⟨rfl, rfl, id⟩
  | beginKeypressCond o => exact enterBlock_frame h
  | performMathReg o =>
    cases h
    exact ⟨rfl, rfl, id⟩
  | strRegister o =>
    simp only [executeSwitch] at h
    split at h
    · cases h
      exact (hk.write_frame _ _ _ _).trans ⟨rfl, rfl, id⟩
    · cases h
      exact hk.write_frame _ _ _ _
  | beginRegCond o => exact (hk.compareValue_frame o st).trans (enterBlock_frame h)
  | saveRestoreReg o =>
    cases h
    obtain ⟨h1, h2⟩ := saveRestoreRegister_frame o st.vm
    exact ⟨h1, h2, id⟩
  | saveRestoreRegmask o =>
    cases h
    obtain ⟨h1, h2⟩ := saveRestoreRegisterMask_frame o st.vm
    exact ⟨h1, h2, id⟩
  | debugLog o =>
    cases h
    exact (hk.logValue_frame o st).trans ⟨rfl, rfl, id⟩

/-- A run that ends leaves the program as it was, and what every memory access keeps it keeps. -/
lemma Keeps.executeLoop_frame (hk : Keeps P I) {fuel : Nat}
    (h : executeLoop P metadata kDown fuel st = .finished st') : Frame I st st' := by
  induction fuel generalizing st with
  | zero => cases h
  | succ fuel ih =>
    obtain ⟨pos, ok, hdec⟩ := decodeNextOpcode_frame st.vm
    rw [executeLoop] at h
    split at h
    · rename_i opcode vm heq
      rw [heq] at hdec
      change vm = _ at hdec
      have hf : Frame I st { st with vm } := by
        rw [hdec]
        exact ⟨rfl, rfl, id⟩
      split at h
      · rename_i st₁ hst₁
        have hf₁ : Frame I { st with vm } st₁ := by
          unfold executeOpcode at hst₁
          dsimp only at hst₁
          split at hst₁
          · have h₁ := hk.executeSwitch_frame hst₁
            exact ⟨h₁.program, h₁.numOpcodes, h₁.process⟩
          · exact hk.executeSwitch_frame hst₁
        exact (hf.trans hf₁).trans (ih h)
      · cases h
    · rename_i vm heq
      rw [heq] at hdec
      change vm = _ at hdec
      cases h
      rw [hdec]
      exact ⟨rfl, rfl, id⟩

/-- `Execute` leaves the program as it was, and what every memory access keeps it keeps. -/
lemma Keeps.execute_frame (hk : Keeps P I) {fuel : Nat} {vm : DmntCheatVm} {process : σ}
    {st : ExecState σ} (h : execute P metadata kDown fuel vm process = .finished st) :
    st.vm.words = vm.words ∧ (I process → I st.process) :=
  have hf := hk.executeLoop_frame h
  ⟨hf.words, hf.process⟩

end Frame

end RajNX.Dmnt
