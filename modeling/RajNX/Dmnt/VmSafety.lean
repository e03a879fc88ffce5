import RajNX.Dmnt.Vm

/-!
# Safety of the cheat VM

Programs of arbitrary words. The decoder takes every index of a register from four bits and fetches below the end of
the program only; jumps go to loop tops, and these are places where an instruction ended (`InProgram`). A VM is the same
as one in which everything past the arrays is cleared (`inside`): the run does not depend on it, and does not change
it. A block is skipped only right after it was entered, when the depth is not zero.
-/

namespace RajNX.Dmnt

open WordStream HexWord

/-! ## Indices of registers -/

/-- All indices of registers and saved values in an instruction are below sixteen. -/
def CheatVmOpcode.WellIndexed : CheatVmOpcode → Prop
  | .storeStatic o => o.offsetRegister < numRegisters
  | .beginCond _ | .endCond | .beginKeypressCond _ => True
  | .ctrlLoop o => o.regIndex < numRegisters
  | .ldrStatic o => o.regIndex < numRegisters
  | .ldrMemory o => o.regIndex < numRegisters
  | .strStatic o => o.regIndex < numRegisters ∧ o.offsetRegIndex < numRegisters
  | .performMathStatic o => o.regIndex < numRegisters
  | .performMathReg o =>
    o.dstRegIndex < numRegisters ∧ o.srcReg1Index < numRegisters ∧ o.srcReg2Index < numRegisters
  | .strRegister o => o.strRegIndex < numRegisters ∧ o.addrRegIndex < numRegisters ∧ o.ofsRegIndex < numRegisters
  | .beginRegCond o =>
    o.valRegIndex < numRegisters ∧ o.addrRegIndex < numRegisters ∧ o.otherRegIndex < numRegisters ∧
      o.ofsRegIndex < numRegisters
  | .saveRestoreReg o => o.dstIndex < numRegisters ∧ o.srcIndex < numRegisters
  | .saveRestoreRegmask o => o.shouldOperate.length = numRegisters
  | .debugLog o => o.addrRegIndex < numRegisters ∧ o.valRegIndex < numRegisters ∧ o.ofsRegIndex < numRegisters

section Decode

variable {program program' : Nat → UInt32} {numOpcodes : Nat} {firstDword : UInt32} {s : Cursor} {vm vm' : DmntCheatVm}
  {opcode : CheatVmOpcode}

/-- A nybble of an opcode is a register. -/
lemma nybble_lt_numRegisters (w shift : UInt32) : nybble w shift < numRegisters := by
  rw [nybble_eq]
  exact Nat.mod_lt _ (by decide)

lemma zero_lt_numRegisters : 0 < numRegisters := by decide

lemma decodeStoreRegister_wellIndexed (ofsType : Option StoreRegisterOffsetType) :
    (CheatVmOpcode.strRegister (decodeStoreRegister program numOpcodes firstDword ofsType s).1).WellIndexed := by
  rcases ofsType with _ | _ | _ | _ | _ | _ | _ <;>
    exact ⟨nybble_lt_numRegisters _ _, nybble_lt_numRegisters _ _, nybble_lt_numRegisters _ _⟩

lemma decodeRegisterConditional_wellIndexed (compType : Option CompareRegisterValueType) :
    (CheatVmOpcode.beginRegCond
      (decodeRegisterConditional program numOpcodes firstDword compType s).1).WellIndexed := by
  have hval := nybble_lt_numRegisters firstDword 12
  have hfirst := nybble_lt_numRegisters firstDword 4
  have hsecond := nybble_lt_numRegisters firstDword 0
  have hzero := zero_lt_numRegisters
  rcases compType with _ | _ | _ | _ | _ | _ | _
  · exact ⟨hval, hzero, hzero, hzero⟩
  · exact ⟨hval, hzero, hzero, hzero⟩
  · exact ⟨hval, hzero, hzero, hsecond⟩
  · exact ⟨hval, hfirst, hzero, hzero⟩
  · exact ⟨hval, hfirst, hzero, hsecond⟩
  · exact ⟨hval, hzero, hzero, hzero⟩
  · exact ⟨hval, hzero, hfirst, hzero⟩

lemma decodeDebugLog_wellIndexed (valType : Option DebugLogValueType) :
    (CheatVmOpcode.debugLog (decodeDebugLog program numOpcodes firstDword valType s).1).WellIndexed := by
  have hfirst := nybble_lt_numRegisters firstDword 4
  have hsecond := nybble_lt_numRegisters firstDword 0
  have hzero := zero_lt_numRegisters
  rcases valType with _ | _ | _ | _ | _ | _
  · exact ⟨hzero, hzero, hzero⟩
  · exact ⟨hzero, hzero, hzero⟩
  · exact ⟨hzero, hzero, hsecond⟩
  · exact ⟨hfirst, hzero, hzero⟩
  · exact ⟨hfirst, hzero, hsecond⟩
  · exact ⟨hzero, hfirst, hzero⟩

/-- Every opcode that is decoded names registers only. -/
lemma decodeOperands_wellIndexed (t : CheatVmOpcodeType) :
    (decodeOperands program numOpcodes firstDword t s).1.WellIndexed := by
  have hnybble := nybble_lt_numRegisters firstDword
  cases t with
  | storeStatic => exact hnybble 16
  | beginConditionalBlock => trivial
  | endConditionalBlock => trivial
  | controlLoop =>
    rw [decodeOperands]
    split <;> exact hnybble 20
  | loadRegisterStatic => exact hnybble 16
  | loadRegisterMemory => exact hnybble 16
  | storeStaticToAddress => exact ⟨hnybble 16, hnybble 4⟩
  | performArithmeticStatic => exact hnybble 16
  | beginKeypressConditionalBlock => trivial
  | performArithmeticRegister =>
    rw [decodeOperands]
    split
    · exact ⟨hnybble 16, hnybble 12, zero_lt_numRegisters⟩
    · exact ⟨hnybble 16, hnybble 12, hnybble 4⟩
  | storeRegisterToAddress => exact decodeStoreRegister_wellIndexed _
  | beginRegisterConditionalBlock => exact decodeRegisterConditional_wellIndexed _
  | saveRestoreRegister => exact ⟨hnybble 16, hnybble 8⟩
  | saveRestoreRegisterMask =>
    show (List.map _ (List.range numRegisters)).length = numRegisters
    rw [List.length_map, List.length_range]
  | debugLog => exact decodeDebugLog_wellIndexed _

/-- A decoded instruction names registers that there are. -/
lemma decodeNextOpcode_wellIndexed (h : decodeNextOpcode vm = (some opcode, vm')) : opcode.WellIndexed := by
  rw [decodeNextOpcode] at h
  dsimp only at h
  split at h
  · split at h
    · rw [finishDecode] at h
      obtain ⟨hopcode, -⟩ := Prod.mk.inj h
      split at hopcode
      · exact Option.some.inj hopcode ▸ decodeOperands_wellIndexed _
      · cases hopcode
    · cases h
  · next hvalid =>
    rw [finishDecode, if_neg hvalid] at h
    cases h

end Decode

/-! ## Inside of the arrays -/

/-- A VM with everything past the program and past the registers cleared. -/
def DmntCheatVm.inside (vm : DmntCheatVm) : DmntCheatVm :=
  { vm with
    program := fun i => if i < vm.numOpcodes then vm.program i else 0
    registers := fun i => if i < numRegisters then vm.registers i else 0
    savedValues := fun i => if i < numRegisters then vm.savedValues i else 0
    loopTops := fun i => if i < numRegisters then vm.loopTops i else 0 }

/-- A run with a VM of which everything past the arrays is cleared. -/
def ExecState.inside {σ : Type} (st : ExecState σ) : ExecState σ := { st with vm := st.vm.inside }

/-- The outcome of a run with everything past the arrays cleared. -/
def Outcome.inside {σ : Type} : Outcome (ExecState σ) → Outcome (ExecState σ)
  | .finished st => .finished st.inside
  | .fatal => .fatal
  | .outOfFuel => .outOfFuel

section Fetch

variable {program program' : Nat → UInt32} {numOpcodes : Nat}

/-- Words at or past the end of the program are not fetched. -/
lemma getNextDword_congr (h : ∀ i < numOpcodes, program i = program' i) :
    getNextDword program numOpcodes = getNextDword program' numOpcodes := by
  funext s
  rw [getNextDword, getNextDword, next, next]
  split
  · rfl
  · next hlt => rw [h _ (Nat.not_le.mp hlt)]

/-- Operands are read from the program. -/
lemma getNextVmInt_congr (h : ∀ i < numOpcodes, program i = program' i) (bitWidth : Nat) :
    getNextVmInt program numOpcodes bitWidth = getNextVmInt program' numOpcodes bitWidth := by
  rw [getNextVmInt, getNextVmInt, getNextDword_congr h]

/-- So is the rest of an opcode. -/
lemma decodeOperands_congr (h : ∀ i < numOpcodes, program i = program' i) (firstDword : UInt32)
    (t : CheatVmOpcodeType) :
    decodeOperands program numOpcodes firstDword t = decodeOperands program' numOpcodes firstDword t := by
  have hnext := getNextDword_congr h
  have hint := getNextVmInt_congr h
  cases t <;>
    simp only [decodeOperands, decodeStoreRegister, decodeRegisterConditional, decodeDebugLog, hnext, hint]

end Fetch

section Inside

variable {vm vm' : DmntCheatVm} {opcode : CheatVmOpcode} {i : Nat}

section

variable (h : i < numRegisters)

include h

/-- Inside of the array, nothing is cut off. -/
lemma inside_registers : vm.inside.registers i = vm.registers i := if_pos h

lemma inside_savedValues : vm.inside.savedValues i = vm.savedValues i := if_pos h

lemma inside_loopTops : vm.inside.loopTops i = vm.loopTops i := if_pos h

/-- An update inside of an array. -/
lemma update_inside {α : Type} {cells : Nat → α} {v d : α} :
    (fun j => if j < numRegisters then Function.update cells i v j else d) =
      Function.update (fun j => if j < numRegisters then cells j else d) i v := by
  funext j
  rcases eq_or_ne j i with rfl | hne
  · rw [Function.update_self, Function.update_self, if_pos h]
  · rw [Function.update_of_ne hne, Function.update_of_ne hne]

/-- A register is set inside of the array. -/
lemma inside_setRegister (v : UInt64) :
    (vm.setRegister i v).inside = vm.inside.setRegister i v :=
  congrArg (fun registers => { vm.inside with registers }) (update_inside h)

lemma inside_setSavedValue (v : UInt64) :
    (vm.setSavedValue i v).inside = vm.inside.setSavedValue i v :=
  congrArg (fun savedValues => { vm.inside with savedValues }) (update_inside h)

end

/-- A decode does not depend on what is past the arrays. -/
lemma decodeNextOpcode_inside (vm : DmntCheatVm) :
    decodeNextOpcode vm.inside = ((decodeNextOpcode vm).1, (decodeNextOpcode vm).2.inside) := by
  have hprogram : ∀ i < vm.numOpcodes, vm.inside.program i = vm.program i := fun _ h => if_pos h
  have hnext : getNextDword vm.inside.program vm.inside.numOpcodes = getNextDword vm.program vm.numOpcodes :=
    getNextDword_congr hprogram
  have hoperands (w : UInt32) (t : CheatVmOpcodeType) :
      decodeOperands vm.inside.program vm.inside.numOpcodes w t = decodeOperands vm.program vm.numOpcodes w t :=
    decodeOperands_congr hprogram w t
  have hstart : Cursor.mk vm.inside.instructionPtr vm.inside.decodeSuccess = ⟨vm.instructionPtr, vm.decodeSuccess⟩ :=
    rfl
  have hfinish (opcode : CheatVmOpcode) (s : Cursor) :
      finishDecode vm.inside opcode s = ((finishDecode vm opcode s).1, (finishDecode vm opcode s).2.inside) := rfl
  rw [decodeNextOpcode, decodeNextOpcode, hnext, hstart]
  simp only [hoperands, hfinish]
  split
  · split <;> rfl
  · rfl

/-- Skipping touches neither registers nor loop tops. -/
lemma skipLoop_inside (d fuel : Nat) (vm : DmntCheatVm) : skipLoop d fuel vm.inside = (skipLoop d fuel vm).inside := by
  induction fuel generalizing vm with
  | zero => rfl
  | succ fuel ih =>
    rw [skipLoop, skipLoop]
    show (if vm.conditionDepth > d then _ else _) = _
    split
    · rw [decodeNextOpcode_inside]
      rcases decodeNextOpcode vm with ⟨_ | opcode, vm'⟩
      · rfl
      · have hskip : skipOpcode vm'.inside opcode = (skipOpcode vm' opcode).inside := by cases opcode <;> rfl
        show skipLoop d fuel (skipOpcode vm'.inside opcode) = _
        rw [hskip]
        exact ih _
    · rfl

end Inside

/-! ## Runs inside of the arrays -/

section Execute

variable {σ : Type} {P : CheatProcess σ} {metadata : CheatProcessMetadata} {kDown : UInt64}
  {opcode : CheatVmOpcode} {st st' : ExecState σ}

/-- Reads of the process do not depend on the machine. -/
lemma readCheatProcessMemoryForVm_inside (st : ExecState σ) (address old : UInt64) (size : Nat) :
    readCheatProcessMemoryForVm P st.inside address old size = ((readCheatProcessMemoryForVm P st address old size).1,
        (readCheatProcessMemoryForVm P st address old size).2.inside) := by
  rw [readCheatProcessMemoryForVm, readCheatProcessMemoryForVm]
  split <;> rfl

/-- Writes to the process do not depend on it either. -/
lemma writeCheatProcessMemoryForVm_inside (st : ExecState σ) (address value : UInt64) (size : Nat) :
    writeCheatProcessMemoryForVm P st.inside address value size =
      (writeCheatProcessMemoryForVm P st address value size).inside := by
  rw [writeCheatProcessMemoryForVm, writeCheatProcessMemoryForVm]
  split <;> rfl

/-- A block is entered or skipped by the depth alone. -/
lemma enterBlock_inside (condMet : Bool) (st : ExecState σ) :
    enterBlock condMet st.inside = (enterBlock condMet st).map ExecState.inside := by
  rw [enterBlock, enterBlock]
  split
  · rfl
  · rw [skipConditionalBlock, skipConditionalBlock]
    show Option.map _ (if st.vm.conditionDepth > 0 then some (skipLoop _ _ st.vm.inside) else none) = _
    split
    · rw [skipLoop_inside]
      rfl
    · rfl

/-- A loop counts in a register that is inside. -/
lemma controlLoop_inside {o : ControlLoopOpcode} (ho : o.regIndex < numRegisters) (vm : DmntCheatVm) :
    controlLoop o vm.inside = (controlLoop o vm).inside := by
  rw [controlLoop, controlLoop]
  split
  · rw [← inside_setRegister ho]
    exact congrArg (fun loopTops => { (vm.setRegister o.regIndex o.numIters.toUInt64).inside with loopTops })
      (update_inside ho).symm
  · dsimp only
    rw [inside_registers ho, ← inside_setRegister ho, inside_registers ho, inside_loopTops ho]
    split <;> rfl

/-- Registers are saved and restored inside of the arrays. -/
lemma saveRestoreRegister_inside {o : SaveRestoreRegisterOpcode}
    (ho : o.dstIndex < numRegisters ∧ o.srcIndex < numRegisters) (vm : DmntCheatVm) :
    saveRestoreRegister o vm.inside = (saveRestoreRegister o vm).inside := by
  unfold saveRestoreRegister
  rw [inside_registers ho.2, inside_savedValues ho.2]
  split
  · exact (inside_setRegister ho.1 _).symm
  · exact (inside_setSavedValue ho.1 _).symm
  · exact (inside_setSavedValue ho.1 _).symm
  · exact (inside_setRegister ho.1 _).symm
  · exact (inside_setRegister ho.1 _).symm

/-- A mask has one bit for each of the registers. -/
lemma saveRestoreRegisterMask_inside (o : SaveRestoreRegisterMaskOpcode) (vm : DmntCheatVm) :
    saveRestoreRegisterMask o vm.inside = (saveRestoreRegisterMask o vm).inside := by
  rw [saveRestoreRegisterMask, saveRestoreRegisterMask]
  have hlt : ∀ i ∈ List.range numRegisters, i < numRegisters := fun _ h => List.mem_range.mp h
  generalize List.range numRegisters = is at hlt
  induction is generalizing vm with
  | nil => rfl
  | cons i is ih =>
    have hi := hlt i (.head _)
    rw [List.foldl_cons, List.foldl_cons, ← ih _ fun j hj => hlt j (.tail _ hj)]
    congr 1
    split
    · split
      · exact (inside_setSavedValue hi _).symm
      · exact (inside_setSavedValue hi _).symm
      · rw [inside_registers hi]
        exact (inside_setSavedValue hi _).symm
      · rw [inside_registers hi]
        exact (inside_setSavedValue hi _).symm
      · rw [inside_registers hi]
        exact (inside_setSavedValue hi _).symm
    · rfl

/-- A register that an opcode may read. -/
lemma registers_inside (st : ExecState σ) {i : Nat} (h : i < numRegisters) :
    st.inside.vm.registers i = st.vm.registers i :=
  inside_registers h

/-- A register of a run is written. -/
lemma setRegister_inside (st : ExecState σ) {i : Nat} (h : i < numRegisters) (v : UInt64) :
    { st.inside with vm := st.inside.vm.setRegister i v } =
      ({ st with vm := st.vm.setRegister i v } : ExecState σ).inside :=
  congrArg (fun vm => { st with vm }) (inside_setRegister h v).symm

/-- The address of a store is made of registers that are inside. -/
lemma storeRegisterAddress_inside {o : StoreRegisterToAddressOpcode} (ho : (CheatVmOpcode.strRegister o).WellIndexed)
    (st : ExecState σ) :
    storeRegisterAddress metadata o st.inside.vm.registers = storeRegisterAddress metadata o st.vm.registers := by
  obtain ⟨-, haddr, hofs⟩ := ho
  rw [storeRegisterAddress, storeRegisterAddress, registers_inside st haddr, registers_inside st hofs]

/-- So is the value of a comparison. -/
lemma compareValue_inside {o : BeginRegisterConditionalOpcode} (ho : (CheatVmOpcode.beginRegCond o).WellIndexed)
    (st : ExecState σ) :
    compareValue P metadata o st.inside =
      ((compareValue P metadata o st).1, (compareValue P metadata o st).2.inside) := by
  obtain ⟨-, haddr, hother, hofs⟩ := ho
  have haddress : compareAddress metadata o st.inside.vm.registers = compareAddress metadata o st.vm.registers := by
    unfold compareAddress
    rw [registers_inside st haddr, registers_inside st hofs]
  unfold compareValue
  rw [haddress, registers_inside st hother, readCheatProcessMemoryForVm_inside]
  split <;> rfl

/-- So is a value for the log. -/
lemma logValue_inside {o : DebugLogOpcode} (ho : (CheatVmOpcode.debugLog o).WellIndexed) (st : ExecState σ) :
    logValue P metadata o st.inside = ((logValue P metadata o st).1, (logValue P metadata o st).2.inside) := by
  obtain ⟨haddr, hval, hofs⟩ := ho
  have haddress : logAddress metadata o st.inside.vm.registers = logAddress metadata o st.vm.registers := by
    unfold logAddress
    rw [registers_inside st haddr, registers_inside st hofs]
  unfold logValue
  rw [haddress, registers_inside st hval, readCheatProcessMemoryForVm_inside]
  split <;> rfl

/-- No instruction depends on what is past the arrays. -/
lemma executeSwitch_inside (hopcode : opcode.WellIndexed) (st : ExecState σ) :
    executeSwitch P metadata kDown opcode st.inside =
      (executeSwitch P metadata kDown opcode st).map ExecState.inside := by
  cases opcode with
  | storeStatic o =>
    simp only [executeSwitch, registers_inside st hopcode, writeCheatProcessMemoryForVm_inside]
    rfl
  | beginCond o =>
    simp only [executeSwitch, readCheatProcessMemoryForVm_inside]
    exact enterBlock_inside _ _
  | endCond => rfl
  | ctrlLoop o => exact congrArg (fun vm => some { st with vm }) (controlLoop_inside hopcode st.vm)
  | ldrStatic o => exact congrArg some (setRegister_inside st hopcode _)
  | ldrMemory o =>
    simp only [executeSwitch, registers_inside st hopcode, readCheatProcessMemoryForVm_inside]
    exact congrArg some (setRegister_inside _ hopcode _)
  | strStatic o =>
    obtain ⟨hreg, hoffset⟩ := hopcode
    simp only [executeSwitch, registers_inside st hreg, registers_inside st hoffset,
      writeCheatProcessMemoryForVm_inside]
    split
    · rw [registers_inside _ hreg]
      exact congrArg some (setRegister_inside _ hreg _)
    · rfl
  | performMathStatic o =>
    simp only [executeSwitch, registers_inside st hopcode]
    exact congrArg some (setRegister_inside st hopcode _)
  | beginKeypressCond o => exact enterBlock_inside _ _
  | performMathReg o =>
    obtain ⟨hdst, hsrc, hsrc'⟩ := hopcode
    simp only [executeSwitch, registers_inside st hsrc, registers_inside st hsrc']
    exact congrArg some (setRegister_inside st hdst _)
  | strRegister o =>
    have haddress := @storeRegisterAddress_inside σ metadata o hopcode st
    obtain ⟨hstr, haddr, -⟩ := hopcode
    simp only [executeSwitch, haddress, registers_inside st hstr, writeCheatProcessMemoryForVm_inside]
    split
    · rw [registers_inside _ haddr]
      exact congrArg some (setRegister_inside _ haddr _)
    · rfl
  | beginRegCond o =>
    simp only [executeSwitch, registers_inside st hopcode.1, compareValue_inside hopcode]
    exact enterBlock_inside _ _
  | saveRestoreReg o => exact congrArg (fun vm => some { st with vm }) (saveRestoreRegister_inside hopcode st.vm)
  | saveRestoreRegmask o => exact congrArg (fun vm => some { st with vm }) (saveRestoreRegisterMask_inside o st.vm)
  | debugLog o =>
    simp only [executeSwitch, logValue_inside hopcode]
    rfl

/-- One opcode does the same without what is outside of the arrays. -/
lemma executeOpcode_inside (hopcode : opcode.WellIndexed) (st : ExecState σ) :
    executeOpcode P metadata kDown opcode st.inside =
      (executeOpcode P metadata kDown opcode st).map ExecState.inside := by
  rw [executeOpcode, executeOpcode]
  split
  · exact executeSwitch_inside hopcode { st with vm := { st.vm with conditionDepth := st.vm.conditionDepth + 1 } }
  · exact executeSwitch_inside hopcode st

/-- A run does not depend on what is past the arrays. -/
lemma executeLoop_inside (fuel : Nat) (st : ExecState σ) :
    executeLoop P metadata kDown fuel st.inside = (executeLoop P metadata kDown fuel st).inside := by
  induction fuel generalizing st with
  | zero => rfl
  | succ fuel ih =>
    rw [executeLoop, executeLoop]
    have hdecode := decodeNextOpcode_inside st.vm
    cases hnext : decodeNextOpcode st.vm with
    | mk opcode vm =>
      rw [hnext] at hdecode
      rw [show decodeNextOpcode st.inside.vm = (opcode, vm.inside) from hdecode]
      cases opcode with
      | none => rfl
      | some opcode =>
        have hexecute := @executeOpcode_inside σ P metadata kDown opcode (decodeNextOpcode_wellIndexed hnext)
          { st with vm }
        dsimp only
        rw [show executeOpcode P metadata kDown opcode { st.inside with vm := vm.inside } = _ from hexecute]
        cases executeOpcode P metadata kDown opcode { st with vm } with
        | none => rfl
        | some st' => exact ih st'

end Execute

/-! ## What every step keeps -/

/-- The instruction pointer and the loop tops are in the program or at its end. -/
structure InProgram (vm : DmntCheatVm) : Prop where
  instructionPtr : vm.instructionPtr ≤ vm.numOpcodes
  loopTops (i : Nat) : i < numRegisters → vm.loopTops i ≤ vm.numOpcodes

/-- A part of a run that changes neither the program nor anything past the registers, and stays in the program. -/
structure Confined (vm vm' : DmntCheatVm) : Prop where
  numOpcodes : vm'.numOpcodes = vm.numOpcodes
  program : vm'.program = vm.program
  registers (i : Nat) : numRegisters ≤ i → vm'.registers i = vm.registers i
  savedValues (i : Nat) : numRegisters ≤ i → vm'.savedValues i = vm.savedValues i
  loopTops (i : Nat) : numRegisters ≤ i → vm'.loopTops i = vm.loopTops i
  within : InProgram vm → InProgram vm'

/-- The VMs at which the loop of `SkipConditionalBlock` checks the depth. -/
inductive SkipVisits (d : Nat) (vm : DmntCheatVm) : DmntCheatVm → Prop where
  | start :
    SkipVisits d vm vm
  | next {vm₁ vm₂ opcode} :
    SkipVisits d vm vm₁ →
    d < vm₁.conditionDepth →
    decodeNextOpcode vm₁ = (some opcode, vm₂) →
    SkipVisits d vm (skipOpcode vm₂ opcode)

section Confined

variable {vm vm' vm'' : DmntCheatVm} {opcode : CheatVmOpcode} {d fuel i : Nat}

/-- Nothing is changed. -/
lemma Confined.refl (vm : DmntCheatVm) : Confined vm vm :=
  ⟨rfl, rfl, fun _ _ => rfl, fun _ _ => rfl, fun _ _ => rfl, id⟩

/-- One change after another. -/
lemma Confined.trans (h : Confined vm vm') (h' : Confined vm' vm'') : Confined vm vm'' where
  numOpcodes := h'.numOpcodes.trans h.numOpcodes
  program := h'.program.trans h.program
  registers i hi := (h'.registers i hi).trans (h.registers i hi)
  savedValues i hi := (h'.savedValues i hi).trans (h.savedValues i hi)
  loopTops i hi := (h'.loopTops i hi).trans (h.loopTops i hi)
  within := h'.within ∘ h.within

lemma confined_depth (vm : DmntCheatVm) (depth : Nat) : Confined vm { vm with conditionDepth := depth } :=
  ⟨rfl, rfl, fun _ _ => rfl, fun _ _ => rfl, fun _ _ => rfl, fun h => ⟨h.1, h.2⟩⟩

lemma confined_setRegister (h : i < numRegisters) (v : UInt64) : Confined vm (vm.setRegister i v) :=
  ⟨rfl, rfl, fun _ hj => Function.update_of_ne (by omega) _ _, fun _ _ => rfl, fun _ _ => rfl, fun h => ⟨h.1, h.2⟩⟩

lemma confined_setSavedValue (h : i < numRegisters) (v : UInt64) : Confined vm (vm.setSavedValue i v) :=
  ⟨rfl, rfl, fun _ _ => rfl, fun _ hj => Function.update_of_ne (by omega) _ _, fun _ _ => rfl, fun h => ⟨h.1, h.2⟩⟩

/-- A decode stays in the program, also one that fails. -/
lemma decodeNextOpcode_le (h : vm.instructionPtr ≤ vm.numOpcodes) :
    (decodeNextOpcode vm).2.instructionPtr ≤ vm.numOpcodes := by
  have hfirst := (@Reads.next UInt32 vm.program vm.numOpcodes _).bounded ⟨vm.instructionPtr, vm.decodeSuccess⟩ h
  rw [decodeNextOpcode]
  dsimp only
  split
  · split
    · next t _ =>
      obtain ⟨_, hreads⟩ :=
        reads_decodeOperands (getNextDword vm.program vm.numOpcodes ⟨vm.instructionPtr, vm.decodeSuccess⟩).1 t
      exact (hreads vm.program vm.numOpcodes).bounded _ hfirst
    · exact hfirst
  · exact hfirst

/-- Decoding moves the instruction pointer. -/
lemma confined_decodeNextOpcode (vm : DmntCheatVm) : Confined vm (decodeNextOpcode vm).2 := by
  obtain ⟨pos, ok, heq⟩ := decodeNextOpcode_frame vm
  refine ⟨?_, ?_, fun i _ => ?_, fun i _ => ?_, fun i _ => ?_, fun h => ⟨?_, fun i hi => ?_⟩⟩
  · rw [heq]
  · rw [heq]
  · rw [heq]
  · rw [heq]
  · rw [heq]
  · have hle := decodeNextOpcode_le h.instructionPtr
    rw [heq] at hle ⊢
    exact hle
  · rw [heq]
    exact h.loopTops i hi

lemma confined_of_decode (h : decodeNextOpcode vm = (some opcode, vm')) : Confined vm vm' := by
  have hdecode := confined_decodeNextOpcode vm
  rwa [h] at hdecode

lemma SkipVisits.confined (h : SkipVisits d vm vm') : Confined vm vm' := by
  induction h with
  | start => exact .refl vm
  | @next vm₁ vm₂ opcode _ _ hdecode ih =>
    obtain ⟨depth, hskip⟩ := skipOpcode_frame vm₂ opcode
    rw [hskip]
    exact (ih.trans (confined_of_decode hdecode)).trans (confined_depth vm₂ depth)

/-- The loop ends at a VM that it checks, or where a decode fails there. -/
lemma skipLoop_visits (d fuel : Nat) (h : SkipVisits d vm vm') :
    ∃ vm₁, SkipVisits d vm vm₁ ∧
      (skipLoop d fuel vm' = vm₁ ∨
        (decodeNextOpcode vm₁).1 = none ∧ skipLoop d fuel vm' = (decodeNextOpcode vm₁).2) := by
  induction fuel generalizing vm' with
  | zero => exact ⟨vm', h, .inl rfl⟩
  | succ fuel ih =>
    rw [skipLoop]
    split
    · next hdepth =>
      cases hnext : decodeNextOpcode vm' with
      | mk opcode vm₂ =>
        cases opcode with
        | none => exact ⟨vm', h, .inr (by rw [hnext]; exact ⟨rfl, rfl⟩)⟩
        | some opcode => exact ih (.next h hdepth hnext)
    · exact ⟨vm', h, .inl rfl⟩

/-- Skipping decodes only. -/
lemma confined_skipLoop (d fuel : Nat) (vm : DmntCheatVm) : Confined vm (skipLoop d fuel vm) := by
  obtain ⟨vm₁, hvisits, hend | ⟨-, hend⟩⟩ := @skipLoop_visits vm vm d fuel .start
  · rw [hend]
    exact hvisits.confined
  · rw [hend]
    exact hvisits.confined.trans (confined_decodeNextOpcode vm₁)

/-- A block that is skipped. -/
lemma confined_skipConditionalBlock (h : skipConditionalBlock vm = some vm') : Confined vm vm' := by
  rw [skipConditionalBlock] at h
  split at h
  · cases h
    exact confined_skipLoop _ _ vm
  · cases h

/-- A loop writes its register and its loop top. -/
lemma confined_controlLoop {o : ControlLoopOpcode} (ho : o.regIndex < numRegisters) :
    Confined vm (controlLoop o vm) := by
  rw [controlLoop]
  split
  · refine (confined_setRegister ho o.numIters.toUInt64).trans
      ⟨rfl, rfl, fun _ _ => rfl, fun _ _ => rfl, fun j hj => Function.update_of_ne (by omega) _ _, fun h => ⟨h.1, ?_⟩⟩
    intro j hj
    show Function.update vm.loopTops o.regIndex vm.instructionPtr j ≤ vm.numOpcodes
    rcases eq_or_ne j o.regIndex with rfl | hne
    · rw [Function.update_self]
      exact h.instructionPtr
    · rw [Function.update_of_ne hne]
      exact h.loopTops j hj
  · dsimp only
    split
    · exact (confined_setRegister ho _).trans
        ⟨rfl, rfl, fun _ _ => rfl, fun _ _ => rfl, fun _ _ => rfl, fun h => ⟨h.loopTops _ ho, h.2⟩⟩
    · exact confined_setRegister ho _

/-- A register and its saved value. -/
lemma confined_saveRestoreRegister {o : SaveRestoreRegisterOpcode}
    (ho : o.dstIndex < numRegisters ∧ o.srcIndex < numRegisters) : Confined vm (saveRestoreRegister o vm) := by
  unfold saveRestoreRegister
  split
  · exact confined_setRegister ho.1 _
  · exact confined_setSavedValue ho.1 _
  · exact confined_setSavedValue ho.1 _
  · exact confined_setRegister ho.1 _
  · exact confined_setRegister ho.1 _

/-- The registers of a mask. -/
lemma confined_saveRestoreRegisterMask (o : SaveRestoreRegisterMaskOpcode) (vm : DmntCheatVm) :
    Confined vm (saveRestoreRegisterMask o vm) := by
  rw [saveRestoreRegisterMask]
  have hlt : ∀ i ∈ List.range numRegisters, i < numRegisters := fun _ h => List.mem_range.mp h
  generalize List.range numRegisters = is at hlt
  induction is generalizing vm with
  | nil => exact .refl vm
  | cons i is ih =>
    rw [List.foldl_cons]
    refine Confined.trans ?_ (ih _ fun j hj => hlt j (.tail _ hj))
    split
    · split <;> exact confined_setSavedValue (hlt i (.head _)) _
    · exact .refl vm

end Confined

/-! ## Instructions -/

section Instructions

variable {σ : Type} {P : CheatProcess σ} {metadata : CheatProcessMetadata} {kDown : UInt64}
  {opcode : CheatVmOpcode} {st st' : ExecState σ} {vm vm' : DmntCheatVm} {d fuel : Nat}

@[simp] lemma compareValue_vm (o : BeginRegisterConditionalOpcode) (st : ExecState σ) :
    (compareValue P metadata o st).2.vm = st.vm := by
  unfold compareValue
  split
  · rfl
  · rfl
  · exact readCheatProcessMemoryForVm_vm ..

@[simp] lemma logValue_vm (o : DebugLogOpcode) (st : ExecState σ) : (logValue P metadata o st).2.vm = st.vm := by
  unfold logValue
  split
  · rfl
  · exact readCheatProcessMemoryForVm_vm ..

/-- What a step does that does not skip. -/
def Straight (vm vm' : DmntCheatVm) : Prop := Confined vm vm' ∧ vm'.conditionDepth ≤ vm.conditionDepth

/-- A register is set, and the program goes straight on. -/
lemma straight_setRegister {i : Nat} (h : i < numRegisters) (v : UInt64) : Straight vm (vm.setRegister i v) :=
  ⟨confined_setRegister h v, Nat.le_refl _⟩

/-- A block is entered, or skipped. -/
lemma enterBlock_cases {condMet : Bool} (h : enterBlock condMet st = some st') :
    Straight st.vm st'.vm ∨ skipConditionalBlock st.vm = some st'.vm := by
  rw [enterBlock] at h
  split at h
  · cases h
    exact .inl ⟨.refl _, Nat.le_refl _⟩
  · obtain ⟨vm, hskip, rfl⟩ := Option.map_eq_some_iff.mp h
    exact .inr hskip

/-- The loop of code type 0xC2 changes saved values only. -/
lemma saveRestoreRegisterMask_conditionDepth (o : SaveRestoreRegisterMaskOpcode) (vm : DmntCheatVm) :
    (saveRestoreRegisterMask o vm).conditionDepth = vm.conditionDepth := by
  rw [saveRestoreRegisterMask]
  generalize List.range numRegisters = is
  induction is generalizing vm with
  | nil => rfl
  | cons i is ih =>
    rw [List.foldl_cons, ih]
    split
    · split <;> rfl
    · rfl

/-- What an instruction does to the VM. -/
lemma executeSwitch_cases (hopcode : opcode.WellIndexed) (h : executeSwitch P metadata kDown opcode st = some st') :
    Straight st.vm st'.vm ∨ skipConditionalBlock st.vm = some st'.vm := by
  cases opcode with
  | storeStatic o =>
    obtain rfl := Option.some.inj h
    exact .inl (by rw [writeCheatProcessMemoryForVm_vm]; exact ⟨.refl _, Nat.le_refl _⟩)
  | beginCond o =>
    simp only [executeSwitch] at h
    have hcases := enterBlock_cases h
    rwa [readCheatProcessMemoryForVm_vm] at hcases
  | endCond =>
    cases h
    exact .inl ⟨confined_depth _ _, Nat.sub_le _ _⟩
  | ctrlLoop o =>
    cases h
    refine .inl ⟨confined_controlLoop hopcode, ?_⟩
    show (controlLoop o st.vm).conditionDepth ≤ _
    rw [controlLoop]
    split
    · exact Nat.le_refl _
    · dsimp only
      split <;> exact Nat.le_refl _
  | ldrStatic o =>
    cases h
    exact .inl (straight_setRegister hopcode _)
  | ldrMemory o =>
    simp only [executeSwitch, readCheatProcessMemoryForVm_vm] at h
    obtain rfl := Option.some.inj h
    exact .inl (straight_setRegister hopcode _)
  | strStatic o =>
    simp only [executeSwitch, writeCheatProcessMemoryForVm_vm] at h
    split at h
    · obtain rfl := Option.some.inj h
      exact .inl (straight_setRegister hopcode.1 _)
    · obtain rfl := Option.some.inj h
      exact .inl (by rw [writeCheatProcessMemoryForVm_vm]; exact ⟨.refl _, Nat.le_refl _⟩)
  | performMathStatic o =>
    cases h
    exact .inl (straight_setRegister hopcode _)
  | beginKeypressCond o => exact enterBlock_cases h
  | performMathReg o =>
    cases h
    exact .inl (straight_setRegister hopcode.1 _)
  | strRegister o =>
    simp only [executeSwitch, writeCheatProcessMemoryForVm_vm] at h
    split at h
    · obtain rfl := Option.some.inj h
      exact .inl (straight_setRegister hopcode.2.1 _)
    · obtain rfl := Option.some.inj h
      exact .inl (by rw [writeCheatProcessMemoryForVm_vm]; exact ⟨.refl _, Nat.le_refl _⟩)
  | beginRegCond o =>
    simp only [executeSwitch] at h
    have hcases := enterBlock_cases h
    rwa [compareValue_vm] at hcases
  | saveRestoreReg o =>
    cases h
    refine .inl ⟨confined_saveRestoreRegister hopcode, ?_⟩
    show (saveRestoreRegister o st.vm).conditionDepth ≤ _
    unfold saveRestoreRegister
    split <;> exact Nat.le_refl _
  | saveRestoreRegmask o =>
    cases h
    exact .inl ⟨confined_saveRestoreRegisterMask o _, (saveRestoreRegisterMask_conditionDepth o _).le⟩
  | debugLog o =>
    simp only [executeSwitch] at h
    obtain rfl := Option.some.inj h
    exact .inl (by rw [logValue_vm]; exact ⟨.refl _, Nat.le_refl _⟩)

/-- The depth is known to be positive where a block begins. -/
lemma enterBlock_ne_none {condMet : Bool} (h : 0 < st.vm.conditionDepth) : enterBlock condMet st ≠ none := by
  rw [enterBlock]
  split
  · exact nofun
  · rw [skipConditionalBlock, if_pos h]
    exact nofun

/-- In the `switch`, only a block that is not entered may be fatal, and it is not, as the depth was counted up. -/
lemma executeOpcode_ne_none (opcode : CheatVmOpcode) (st : ExecState σ) :
    executeOpcode P metadata kDown opcode st ≠ none := by
  rw [executeOpcode]
  dsimp only
  cases opcode with
  | beginCond o =>
    simp only [executeSwitch]
    exact enterBlock_ne_none (by rw [readCheatProcessMemoryForVm_vm]; exact Nat.succ_pos _)
  | beginKeypressCond o => exact enterBlock_ne_none (Nat.succ_pos _)
  | beginRegCond o =>
    simp only [executeSwitch]
    exact enterBlock_ne_none (by rw [compareValue_vm]; exact Nat.succ_pos _)
  | strStatic o | strRegister o =>
    simp only [executeSwitch]
    split <;> rintro ⟨⟩
  | _ => rintro ⟨⟩

/-! ## Depths -/

/-- A decode that succeeds finds no failure before. -/
lemma decodeSuccess_of_decode (h : decodeNextOpcode vm = (some opcode, vm')) : vm.decodeSuccess = true := by
  by_contra hfail
  have hnone := (decodeNextOpcode_failed (Bool.eq_false_iff.mpr hfail)).1
  rw [h] at hnone
  cases hnone

/-- A decode that fails is remembered. -/
lemma decodeSuccess_of_none (h : decodeNextOpcode vm = (none, vm')) : vm'.decodeSuccess = false := by
  rw [decodeNextOpcode] at h
  dsimp only at h
  have hfinish {opcode : CheatVmOpcode} {s : Cursor} (h : finishDecode vm opcode s = (none, vm')) :
      vm'.decodeSuccess = false := by
    obtain ⟨hnone, rfl⟩ := Prod.mk.inj h
    split at hnone
    · cases hnone
    · next hvalid => exact Bool.and_eq_false_imp.mpr fun _ => Bool.eq_false_iff.mpr hvalid
  split at h
  · split at h <;> exact hfinish h
  · exact hfinish h

/-- Decoding leaves the depth. -/
lemma decodeNextOpcode_conditionDepth (vm : DmntCheatVm) :
    (decodeNextOpcode vm).2.conditionDepth = vm.conditionDepth := by
  obtain ⟨pos, ok, heq⟩ := decodeNextOpcode_frame vm
  rw [heq]

/-- An opcode that is skipped opens at most one block. -/
lemma skipOpcode_conditionDepth_le (vm : DmntCheatVm) (opcode : CheatVmOpcode) :
    (skipOpcode vm opcode).conditionDepth ≤ vm.conditionDepth + 1 := by
  unfold skipOpcode
  split
  · exact Nat.le_refl _
  · split
    · exact (Nat.sub_le _ _).trans (Nat.le_succ _)
    · exact Nat.le_succ _

/-- Every instruction that is skipped counts the depth up by one at most, and takes a word at least. -/
lemma skipLoop_conditionDepth_le (d fuel : Nat) (vm : DmntCheatVm) :
    (skipLoop d fuel vm).conditionDepth ≤ vm.conditionDepth + (vm.numOpcodes - vm.instructionPtr) := by
  induction fuel generalizing vm with
  | zero => exact Nat.le_add_right _ _
  | succ fuel ih =>
    rw [skipLoop]
    split
    · have hdepth := decodeNextOpcode_conditionDepth vm
      cases hnext : decodeNextOpcode vm with
      | mk opcode vm₂ =>
        rw [hnext] at hdepth
        cases opcode with
        | none => exact hdepth.le.trans (Nat.le_add_right _ _)
        | some opcode =>
          obtain ⟨hlt, hle, hnum⟩ := decodeNextOpcode_advances hnext
          obtain ⟨depth, hskip⟩ := skipOpcode_frame vm₂ opcode
          have hone := skipOpcode_conditionDepth_le vm₂ opcode
          have hrest := ih (skipOpcode vm₂ opcode)
          have hnum₁ := congrArg DmntCheatVm.numOpcodes hskip
          have hptr₁ := congrArg DmntCheatVm.instructionPtr hskip
          dsimp only at hdepth hnum₁ hptr₁ ⊢
          omega
    · exact Nat.le_add_right _ _

/-- The loop ends at the depth that is wanted, or a decode has failed. -/
lemma skipLoop_ends (hin : vm.instructionPtr ≤ vm.numOpcodes) (hfuel : vm.numOpcodes < vm.instructionPtr + fuel) :
    (skipLoop d fuel vm).conditionDepth ≤ d ∨ (skipLoop d fuel vm).decodeSuccess = false := by
  induction fuel generalizing vm with
  | zero => exact absurd hin (Nat.not_le.mpr hfuel)
  | succ fuel ih =>
    rw [skipLoop]
    split
    · cases hnext : decodeNextOpcode vm with
      | mk opcode vm₂ =>
        cases opcode with
        | none => exact .inr (decodeSuccess_of_none hnext)
        | some opcode =>
          obtain ⟨hlt, hle, hnum⟩ := decodeNextOpcode_advances hnext
          obtain ⟨depth, hskip⟩ := skipOpcode_frame vm₂ opcode
          have hnum₁ := congrArg DmntCheatVm.numOpcodes hskip
          have hptr₁ := congrArg DmntCheatVm.instructionPtr hskip
          dsimp only at hnum₁ hptr₁
          exact ih (by omega) (by omega)
    · next hdepth => exact .inl (Nat.not_lt.mp hdepth)

/-! ## Runs -/

/-- The states in which `Execute` goes to decode an instruction, with the number of those that it has executed. -/
inductive Visits (P : CheatProcess σ) (metadata : CheatProcessMetadata) (kDown : UInt64) (st : ExecState σ) :
    Nat → ExecState σ → Prop where
  | start :
    Visits P metadata kDown st 0 st
  | next {n st₁ opcode vm st₂} :
    Visits P metadata kDown st n st₁ →
    decodeNextOpcode st₁.vm = (some opcode, vm) →
    executeOpcode P metadata kDown opcode { st₁ with vm } = some st₂ →
    Visits P metadata kDown st (n + 1) st₂

/-- What a decode does to a VM that is in its program. -/
structure DecodesSafely (vm : DmntCheatVm) : Prop where
  within : InProgram (decodeNextOpcode vm).2
  wellIndexed {opcode : CheatVmOpcode} {vm' : DmntCheatVm} :
    decodeNextOpcode vm = (some opcode, vm') → opcode.WellIndexed

/-- An instruction pointer in the program decodes safely. -/
lemma InProgram.decodesSafely (h : InProgram vm) : DecodesSafely vm :=
  ⟨(confined_decodeNextOpcode vm).within h, decodeNextOpcode_wellIndexed⟩

/-- An instruction stays in the program, and goes one block deeper at most. -/
lemma executeOpcode_confined (hopcode : opcode.WellIndexed) (hin : InProgram st.vm)
    (h : executeOpcode P metadata kDown opcode st = some st') :
    Confined st.vm st'.vm ∧ st'.vm.conditionDepth ≤ st.vm.conditionDepth + 1 + st.vm.numOpcodes ∧
      (st'.vm.decodeSuccess = true → st'.vm.conditionDepth ≤ st.vm.conditionDepth + 1) := by
  obtain ⟨depth, hle, h⟩ : ∃ depth ≤ st.vm.conditionDepth + 1,
      executeSwitch P metadata kDown opcode { st with vm := { st.vm with conditionDepth := depth } } = some st' := by
    rw [executeOpcode] at h
    split at h
    · exact ⟨_, Nat.le_refl _, h⟩
    · exact ⟨st.vm.conditionDepth, Nat.le_succ _, h⟩
  have hstart := confined_depth st.vm depth
  rcases executeSwitch_cases hopcode h with ⟨hconfined, hdepth⟩ | hskip
  · dsimp only at hdepth
    exact ⟨hstart.trans hconfined, by omega, fun _ => by omega⟩
  · refine ⟨hstart.trans (confined_skipConditionalBlock hskip), ?_⟩
    rw [skipConditionalBlock] at hskip
    split at hskip
    · have hskip := Option.some.inj hskip
      have hmost := skipLoop_conditionDepth_le (depth - 1) (st.vm.numOpcodes + 1)
        { st.vm with conditionDepth := depth }
      have hends := @skipLoop_ends { st.vm with conditionDepth := depth } (depth - 1) (st.vm.numOpcodes + 1)
        hin.instructionPtr (by dsimp only; omega)
      dsimp only at hskip hmost hends
      rw [hskip] at hmost hends
      refine ⟨by omega, fun hsuccess => ?_⟩
      rcases hends with hend | hfail
      · omega
      · rw [hsuccess] at hfail
        cases hfail
    · cases hskip

/-- What holds of every state that a run visits. -/
lemma Visits.safe {n : Nat} (h : Visits P metadata kDown st n st') (hin : InProgram st.vm)
    (hdepth : st.vm.conditionDepth = 0) :
    Confined st.vm st'.vm ∧ InProgram st'.vm ∧ st'.vm.conditionDepth ≤ n + st.vm.numOpcodes ∧
      (st'.vm.decodeSuccess = true → st'.vm.conditionDepth ≤ n) := by
  induction h with
  | start => exact ⟨.refl _, hin, by omega, fun _ => hdepth.le⟩
  | @next n st₁ opcode vm st₂ _ hdecode hexecute ih =>
    obtain ⟨hconfined, hin₁, -, hsuccess⟩ := ih
    have hdecoded := confined_of_decode hdecode
    have hsame := decodeNextOpcode_conditionDepth st₁.vm
    have hlow := hsuccess (decodeSuccess_of_decode hdecode)
    obtain ⟨hstep, hmost, hless⟩ := executeOpcode_confined (decodeNextOpcode_wellIndexed hdecode)
      (hdecoded.within hin₁) hexecute
    have hall := (hconfined.trans hdecoded).trans hstep
    have hnum := (hconfined.trans hdecoded).numOpcodes
    rw [hdecode] at hsame
    dsimp only at hsame hmost hless hnum
    exact ⟨hall, hall.within hin, by omega, fun hok => by have := hless hok; omega⟩

/-- No run ends with a fatal error. -/
lemma executeLoop_ne_fatal (fuel : Nat) (st : ExecState σ) : executeLoop P metadata kDown fuel st ≠ .fatal := by
  induction fuel generalizing st with
  | zero => rintro ⟨⟩
  | succ fuel ih =>
    rw [executeLoop]
    split
    · split
      · exact ih _
      · next opcode vm _ _ hnone => exact absurd hnone (executeOpcode_ne_none _ _)
    · rintro ⟨⟩

/-- A reset clears whole arrays. -/
lemma resetState_inside (vm : DmntCheatVm) : resetState vm.inside = (resetState vm).inside := by
  have hzero (v : UInt64) : (fun i => if i < numRegisters then v else v) = fun _ : Nat => v := by
    funext i
    exact ite_self _
  have htops : (fun i => if i < numRegisters then 0 else 0) = fun _ : Nat => 0 := by
    funext i
    exact ite_self _
  rw [resetState, resetState, DmntCheatVm.inside, DmntCheatVm.inside]
  simp only [hzero, htops]

/-- Programs of arbitrary words, for any keys and any memory. In every state that a run visits, it is in its program
and decodes an instruction with registers that there are, also while it skips a block; no instruction is fatal. The run
does not look at anything past its arrays, and does not change it. -/
theorem execute_safe (P : CheatProcess σ) (metadata : CheatProcessMetadata) (kDown : UInt64) (vm : DmntCheatVm)
    (hnum : vm.numOpcodes ≤ maximumProgramOpcodeCount) (process : σ) :
    (∀ n st, Visits P metadata kDown { vm := resetState vm, process } n st →
      Confined (resetState vm) st.vm ∧ InProgram st.vm ∧ st.vm.numOpcodes ≤ maximumProgramOpcodeCount ∧
      st.vm.conditionDepth ≤ n + maximumProgramOpcodeCount ∧ DecodesSafely st.vm ∧
      ∀ opcode vm', decodeNextOpcode st.vm = (some opcode, vm') →
        executeOpcode P metadata kDown opcode { st with vm := vm' } ≠ none ∧
        ∀ vm₁, SkipVisits vm'.conditionDepth { vm' with conditionDepth := vm'.conditionDepth + 1 } vm₁ →
          InProgram vm₁ ∧ DecodesSafely vm₁) ∧
    ∀ fuel, execute P metadata kDown fuel vm process ≠ .fatal ∧
      execute P metadata kDown fuel vm.inside process = (execute P metadata kDown fuel vm process).inside := by
  have hstart : InProgram (resetState vm) := ⟨Nat.zero_le _, fun _ _ => Nat.zero_le _⟩
  refine ⟨fun n st hvisits => ?_, fun fuel => ⟨executeLoop_ne_fatal _ _, ?_⟩⟩
  · obtain ⟨hconfined, hin, hdepth, -⟩ := hvisits.safe hstart rfl
    have hnum' : st.vm.numOpcodes = vm.numOpcodes := hconfined.numOpcodes
    have hwords : (resetState vm).numOpcodes = vm.numOpcodes := rfl
    refine ⟨hconfined, hin, by omega, by dsimp only at hdepth; omega, hin.decodesSafely, fun opcode vm' hdecode => ?_⟩
    refine ⟨executeOpcode_ne_none _ _, fun vm₁ hskip => ?_⟩
    have hin₁ := hskip.confined.within ((confined_depth _ _).within ((confined_of_decode hdecode).within hin))
    exact ⟨hin₁, hin₁.decodesSafely⟩
  · rw [execute, execute, resetState_inside]
    exact executeLoop_inside fuel { vm := resetState vm, process }

/-- A loop that ends before it has started, in a process without memory. -/
theorem execute_safe_example :
    execute ⟨fun _ _ _ => ([], ()), fun _ _ _ => ()⟩ {} 0 3
      { numOpcodes := 1, program := fun _ => 0x31F00000 } () ≠ .fatal :=
  ((execute_safe ⟨fun _ _ _ => ([], ()), fun _ _ _ => ()⟩ {} 0 { numOpcodes := 1, program := fun _ => 0x31F00000 }
    (by decide) ()).2 3).1

end Instructions

end RajNX.Dmnt
