import RajNX.Dmnt.Registers

/-!
# Cheat programs with loops

`Code` is the tree of `docs/cheats.md` with its loops: instructions in sequence, conditional blocks and
loops `300R0000 VVVVVVVV … 310R0000`, each holding such a sequence again. All documented instructions
and those of the decoder's comments occur in it.

`Code.walk` is what the documents say such a tree does to a `View`, the part of a running VM a program
can see: a loop puts its number of iterations in its register, and after each of its passes takes one
off. `Code.entersLoop` tells whether a walk comes to a loop at all.

The decoder takes the register of a loop from another digit than the documents put it in. Every
documented loop is decoded as a loop over register 0: `decodes_startLoop` and `decodes_endLoop`.
-/

namespace RajNX.Dmnt

open WordStream HexWord LittleEndian

attribute [local instance] neZero_nybble

/-- The instructions that neither open nor close a block or a loop. -/
inductive Basic where
  | plain (i : Plain)
  | saveRestoreReg (dstIndex srcIndex : Fin 16) (opType : SaveRestoreRegisterOpType)
  | saveRestoreRegmask (opType : SaveRestoreRegisterOpType) (mask : Fin (2 ^ 16))
  | debugLog (w : Width) (logId : Fin 16) (operand : LogOperand)
deriving Repr, DecidableEq

def Basic.toInstr : Basic → Instr
  | plain i => i.toInstr
  | saveRestoreReg d s x => .saveRestoreReg d s x
  | saveRestoreRegmask x k => .saveRestoreRegmask x k
  | debugLog w i o => .debugLog w i o

/-- A well-nested instruction sequence. -/
inductive Code where
  | nil
  | instr (i : Basic) (rest : Code)
  | block (c : Condition) (body rest : Code)
  | loop (regIndex : Fin 16) (numIters : UInt32) (body rest : Code)
deriving Repr, DecidableEq

/-- `300R0000 VVVVVVVV` -/
def startLoopWords (r : Fin 16) (n : UInt32) : List UInt32 := [hexWord 3 0 0 r 0 0 0 0, n]

/-- `310R0000` -/
def endLoopWords (r : Fin 16) : List UInt32 := [hexWord 3 1 0 r 0 0 0 0]

namespace Code

/-- The documented encoding. -/
def encode : Code → List UInt32
  | nil => []
  | instr i rest => i.toInstr.encode ++ rest.encode
  | block c body rest =>
    c.toInstr.encode ++ (body.encode ++ (Instr.endCond.encode ++ rest.encode))
  | loop r n body rest =>
    startLoopWords r n ++ (body.encode ++ (endLoopWords r ++ rest.encode))

end Code

/-! ## Which registers are written -/

/-- Whether code type 0xC1 and 0xC2 write registers, and not saved values. -/
def SaveRestoreRegisterOpType.writesRegisters : SaveRestoreRegisterOpType → Bool
  | restore | clearRegs => true
  | save | clearSaved => false

def Plain.writes (r : Fin 16) : Plain → Bool
  | storeStatic .. => false
  | ldrStatic x _ => x == r
  | ldrMemory _ _ x _ _ => x == r
  | strStatic _ x i _ _ => i && x == r
  | mathStatic _ x _ _ => x == r
  | mathReg _ _ x _ _ => x == r
  | mathImm _ _ x _ _ => x == r
  | strRegister _ _ x i _ => i && x == r

def Basic.writes (r : Fin 16) : Basic → Bool
  | plain i => i.writes r
  | saveRestoreReg d _ x => x.writesRegisters && d == r
  | saveRestoreRegmask x k => x.writesRegisters && (k : Nat).testBit r
  | debugLog .. => false

/-- Whether any instruction of a sequence writes a register. A loop writes its counter. -/
def Code.writes (r : Fin 16) : Code → Bool
  | nil => false
  | instr i rest => i.writes r || rest.writes r
  | block _ body rest => body.writes r || rest.writes r
  | loop x _ body rest => x == r || body.writes r || rest.writes r

/-! ## The tree walk -/

/-- What a program sees of a running VM: all but the cursor. -/
@[ext] structure View (σ : Type) where
  registers : Nat → UInt64
  savedValues : Nat → UInt64
  process : σ
  writes : List (UInt64 × List UInt8)
  debugLogs : List (Nat × UInt64)

section Walk

variable {σ : Type}

def ExecState.view (st : ExecState σ) : View σ where
  registers := st.vm.registers
  savedValues := st.vm.savedValues
  process := st.process
  writes := st.writes
  debugLogs := st.debugLogs

/-- The view under a cursor. -/
def View.onto (v : View σ) (vm : DmntCheatVm) : ExecState σ where
  vm := { vm with registers := v.registers, savedValues := v.savedValues }
  process := v.process
  writes := v.writes
  debugLogs := v.debugLogs

@[simp] lemma View.view_onto (v : View σ) (vm : DmntCheatVm) : (v.onto vm).view = v := rfl

@[simp] lemma ExecState.onto_view (st : ExecState σ) : st.view.onto st.vm = st := rfl

def View.set (v : View σ) (r : Nat) (x : UInt64) : View σ :=
  { v with registers := Function.update v.registers r x }

/-- What a condition is tested in. -/
def View.machine (v : View σ) : Machine σ where
  registers r := v.registers r
  process := v.process
  writes := v.writes

variable (P : CheatProcess σ) (metadata : CheatProcessMetadata) (kDown : UInt64)

/-- What an instruction does. -/
def Basic.exec (i : Basic) (v : View σ) : View σ :=
  ((executeOpcode P metadata kDown i.toInstr.toOpcode (v.onto {})).map ExecState.view).getD v

/-- Whether a condition holds, and the view after it is tested. -/
def Condition.check (c : Condition) (v : View σ) : Bool × View σ :=
  let (holds, m) := c.test P metadata kDown v.machine
  (holds, { v with process := m.process, writes := m.writes })

/-- The end of a pass: one off the counter. -/
def View.countDown (v : View σ) (r : Fin 16) : View σ := v.set r (v.registers r - 1)

/-- The tree walk. -/
def Code.walk : Code → View σ → View σ
  | nil, v => v
  | instr i rest, v => rest.walk (i.exec P metadata kDown v)
  | block c body rest, v =>
    let (holds, v) := c.check P metadata kDown v
    rest.walk (if holds then body.walk v else v)
  | loop r n body rest, v =>
    rest.walk ((fun v => (body.walk v).countDown r)^[n.toNat] (v.set r n.toUInt64))

/-- One pass of a loop over register `r`. -/
def Code.pass (body : Code) (r : Fin 16) (v : View σ) : View σ :=
  (body.walk P metadata kDown v).countDown r

/-- Whether a walk comes to a loop. -/
def Code.entersLoop : Code → View σ → Bool
  | nil, _ => false
  | instr i rest, v => rest.entersLoop (i.exec P metadata kDown v)
  | block c body rest, v =>
    let (holds, v) := c.check P metadata kDown v
    (holds && body.entersLoop v) ||
      rest.entersLoop (if holds then body.walk P metadata kDown v else v)
  | loop .., _ => true

lemma Code.walk_block (c : Condition) (body rest : Code) (v : View σ) :
    (block c body rest).walk P metadata kDown v = rest.walk P metadata kDown (if (c.check P metadata kDown v).1
        then body.walk P metadata kDown (c.check P metadata kDown v).2
        else (c.check P metadata kDown v).2) := rfl

lemma Code.entersLoop_block (c : Condition) (body rest : Code) (v : View σ) :
    (block c body rest).entersLoop P metadata kDown v = ((c.check P metadata kDown v).1 &&
          body.entersLoop P metadata kDown (c.check P metadata kDown v).2 ||
        rest.entersLoop P metadata kDown (if (c.check P metadata kDown v).1
          then body.walk P metadata kDown (c.check P metadata kDown v).2
          else (c.check P metadata kDown v).2)) := rfl

/-! ## One instruction -/

lemma readCheatProcessMemoryForVm_onto (v : View σ) (vm : DmntCheatVm) (address old : UInt64)
    (size : Nat) : readCheatProcessMemoryForVm P (v.onto vm) address old size =
      ((readCheatProcessMemoryForVm P (v.onto {}) address old size).1,
        (readCheatProcessMemoryForVm P (v.onto {}) address old size).2.view.onto vm) := by
  unfold readCheatProcessMemoryForVm
  split <;> rfl

lemma writeCheatProcessMemoryForVm_onto (v : View σ) (vm : DmntCheatVm) (address value : UInt64)
    (size : Nat) : writeCheatProcessMemoryForVm P (v.onto vm) address value size =
      (writeCheatProcessMemoryForVm P (v.onto {}) address value size).view.onto vm := by
  unfold writeCheatProcessMemoryForVm
  split <;> rfl

/-- `f` does the same to a view under any cursor, and changes no register but `x`, if any. -/
def ActsOnView (f : ExecState σ → Option (ExecState σ)) (x : Option Nat) (v : View σ) : Prop :=
  ∃ v' : View σ, (∀ vm, f (v.onto vm) = some (v'.onto vm)) ∧
    ∀ r : Nat, some r ≠ x → v'.registers r = v.registers r

lemma View.set_registers_ne (v : View σ) {x r : Nat} (y : UInt64) (h : some r ≠ some x) :
    (v.set x y).registers r = v.registers r :=
  Function.update_of_ne (fun h' => h (congrArg some h')) _ _

/-- Setting one register. -/
lemma ActsOnView.set {f : ExecState σ → Option (ExecState σ)} {v : View σ} (x : Nat) (y : UInt64)
    (hf : ∀ vm, f (v.onto vm) = some ((v.set x y).onto vm)) : ActsOnView f (some x) v :=
  ⟨v.set x y, hf, fun _ hr => v.set_registers_ne y hr⟩

/-- A store, and the increment code types 6 and 10 have. -/
lemma ActsOnView.store {f : ExecState σ → Option (ExecState σ)} {v : View σ}
    (address value : UInt64) (size : Nat) (i : Bool) (x : Nat)
    (hf : ∀ vm, f (v.onto vm) = let st := writeCheatProcessMemoryForVm P (v.onto vm) address value size
      if i then some { st with vm := st.vm.setRegister x (st.vm.registers x + .ofNat size) }
      else some st) : ActsOnView f (if i then some x else none) v := by
  generalize hv : (writeCheatProcessMemoryForVm P (v.onto {}) address value size).view = v'
  have hregs : v'.registers = v.registers := by
    rw [← hv, ExecState.view, writeCheatProcessMemoryForVm_vm]
    rfl
  have honto : ∀ vm, writeCheatProcessMemoryForVm P (v.onto vm) address value size = v'.onto vm := by
    intro vm
    rw [writeCheatProcessMemoryForVm_onto, hv]
  cases i with
  | false => exact ⟨v', fun vm => (hf vm).trans (congrArg some (honto vm)), fun r _ => congrFun hregs r⟩
  | true =>
    refine ⟨v'.set x (v'.registers x + .ofNat size), ?_, ?_⟩
    · intro vm
      refine (hf vm).trans ?_
      dsimp only
      rw [honto]
      rfl
    · intro r hr
      exact (v'.set_registers_ne _ hr).trans (congrFun hregs r)

lemma actsOnView_ldrMemory (o : LoadRegisterMemoryOpcode) (v : View σ) :
    ActsOnView (executeSwitch P metadata kDown (.ldrMemory o)) (some o.regIndex) v := by
  generalize haddress : (if o.loadFromReg then v.registers o.regIndex + o.relAddress
    else getCheatProcessAddress metadata o.memType o.relAddress) = address
  have honto := fun vm =>
    readCheatProcessMemoryForVm_onto P v vm address (v.registers o.regIndex) o.bitWidth
  have hvm := readCheatProcessMemoryForVm_vm P (v.onto {}) address (v.registers o.regIndex) o.bitWidth
  generalize readCheatProcessMemoryForVm P (v.onto {}) address (v.registers o.regIndex)
    o.bitWidth = read at honto hvm
  refine ⟨read.2.view.set o.regIndex read.1, ?_, ?_⟩
  · intro vm
    subst haddress
    exact congrArg (fun x : UInt64 × ExecState σ =>
      some { x.2 with vm := x.2.vm.setRegister o.regIndex x.1 }) (honto vm)
  · intro r hr
    refine (read.2.view.set_registers_ne _ hr).trans ?_
    rw [ExecState.view, hvm]
    rfl

lemma actsOnView_debugLog (o : DebugLogOpcode) (v : View σ) :
    ActsOnView (executeSwitch P metadata kDown (.debugLog o)) none v := by
  have hlog : ∃ (x : UInt64) (v' : View σ), (∀ vm, logValue P metadata o (v.onto vm) = (x, v'.onto vm)) ∧
      v'.registers = v.registers := by
    unfold logValue
    split
    · exact ⟨getVmInt (v.registers o.valRegIndex) o.bitWidth, v, fun _ => rfl, rfl⟩
    · refine ⟨_, _, fun vm => readCheatProcessMemoryForVm_onto P v vm
        (logAddress metadata o v.registers) 0 o.bitWidth, ?_⟩
      rw [ExecState.view, readCheatProcessMemoryForVm_vm]
      rfl
  obtain ⟨x, v', hlog, hregs⟩ := hlog
  refine ⟨{ v' with debugLogs := v'.debugLogs ++ [(o.logId, x)] }, ?_, fun r _ => congrFun hregs r⟩
  intro vm
  simp only [executeSwitch, hlog]
  rfl

lemma actsOnView_storeStatic (o : StoreStaticOpcode) (v : View σ) :
    ActsOnView (executeSwitch P metadata kDown (.storeStatic o)) none v := by
  refine ⟨_, fun vm => congrArg some (writeCheatProcessMemoryForVm_onto P v vm
    (getCheatProcessAddress metadata o.memType (o.relAddress + v.registers o.offsetRegister))
    (getVmInt o.value o.bitWidth) o.bitWidth), ?_⟩
  intro r _
  rw [ExecState.view, writeCheatProcessMemoryForVm_vm]
  rfl

lemma actsOnView_strStatic (o : StoreStaticToAddressOpcode) (v : View σ) :
    ActsOnView (executeSwitch P metadata kDown (.strStatic o))
      (if o.incrementReg then some o.regIndex else none) v :=
  .store P (if o.addOffsetReg then v.registers o.regIndex + v.registers o.offsetRegIndex
    else v.registers o.regIndex) o.value o.bitWidth o.incrementReg o.regIndex fun _ => rfl

lemma actsOnView_strRegister (o : StoreRegisterToAddressOpcode) (v : View σ) :
    ActsOnView (executeSwitch P metadata kDown (.strRegister o))
      (if o.incrementReg then some o.addrRegIndex else none) v :=
  .store P (storeRegisterAddress metadata o v.registers) (v.registers o.strRegIndex) o.bitWidth
    o.incrementReg o.addrRegIndex fun _ => rfl

/-- Whatever the operation, code type 0xC2 writes saved values only. -/
lemma actsOnView_saveRestoreRegmask (x : SaveRestoreRegisterOpType) (k : Fin (2 ^ 16))
    (v : View σ) : ActsOnView (executeSwitch P metadata kDown
      (Instr.saveRestoreRegmask x k).toOpcode) none v := by
  let files := x.masked.apply (fun j => decide (j ∈ (maskIndices k).map Fin.val))
    (v.registers, v.savedValues)
  refine ⟨{ v with registers := files.1, savedValues := files.2 }, ?_, ?_⟩
  · intro vm
    have hmask := saveRestoreRegisterMask_eq x k (v.onto vm).vm
    rw [saveRestoreEach_eq _ (nodup_maskIndices k)] at hmask
    exact congrArg (fun vm' => some { v.onto vm with vm := vm' }) hmask
  · intro r _
    cases x <;> rfl

/-- The register an instruction writes, if any. -/
def Plain.target : Plain → Option Nat
  | storeStatic .. => none
  | ldrStatic x _ => some x
  | ldrMemory _ _ x _ _ => some x
  | strStatic _ x i _ _ => if i then some x else none
  | mathStatic _ x _ _ => some x
  | mathReg _ _ x _ _ => some x
  | mathImm _ _ x _ _ => some x
  | strRegister _ _ x i _ => if i then some x else none

lemma Plain.actsOnView (i : Plain) (v : View σ) :
    ActsOnView (executeSwitch P metadata kDown i.toInstr.toOpcode) i.target v := by
  cases i with
  | storeStatic w t r a x => exact actsOnView_storeStatic P metadata kDown _ v
  | ldrStatic r x => exact .set r x fun _ => rfl
  | ldrMemory w t r i a => exact actsOnView_ldrMemory P metadata kDown _ v
  | strStatic w r i o x => exact actsOnView_strStatic P metadata kDown _ v
  | mathStatic w r c x =>
    exact .set r (applyBitWidth (staticMath (some c.toType) (v.registers r) x.toUInt64) w.bytes)
      fun _ => rfl
  | mathReg w c r s s' =>
    exact .set r (applyBitWidth (registerMath (some c) (v.registers s) (v.registers s')) w.bytes)
      fun _ => rfl
  | mathImm w c r s x =>
    exact .set r (applyBitWidth (registerMath (some c) (v.registers s)
      (getVmInt (.ofNat x) w.bytes)) w.bytes) fun _ => rfl
  | strRegister w s r i o => cases o <;> exact actsOnView_strRegister P metadata kDown _ v

/-- The registers an instruction writes by the documents include the one it does write. -/
lemma Plain.target_ne {i : Plain} {r : Fin 16} (h : i.writes r = false) : some (r : Nat) ≠ i.target := by
  intro hr
  cases i with
  | storeStatic w t r' a x => cases hr
  | strStatic w x i o y | strRegister w s x i o =>
    cases i with
    | false => cases hr
    | true =>
      simp only [target, if_true, Option.some.injEq] at hr
      simp [writes, Fin.ext hr] at h
  | _ =>
    simp only [target, Option.some.injEq] at hr
    simp [writes, Fin.ext hr] at h

/-- An instruction does the same to a view under any cursor, and changes none of the registers it
does not write. -/
lemma Basic.execute (i : Basic) (v : View σ) :
    (∀ vm, executeOpcode P metadata kDown i.toInstr.toOpcode (v.onto vm) = some ((i.exec P metadata kDown v).onto vm)) ∧
    ∀ r : Fin 16, i.writes r = false → (i.exec P metadata kDown v).registers r = v.registers r := by
  have hflat : i.toInstr.toOpcode.beginConditionalBlock = false := by
    cases i with
    | plain i => exact i.beginConditionalBlock_toOpcode
    | debugLog w i o => cases o <;> rfl
    | _ => rfl
  -- one view after the instruction serves for every cursor, so that it is the one `exec` computes
  have hacts : ∃ v' : View σ,
      (∀ vm, executeSwitch P metadata kDown i.toInstr.toOpcode (v.onto vm) = some (v'.onto vm)) ∧
      ∀ r : Fin 16, i.writes r = false → v'.registers r = v.registers r := by
    cases i with
    | plain i =>
      obtain ⟨v', h, hregs⟩ := i.actsOnView P metadata kDown v
      exact ⟨v', h, fun r hr => hregs r (Plain.target_ne hr)⟩
    | saveRestoreReg d s x =>
      have hne : ∀ r : Fin 16, (d == r) = false → (r : Nat) ≠ d :=
        fun r h h' => ne_of_beq_false h (Fin.ext h'.symm)
      cases x with
      | restore =>
        exact ⟨v.set d (v.savedValues s), fun _ => rfl, fun r hr => Function.update_of_ne (hne r hr) _ _⟩
      | clearRegs =>
        exact ⟨v.set d 0, fun _ => rfl, fun r hr => Function.update_of_ne (hne r hr) _ _⟩
      | save =>
        exact ⟨{ v with savedValues := Function.update v.savedValues d (v.registers s) },
          fun _ => rfl, fun _ _ => rfl⟩
      | clearSaved =>
        exact ⟨{ v with savedValues := Function.update v.savedValues d 0 },
          fun _ => rfl, fun _ _ => rfl⟩
    | saveRestoreRegmask x k =>
      obtain ⟨v', h, hregs⟩ := actsOnView_saveRestoreRegmask P metadata kDown x k v
      exact ⟨v', h, fun r _ => hregs r nofun⟩
    | debugLog w i o =>
      obtain ⟨v', h, hregs⟩ : ActsOnView
          (executeSwitch P metadata kDown (Instr.debugLog w i o).toOpcode) none v := by
        cases o <;> exact actsOnView_debugLog P metadata kDown _ v
      exact ⟨v', h, fun r _ => hregs r nofun⟩
  obtain ⟨v', h, hregs⟩ := hacts
  have hexecute : ∀ vm, executeOpcode P metadata kDown i.toInstr.toOpcode (v.onto vm) =
      some (v'.onto vm) := by
    intro vm
    rw [executeOpcode, hflat]
    exact h vm
  have hexec : i.exec P metadata kDown v = v' := by
    rw [Basic.exec, hexecute]
    rfl
  rw [hexec]
  exact ⟨hexecute, hregs⟩

/-- A condition is tested in the same way under any cursor. -/
lemma Condition.execute (c : Condition) (v : View σ) (vm : DmntCheatVm) :
    executeOpcode P metadata kDown c.toInstr.toOpcode (v.onto vm) =
      enterBlock (c.check P metadata kDown v).1 ((c.check P metadata kDown v).2.onto
        { vm with conditionDepth := vm.conditionDepth + 1 }) := by
  obtain ⟨st, h, hvm, hm, hlogs⟩ := executeOpcode_condition P metadata kDown c (v.onto vm)
  rw [h]
  obtain ⟨vm', process, writes, debugLogs⟩ := st
  obtain ⟨-, hprocess, hwrites⟩ := Machine.mk.inj hm
  cases hvm
  cases hlogs
  cases hprocess
  cases hwrites
  rfl

end Walk

/-! ## The words of a sequence -/

/-- The decoder takes `300R0000 VVVVVVVV` for the start of a loop over register 0. -/
lemma decodes_startLoop (r : Fin 16) (n : UInt32) :
    Decodes (startLoopWords r n) (.ctrlLoop { startLoop := true, regIndex := 0, numIters := n }) := by
  intro vm hat
  have hone : operandWords (hexWord 3 0 0 r 0 0 0 0) .controlLoop = 1 := by simp [operandWords]
  obtain ⟨hw, hn⟩ := List.cons.inj hat.window
  have hreads : ∀ program numOpcodes, Reads program numOpcodes
      (decodeOperands program numOpcodes (hexWord 3 0 0 r 0 0 0 0) .controlLoop) 1
      (fun ws => .ctrlLoop { startLoop := true, regIndex := 0, numIters := (ws.take 1).headD 0 }) := by
    intro program numOpcodes
    simp only [decodeOperands, nybble_hexWord_24, nybble_hexWord_20]
    exact Reads.next.bind fun _ => Reads.pure _
  have h := decodeNextOpcode_complete hat.decodeSuccess hw (t := .controlLoop)
    (by simp [opcodeNumber, CheatVmOpcodeType.ofU32]) (by rw [hone]; exact hreads)
    (by rw [hone]; exact hat.fits)
  rw [hone] at h
  have hn' : window vm.program (vm.instructionPtr + 1) 1 = [n] := hn
  rw [h, hn']
  rfl

/-- And `310R0000` for the end of one. -/
lemma decodes_endLoop (r : Fin 16) : Decodes (endLoopWords r) (.ctrlLoop { startLoop := false, regIndex := 0 }) := by
  intro vm hat
  have hzero : operandWords (hexWord 3 1 0 r 0 0 0 0) .controlLoop = 0 := by simp [operandWords]
  obtain ⟨hw, -⟩ := List.cons.inj hat.window
  have hreads : ∀ program numOpcodes, Reads program numOpcodes
      (decodeOperands program numOpcodes (hexWord 3 1 0 r 0 0 0 0) .controlLoop) 0
      (fun _ => .ctrlLoop { startLoop := false, regIndex := 0 }) := by
    intro program numOpcodes
    simp only [decodeOperands, nybble_hexWord_24, nybble_hexWord_20]
    exact Reads.pure _
  have h := decodeNextOpcode_complete hat.decodeSuccess hw (t := .controlLoop)
    (by simp [opcodeNumber, CheatVmOpcodeType.ofU32]) (by rw [hzero]; exact hreads)
    (by rw [hzero]; exact hat.fits)
  rw [hzero] at h
  exact h

lemma Basic.skipOpcode_toOpcode (i : Basic) (vm : DmntCheatVm) : skipOpcode vm i.toInstr.toOpcode = vm := by
  cases i with
  | plain i => exact i.skipOpcode_toOpcode vm
  | debugLog w i o => cases o <;> rfl
  | _ => rfl

/-- To the skip loop a loop is two more instructions. -/
lemma Code.wellNested_append (p : Code) {ws : List UInt32} (h : WellNested ws) : WellNested (p.encode ++ ws) := by
  induction p generalizing ws with
  | nil => exact h
  | instr i rest ih =>
    rw [encode, List.append_assoc]
    exact .flat i.toInstr.decodes i.skipOpcode_toOpcode (ih h)
  | block c body rest ihb ih =>
    have hbody := ihb .nil
    rw [List.append_nil] at hbody
    simp only [encode, List.append_assoc]
    exact .block c.toInstr.decodes c.beginConditionalBlock_toOpcode hbody (ih h)
  | loop r n body rest ihb ih =>
    simp only [encode, List.append_assoc]
    exact .flat (decodes_startLoop r n) (fun _ => rfl)
      (ihb (.flat (decodes_endLoop r) (fun _ => rfl) (ih h)))

/-- The encoding of a sequence is well nested. -/
lemma Code.wellNested (p : Code) : WellNested p.encode := by
  rw [← List.append_nil p.encode]
  exact p.wellNested_append .nil

end RajNX.Dmnt
