import RajNX.Dmnt.Encode
import RajNX.Dmnt.Vm

/-!
# Structured cheat programs

What `docs/cheats.md` describes is a structured program: instructions in sequence, and conditional
blocks that hold such sequences again. `Program` is that tree, with no loop instruction, and
`Program.run` walks it: a block's body is run if its condition holds, and is left out as a whole if
not.

The VM knows no tree. It has a word cursor, a depth counter and a skip loop that decodes again what
it skips. `execute_eq_run` says that on the encoding of a tree it does what the tree walk does: the
same writes in the same order, the same registers at the end, and the process in the same state.
-/

namespace RajNX.Dmnt

open WordStream LittleEndian

/-- The documented instructions that neither open nor close a block. -/
inductive Plain where
  | storeStatic (w : Width) (memType : MemoryAccessType) (offsetRegister : Fin 16)
      (relAddress : Fin (2 ^ 40)) (value : Imm w)
  | ldrStatic (regIndex : Fin 16) (value : UInt64)
  | ldrMemory (w : Width) (memType : MemoryAccessType) (regIndex : Fin 16) (loadFromReg : Bool)
      (relAddress : Fin (2 ^ 40))
  | strStatic (w : Width) (regIndex : Fin 16) (incrementReg : Bool) (offsetReg : Option (Fin 16))
      (value : UInt64)
  | mathStatic (w : Width) (regIndex : Fin 16) (mathType : LegacyArithmetic) (value : UInt32)
  | mathReg (w : Width) (mathType : RegisterArithmeticType)
      (dstRegIndex srcReg1Index srcReg2Index : Fin 16)
  | mathImm (w : Width) (mathType : RegisterArithmeticType) (dstRegIndex srcReg1Index : Fin 16)
      (value : Imm w)
  | strRegister (w : Width) (strRegIndex addrRegIndex : Fin 16) (incrementReg : Bool)
      (offset : StoreOffset)
deriving Repr, DecidableEq

def Plain.toInstr : Plain → Instr
  | storeStatic w m r a v => .storeStatic w m r a v
  | ldrStatic r v => .ldrStatic r v
  | ldrMemory w m r i a => .ldrMemory w m r i a
  | strStatic w r i o v => .strStatic w r i o v
  | mathStatic w r c v => .mathStatic w r c v
  | mathReg w c r s s' => .mathReg w c r s s'
  | mathImm w c r s v => .mathImm w c r s v
  | strRegister w s r i o => .strRegister w s r i o

/-- The conditions of the documented blocks. -/
inductive Condition where
  | memory (w : Width) (memType : MemoryAccessType) (condType : ConditionalComparisonType)
      (relAddress : Fin (2 ^ 40)) (value : Imm w)
  | keypress (keyMask : Fin (2 ^ 28))
  | register (w : Width) (condType : ConditionalComparisonType) (valRegIndex : Fin 16)
      (operand : CompareOperand w)
deriving Repr, DecidableEq

def Condition.toInstr : Condition → Instr
  | memory w m c a v => .beginCond w m c a v
  | keypress k => .beginKeypressCond k
  | register w c s o => .beginRegCond w c s o

/-- A well-nested program. -/
inductive Program where
  | nil
  | instr (i : Plain) (rest : Program)
  | block (c : Condition) (body rest : Program)
deriving Repr, DecidableEq

namespace Program

/-- The documented encoding: a block is closed by `20000000`. -/
def encode : Program → List UInt32
  | nil => []
  | instr i rest => i.toInstr.encode ++ rest.encode
  | block c body rest =>
    c.toInstr.encode ++ (body.encode ++ (Instr.endCond.encode ++ rest.encode))

/-- The number of instructions, a block's two ends included. -/
def count : Program → Nat
  | nil => 0
  | instr _ rest => rest.count + 1
  | block _ body rest => rest.count + 1 + body.count + 1

end Program

/-! ## The tree walk -/

/-- What a program acts on. -/
structure Machine (σ : Type) where
  registers : Fin 16 → UInt64
  process : σ
  writes : List (UInt64 × List UInt8)

section Walk

variable {σ : Type} (P : CheatProcess σ) (metadata : CheatProcessMetadata) (kDown : UInt64)

namespace Machine

def set (m : Machine σ) (r : Fin 16) (v : UInt64) : Machine σ :=
  { m with registers := Function.update m.registers r v }

/-- Load `w` bytes from the process over the low bytes of `old`. -/
def load (m : Machine σ) (w : Width) (address old : UInt64) : UInt64 × Machine σ :=
  let (bytes, process) := P.read m.process address w.bytes
  (overlay old (bytes.take w.bytes), { m with process })

/-- Store the low `w` bytes of `value`. -/
def store (m : Machine σ) (w : Width) (address value : UInt64) : Machine σ :=
  { m with
    process := P.write m.process address (leBytes w.bytes value.toNat)
    writes := m.writes ++ [(address, leBytes w.bytes value.toNat)] }

end Machine

/-- The start of a memory region. -/
def MemoryAccessType.base : MemoryAccessType → UInt64
  | mainNso => metadata.mainNsoExtents.base
  | heap => metadata.heapExtents.base

/-- The low `w` bytes of a value. -/
def Width.truncate (w : Width) (v : UInt64) : UInt64 := UInt64.ofNat (v.toNat % 2 ^ (8 * w.bytes))

def RegisterArithmeticType.apply (a b : UInt64) : RegisterArithmeticType → UInt64
  | addition => a + b
  | subtraction => a - b
  | multiplication => a * b
  | leftShift => a <<< b
  | rightShift => a >>> b
  | logicalAnd => a &&& b
  | logicalOr => a ||| b
  | logicalNot => ~~~a
  | logicalXor => a ^^^ b
  | none => a

def ConditionalComparisonType.holds (a b : UInt64) : ConditionalComparisonType → Bool
  | gt => b < a
  | ge => b ≤ a
  | lt => a < b
  | le => a ≤ b
  | eq => a = b
  | ne => a ≠ b

/-- The address code type 10 stores to. -/
def StoreOffset.address (m : Machine σ) (r : Fin 16) : StoreOffset → UInt64
  | none => m.registers r
  | reg x => m.registers r + m.registers x
  | imm a => m.registers r + .ofNat a
  | memReg t => t.base metadata + m.registers r
  | memImm t a => t.base metadata + .ofNat a
  | memImmReg t a => t.base metadata + (m.registers r + .ofNat a)

/-- The value code type 0xC0 compares with. -/
def CompareOperand.value {w : Width} (m : Machine σ) : CompareOperand w → UInt64 × Machine σ
  | memoryRelAddr t a => m.load P w (t.base metadata + .ofNat a) 0
  | memoryOfsReg t r => m.load P w (t.base metadata + m.registers r) 0
  | registerRelAddr r a => m.load P w (m.registers r + .ofNat a) 0
  | registerOfsReg r r' => m.load P w (m.registers r + m.registers r') 0
  | staticValue v => (.ofNat v, m)
  | otherRegister x => (w.truncate (m.registers x), m)

/-- What an instruction does. -/
def Plain.exec (m : Machine σ) : Plain → Machine σ
  | storeStatic w t r a v =>
    m.store P w (t.base metadata + (.ofNat a + m.registers r)) (.ofNat v)
  | ldrStatic r v => m.set r v
  | ldrMemory w t r i a =>
    let address := if i then m.registers r + .ofNat a else t.base metadata + .ofNat a
    let (v, m) := m.load P w address (m.registers r)
    m.set r v
  | strStatic w r i o v =>
    let m := m.store P w (o.elim (m.registers r) (m.registers r + m.registers ·)) v
    if i then m.set r (m.registers r + .ofNat w.bytes) else m
  | mathStatic w r c v =>
    m.set r (w.truncate (c.toType.apply (m.registers r) v.toUInt64))
  | mathReg w c r s s' => m.set r (w.truncate (c.apply (m.registers s) (m.registers s')))
  | mathImm w c r s v => m.set r (w.truncate (c.apply (m.registers s) (.ofNat v)))
  | strRegister w s r i o =>
    let m := m.store P w (o.address metadata m r) (m.registers s)
    if i then m.set r (m.registers r + .ofNat w.bytes) else m

/-- Whether a condition holds, and the machine after it is tested. -/
def Condition.test (m : Machine σ) : Condition → Bool × Machine σ
  | memory w t c a v =>
    let (x, m) := m.load P w (t.base metadata + .ofNat a) 0
    (c.holds x (.ofNat v), m)
  | keypress k => (UInt64.ofNat k &&& kDown == UInt64.ofNat k, m)
  | register w c s o =>
    let x := w.truncate (m.registers s)
    let (y, m) := o.value P metadata m
    (c.holds x y, m)

/-- The tree walk. -/
def Program.run (m : Machine σ) : Program → Machine σ
  | nil => m
  | instr i rest => rest.run (i.exec P metadata m)
  | block c body rest =>
    let (holds, m) := c.test P metadata kDown m
    rest.run (if holds then body.run m else m)

end Walk

/-! ## The cursor on an encoding -/

/-- The words at the instruction pointer. -/
structure At (vm : DmntCheatVm) (ws : List UInt32) : Prop where
  decodeSuccess : vm.decodeSuccess = true
  fits : vm.instructionPtr + ws.length ≤ vm.numOpcodes
  window : WordStream.window vm.program vm.instructionPtr ws.length = ws

/-- The VM after it has taken `n` words. -/
def DmntCheatVm.advance (vm : DmntCheatVm) (n : Nat) : DmntCheatVm :=
  { vm with instructionPtr := vm.instructionPtr + n }

lemma DmntCheatVm.advance_advance (vm : DmntCheatVm) (n k : Nat) : (vm.advance n).advance k = vm.advance (n + k) := by
  simp only [advance, Nat.add_assoc]

namespace At

/-- The cursor depends on the program, the pointer and the flag only. -/
lemma congr {vm vm' : DmntCheatVm} {ws : List UInt32} (h : At vm ws)
    (hs : vm'.decodeSuccess = vm.decodeSuccess) (hn : vm'.numOpcodes = vm.numOpcodes)
    (hp : vm'.program = vm.program) (hi : vm'.instructionPtr = vm.instructionPtr) : At vm' ws where
  decodeSuccess := hs.trans h.decodeSuccess
  fits := by rw [hi, hn]; exact h.fits
  window := by rw [hi, hp]; exact h.window

/-- The words in front and, after these are taken, the words behind. -/
lemma append {vm : DmntCheatVm} {ws ws' : List UInt32} (h : At vm (ws ++ ws')) :
    At vm ws ∧ At (vm.advance ws.length) ws' := by
  have hfits := h.fits
  have hwin := h.window
  rw [List.length_append] at hfits hwin
  rw [window_add] at hwin
  obtain ⟨h1, h2⟩ := List.append_inj hwin (length_window _ _)
  refine ⟨⟨h.decodeSuccess, by omega, h1⟩, ⟨h.decodeSuccess, ?_, h2⟩⟩
  change vm.instructionPtr + ws.length + ws'.length ≤ vm.numOpcodes
  omega

/-- Decoding takes the instruction at the cursor. -/
lemma decode {vm : DmntCheatVm} {i : Instr} (h : At vm i.encode) :
    decodeNextOpcode vm = (some i.toOpcode, vm.advance i.encode.length) :=
  decodeNextOpcode_encode h.decodeSuccess h.fits h.window

end At

/-- A program has at least one word for each instruction. -/
lemma Program.count_le_length (p : Program) : p.count ≤ p.encode.length := by
  induction p with
  | nil => exact Nat.le_refl _
  | instr i rest ih =>
    rw [count, encode, List.length_append, i.toInstr.encode_eq_cons, List.length_cons]
    omega
  | block c body rest ihb ih =>
    rw [count, encode, List.length_append, List.length_append, List.length_append,
      c.toInstr.encode_eq_cons, Instr.endCond.encode_eq_cons, List.length_cons, List.length_cons]
    omega

/-! ## Skipping -/

/-- A plain instruction does not change the depth. -/
lemma Plain.skipOpcode_toOpcode (i : Plain) (vm : DmntCheatVm) : skipOpcode vm i.toInstr.toOpcode = vm := by
  cases i with
  | strRegister w s r i o => cases o <;> rfl
  | _ => rfl

/-- The three openers set the flag the decoder sets. -/
lemma Condition.beginConditionalBlock_toOpcode (c : Condition) : c.toInstr.toOpcode.beginConditionalBlock = true := by
  cases c with
  | register w c s o => cases o <;> rfl
  | _ => rfl

lemma Plain.beginConditionalBlock_toOpcode (i : Plain) : i.toInstr.toOpcode.beginConditionalBlock = false := by
  cases i with
  | strRegister w s r i o => cases o <;> rfl
  | _ => rfl

/-- Words the decoder takes as one instruction wherever they stand. -/
def Decodes (ws : List UInt32) (opcode : CheatVmOpcode) : Prop :=
  ∀ vm, At vm ws → decodeNextOpcode vm = (some opcode, vm.advance ws.length)

lemma Instr.decodes (i : Instr) : Decodes i.encode i.toOpcode := fun _ h => h.decode

variable {ws : List UInt32} {vm : DmntCheatVm}

/-- An instruction has at least one word. -/
lemma Decodes.pos {opcode : CheatVmOpcode} (h : Decodes ws opcode) (hat : At vm ws) : 0 < ws.length := by
  obtain ⟨hlt, -, -⟩ := decodeNextOpcode_advances (h vm hat)
  exact Nat.lt_add_right_iff_pos.mp hlt

/-- Words in which every opened block is closed again. -/
inductive WellNested : List UInt32 → Prop where
  | nil :
    WellNested []
  | flat {ws rest opcode} :
    Decodes ws opcode →
    (∀ vm, skipOpcode vm opcode = vm) →
    WellNested rest →
    WellNested (ws ++ rest)
  | block {ws body rest opcode} :
    Decodes ws opcode →
    opcode.beginConditionalBlock = true →
    WellNested body →
    WellNested rest →
    WellNested (ws ++ (body ++ (Instr.endCond.encode ++ rest)))

/-- One turn of the skip loop on the instruction at the cursor. -/
lemma skipLoop_decodes {opcode : CheatVmOpcode} {d : Nat}
    (h : Decodes ws opcode) (hat : At vm ws) (hd : d < vm.conditionDepth) (fuel : Nat) :
    skipLoop d (fuel + 1) vm = skipLoop d fuel (skipOpcode (vm.advance ws.length) opcode) := by
  rw [skipLoop, if_pos hd, h vm hat]

/-- Inside a block that is skipped, the skip loop passes over well-nested words, with the blocks
nested in them, and comes out at the depth it came in with. -/
lemma skipLoop_wellNested (h : WellNested ws) {d : Nat} (hat : At vm ws) (hd : d < vm.conditionDepth) :
    ∃ n, n ≤ ws.length ∧
      ∀ fuel, skipLoop d (fuel + n) vm = skipLoop d fuel (vm.advance ws.length) := by
  induction h generalizing vm with
  | nil => exact ⟨0, Nat.le_refl _, fun _ => rfl⟩
  | @flat ws rest opcode hdec hflat hrest ih =>
    obtain ⟨hi, hr⟩ := hat.append
    obtain ⟨n, hn, h⟩ := ih hr hd
    have hpos := hdec.pos hi
    refine ⟨n + 1, ?_, ?_⟩
    · rw [List.length_append]
      omega
    · intro fuel
      rw [← Nat.add_assoc, skipLoop_decodes hdec hi hd, hflat, h]
      simp only [List.length_append, DmntCheatVm.advance, Nat.add_assoc]
  | @block ws body rest opcode hdec hopen hbody hrest ihb ih =>
    obtain ⟨hi, h⟩ := hat.append
    obtain ⟨hb, h⟩ := h.append
    obtain ⟨hend, hr⟩ := h.append
    have hpos := hdec.pos hi
    let opened : DmntCheatVm :=
      { vm.advance ws.length with conditionDepth := vm.conditionDepth + 1 }
    have hd' : d < opened.conditionDepth := Nat.lt_succ_of_lt hd
    obtain ⟨n, hn, hskip⟩ := @ihb opened (hb.congr rfl rfl rfl rfl) hd'
    have hend' : At (opened.advance body.length) Instr.endCond.encode := hend.congr rfl rfl rfl rfl
    have hclose := skipLoop_decodes Instr.endCond.decodes hend' hd'
    -- the end of the nested block undoes what its opening did to the depth
    obtain ⟨n', hn', hskip'⟩ := ih hr hd
    have hone : Instr.endCond.encode.length = 1 := rfl
    refine ⟨n' + 1 + n + 1, ?_, ?_⟩
    · simp only [List.length_append]
      omega
    · intro fuel
      have hopened : skipOpcode (vm.advance ws.length) opcode = opened := if_pos hopen
      rw [← Nat.add_assoc, skipLoop_decodes hdec hi hd, hopened, ← Nat.add_assoc, hskip, ← Nat.add_assoc, hclose]
      refine (hskip' fuel).trans ?_
      simp only [List.length_append, DmntCheatVm.advance, Nat.add_assoc]

/-- Skipping the block whose body is at the cursor ends right behind its terminator. -/
lemma skipConditionalBlock_body (h : WellNested ws) {d : Nat}
    (hat : At vm (ws ++ Instr.endCond.encode)) (hd : vm.conditionDepth = d + 1) :
    skipConditionalBlock vm =
      some { vm.advance (ws.length + Instr.endCond.encode.length) with conditionDepth := d } := by
  obtain ⟨hws, hend⟩ := hat.append
  have hd' : d < vm.conditionDepth := by omega
  obtain ⟨n, hn, hskip⟩ := skipLoop_wellNested h hws hd'
  have hfits := hws.fits
  obtain ⟨fuel, hfuel⟩ : ∃ fuel, vm.numOpcodes + 1 = fuel + 1 + n := ⟨vm.numOpcodes - n, by omega⟩
  have hclose := skipLoop_decodes Instr.endCond.decodes hend hd' fuel
  rw [skipConditionalBlock, if_pos (by omega), hd, Nat.add_sub_cancel, hfuel, hskip, hclose]
  -- the loop has reached the depth it wants, whatever fuel is left
  have hstop : ∀ (fuel : Nat) (vm : DmntCheatVm), vm.conditionDepth = d →
      skipLoop d fuel vm = vm := by
    intro fuel vm hvm
    cases fuel with
    | zero => rfl
    | succ fuel => rw [skipLoop, if_neg (by omega)]
  rw [hstop]
  · simp only [skipOpcode, DmntCheatVm.advance, Instr.toOpcode, hd, Nat.add_assoc]
    rfl
  · simp [skipOpcode, DmntCheatVm.advance, Instr.toOpcode, CheatVmOpcode.beginConditionalBlock, hd]

/-- The encoding of a tree is well nested. -/
lemma Program.wellNested (p : Program) : WellNested p.encode := by
  induction p with
  | nil => exact .nil
  | instr i rest ih => exact .flat i.toInstr.decodes i.skipOpcode_toOpcode ih
  | block c body rest ihb ih =>
    exact .block c.toInstr.decodes c.beginConditionalBlock_toOpcode ihb ih

/-! ## One instruction -/

@[simp] lemma validBitWidth_bytes (w : Width) : validBitWidth w.bytes = true := by
  cases w <;> rfl

/-- The two ways the VM truncates agree with the documented one on the documented widths. -/
@[simp] lemma getVmInt_bytes (w : Width) (v : UInt64) : getVmInt v w.bytes = w.truncate v := by
  cases w with
  | w8 =>
    have hv := v.toNat_lt
    simp only [getVmInt, Width.truncate, Width.bytes]
    rw [Nat.mod_eq_of_lt hv, UInt64.ofNat_toNat]
    rfl
  | _ => exact UInt64.toNat_inj.mp (by simp [getVmInt, Width.truncate, Width.bytes]; omega)

@[simp] lemma applyBitWidth_bytes (w : Width) (v : UInt64) : applyBitWidth v w.bytes = w.truncate v := by
  rw [← getVmInt_bytes]
  cases w <;> rfl

/-- An immediate has no more bytes than its width. -/
@[simp] lemma truncate_imm (w : Width) (v : Imm w) : w.truncate (UInt64.ofNat v) = UInt64.ofNat v := by
  have hv := v.isLt
  have hle : 2 ^ (8 * w.bytes) ≤ 2 ^ 64 := by cases w <;> decide
  rw [Width.truncate, UInt64.toNat_ofNat_of_lt' (hv.trans_le hle), Nat.mod_eq_of_lt hv]

@[simp] lemma getCheatProcessAddress_some (metadata : CheatProcessMetadata) (t : MemoryAccessType)
    (a : UInt64) : getCheatProcessAddress metadata (some t) a = t.base metadata + a := by
  cases t <;> rfl

@[simp] lemma condMet_some (c : ConditionalComparisonType) (a b : UInt64) : condMet (some c) a b = c.holds a b := by
  cases c with
  | eq => rfl
  | ne => simp only [condMet, ConditionalComparisonType.holds, ne_eq, decide_not]; rfl
  | _ => simp [condMet, ConditionalComparisonType.holds]

@[simp] lemma registerMath_some (c : RegisterArithmeticType) (a b : UInt64) :
    registerMath (some c) a b = c.apply a b := by
  cases c <;> rfl

@[simp] lemma staticMath_some (c : LegacyArithmetic) (a b : UInt64) :
    staticMath (some c.toType) a b = c.toType.apply a b := by
  cases c <;> rfl

section Simulation

variable {σ : Type} (P : CheatProcess σ) (metadata : CheatProcessMetadata) (kDown : UInt64)

/-- What the tree walk sees of a running VM. -/
def ExecState.machine (st : ExecState σ) : Machine σ where
  registers r := st.vm.registers r
  process := st.process
  writes := st.writes

/-- `st'` differs from `st` in what the tree walk sees, which is `m` there, and nothing else. -/
structure Becomes (st : ExecState σ) (m : Machine σ) (st' : ExecState σ) : Prop where
  vm : st'.vm = { st.vm with registers := st'.vm.registers }
  machine : st'.machine = m

/-- A load as the VM does it. -/
lemma readCheatProcessMemoryForVm_bytes (st : ExecState σ) (w : Width) (address old : UInt64) :
    ∃ st', readCheatProcessMemoryForVm P st address old w.bytes = ((st.machine.load P w address old).1, st') ∧
      st'.vm = st.vm ∧ st'.machine = (st.machine.load P w address old).2 ∧
      st'.debugLogs = st.debugLogs := by
  rw [readCheatProcessMemoryForVm, if_pos (validBitWidth_bytes w)]
  exact ⟨_, rfl, rfl, rfl, rfl⟩

/-- A store as the VM does it. -/
lemma writeCheatProcessMemoryForVm_bytes (st : ExecState σ) (w : Width) (address value : UInt64) :
    (writeCheatProcessMemoryForVm P st address value w.bytes).vm = st.vm ∧
      (writeCheatProcessMemoryForVm P st address value w.bytes).machine =
        st.machine.store P w address value := by
  rw [writeCheatProcessMemoryForVm, if_pos (validBitWidth_bytes w)]
  exact ⟨rfl, rfl⟩

/-- An assignment as the VM does it. -/
lemma setRegister_machine (st : ExecState σ) (r : Fin 16) (v : UInt64) :
    ExecState.machine { st with vm := st.vm.setRegister r v } = st.machine.set r v := by
  have h := Function.update_comp_eq_of_injective st.vm.registers Fin.val_injective r v
  simp only [ExecState.machine, Machine.set, DmntCheatVm.setRegister]
  rw [Machine.mk.injEq]
  exact ⟨h, rfl, rfl⟩

/-- A store followed by the increment code types 6 and 10 have. -/
lemma store_increment (st : ExecState σ) (w : Width) (address value : UInt64) (r : Fin 16) (i : Bool) : ∃ st',
    (let st := writeCheatProcessMemoryForVm P st address value w.bytes
     if i then
       some { st with vm := st.vm.setRegister r (st.vm.registers r + .ofNat w.bytes) }
     else some st) = some st' ∧
    Becomes st
      (let m := st.machine.store P w address value
       if i then m.set r (m.registers r + .ofNat w.bytes) else m) st' := by
  obtain ⟨hvm, hm⟩ := writeCheatProcessMemoryForVm_bytes P st w address value
  cases i with
  | false => exact ⟨_, rfl, by rw [hvm], hm⟩
  | true =>
    refine ⟨_, rfl, ?_, ?_⟩
    · simp only [DmntCheatVm.setRegister, hvm]
    · dsimp only
      rw [setRegister_machine, hm, hvm]
      rfl

/-- A plain instruction does in the VM what it does in the tree walk. -/
lemma executeOpcode_plain (i : Plain) (st : ExecState σ) :
    ∃ st', executeOpcode P metadata kDown i.toInstr.toOpcode st = some st' ∧
      Becomes st (i.exec P metadata st.machine) st' := by
  rw [executeOpcode, if_neg (by simp [i.beginConditionalBlock_toOpcode])]
  cases i with
  | storeStatic w t r a v =>
    obtain ⟨hvm, hm⟩ := writeCheatProcessMemoryForVm_bytes P st w
      (t.base metadata + (.ofNat a + st.vm.registers r)) (.ofNat v)
    refine ⟨_, rfl, ?_, ?_⟩ <;> simp only [getCheatProcessAddress_some, getVmInt_bytes, truncate_imm]
    · rw [hvm]
    · exact hm
  | ldrStatic r v => exact ⟨_, rfl, rfl, setRegister_machine _ _ _⟩
  | ldrMemory w t r i a =>
    obtain ⟨st', h, hvm, hm, -⟩ := readCheatProcessMemoryForVm_bytes P st w
      (if i then st.vm.registers r + .ofNat a else t.base metadata + .ofNat a) (st.vm.registers r)
    simp only [Plain.toInstr, Instr.toOpcode, executeSwitch, getCheatProcessAddress_some, h]
    refine ⟨_, rfl, ?_, ?_⟩
    · simp only [DmntCheatVm.setRegister, hvm]
    · rw [setRegister_machine, hm]
      rfl
  | strStatic w r i o v =>
    obtain ⟨st', h, hst⟩ := store_increment P st w
      (if o.isSome then st.vm.registers r + st.vm.registers (o.getD 0) else st.vm.registers r) v r i
    refine ⟨st', h, ?_⟩
    cases o <;> exact hst
  | mathStatic w r c v =>
    refine ⟨_, rfl, rfl, ?_⟩
    rw [setRegister_machine]
    simp only [applyBitWidth_bytes, staticMath_some]
    rfl
  | mathReg w c r s s' =>
    refine ⟨_, rfl, rfl, ?_⟩
    rw [setRegister_machine]
    simp only [applyBitWidth_bytes, registerMath_some]
    rfl
  | mathImm w c r s v =>
    refine ⟨_, rfl, rfl, ?_⟩
    rw [setRegister_machine]
    simp only [applyBitWidth_bytes, registerMath_some, if_true, getVmInt_bytes, truncate_imm]
    rfl
  | strRegister w s r i o =>
    obtain ⟨st', h, hst⟩ := store_increment P st w (o.address metadata st.machine r)
      (st.vm.registers s) r i
    refine ⟨st', ?_, hst⟩
    rw [← h]
    cases o <;> simp only [Plain.toInstr, Instr.toOpcode, executeSwitch, storeRegisterAddress,
      getCheatProcessAddress_some] <;> rfl

/-- An opener goes one level deeper and tests its condition as the tree walk does. -/
lemma executeOpcode_condition (c : Condition) (st : ExecState σ) :
    ∃ st', executeOpcode P metadata kDown c.toInstr.toOpcode st =
        enterBlock (c.test P metadata kDown st.machine).1 st' ∧
      st'.vm = { st.vm with conditionDepth := st.vm.conditionDepth + 1 } ∧
      st'.machine = (c.test P metadata kDown st.machine).2 ∧ st'.debugLogs = st.debugLogs := by
  rw [executeOpcode, if_pos c.beginConditionalBlock_toOpcode]
  generalize hdeep : ({ st with vm := { st.vm with
    conditionDepth := st.vm.conditionDepth + 1 } } : ExecState σ) = deep
  have hvm : deep.vm = { st.vm with conditionDepth := st.vm.conditionDepth + 1 } := by rw [← hdeep]
  have hm : deep.machine = st.machine := by rw [← hdeep]; rfl
  have hlogs : deep.debugLogs = st.debugLogs := by rw [← hdeep]
  have hreg : ∀ r : Fin 16, deep.vm.registers r = st.machine.registers r := by
    intro r
    rw [hvm]
    rfl
  -- the forms that read memory differ in the address only
  have hread : ∀ (w : Width) (address : UInt64), ∃ st', readCheatProcessMemoryForVm P deep address 0 w.bytes =
        ((st.machine.load P w address 0).1, st') ∧
      st'.vm = { st.vm with conditionDepth := st.vm.conditionDepth + 1 } ∧
      st'.machine = (st.machine.load P w address 0).2 ∧ st'.debugLogs = st.debugLogs := by
    intro w address
    obtain ⟨st', h, h1, h2, h3⟩ := readCheatProcessMemoryForVm_bytes P deep w address 0
    rw [hm] at h h2
    exact ⟨st', h, h1.trans hvm, h2, h3.trans hlogs⟩
  cases c with
  | memory w t c a v =>
    obtain ⟨st', h, h1, h2⟩ := hread w (t.base metadata + .ofNat a)
    refine ⟨st', ?_, h1, h2⟩
    simp only [Condition.toInstr, Instr.toOpcode, executeSwitch, getCheatProcessAddress_some, h,
      condMet_some, getVmInt_bytes, truncate_imm]
    rfl
  | keypress k =>
    refine ⟨deep, ?_, hvm, hm, hlogs⟩
    have hk : (UInt32.ofNat k).toUInt64 = UInt64.ofNat k := by
      have := k.isLt
      apply UInt64.toNat_inj.mp
      simp
      omega
    simp only [Condition.toInstr, Instr.toOpcode, executeSwitch, hk]
    rfl
  | register w c s o =>
    cases o with
    | memoryRelAddr t a =>
      obtain ⟨st', h, h1, h2⟩ := hread w (t.base metadata + .ofNat a)
      refine ⟨st', ?_, h1, h2⟩
      simp only [Condition.toInstr, Instr.toOpcode, executeSwitch, compareValue, compareAddress,
        getCheatProcessAddress_some, h, hreg, condMet_some, getVmInt_bytes]
      rfl
    | memoryOfsReg t r =>
      obtain ⟨st', h, h1, h2⟩ := hread w (t.base metadata + st.machine.registers r)
      refine ⟨st', ?_, h1, h2⟩
      simp only [Condition.toInstr, Instr.toOpcode, executeSwitch, compareValue, compareAddress,
        getCheatProcessAddress_some, h, hreg, condMet_some, getVmInt_bytes]
      rfl
    | registerRelAddr r a =>
      obtain ⟨st', h, h1, h2⟩ := hread w (st.machine.registers r + .ofNat a)
      refine ⟨st', ?_, h1, h2⟩
      simp only [Condition.toInstr, Instr.toOpcode, executeSwitch, compareValue, compareAddress,
        h, hreg, condMet_some, getVmInt_bytes]
      rfl
    | registerOfsReg r r' =>
      obtain ⟨st', h, h1, h2⟩ := hread w (st.machine.registers r + st.machine.registers r')
      refine ⟨st', ?_, h1, h2⟩
      simp only [Condition.toInstr, Instr.toOpcode, executeSwitch, compareValue, compareAddress,
        h, hreg, condMet_some, getVmInt_bytes]
      rfl
    | staticValue v =>
      refine ⟨deep, ?_, hvm, hm, hlogs⟩
      simp only [Condition.toInstr, Instr.toOpcode, executeSwitch, compareValue, hreg,
        condMet_some, getVmInt_bytes, truncate_imm]
      rfl
    | otherRegister x =>
      refine ⟨deep, ?_, hvm, hm, hlogs⟩
      simp only [Condition.toInstr, Instr.toOpcode, executeSwitch, compareValue, hreg, condMet_some, getVmInt_bytes]
      rfl

/-! ## Whole programs -/

variable {st st' : ExecState σ}

/-- One turn of the execution loop on the instruction at the cursor. -/
lemma executeLoop_decodes {ws : List UInt32} {opcode : CheatVmOpcode}
    (h : Decodes ws opcode) (hat : At st.vm ws)
    (hst : executeOpcode P metadata kDown opcode
      { st with vm := st.vm.advance ws.length } = some st') (fuel : Nat) :
    executeLoop P metadata kDown (fuel + 1) st = executeLoop P metadata kDown fuel st' := by
  rw [executeLoop, h _ hat]
  simp only [hst]

lemma executeLoop_instr {st st' : ExecState σ} {i : Instr} (h : At st.vm i.encode)
    (hst : executeOpcode P metadata kDown i.toOpcode
      { st with vm := st.vm.advance i.encode.length } = some st') (fuel : Nat) :
    executeLoop P metadata kDown (fuel + 1) st = executeLoop P metadata kDown fuel st' :=
  executeLoop_decodes P metadata kDown i.decodes h hst fuel

/-- `st'` is `st` moved on by `n` words, with `m` where the tree walk looks. -/
structure Passes (st : ExecState σ) (n : Nat) (m : Machine σ) (st' : ExecState σ) : Prop where
  vm : st'.vm = { st.vm.advance n with registers := st'.vm.registers }
  machine : st'.machine = m

lemma Passes.at {n : Nat} {m : Machine σ} {ws : List UInt32}
    (h : Passes st n m st') (hat : At (st.vm.advance n) ws) : At st'.vm ws := by
  rw [h.vm]
  exact hat.congr rfl rfl rfl rfl

lemma Passes.trans {st st' st'' : ExecState σ} {n n' : Nat} {m m' : Machine σ}
    (h : Passes st n m st') (h' : Passes st' n' m' st'') : Passes st (n + n') m' st'' where
  vm := by
    rw [h'.vm, h.vm]
    simp only [DmntCheatVm.advance, Nat.add_assoc]
  machine := h'.machine

variable {st : ExecState σ}

/-- A block, given that the loop passes over its body as the tree walk does. -/
lemma executeLoop_block {c : Condition} {body : Program}
    (ih : ∀ {st : ExecState σ}, At st.vm body.encode → ∃ n st', n ≤ body.count ∧
      (∀ fuel, executeLoop P metadata kDown (fuel + n) st = executeLoop P metadata kDown fuel st') ∧
      Passes st body.encode.length (body.run P metadata kDown st.machine) st')
    (hc : At st.vm c.toInstr.encode)
    (hbody : At (st.vm.advance c.toInstr.encode.length) body.encode)
    (hend : At ((st.vm.advance c.toInstr.encode.length).advance body.encode.length)
      Instr.endCond.encode) :
    ∃ n st', n ≤ body.count + 2 ∧
      (∀ fuel, executeLoop P metadata kDown (fuel + n) st = executeLoop P metadata kDown fuel st') ∧
      Passes st (c.toInstr.encode.length + body.encode.length + Instr.endCond.encode.length)
        (if (c.test P metadata kDown st.machine).1
          then body.run P metadata kDown (c.test P metadata kDown st.machine).2
          else (c.test P metadata kDown st.machine).2) st' := by
  obtain ⟨st₁, h₁, hvm, hm, -⟩ := executeOpcode_condition P metadata kDown c
    { st with vm := st.vm.advance c.toInstr.encode.length }
  have hat : ∀ ws, At (st.vm.advance c.toInstr.encode.length) ws → At st₁.vm ws := by
    intro ws h
    rw [hvm]
    exact h.congr rfl rfl rfl rfl
  change executeOpcode _ _ _ _ _ = enterBlock (c.test P metadata kDown st.machine).1 st₁ at h₁
  change st₁.machine = (c.test P metadata kDown st.machine).2 at hm
  cases htest : (c.test P metadata kDown st.machine).1 with
  | true =>
    rw [htest] at h₁
    -- the body is run one level deeper, and its end comes back up
    obtain ⟨n, st₂, hn, h₂, hpass⟩ := ih (hat _ hbody)
    have hend₂ : At st₂.vm Instr.endCond.encode := by
      rw [hpass.vm, hvm]
      exact hend.congr rfl rfl rfl rfl
    let st₃ : ExecState σ := { st₂ with vm := { st₂.vm.advance Instr.endCond.encode.length with
      conditionDepth := st₂.vm.conditionDepth - 1 } }
    have hloop := @executeLoop_instr σ P metadata kDown st₂ st₃ .endCond hend₂ rfl
    refine ⟨1 + n + 1, st₃, by omega, ?_, ?_, ?_⟩
    · intro fuel
      rw [← Nat.add_assoc, executeLoop_instr P metadata kDown hc h₁, ← Nat.add_assoc, h₂, hloop]
    · simp only [st₃]
      rw [hpass.vm, hvm]
      simp only [DmntCheatVm.advance, Nat.add_assoc, Nat.add_sub_cancel]
    · rw [if_pos rfl, ← hm]
      exact hpass.machine
  | false =>
    rw [htest] at h₁
    have hwhole : At st₁.vm (body.encode ++ Instr.endCond.encode) := by
      apply hat
      refine ⟨hbody.decodeSuccess, ?_, ?_⟩
      · rw [List.length_append, ← Nat.add_assoc]
        exact hend.fits
      · rw [List.length_append, window_add, hbody.window]
        exact congrArg _ hend.window
    have hdepth : st₁.vm.conditionDepth = st.vm.conditionDepth + 1 := by
      rw [hvm]
      rfl
    have hskip := skipConditionalBlock_body body.wellNested hwhole hdepth
    rw [enterBlock, if_neg (by decide), hskip, Option.map_some] at h₁
    refine ⟨1, _, by omega, executeLoop_instr P metadata kDown hc h₁, ?_, ?_⟩
    · rw [hvm]
      simp only [DmntCheatVm.advance, Nat.add_assoc]
    · rw [if_neg (by decide)]
      exact hm

/-- The execution loop passes over the encoding of a program as the tree walk does, and comes out
at the depth it came in with. -/
lemma executeLoop_program (p : Program) (h : At st.vm p.encode) :
    ∃ n st', n ≤ p.count ∧
      (∀ fuel, executeLoop P metadata kDown (fuel + n) st = executeLoop P metadata kDown fuel st') ∧
      Passes st p.encode.length (p.run P metadata kDown st.machine) st' := by
  induction p generalizing st with
  | nil => exact ⟨0, st, Nat.le_refl _, fun _ => rfl, rfl, rfl⟩
  | instr i rest ih =>
    obtain ⟨hi, hrest⟩ := h.append
    obtain ⟨st₁, h₁, hb⟩ := executeOpcode_plain P metadata kDown i
      { st with vm := st.vm.advance i.toInstr.encode.length }
    have hpass : Passes st i.toInstr.encode.length (i.exec P metadata st.machine) st₁ :=
      ⟨hb.vm, hb.machine⟩
    obtain ⟨n, st₂, hn, h₂, hpass₂⟩ := ih (hpass.at hrest)
    refine ⟨n + 1, st₂, Nat.succ_le_succ hn, ?_, ?_⟩
    · intro fuel
      rw [← Nat.add_assoc, executeLoop_instr P metadata kDown hi h₁, h₂]
    · rw [hpass.machine] at hpass₂
      rw [Program.encode, List.length_append]
      exact hpass.trans hpass₂
  | block c body rest ihb ih =>
    obtain ⟨hc, h⟩ := h.append
    obtain ⟨hbody, h⟩ := h.append
    obtain ⟨hend, hrest⟩ := h.append
    obtain ⟨n₃, st₃, hn₃, h₃, hpass₃⟩ :=
      executeLoop_block P metadata kDown (fun h => ihb h) hc hbody hend
    obtain ⟨n₄, st₄, hn₄, h₄, hpass₄⟩ := ih (hpass₃.at (hrest.congr rfl rfl rfl
      (by simp only [DmntCheatVm.advance, Nat.add_assoc])))
    refine ⟨n₄ + n₃, st₄, ?_, ?_, ?_⟩
    · rw [Program.count]
      omega
    · intro fuel
      rw [← Nat.add_assoc, h₃, h₄]
    · rw [hpass₃.machine] at hpass₄
      simp only [Program.encode, List.length_append, ← Nat.add_assoc]
      exact hpass₃.trans hpass₄

/-- A cursor at the end of the program stops the loop. -/
lemma executeLoop_end (h : st.vm.instructionPtr = st.vm.numOpcodes)
    (fuel : Nat) : executeLoop P metadata kDown (fuel + 1) st =
      .finished { st with vm := { st.vm with decodeSuccess := false } } := by
  have hout : decodeNextOpcode st.vm = (none, { st.vm with decodeSuccess := false }) := by
    rw [decodeNextOpcode, getNextDword_outside (by omega)]
    simp [finishDecode]
  rw [executeLoop, hout]

/-- A run that comes to the end of the program has finished. -/
lemma executeLoop_finished {n : Nat}
    (hrun : ∀ fuel, executeLoop P metadata kDown (fuel + n) st = executeLoop P metadata kDown fuel st')
    (hend : st'.vm.instructionPtr = st'.vm.numOpcodes) (fuel : Nat) (hfuel : n < fuel) :
    executeLoop P metadata kDown fuel st =
      .finished { st' with vm := { st'.vm with decodeSuccess := false } } := by
  obtain ⟨k, rfl⟩ : ∃ k, fuel = k + 1 + n := ⟨fuel - 1 - n, by omega⟩
  rw [hrun]
  exact executeLoop_end P metadata kDown hend k

/-- On the encoding of a well-nested program the VM runs to its end, and performs the writes of the
tree walk, in the same order, with the same registers and the same process at the end. -/
theorem execute_eq_run (p : Program) (vm : DmntCheatVm) (process : σ) (hwords : vm.words = p.encode)
    (hlen : p.encode.length ≤ maximumProgramOpcodeCount) :
    ∃ st, (∀ fuel, maximumProgramOpcodeCount < fuel → execute P metadata kDown fuel vm process = .finished st) ∧
      st.writes = (p.run P metadata kDown ⟨fun _ => 0, process, []⟩).writes ∧
      (∀ r : Fin 16, st.vm.registers r = (p.run P metadata kDown ⟨fun _ => 0, process, []⟩).registers r) ∧
      st.process = (p.run P metadata kDown ⟨fun _ => 0, process, []⟩).process := by
  have hnum : vm.numOpcodes = p.encode.length := by
    rw [← hwords, DmntCheatVm.words, length_window]
  let start : ExecState σ := { vm := resetState vm, process }
  have hat : At start.vm p.encode := by
    refine ⟨rfl, ?_, ?_⟩
    · change 0 + p.encode.length ≤ vm.numOpcodes
      omega
    · change window vm.program 0 p.encode.length = p.encode
      rw [← hnum]
      exact hwords
  obtain ⟨n, st, hn, hloop, hpass⟩ := executeLoop_program P metadata kDown p hat
  have hcount := p.count_le_length
  have hip : st.vm.instructionPtr = st.vm.numOpcodes := by
    rw [hpass.vm]
    change 0 + p.encode.length = vm.numOpcodes
    omega
  have hm : st.machine = p.run P metadata kDown ⟨fun _ => 0, process, []⟩ := hpass.machine
  refine ⟨{ st with vm := { st.vm with decodeSuccess := false } }, ?_, ?_, ?_, ?_⟩
  · intro fuel hfuel
    exact executeLoop_finished P metadata kDown hloop hip fuel (by omega)
  · rw [← hm]
    rfl
  · intro r
    rw [← hm]
    rfl
  · rw [← hm]
    rfl

end Simulation

/-- A block whose keys are not held, with the terminator's word as an immediate in its body: only
the store behind the block is performed. -/
theorem execute_eq_run_terminator_immediate :
    let p : Program := .block (.keypress 1)
      (.instr (.storeStatic .w4 .heap 0 0x10 0x20000000) (.instr (.ldrStatic 1 0x2000000020000000)
        .nil)) (.instr (.storeStatic .w2 .mainNso 0 0x20 0x1234) .nil)
    let vm : DmntCheatVm := { program := fun k => p.encode.getD k 0, numOpcodes := p.encode.length }
    let P : CheatProcess Unit := { read := fun _ _ _ => ([], ()), write := fun _ _ _ => () }
    ∃ st, execute P {} 0 0x401 vm () = .finished st ∧
      st.writes = [(0x20, [0x34, 0x12])] ∧ st.vm.registers 1 = 0 := by
  intro p vm P
  obtain ⟨st, hrun, hwrites, hregs, _⟩ := execute_eq_run P {} 0 p vm () (by decide) (by decide)
  exact ⟨st, hrun 0x401 (by decide), hwrites.trans (by decide), (hregs 1).trans (by decide)⟩

end RajNX.Dmnt
