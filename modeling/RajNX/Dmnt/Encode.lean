import Mathlib
import RajNX.Dmnt.Decode

/-!
# Documented instructions

The instruction set of `docs/cheats.md` (code types 0, 1, 2, 4 to 10 and 0xC0) and of the decoder's
comments (0xC1, 0xC2 and 0xFFF) as a type of its own, `Instr`, in which every field is in range by
construction, and its encoding to words digit by digit. The loop instruction is left out: its
documented layout `300R0000` and the decoder disagree on where the register is.

`Instr.toOpcode` says what the decoder is to return. The fields a form does not have are zero,
except that offset types 3, 4 and 5 of code type 10 put the memory type where the offset register
index is read too.
-/

namespace RajNX.Dmnt

open WordStream HexWord

attribute [local instance] neZero_nybble

/-- The documented widths. -/
inductive Width where
  | w1
  | w2
  | w4
  | w8
deriving Repr, DecidableEq

/-- The number of bytes. -/
def Width.bytes : Width → Nat
  | w1 => 1
  | w2 => 2
  | w4 => 4
  | w8 => 8

/-- The nybble `T`. -/
def Width.toNybble : Width → Fin 16
  | w1 => 1
  | w2 => 2
  | w4 => 4
  | w8 => 8

@[simp] lemma Width.val_toNybble (w : Width) : (w.toNybble : Nat) = w.bytes := by
  cases w <;> rfl

/-- The values that fit a width. -/
abbrev Imm (w : Width) := Fin (2 ^ (8 * w.bytes))

/-- `VVVVVVVV (VVVVVVVV)` -/
def immWords (w : Width) (v : Nat) : List UInt32 :=
  match w with
  | .w8 => [UInt32.ofNat (v / 2 ^ 32), UInt32.ofNat v]
  | _ => [UInt32.ofNat v]

/-- A flag nybble. -/
def flag (b : Bool) : Fin 16 := if b then 1 else 0

/-- The offset of code type 10. -/
inductive StoreOffset where
  | none
  | reg (ofsRegIndex : Fin 16)
  | imm (relAddress : Fin (2 ^ 36))
  | memReg (memType : MemoryAccessType)
  | memImm (memType : MemoryAccessType) (relAddress : Fin (2 ^ 36))
  | memImmReg (memType : MemoryAccessType) (relAddress : Fin (2 ^ 36))
deriving Repr, DecidableEq

/-- The second operand of code type 0xC0. -/
inductive CompareOperand (w : Width) where
  | memoryRelAddr (memType : MemoryAccessType) (relAddress : Fin (2 ^ 36))
  | memoryOfsReg (memType : MemoryAccessType) (ofsRegIndex : Fin 16)
  | registerRelAddr (addrRegIndex : Fin 16) (relAddress : Fin (2 ^ 36))
  | registerOfsReg (addrRegIndex ofsRegIndex : Fin 16)
  | staticValue (value : Imm w)
  | otherRegister (otherRegIndex : Fin 16)
deriving Repr, DecidableEq

/-- The operand of code type 0xFFF. -/
inductive LogOperand where
  | memoryRelAddr (memType : MemoryAccessType) (relAddress : Fin (2 ^ 36))
  | memoryOfsReg (memType : MemoryAccessType) (ofsRegIndex : Fin 16)
  | registerRelAddr (addrRegIndex : Fin 16) (relAddress : Fin (2 ^ 36))
  | registerOfsReg (addrRegIndex ofsRegIndex : Fin 16)
  | registerValue (valRegIndex : Fin 16)
deriving Repr, DecidableEq

/-- The operations code type 7 documents. -/
inductive LegacyArithmetic where
  | addition
  | subtraction
  | multiplication
  | leftShift
  | rightShift
deriving Repr, DecidableEq

def LegacyArithmetic.toType : LegacyArithmetic → RegisterArithmeticType
  | addition => .addition
  | subtraction => .subtraction
  | multiplication => .multiplication
  | leftShift => .leftShift
  | rightShift => .rightShift

/-- An instruction. -/
inductive Instr where
  | storeStatic (w : Width) (memType : MemoryAccessType) (offsetRegister : Fin 16)
      (relAddress : Fin (2 ^ 40)) (value : Imm w)
  | beginCond (w : Width) (memType : MemoryAccessType) (condType : ConditionalComparisonType)
      (relAddress : Fin (2 ^ 40)) (value : Imm w)
  | endCond
  | ldrStatic (regIndex : Fin 16) (value : UInt64)
  | ldrMemory (w : Width) (memType : MemoryAccessType) (regIndex : Fin 16) (loadFromReg : Bool)
      (relAddress : Fin (2 ^ 40))
  | strStatic (w : Width) (regIndex : Fin 16) (incrementReg : Bool) (offsetReg : Option (Fin 16))
      (value : UInt64)
  | mathStatic (w : Width) (regIndex : Fin 16) (mathType : LegacyArithmetic) (value : UInt32)
  | beginKeypressCond (keyMask : Fin (2 ^ 28))
  | mathReg (w : Width) (mathType : RegisterArithmeticType)
      (dstRegIndex srcReg1Index srcReg2Index : Fin 16)
  | mathImm (w : Width) (mathType : RegisterArithmeticType) (dstRegIndex srcReg1Index : Fin 16)
      (value : Imm w)
  | strRegister (w : Width) (strRegIndex addrRegIndex : Fin 16) (incrementReg : Bool)
      (offset : StoreOffset)
  | beginRegCond (w : Width) (condType : ConditionalComparisonType) (valRegIndex : Fin 16)
      (operand : CompareOperand w)
  | saveRestoreReg (dstIndex srcIndex : Fin 16) (opType : SaveRestoreRegisterOpType)
  | saveRestoreRegmask (opType : SaveRestoreRegisterOpType) (mask : Fin (2 ^ 16))
  | debugLog (w : Width) (logId : Fin 16) (operand : LogOperand)
deriving Repr, DecidableEq

namespace Instr

/-- The documented layout. -/
def encode : Instr → List UInt32
  -- 0TMR00AA AAAAAAAA VVVVVVVV (VVVVVVVV)
  | storeStatic w m r a v =>
    hexWord 0 w.toNybble m.toNybble r 0 0 (digit a 9) (digit a 8) :: UInt32.ofNat a :: immWords w v
  -- 1TMC00AA AAAAAAAA VVVVVVVV (VVVVVVVV)
  | beginCond w m c a v =>
    hexWord 1 w.toNybble m.toNybble c.toNybble 0 0 (digit a 9) (digit a 8) :: UInt32.ofNat a ::
      immWords w v
  -- 20000000
  | endCond => [hexWord 2 0 0 0 0 0 0 0]
  -- 400R0000 VVVVVVVV VVVVVVVV
  | ldrStatic r v =>
    [hexWord 4 0 0 r 0 0 0 0, UInt32.ofNat (v.toNat / 2 ^ 32), UInt32.ofNat v.toNat]
  -- 5TMRI0AA AAAAAAAA
  | ldrMemory w m r i a =>
    [hexWord 5 w.toNybble m.toNybble r (flag i) 0 (digit a 9) (digit a 8), UInt32.ofNat a]
  -- 6T0RIor0 VVVVVVVV VVVVVVVV
  | strStatic w r i o v =>
    [hexWord 6 w.toNybble 0 r (flag i) (flag o.isSome) (o.getD 0) 0,
      UInt32.ofNat (v.toNat / 2 ^ 32), UInt32.ofNat v.toNat]
  -- 7T0RC000 VVVVVVVV
  | mathStatic w r c v => [hexWord 7 w.toNybble 0 r c.toType.toNybble 0 0 0, v]
  -- 8kkkkkkk
  | beginKeypressCond k =>
    [hexWord 8 (digit k 6) (digit k 5) (digit k 4) (digit k 3) (digit k 2) (digit k 1) (digit k 0)]
  -- 9TCRS0s0
  | mathReg w c r s s' => [hexWord 9 w.toNybble c.toNybble r s 0 s' 0]
  -- 9TCRS100 VVVVVVVV (VVVVVVVV)
  | mathImm w c r s v => hexWord 9 w.toNybble c.toNybble r s 1 0 0 :: immWords w v
  -- ATSRIOxa (aaaaaaaa)
  | strRegister w s r i .none => [hexWord 10 w.toNybble s r (flag i) 0 0 0]
  | strRegister w s r i (.reg x) => [hexWord 10 w.toNybble s r (flag i) 1 x 0]
  | strRegister w s r i (.imm a) =>
    [hexWord 10 w.toNybble s r (flag i) 2 0 (digit a 8), UInt32.ofNat a]
  | strRegister w s r i (.memReg m) => [hexWord 10 w.toNybble s r (flag i) 3 m.toNybble 0]
  | strRegister w s r i (.memImm m a) =>
    [hexWord 10 w.toNybble s r (flag i) 4 m.toNybble (digit a 8), UInt32.ofNat a]
  | strRegister w s r i (.memImmReg m a) =>
    [hexWord 10 w.toNybble s r (flag i) 5 m.toNybble (digit a 8), UInt32.ofNat a]
  -- C0TcSX##
  | beginRegCond w c s (.memoryRelAddr m a) =>
    [hexWord 12 0 w.toNybble c.toNybble s 0 m.toNybble (digit a 8), UInt32.ofNat a]
  | beginRegCond w c s (.memoryOfsReg m r) =>
    [hexWord 12 0 w.toNybble c.toNybble s 1 m.toNybble r]
  | beginRegCond w c s (.registerRelAddr r a) =>
    [hexWord 12 0 w.toNybble c.toNybble s 2 r (digit a 8), UInt32.ofNat a]
  | beginRegCond w c s (.registerOfsReg r r') => [hexWord 12 0 w.toNybble c.toNybble s 3 r r']
  | beginRegCond w c s (.staticValue v) =>
    hexWord 12 0 w.toNybble c.toNybble s 4 0 0 :: immWords w v
  | beginRegCond w c s (.otherRegister x) => [hexWord 12 0 w.toNybble c.toNybble s 5 x 0]
  -- C10D0Sx0
  | saveRestoreReg d s x => [hexWord 12 1 0 d 0 s x.toNybble 0]
  -- C2x0XXXX
  | saveRestoreRegmask x k =>
    [hexWord 12 2 x.toNybble 0 (digit k 3) (digit k 2) (digit k 1) (digit k 0)]
  -- FFFTIX##
  | debugLog w i (.memoryRelAddr m a) =>
    [hexWord 15 15 15 w.toNybble i 0 m.toNybble (digit a 8), UInt32.ofNat a]
  | debugLog w i (.memoryOfsReg m r) => [hexWord 15 15 15 w.toNybble i 1 m.toNybble r]
  | debugLog w i (.registerRelAddr r a) =>
    [hexWord 15 15 15 w.toNybble i 2 r (digit a 8), UInt32.ofNat a]
  | debugLog w i (.registerOfsReg r r') => [hexWord 15 15 15 w.toNybble i 3 r r']
  | debugLog w i (.registerValue x) => [hexWord 15 15 15 w.toNybble i 4 x 0]

/-- The opcode type of an instruction. -/
def type : Instr → CheatVmOpcodeType
  | storeStatic .. => .storeStatic
  | beginCond .. => .beginConditionalBlock
  | endCond => .endConditionalBlock
  | ldrStatic .. => .loadRegisterStatic
  | ldrMemory .. => .loadRegisterMemory
  | strStatic .. => .storeStaticToAddress
  | mathStatic .. => .performArithmeticStatic
  | beginKeypressCond .. => .beginKeypressConditionalBlock
  | mathReg .. | mathImm .. => .performArithmeticRegister
  | strRegister .. => .storeRegisterToAddress
  | beginRegCond .. => .beginRegisterConditionalBlock
  | saveRestoreReg .. => .saveRestoreRegister
  | saveRestoreRegmask .. => .saveRestoreRegisterMask
  | debugLog .. => .debugLog

/-- The decoded form. -/
def toOpcode : Instr → CheatVmOpcode
  | storeStatic w m r a v => .storeStatic {
      bitWidth := w.bytes, memType := some m, offsetRegister := r
      relAddress := UInt64.ofNat a, value := UInt64.ofNat v }
  | beginCond w m c a v => .beginCond {
      bitWidth := w.bytes, memType := some m, condType := some c
      relAddress := UInt64.ofNat a, value := UInt64.ofNat v }
  | endCond => .endCond
  | ldrStatic r v => .ldrStatic { regIndex := r, value := v }
  | ldrMemory w m r i a => .ldrMemory {
      bitWidth := w.bytes, memType := some m, regIndex := r, loadFromReg := i
      relAddress := UInt64.ofNat a }
  | strStatic w r i o v => .strStatic {
      bitWidth := w.bytes, regIndex := r, incrementReg := i, addOffsetReg := o.isSome
      offsetRegIndex := o.getD 0, value := v }
  | mathStatic w r c v => .performMathStatic {
      bitWidth := w.bytes, regIndex := r, mathType := some c.toType, value := v }
  | beginKeypressCond k => .beginKeypressCond { keyMask := UInt32.ofNat k }
  | mathReg w c r s s' => .performMathReg {
      bitWidth := w.bytes, mathType := some c, dstRegIndex := r, srcReg1Index := s
      srcReg2Index := s', hasImmediate := false }
  | mathImm w c r s v => .performMathReg {
      bitWidth := w.bytes, mathType := some c, dstRegIndex := r, srcReg1Index := s
      hasImmediate := true, value := UInt64.ofNat v }
  | strRegister w s r i .none => .strRegister {
      bitWidth := w.bytes, strRegIndex := s, addrRegIndex := r, incrementReg := i
      ofsType := .none, ofsRegIndex := 0 }
  | strRegister w s r i (.reg x) => .strRegister {
      bitWidth := w.bytes, strRegIndex := s, addrRegIndex := r, incrementReg := i
      ofsType := .reg, ofsRegIndex := x }
  | strRegister w s r i (.imm a) => .strRegister {
      bitWidth := w.bytes, strRegIndex := s, addrRegIndex := r, incrementReg := i
      ofsType := .imm, ofsRegIndex := 0, relAddress := UInt64.ofNat a }
  | strRegister w s r i (.memReg m) => .strRegister {
      bitWidth := w.bytes, strRegIndex := s, addrRegIndex := r, incrementReg := i
      ofsType := .memReg, memType := some m, ofsRegIndex := m.toNybble }
  | strRegister w s r i (.memImm m a) => .strRegister {
      bitWidth := w.bytes, strRegIndex := s, addrRegIndex := r, incrementReg := i
      ofsType := .memImm, memType := some m, ofsRegIndex := m.toNybble
      relAddress := UInt64.ofNat a }
  | strRegister w s r i (.memImmReg m a) => .strRegister {
      bitWidth := w.bytes, strRegIndex := s, addrRegIndex := r, incrementReg := i
      ofsType := .memImmReg, memType := some m, ofsRegIndex := m.toNybble
      relAddress := UInt64.ofNat a }
  | beginRegCond w c s (.memoryRelAddr m a) => .beginRegCond {
      bitWidth := w.bytes, condType := some c, valRegIndex := s
      compType := some .memoryRelAddr, memType := some m, relAddress := UInt64.ofNat a }
  | beginRegCond w c s (.memoryOfsReg m r) => .beginRegCond {
      bitWidth := w.bytes, condType := some c, valRegIndex := s
      compType := some .memoryOfsReg, memType := some m, ofsRegIndex := r }
  | beginRegCond w c s (.registerRelAddr r a) => .beginRegCond {
      bitWidth := w.bytes, condType := some c, valRegIndex := s
      compType := some .registerRelAddr, addrRegIndex := r, relAddress := UInt64.ofNat a }
  | beginRegCond w c s (.registerOfsReg r r') => .beginRegCond {
      bitWidth := w.bytes, condType := some c, valRegIndex := s
      compType := some .registerOfsReg, addrRegIndex := r, ofsRegIndex := r' }
  | beginRegCond w c s (.staticValue v) => .beginRegCond {
      bitWidth := w.bytes, condType := some c, valRegIndex := s
      compType := some .staticValue, value := UInt64.ofNat v }
  | beginRegCond w c s (.otherRegister x) => .beginRegCond {
      bitWidth := w.bytes, condType := some c, valRegIndex := s
      compType := some .otherRegister, otherRegIndex := x }
  | saveRestoreReg d s x => .saveRestoreReg { dstIndex := d, srcIndex := s, opType := some x }
  | saveRestoreRegmask x k => .saveRestoreRegmask {
      opType := some x
      shouldOperate := (List.range numRegisters).map fun i => (k : Nat).testBit i }
  | debugLog w i (.memoryRelAddr m a) => .debugLog {
      bitWidth := w.bytes, logId := i, valType := some .memoryRelAddr
      memType := some m, relAddress := UInt64.ofNat a }
  | debugLog w i (.memoryOfsReg m r) => .debugLog {
      bitWidth := w.bytes, logId := i, valType := some .memoryOfsReg
      memType := some m, ofsRegIndex := r }
  | debugLog w i (.registerRelAddr r a) => .debugLog {
      bitWidth := w.bytes, logId := i, valType := some .registerRelAddr
      addrRegIndex := r, relAddress := UInt64.ofNat a }
  | debugLog w i (.registerOfsReg r r') => .debugLog {
      bitWidth := w.bytes, logId := i, valType := some .registerOfsReg
      addrRegIndex := r, ofsRegIndex := r' }
  | debugLog w i (.registerValue x) => .debugLog {
      bitWidth := w.bytes, logId := i, valType := some .registerValue, valRegIndex := x }

/-! ## The first word determines the rest -/

/-- The first word of an encoding names the instruction's type. -/
lemma type_head_encode (i : Instr) : CheatVmOpcodeType.ofU32 (opcodeNumber (i.encode.headD 0)) = some i.type := by
  cases i with
  | strRegister w s r i o
  | beginRegCond w c s o | debugLog w i o => cases o <;> simp [encode, opcodeNumber, CheatVmOpcodeType.ofU32, type]
  | _ => simp [encode, opcodeNumber, CheatVmOpcodeType.ofU32, type]

@[simp] lemma length_immWords (w : Width) (v : Nat) : (immWords w v).length = vmIntWords w.bytes := by
  cases w <;> rfl

/-- The first word of an encoding gives the number of the words after it. -/
lemma operandWords_head_encode (i : Instr) : operandWords (i.encode.headD 0) i.type = i.encode.tail.length := by
  cases i with
  | storeStatic w m r a v | beginCond w m c a v =>
    rw [encode, type, List.headD_cons, List.tail_cons, operandWords, nybble_hexWord_24,
      Width.val_toNybble, List.length_cons, length_immWords, Nat.add_comm]
  | mathReg w c r s s' =>
    rw [encode, type, List.headD_cons, List.tail_cons, operandWords, nybble_hexWord_8]; rfl
  | mathImm w c r s v =>
    rw [encode, type, List.headD_cons, List.tail_cons, operandWords, nybble_hexWord_8,
      if_neg (by decide), nybble_hexWord_24, Width.val_toNybble, length_immWords]
  | strRegister w s r i o =>
    cases o <;>
      (rw [encode, type, List.headD_cons, List.tail_cons, operandWords, nybble_hexWord_8]; rfl)
  | beginRegCond w c s o =>
    cases o with
    | staticValue v =>
      rw [encode, type, List.headD_cons, List.tail_cons, operandWords, nybble_hexWord_8,
        nybble_hexWord_20, Width.val_toNybble, length_immWords]
      rfl
    | _ => rw [encode, type, List.headD_cons, List.tail_cons, operandWords, nybble_hexWord_8]; rfl
  | debugLog w i o =>
    cases o <;>
      (rw [encode, type, List.headD_cons, List.tail_cons, operandWords, nybble_hexWord_8]; rfl)
  | _ => rfl

/-! ## The operands come back -/

@[simp] lemma toNat_flag_ne_zero (b : Bool) : ((flag b : Nat) != 0) = b := by
  cases b <;> rfl

/-- A value of a given width survives the words it is stored in. -/
lemma getNextVmInt_imm (w : Width) (v : Imm w) (pre : List UInt32) :
    (getNextVmInt (fun k => (pre ++ immWords w v).getD k default) (pre ++ immWords w v).length
      w.bytes ⟨pre.length, true⟩).1 = UInt64.ofNat v := by
  have hv := v.isLt
  cases w with
  | w1 | w2 | w4 =>
    simp only [Width.bytes] at hv
    apply UInt64.toNat_inj.mp
    simp [getNextVmInt, getNextDword, next, immWords, Width.bytes, bind, StateT.bind, pure, StateT.pure]
    omega
  | w8 =>
    simp [getNextVmInt, getNextDword, next, immWords, Width.bytes, bind, StateT.bind, pure, StateT.pure]
    exact dwords_ofNat _

/-- The first fetch from a list of words. -/
lemma getNextDword_cons (w : UInt32) (ws : List UInt32) :
    getNextDword (fun k => (w :: ws).getD k default) (w :: ws).length ⟨0, true⟩ = (w, ⟨1, true⟩) :=
  rfl

/-- The operands come back as they were encoded. -/
lemma decodeOperands_encode (i : Instr) :
    (decodeOperands (fun k => i.encode.tail.getD k default) i.encode.tail.length
      (i.encode.headD 0) i.type ⟨0, true⟩).1 = i.toOpcode := by
  cases i with
  | storeStatic w m r a v | beginCond w m c a v =>
    have hv := getNextVmInt_imm w v [UInt32.ofNat a]
    simp only [List.cons_append, List.nil_append, List.length_singleton] at hv
    simp only [encode, type, List.headD_cons, List.tail_cons, decodeOperands, bind_apply,
      pure_apply, getNextDword_cons, nybble_hexWord_24, Width.val_toNybble]
    rw [hv]
    simp [toOpcode]
  | endCond => rfl
  | ldrStatic r v =>
    have hv := dwords_ofNat v.toNat
    rw [UInt64.ofNat_toNat] at hv
    simp only [encode, type, toOpcode, List.headD_cons, List.tail_cons, decodeOperands, bind_apply,
      pure_apply, getNextDword_cons]
    simp [getNextDword, next]
    exact hv
  | ldrMemory w m r i a =>
    simp [encode, type, toOpcode, decodeOperands, getNextDword, next, bind_apply, pure_apply]
  | strStatic w r i o v =>
    have hv := dwords_ofNat v.toNat
    rw [UInt64.ofNat_toNat] at hv
    simp only [encode, type, toOpcode, List.headD_cons, List.tail_cons, decodeOperands, bind_apply,
      pure_apply, getNextDword_cons]
    simp [getNextDword, next]
    exact hv
  | mathStatic w r c v =>
    simp [encode, type, toOpcode, decodeOperands, getNextDword, next, bind_apply, pure_apply]
  | beginKeypressCond k =>
    simp [encode, type, toOpcode, decodeOperands, pure_apply, hexWord_and_fffffff]
  | mathReg w c r s s' =>
    simp [encode, type, toOpcode, decodeOperands, pure_apply]
  | mathImm w c r s v =>
    have hv := getNextVmInt_imm w v []
    simp only [List.nil_append, List.length_nil] at hv
    simp only [encode, type, List.headD_cons, List.tail_cons, decodeOperands, nybble_hexWord_8,
      nybble_hexWord_24, Width.val_toNybble]
    rw [if_pos (by decide), bind_apply, pure_apply, hv]
    simp [toOpcode]
  | strRegister w s r i o =>
    cases o <;>
      (rw [encode, type, toOpcode, List.headD_cons, List.tail_cons, decodeOperands, nybble_hexWord_8]
       simp [decodeStoreRegister, StoreRegisterOffsetType.ofU32, getNextDword, next, bind_apply, map_apply, pure_apply])
  | beginRegCond w c s o =>
    cases o with
    | staticValue v =>
      have hv := getNextVmInt_imm w v []
      simp only [List.nil_append, List.length_nil] at hv
      rw [encode, type, toOpcode, List.headD_cons, List.tail_cons, decodeOperands,
        nybble_hexWord_8, show CompareRegisterValueType.ofU32 ((4 : Fin 16) : Nat) =
          some .staticValue from rfl, decodeRegisterConditional]
      simp only [bind_apply, pure_apply, nybble_hexWord_20, Width.val_toNybble, hv]
      simp
    | _ =>
      rw [encode, type, toOpcode, List.headD_cons, List.tail_cons, decodeOperands, nybble_hexWord_8]
      simp [decodeRegisterConditional, CompareRegisterValueType.ofU32, getNextDword, next,
        bind_apply, map_apply, pure_apply]
  | saveRestoreReg d s x => simp [encode, type, toOpcode, decodeOperands, pure_apply]
  -- the mask is the low half of the word, read one bit at a time
  | saveRestoreRegmask x k =>
    have hk : ∀ i ∈ List.range numRegisters, (hexWord 12 2 x.toNybble 0 (digit k 3) (digit k 2) (digit k 1) (digit k 0)
          &&& (1 <<< UInt32.ofNat i) != 0) = (k : Nat).testBit i :=
      fun i hi => hexWord_and_one_shiftLeft _ _ _ _ k.isLt (List.mem_range.mp hi)
    simp only [encode, type, toOpcode, decodeOperands, pure_apply, List.headD_cons,
      nybble_hexWord_20, SaveRestoreRegisterOpType.ofU32_toNybble]
    rw [List.map_congr_left hk]
  | debugLog w i o =>
    cases o <;>
      (rw [encode, type, toOpcode, List.headD_cons, List.tail_cons, decodeOperands, nybble_hexWord_8]
       simp [decodeDebugLog, DebugLogValueType.ofU32, getNextDword, next, bind_apply, map_apply, pure_apply])

/-- An encoding is its first word and as many others as that one calls for. -/
lemma encode_eq_cons (i : Instr) : i.encode = i.encode.headD 0 :: i.encode.tail := by
  cases i with
  | strRegister w s r i o => cases o <;> rfl
  | beginRegCond w c s o => cases o <;> rfl
  | debugLog w i o => cases o <;> rfl
  | _ => rfl

end Instr

/-- Decoding an instruction that starts at the instruction pointer. -/
lemma decodeNextOpcode_encode {vm : DmntCheatVm} {i : Instr} (hv : vm.decodeSuccess = true)
    (hfit : vm.instructionPtr + i.encode.length ≤ vm.numOpcodes)
    (hi : window vm.program vm.instructionPtr i.encode.length = i.encode) :
    decodeNextOpcode vm =
      (some i.toOpcode, { vm with instructionPtr := vm.instructionPtr + i.encode.length }) := by
  obtain ⟨f, hf⟩ := reads_decodeOperands (i.encode.headD 0) i.type
  have hlen : i.encode.length = 1 + operandWords (i.encode.headD 0) i.type := by
    rw [i.encode_eq_cons, List.length_cons, ← i.encode_eq_cons, i.operandWords_head_encode, Nat.add_comm]
  rw [hlen] at hi hfit ⊢
  rw [Nat.add_comm 1, window] at hi
  obtain ⟨hw, hws⟩ := List.cons.inj (hi.trans i.encode_eq_cons)
  have h := decodeNextOpcode_complete hv hw i.type_head_encode hf (by omega)
  have hop : f i.encode.tail = i.toOpcode := by
    rw [i.operandWords_head_encode] at hf
    rw [Reads.apply_eq_run hf, i.decodeOperands_encode]
  rw [hws, hop, Nat.add_assoc] at h
  exact h

/-- A program that stops in the middle of an instruction fails to decode it. -/
lemma decodeNextOpcode_truncated {vm : DmntCheatVm} {i : Instr} {k : Nat} (hk : k < i.encode.length)
    (hend : vm.numOpcodes = vm.instructionPtr + k) (hi : window vm.program vm.instructionPtr k = i.encode.take k) :
    (decodeNextOpcode vm).1 = none ∧ (decodeNextOpcode vm).2.decodeSuccess = false := by
  apply decodeNextOpcode_short
  intro hip t ht
  have hw : vm.program vm.instructionPtr = i.encode.headD 0 := by
    obtain ⟨n, rfl⟩ : ∃ n, k = n + 1 := ⟨k - 1, by omega⟩
    rw [window, i.encode_eq_cons, List.take_succ_cons] at hi
    exact (List.cons.inj hi).1
  rw [hw, i.type_head_encode] at ht
  cases ht
  rw [i.encode_eq_cons, List.length_cons] at hk
  rw [hw, i.operandWords_head_encode]
  omega

/-- Where the words of a program are, read off its position in the list. -/
lemma window_of_words_eq {vm : DmntCheatVm} {pre ws post : List UInt32} (h : vm.words = pre ++ ws ++ post) :
    pre.length + ws.length ≤ vm.numOpcodes ∧ window vm.program pre.length ws.length = ws := by
  have hlen : vm.numOpcodes = pre.length + ws.length + post.length := by
    have := congrArg List.length h
    simpa [DmntCheatVm.words, Nat.add_assoc] using this
  refine ⟨by omega, ?_⟩
  rw [DmntCheatVm.words, hlen, window_add, window_add, List.append_assoc, List.append_assoc] at h
  obtain ⟨_, h⟩ := List.append_inj h (by simp)
  obtain ⟨h, _⟩ := List.append_inj h (by simp)
  simpa using h

/-- Decoding undoes the documented encoding, in any surrounding program; and where the program ends
inside the instruction, this decode and every later one of the run fail. -/
theorem decodeNextOpcode_undoes_encode (i : Instr) :
    (∀ (vm : DmntCheatVm) (pre post : List UInt32), vm.decodeSuccess = true →
      vm.words = pre ++ i.encode ++ post → vm.instructionPtr = pre.length →
      decodeNextOpcode vm = (some i.toOpcode, { vm with instructionPtr := pre.length + i.encode.length })) ∧
    (∀ (vm : DmntCheatVm) (pre : List UInt32) (k : Nat), k < i.encode.length →
      vm.words = pre ++ i.encode.take k → vm.instructionPtr = pre.length →
      (decodeNextOpcode vm).1 = none ∧
      ∀ vm', Later (decodeNextOpcode vm).2 vm' → (decodeNextOpcode vm').1 = none) := by
  refine ⟨?_, ?_⟩
  · intro vm pre post hv hwords hip
    obtain ⟨hfit, hi⟩ := window_of_words_eq hwords
    rw [← hip] at hfit hi ⊢
    exact decodeNextOpcode_encode hv hfit hi
  · intro vm pre k hk hwords hip
    have hlen : (i.encode.take k).length = k := List.length_take_of_le hk.le
    have hnum : vm.numOpcodes = pre.length + k := by
      have := congrArg List.length hwords
      simpa [DmntCheatVm.words, hlen] using this
    rw [← List.append_nil (i.encode.take k), ← List.append_assoc] at hwords
    obtain ⟨_, hi⟩ := window_of_words_eq hwords
    rw [hlen, ← hip] at hi
    obtain ⟨h1, h2⟩ := decodeNextOpcode_truncated hk (hip ▸ hnum) hi
    refine ⟨h1, ?_⟩
    intro vm' l
    exact (decodeNextOpcode_failed (l.decodeSuccess_eq_false h2)).1

/-- A store of the block terminator's word, decoded behind another instruction, and cut off. -/
theorem decodeNextOpcode_undoes_encode_store :
    let i := Instr.storeStatic .w4 .heap 3 0x1234567890 0x20000000
    let program : Nat → UInt32 := fun k => [0x20000000, 0x04130012, 0x34567890, 0x20000000].getD k 0
    (decodeNextOpcode { program, numOpcodes := 4, instructionPtr := 1, decodeSuccess := true }).1 = some i.toOpcode ∧
    (decodeNextOpcode { program, numOpcodes := 3, instructionPtr := 1, decodeSuccess := true }).1 =
      none := by
  have hfull := (decodeNextOpcode_undoes_encode
    (.storeStatic .w4 .heap 3 0x1234567890 0x20000000)).1
    { program := fun k => [0x20000000, 0x04130012, 0x34567890, 0x20000000].getD k 0
      numOpcodes := 4, instructionPtr := 1, decodeSuccess := true }
    [0x20000000] [] rfl (by decide) rfl
  have hcut := (decodeNextOpcode_undoes_encode
    (.storeStatic .w4 .heap 3 0x1234567890 0x20000000)).2
    { program := fun k => [0x20000000, 0x04130012, 0x34567890, 0x20000000].getD k 0
      numOpcodes := 3, instructionPtr := 1, decodeSuccess := true }
    [0x20000000] 2 (by decide) (by decide) rfl
  exact ⟨congrArg Prod.fst hfull, hcut.1⟩

end RajNX.Dmnt
