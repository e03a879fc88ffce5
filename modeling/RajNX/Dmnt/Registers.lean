import RajNX.Dmnt.Structured

/-!
# What instructions write to registers

Code type 5 loads a register from memory. The bytes go straight into the register's storage, so that
those above the width of the load stay: the register holds the value from memory exactly if they were
zero before (`ldrMemory_zero_extends_iff`).

Code type 0xC1 saves, restores or clears one register or saved value, and code type 0xC2 does so for
every index of a mask. `SaveRestoreRegisterOpType.apply` is what an operation does to the two register
files at a set of indices.

Executing `C10i0ix0` for each index of a mask applies operation `x` there. `C2x0XXXX` does not always:
its two pointers are set the same way in both branches, so that it reads registers and writes saved
values whatever the operation. `saveRestore_agree_iff` says in which states the two end alike.
-/

namespace RajNX.Dmnt

open WordStream LittleEndian

/-! ## Programs of one instruction -/

section Load

variable {σ : Type}

/-- A VM at the start of a program. -/
def ExecState.load (st : ExecState σ) (ws : List UInt32) : ExecState σ :=
  { st with vm := { st.vm with
      program := fun k => ws.getD k 0
      numOpcodes := ws.length
      instructionPtr := 0
      decodeSuccess := true } }

lemma ExecState.load_at (st : ExecState σ) (ws : List UInt32) : At (st.load ws).vm ws where
  decodeSuccess := rfl
  fits := Nat.le_of_eq (Nat.zero_add _)
  window := window_getD ws

variable (P : CheatProcess σ) (metadata : CheatProcessMetadata) (kDown : UInt64)

/-- A program of one instruction that moves the cursor no further runs to its end. -/
lemma executeLoop_load {st st' : ExecState σ} {i : Instr}
    (h : executeOpcode P metadata kDown i.toOpcode { st.load i.encode with
      vm := (st.load i.encode).vm.advance i.encode.length } = some st')
    (hptr : st'.vm.instructionPtr = i.encode.length) (hnum : st'.vm.numOpcodes = i.encode.length)
    (fuel : Nat) (hfuel : 1 < fuel) :
    executeLoop P metadata kDown fuel (st.load i.encode) =
      .finished { st' with vm := { st'.vm with decodeSuccess := false } } :=
  executeLoop_finished P metadata kDown
    (executeLoop_instr P metadata kDown (st.load_at i.encode) h) (hptr.trans hnum.symm) fuel hfuel

end Load

/-! ## Loading a register -/

/-- The bytes of a variable a read has written to. -/
lemma toNat_overlay (old : UInt64) {bytes : List UInt8} (h : bytes.length ≤ 8) :
    (overlay old bytes).toNat =
      leValue bytes + 256 ^ bytes.length * (old.toNat / 256 ^ bytes.length) := by
  have hold := old.toNat_lt
  obtain ⟨k, hk⟩ := Nat.exists_eq_add_of_le h
  have hpow : 256 ^ bytes.length * 256 ^ k = 2 ^ 64 := by
    rw [← Nat.pow_add, ← hk]
    rfl
  have hhigh : old.toNat / 256 ^ bytes.length < 256 ^ k := by
    apply Nat.div_lt_of_lt_mul
    rw [hpow]
    exact hold
  have hdrop : (leBytes 8 old.toNat).drop bytes.length =
      leBytes k (old.toNat / 256 ^ bytes.length) := by
    rw [hk, leBytes_add, List.drop_left' (length_leBytes _ _)]
  have hlow := leValue_lt bytes
  have hlt : leValue bytes + 256 ^ bytes.length * (old.toNat / 256 ^ bytes.length) < 2 ^ 64 := by
    rw [← hpow]
    nlinarith
  rw [overlay, hdrop, leValue_append, leValue_leBytes, Nat.mod_eq_of_lt hhigh, UInt64.toNat_ofNat_of_lt' hlt]

/-- The variable holds the value of the bytes exactly if it had nothing above them. -/
lemma overlay_eq_iff (old : UInt64) {bytes : List UInt8} (h : bytes.length ≤ 8) :
    overlay old bytes = UInt64.ofNat (leValue bytes) ↔ old.toNat < 256 ^ bytes.length := by
  have hlow := leValue_lt bytes
  have hpow : 256 ^ bytes.length ≤ 2 ^ 64 := Nat.pow_le_pow_right (by decide : 256 > 0) h
  rw [← UInt64.toNat_inj, toNat_overlay old h, UInt64.toNat_ofNat_of_lt' (hlow.trans_le hpow),
    Nat.add_eq_left, Nat.mul_eq_zero, Nat.div_eq_zero_iff]
  simp

/-- `5TMR00AA AAAAAAAA`, with a read that succeeds, leaves in register `R` the value of the `T` bytes
exactly if the bytes of the register above these were zero before. -/
theorem ldrMemory_zero_extends_iff {σ : Type} (P : CheatProcess σ) (metadata : CheatProcessMetadata) (kDown : UInt64)
    (w : Width) (t : MemoryAccessType) (r : Fin 16) (a : Fin (2 ^ 40)) (st : ExecState σ) (bytes : List UInt8)
    (process : σ) (hread : P.read st.process (t.base metadata + .ofNat a) w.bytes = (bytes, process))
    (hlen : bytes.length = w.bytes) :
    ∃ st', (∀ fuel, 1 < fuel → executeLoop P metadata kDown fuel
        (st.load (Instr.ldrMemory w t r false a).encode) = .finished st') ∧
      (st'.vm.registers r = UInt64.ofNat (leValue bytes) ↔
        (st.vm.registers r).toNat < 2 ^ (8 * w.bytes)) := by
  let start := st.load (Instr.ldrMemory w t r false a).encode
  have hlen8 : bytes.length ≤ 8 := by
    rw [hlen]
    cases w <;> decide
  have hvalue : readCheatProcessMemoryForVm P { start with vm := start.vm.advance 2 }
      (getCheatProcessAddress metadata (some t) (.ofNat a)) (st.vm.registers r) w.bytes =
      (overlay (st.vm.registers r) bytes, { start with vm := start.vm.advance 2, process }) := by
    have hread' : P.read start.process (t.base metadata + .ofNat a) w.bytes = (bytes, process) := hread
    rw [readCheatProcessMemoryForVm, if_pos (validBitWidth_bytes w), getCheatProcessAddress_some]
    simp only [hread', List.take_of_length_le (Nat.le_of_eq hlen)]
  have hexec : executeOpcode P metadata kDown (Instr.ldrMemory w t r false a).toOpcode
      { start with vm := start.vm.advance 2 } = some { start with
        vm := (start.vm.advance 2).setRegister r (overlay (st.vm.registers r) bytes), process } := by
    exact congrArg (fun x : UInt64 × ExecState σ =>
      some { x.2 with vm := x.2.vm.setRegister r x.1 }) hvalue
  refine ⟨_, executeLoop_load P metadata kDown hexec rfl rfl, ?_⟩
  rw [show 2 ^ (8 * w.bytes) = 256 ^ bytes.length from by rw [hlen, Nat.pow_mul], ← overlay_eq_iff _ hlen8]
  exact iff_of_eq (congrArg (· = _) (Function.update_self _ _ _))

/-- A byte loaded into a register that is zero. -/
theorem ldrMemory_zero_extends_byte :
    let P : CheatProcess Unit := { read := fun _ _ _ => ([0x34], ()), write := fun _ _ _ => () }
    let st : ExecState Unit := { vm := {}, process := () }
    ∃ st', (∀ fuel, 1 < fuel → executeLoop P {} 0 fuel
        (st.load (Instr.ldrMemory .w1 .heap 3 false 0x10).encode) = .finished st') ∧
      (st'.vm.registers 3 = UInt64.ofNat (leValue [0x34]) ↔ (st.vm.registers 3).toNat < 2 ^ (8 * Width.w1.bytes)) :=
  ldrMemory_zero_extends_iff _ {} 0 .w1 .heap 3 0x10 { vm := {}, process := () } [0x34] () rfl rfl

/-- The same load, of the byte 0x34, into a register that holds 0x1FF leaves 0x134 there. -/
theorem ldrMemory_keeps_high_bytes :
    let program : List UInt32 := [0x40030000, 0, 0x1FF, 0x51130000, 0x10]
    let P : CheatProcess Unit := { read := fun _ _ _ => ([0x34], ()), write := fun _ _ _ => () }
    let vm : DmntCheatVm := { program := fun k => program.getD k 0, numOpcodes := program.length }
    ∃ st, execute P {} 0 3 vm () = .finished st ∧ st.vm.registers 3 = 0x134 :=
  ⟨_, rfl, rfl⟩

/-! ## Saving and restoring -/

/-- The two register files of a VM. -/
abbrev Files := (Nat → UInt64) × (Nat → UInt64)

def DmntCheatVm.files (vm : DmntCheatVm) : Files := (vm.registers, vm.savedValues)

def DmntCheatVm.setFiles (vm : DmntCheatVm) (f : Files) : DmntCheatVm :=
  { vm with registers := f.1, savedValues := f.2 }

/-- What an operation does to the files at the indices `on`. -/
def SaveRestoreRegisterOpType.apply (x : SaveRestoreRegisterOpType) (on : Nat → Bool) (f : Files) : Files :=
  match x with
  | restore => (fun j => if on j then f.2 j else f.1 j, f.2)
  | save => (f.1, fun j => if on j then f.1 j else f.2 j)
  | clearSaved => (f.1, fun j => if on j then 0 else f.2 j)
  | clearRegs => (fun j => if on j then 0 else f.1 j, f.2)

/-- Operations at disjoint indices add up. -/
lemma SaveRestoreRegisterOpType.apply_apply (x : SaveRestoreRegisterOpType) {on on' : Nat → Bool}
    (h : ∀ j, on j = true → on' j = false) (f : Files) :
    x.apply on' (x.apply on f) = x.apply (fun j => on j || on' j) f := by
  cases x with
  | restore =>
    refine Prod.ext (funext fun j => ?_) rfl
    specialize h j
    simp only [apply]
    split <;> simp_all
  | save =>
    refine Prod.ext rfl (funext fun j => ?_)
    specialize h j
    simp only [apply]
    split <;> simp_all
  | clearSaved =>
    refine Prod.ext rfl (funext fun j => ?_)
    simp only [apply, Bool.or_eq_true]
    split <;> simp_all
  | clearRegs =>
    refine Prod.ext (funext fun j => ?_) rfl
    simp only [apply, Bool.or_eq_true]
    split <;> simp_all

/-! ## One register -/

/-- `C10i0ix0` applies operation `x` at index `i`. -/
lemma saveRestoreRegister_eq (x : SaveRestoreRegisterOpType) (i : Nat) (vm : DmntCheatVm) :
    saveRestoreRegister { dstIndex := i, srcIndex := i, opType := some x } vm =
      vm.setFiles (x.apply (· == i) vm.files) := by
  have hupdate : ∀ (f : Nat → UInt64) (y : UInt64),
      Function.update f i y = fun j => if j == i then y else f j := by
    intro f y
    funext j
    simp [Function.update_apply]
  have hsame : ∀ f g : Nat → UInt64, (fun j => if j == i then f i else g j) =
      fun j => if j == i then f j else g j := by
    intro f g
    funext j
    by_cases hj : j = i <;> simp [hj]
  cases x with
  | restore =>
    simp only [saveRestoreRegister, DmntCheatVm.setRegister, hupdate, hsame]
    rfl
  | save =>
    simp only [saveRestoreRegister, DmntCheatVm.setSavedValue, hupdate, hsame]
    rfl
  | clearSaved =>
    simp only [saveRestoreRegister, DmntCheatVm.setSavedValue, hupdate]
    rfl
  | clearRegs =>
    simp only [saveRestoreRegister, DmntCheatVm.setRegister, hupdate]
    rfl

/-- One register after another. -/
def saveRestoreEach (x : SaveRestoreRegisterOpType) (is : List Nat) (vm : DmntCheatVm) : DmntCheatVm :=
  is.foldl (fun vm i => saveRestoreRegister { dstIndex := i, srcIndex := i, opType := some x } vm) vm

/-- The instructions `C10i0ix0` for different indices apply `x` at all of them. -/
lemma saveRestoreEach_eq (x : SaveRestoreRegisterOpType) {is : List Nat} (h : is.Nodup) (vm : DmntCheatVm) :
    saveRestoreEach x is vm = vm.setFiles (x.apply (fun j => decide (j ∈ is)) vm.files) := by
  induction is generalizing vm with
  | nil => cases x <;> simp [saveRestoreEach, SaveRestoreRegisterOpType.apply, DmntCheatVm.setFiles,
      DmntCheatVm.files]
  | cons i is ih =>
    obtain ⟨hi, his⟩ := List.nodup_cons.mp h
    have hdisjoint : ∀ j, (j == i) = true → decide (j ∈ is) = false := by
      intro j hj
      rw [beq_iff_eq.mp hj]
      exact decide_eq_false hi
    have hon : (fun j => (j == i) || decide (j ∈ is)) = fun j => decide (j ∈ i :: is) := by
      funext j
      rw [Bool.eq_iff_iff]
      simp
    calc saveRestoreEach x (i :: is) vm
        = saveRestoreEach x is (vm.setFiles (x.apply (· == i) vm.files)) := by
          rw [← saveRestoreRegister_eq]
          rfl
      _ = vm.setFiles (x.apply (fun j => decide (j ∈ is)) (x.apply (· == i) vm.files)) := by
          rw [ih his]
          rfl
      _ = vm.setFiles (x.apply (fun j => decide (j ∈ i :: is)) vm.files) := by
          rw [x.apply_apply hdisjoint, hon]

/-! ## A mask -/

/-- The operation code type 0xC2 performs in place of the one it is given. -/
def SaveRestoreRegisterOpType.masked : SaveRestoreRegisterOpType → SaveRestoreRegisterOpType
  | restore | save => save
  | clearSaved | clearRegs => clearSaved

/-- The indices set in a mask. -/
def maskIndices (k : Fin (2 ^ 16)) : List (Fin 16) :=
  (List.finRange 16).filter fun i => (k : Nat).testBit i

lemma nodup_maskIndices (k : Fin (2 ^ 16)) : ((maskIndices k).map Fin.val).Nodup :=
  ((List.nodup_finRange _).filter _).map Fin.val_injective

lemma map_maskIndices (k : Fin (2 ^ 16)) :
    (maskIndices k).map Fin.val = (List.range numRegisters).filter fun i => (k : Nat).testBit i := by
  rw [maskIndices, numRegisters, ← List.map_coe_finRange_eq_range, List.filter_map]
  rfl

/-- Code type 0xC2 performs `x.masked` at one index of its mask after another. -/
lemma saveRestoreRegisterMask_eq (x : SaveRestoreRegisterOpType) (k : Fin (2 ^ 16)) (vm : DmntCheatVm) :
    saveRestoreRegisterMask
        { opType := some x
          shouldOperate := (List.range numRegisters).map fun i => (k : Nat).testBit i } vm =
      saveRestoreEach x.masked ((maskIndices k).map Fin.val) vm := by
  rw [saveRestoreEach, map_maskIndices, List.foldl_filter, saveRestoreRegisterMask]
  apply List.foldl_ext
  intro vm i hi
  have hget : ((List.range numRegisters).map fun i => (k : Nat).testBit i).getD i false =
      (k : Nat).testBit i := by
    have hlt := List.mem_range.mp hi
    simp [List.getD, hlt]
  dsimp only
  rw [hget]
  cases x <;> rfl

/-! ## Programs of these instructions -/

section Run

variable {σ : Type} (P : CheatProcess σ) (metadata : CheatProcessMetadata) (kDown : UInt64)

lemma saveRestoreRegister_advance (o : SaveRestoreRegisterOpcode) (vm : DmntCheatVm) (n : Nat) :
    saveRestoreRegister o (vm.advance n) = (saveRestoreRegister o vm).advance n := by
  unfold saveRestoreRegister
  split <;> rfl

lemma saveRestoreEach_advance (x : SaveRestoreRegisterOpType) (is : List Nat) (vm : DmntCheatVm)
    (n : Nat) : saveRestoreEach x is (vm.advance n) = (saveRestoreEach x is vm).advance n := by
  induction is generalizing vm with
  | nil => rfl
  | cons i is ih =>
    rw [saveRestoreEach, List.foldl_cons, saveRestoreRegister_advance]
    exact ih _

/-- The words `C10i0ix0` for the indices `is`. -/
def eachWords (x : SaveRestoreRegisterOpType) (is : List (Fin 16)) : List UInt32 :=
  is.flatMap fun i => (Instr.saveRestoreReg i i x).encode

section

variable (x : SaveRestoreRegisterOpType)

include x

/-- The loop passes over `C10i0ix0` for one index after another. -/
lemma executeLoop_eachWords (is : List (Fin 16)) {st : ExecState σ} (h : At st.vm (eachWords x is)) (fuel : Nat) :
    executeLoop P metadata kDown (fuel + is.length) st =
      executeLoop P metadata kDown fuel { st with
        vm := (saveRestoreEach x (is.map Fin.val) st.vm).advance is.length } := by
  induction is generalizing st with
  | nil => rfl
  | cons i is ih =>
    have h' : At st.vm ((Instr.saveRestoreReg i i x).encode ++ eachWords x is) := h
    obtain ⟨hi, his⟩ := h'.append
    let vm' := saveRestoreRegister { dstIndex := i, srcIndex := i, opType := some x } st.vm
    have hat : At (vm'.advance 1) (eachWords x is) := by
      simp only [vm', saveRestoreRegister_eq]
      exact his.congr rfl rfl rfl rfl
    have hexec : executeOpcode P metadata kDown (Instr.saveRestoreReg i i x).toOpcode
        { st with vm := st.vm.advance 1 } = some { st with vm := vm'.advance 1 } := by
      rw [← saveRestoreRegister_advance]
      rfl
    have hstep := executeLoop_instr P metadata kDown hi hexec (fuel + is.length)
    refine hstep.trans ((ih hat).trans ?_)
    rw [saveRestoreEach_advance]
    simp only [DmntCheatVm.advance, List.length_cons, Nat.add_assoc, Nat.add_comm 1]
    rfl

lemma length_eachWords (is : List (Fin 16)) : (eachWords x is).length = is.length := by
  induction is with
  | nil => rfl
  | cons i is ih => exact congrArg (· + 1) ih

/-- The files after one operation at each of some indices. -/
lemma files_saveRestoreEach {is : List Nat} (h : is.Nodup) (vm : DmntCheatVm) :
    (saveRestoreEach x is vm).files = x.apply (fun j => decide (j ∈ is)) vm.files := by
  rw [saveRestoreEach_eq x h]
  rfl

/-- A program of `C10i0ix0` for different indices runs to its end and applies `x` at all of them. -/
lemma executeLoop_load_eachWords {is : List (Fin 16)} (h : (is.map Fin.val).Nodup) (st : ExecState σ) :
    ∃ st', (∀ fuel, is.length < fuel → executeLoop P metadata kDown fuel (st.load (eachWords x is)) = .finished st') ∧
      st'.vm.files = x.apply (fun j => decide (j ∈ is.map Fin.val)) st.vm.files := by
  have hrun := executeLoop_eachWords P metadata kDown x is (st.load_at (eachWords x is))
  generalize hvm : saveRestoreEach x (is.map Fin.val) (st.load (eachWords x is)).vm = vm at hrun
  have hfiles : vm.files = x.apply (fun j => decide (j ∈ is.map Fin.val)) st.vm.files := by
    rw [← hvm]
    exact files_saveRestoreEach x h _
  have hend : (vm.advance is.length).instructionPtr = (vm.advance is.length).numOpcodes := by
    rw [← hvm, saveRestoreEach_eq x h]
    change 0 + is.length = (eachWords x is).length
    rw [length_eachWords, Nat.zero_add]
  exact ⟨_, executeLoop_finished P metadata kDown hrun hend, hfiles⟩

/-- A program of one `C2x0XXXX` runs to its end and applies `x.masked` at the indices of the mask. -/
lemma executeLoop_load_mask (k : Fin (2 ^ 16)) (st : ExecState σ) :
    ∃ st', (∀ fuel, 1 < fuel → executeLoop P metadata kDown fuel
        (st.load (Instr.saveRestoreRegmask x k).encode) = .finished st') ∧
      st'.vm.files =
        x.masked.apply (fun j => decide (j ∈ (maskIndices k).map Fin.val)) st.vm.files := by
  have hat := st.load_at (Instr.saveRestoreRegmask x k).encode
  generalize hst : st.load (Instr.saveRestoreRegmask x k).encode = start at hat
  have hexec : executeOpcode P metadata kDown (Instr.saveRestoreRegmask x k).toOpcode
      { start with vm := start.vm.advance 1 } = some { start with
        vm := (saveRestoreEach x.masked ((maskIndices k).map Fin.val) start.vm).advance 1 } := by
    rw [← saveRestoreEach_advance, ← saveRestoreRegisterMask_eq]
    rfl
  have hrun := executeLoop_instr P metadata kDown hat hexec
  have hend : ((saveRestoreEach x.masked ((maskIndices k).map Fin.val) start.vm).advance
      1).instructionPtr = ((saveRestoreEach x.masked ((maskIndices k).map Fin.val)
        start.vm).advance 1).numOpcodes := by
    rw [saveRestoreEach_eq _ (nodup_maskIndices k), ← hst]
    rfl
  have hfiles := files_saveRestoreEach x.masked (nodup_maskIndices k) start.vm
  have hstart : start.vm.files = st.vm.files := by
    rw [← hst]
    rfl
  rw [← hstart]
  exact ⟨_, executeLoop_finished P metadata kDown hrun hend, hfiles⟩

end

/-! ## When the two agree -/

/-- The condition under which `C2x0XXXX` does what `C10i0ix0` does at each index of its mask. -/
def MaskAgrees (k : Fin (2 ^ 16)) (vm : DmntCheatVm) : SaveRestoreRegisterOpType → Prop
  | .save | .clearSaved => True
  | .restore => ∀ i ∈ maskIndices k, vm.registers i = vm.savedValues i
  | .clearRegs => ∀ i ∈ maskIndices k, vm.registers i = 0 ∧ vm.savedValues i = 0

/-- Values that are put where they are already. -/
lemma overlay_eq_self {on : Nat → Bool} {f g : Nat → UInt64} (h : ∀ j, on j = true → g j = f j) :
    (fun j => if on j then g j else f j) = f := by
  funext j
  split
  · exact h j ‹_›
  · rfl

lemma apply_masked_eq_iff (x : SaveRestoreRegisterOpType) (k : Fin (2 ^ 16)) (vm : DmntCheatVm) :
    x.masked.apply (fun j => decide (j ∈ (maskIndices k).map Fin.val)) vm.files =
      x.apply (fun j => decide (j ∈ (maskIndices k).map Fin.val)) vm.files ↔ MaskAgrees k vm x := by
  have hmem : ∀ i ∈ maskIndices k, (i : Nat) ∈ (maskIndices k).map Fin.val :=
    fun i hi => List.mem_map_of_mem hi
  have hindex : ∀ j, decide (j ∈ (maskIndices k).map Fin.val) = true → ∃ i ∈ maskIndices k, i.val = j :=
    fun j hj => List.mem_map.mp (of_decide_eq_true hj)
  cases x with
  | save => exact iff_of_true rfl trivial
  | clearSaved => exact iff_of_true rfl trivial
  | restore =>
    -- saving writes the one file and restoring the other one, so that both have to keep what is there
    constructor
    · intro h i hi
      have hj := congrFun (congrArg Prod.fst h) i
      simp only [SaveRestoreRegisterOpType.masked, SaveRestoreRegisterOpType.apply,
        decide_eq_true (hmem i hi), if_true] at hj
      exact hj
    · intro h
      have hboth : ∀ j, decide (j ∈ (maskIndices k).map Fin.val) = true →
          vm.registers j = vm.savedValues j := by
        intro j hj
        obtain ⟨i, hi, rfl⟩ := hindex j hj
        exact h i hi
      apply Prod.ext
      · exact (overlay_eq_self fun j hj => (hboth j hj).symm).symm
      · exact overlay_eq_self hboth
  | clearRegs =>
    -- the same for zeros in the one file and in the other one
    constructor
    · intro h i hi
      have hj := congrFun (congrArg Prod.fst h) i
      have hj' := congrFun (congrArg Prod.snd h) i
      simp only [SaveRestoreRegisterOpType.masked, SaveRestoreRegisterOpType.apply,
        decide_eq_true (hmem i hi), if_true] at hj hj'
      exact ⟨hj, hj'.symm⟩
    · intro h
      have hboth : ∀ j, decide (j ∈ (maskIndices k).map Fin.val) = true →
          vm.registers j = 0 ∧ vm.savedValues j = 0 := by
        intro j hj
        obtain ⟨i, hi, rfl⟩ := hindex j hj
        exact h i hi
      apply Prod.ext
      · exact (overlay_eq_self fun j hj => (hboth j hj).1.symm).symm
      · exact overlay_eq_self fun j hj => (hboth j hj).2.symm

/-- The instruction `C2x0XXXX` and the instructions `C10i0ix0` for the indices `i` set in the mask,
each as a program of its own and run on the same VM, leave the same registers and saved values exactly
if `x` is save or clear saved, or is restore and each register of the mask holds its saved value
already, or is clear register and both are zero already. -/
theorem saveRestore_agree_iff (x : SaveRestoreRegisterOpType) (k : Fin (2 ^ 16)) (st : ExecState σ) :
    ∃ st₁ st₂ : ExecState σ, (∀ fuel, numRegisters < fuel → executeLoop P metadata kDown fuel
        (st.load (Instr.saveRestoreRegmask x k).encode) = .finished st₁) ∧
      (∀ fuel, numRegisters < fuel → executeLoop P metadata kDown fuel
        (st.load (eachWords x (maskIndices k))) = .finished st₂) ∧
      (st₁.vm.registers = st₂.vm.registers ∧ st₁.vm.savedValues = st₂.vm.savedValues ↔
        MaskAgrees k st.vm x) := by
  obtain ⟨st₁, hrun₁, hfiles₁⟩ := executeLoop_load_mask P metadata kDown x k st
  obtain ⟨st₂, hrun₂, hfiles₂⟩ :=
    executeLoop_load_eachWords P metadata kDown x (nodup_maskIndices k) st
  have hlen : (maskIndices k).length ≤ numRegisters := by
    refine (List.length_filter_le _ _).trans ?_
    exact Nat.le_of_eq List.length_finRange
  refine ⟨st₁, st₂, fun fuel hfuel => hrun₁ fuel (Nat.lt_of_le_of_lt (by decide) hfuel),
    fun fuel hfuel => hrun₂ fuel (Nat.lt_of_le_of_lt hlen hfuel), ?_⟩
  rw [← apply_masked_eq_iff, ← hfiles₁, ← hfiles₂]
  exact (@Prod.ext_iff _ _ st₁.vm.files st₂.vm.files).symm

/-- Register 0 is set to 5, saved, set to 7 and restored: by `C1000000` to 5, by `C2000001` not at
all. -/
theorem saveRestore_disagree :
    let save := [0x40000000, 0, 5, 0xC1000010, 0x40000000, 0, 7]
    let P : CheatProcess Unit := { read := fun _ _ _ => ([], ()), write := fun _ _ _ => () }
    let start : ExecState Unit := { vm := {}, process := () }
    ∃ st₁ st₂, executeLoop P {} 0 9 (start.load (save ++ [0xC1000000])) = .finished st₁ ∧
      executeLoop P {} 0 9 (start.load (save ++ [0xC2000001])) = .finished st₂ ∧
      st₁.vm.registers 0 = 5 ∧ st₂.vm.registers 0 = 7 := by
  exact ⟨_, _, rfl, rfl, rfl, rfl⟩

end Run

end RajNX.Dmnt
