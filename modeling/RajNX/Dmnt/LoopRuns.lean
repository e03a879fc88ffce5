import RajNX.Dmnt.LoopCode

/-!
# Running loops

What `DmntCheatVm::Execute` does with the documented loop `300R0000 VVVVVVVV B 310R0000`.

`LoopRuns` is what the documents promise: `B` is run `V` times, register `R` is zero afterwards, and the
registers `B` does not write are what they were. Since every loop is decoded as a loop over register 0,
with one counter and one loop top for all of them, the promise is kept exactly for `R = 0` and a body
that comes to no loop itself (`loopRuns_iff`). For another register that register is never touched. And
once a loop inside the body is entered, the end of the outer loop finds the counter at zero and the top
of the inner loop as its own: the VM goes round for ever (`Stuck`).
-/

namespace RajNX.Dmnt

attribute [local instance] neZero_nybble

section Steps

variable {σ : Type} (P : CheatProcess σ) (metadata : CheatProcessMetadata) (kDown : UInt64)

/-! ## One step -/

/-- A run from `st` comes to `st'` in `n` turns. -/
def Reaches (st : ExecState σ) (n : Nat) (st' : ExecState σ) : Prop :=
  ∀ fuel, executeLoop P metadata kDown (fuel + n) st = executeLoop P metadata kDown fuel st'

variable {P metadata kDown}

lemma Reaches.refl (st : ExecState σ) : Reaches P metadata kDown st 0 st := fun _ => rfl

lemma Reaches.trans {st st' st'' : ExecState σ} {n n' : Nat}
    (h : Reaches P metadata kDown st n st') (h' : Reaches P metadata kDown st' n' st'') :
    Reaches P metadata kDown st (n' + n) st'' := by
  intro fuel
  rw [← Nat.add_assoc, h, h']

variable {vm : DmntCheatVm}

/-- The cursor stands where it stood, whatever is under it. -/
lemma At.onto {ws : List UInt32} (h : At vm ws) (v : View σ) :
    At (v.onto vm).vm ws := h.congr rfl rfl rfl rfl

variable (P metadata kDown)

lemma reaches_instr (i : Basic) (v : View σ) (h : At vm i.toInstr.encode) :
    Reaches P metadata kDown (v.onto vm) 1
      ((i.exec P metadata kDown v).onto (vm.advance i.toInstr.encode.length)) :=
  executeLoop_instr P metadata kDown (h.onto v)
    ((i.execute P metadata kDown v).1 (vm.advance i.toInstr.encode.length))

variable {v : View σ}

/-- A block whose condition holds is entered, one level deeper. -/
lemma reaches_block_holds {c : Condition} (h : At vm c.toInstr.encode) (hc : (c.check P metadata kDown v).1 = true) :
    Reaches P metadata kDown (v.onto vm) 1 ((c.check P metadata kDown v).2.onto
      { vm.advance c.toInstr.encode.length with conditionDepth := vm.conditionDepth + 1 }) := by
  apply executeLoop_instr P metadata kDown (h.onto v)
  refine (c.execute P metadata kDown v (vm.advance c.toInstr.encode.length)).trans ?_
  rw [enterBlock, if_pos hc]
  rfl

/-- A block whose condition does not hold is skipped. -/
lemma reaches_block_skipped {c : Condition} {ws : List UInt32} (h : At vm c.toInstr.encode) (hws : WellNested ws)
    (hbody : At (vm.advance c.toInstr.encode.length) (ws ++ Instr.endCond.encode))
    (hc : (c.check P metadata kDown v).1 = false) :
    Reaches P metadata kDown (v.onto vm) 1 ((c.check P metadata kDown v).2.onto
      ((vm.advance c.toInstr.encode.length).advance
        (ws.length + Instr.endCond.encode.length))) := by
  apply executeLoop_instr P metadata kDown (h.onto v)
  refine (c.execute P metadata kDown v (vm.advance c.toInstr.encode.length)).trans ?_
  let opened : DmntCheatVm :=
    { vm.advance c.toInstr.encode.length with conditionDepth := vm.conditionDepth + 1 }
  have hopened : At ((c.check P metadata kDown v).2.onto opened).vm (ws ++ Instr.endCond.encode) :=
    hbody.congr rfl rfl rfl rfl
  have hskip := skipConditionalBlock_body hws hopened rfl
  rw [enterBlock, if_neg (by simp [hc])]
  exact congrArg (Option.map _) hskip

lemma reaches_endCond (v : View σ) (h : At vm Instr.endCond.encode) :
    Reaches P metadata kDown (v.onto vm) 1 (v.onto
      { vm.advance Instr.endCond.encode.length with conditionDepth := vm.conditionDepth - 1 }) :=
  executeLoop_instr P metadata kDown (h.onto v) rfl

variable {r : Fin 16}

/-- The start of a loop: the count goes to register 0, whatever register the loop names. -/
lemma reaches_startLoop {n : UInt32} (v : View σ) (h : At vm (startLoopWords r n)) :
    Reaches P metadata kDown (v.onto vm) 1 ((v.set 0 n.toUInt64).onto
      { vm.advance (startLoopWords r n).length with
        loopTops := Function.update vm.loopTops 0 (vm.instructionPtr + 2) }) :=
  executeLoop_decodes P metadata kDown (decodes_startLoop r n) (h.onto v) rfl

/-- The VM at the top of the loop it takes itself to be in. -/
def DmntCheatVm.atTop (vm : DmntCheatVm) : DmntCheatVm :=
  { vm with instructionPtr := vm.loopTops 0 }

/-- The end of a loop: one off register 0, and back to the top unless that makes it zero. -/
lemma reaches_endLoop (h : At vm (endLoopWords r)) :
    Reaches P metadata kDown (v.onto vm) 1 ((v.countDown 0).onto
      (if (v.countDown 0).registers 0 = 0 then vm.advance (endLoopWords r).length
        else vm.atTop)) := by
  apply executeLoop_decodes P metadata kDown (decodes_endLoop r) (h.onto v)
  by_cases hv : (v.countDown 0).registers 0 = 0
  · have hne : ((v.countDown 0).registers 0 != 0) = false := by rw [hv]; rfl
    rw [if_pos hv]
    refine congrArg some ?_
    change ExecState.mk (if (v.countDown 0).registers 0 != 0 then _ else _) _ _ _ = _
    rw [hne]
    rfl
  · have hne : ((v.countDown 0).registers 0 != 0) = true := bne_iff_ne.mpr hv
    rw [if_neg hv]
    refine congrArg some ?_
    change ExecState.mk (if (v.countDown 0).registers 0 != 0 then _ else _) _ _ _ = _
    rw [hne]
    rfl

/-! ## A sequence without loops -/

lemma View.countDown_registers (v : View σ) (r : Fin 16) :
    (v.countDown r).registers r = v.registers r - 1 := Function.update_self _ _ _

lemma View.countDown_registers_ne (v : View σ) {r x : Fin 16} (h : (r == x) = false) :
    (v.countDown r).registers x = v.registers x :=
  v.set_registers_ne _ fun h' => ne_of_beq_false h (Fin.ext (Option.some.inj h').symm)

lemma iterate_registers {f : View σ → View σ} {x : Nat}
    (hf : ∀ v, (f v).registers x = v.registers x) (n : Nat) (v : View σ) : (f^[n] v).registers x = v.registers x := by
  induction n generalizing v with
  | zero => rfl
  | succ n ih => exact (ih (f v)).trans (hf v)

/-- A walk changes no register the sequence does not write. -/
lemma Code.walk_registers (p : Code) (h : p.writes r = false) (v : View σ) :
    (p.walk P metadata kDown v).registers r = v.registers r := by
  induction p generalizing v with
  | nil => rfl
  | instr i rest ih =>
    obtain ⟨hi, hrest⟩ := Bool.or_eq_false_iff.mp h
    exact (ih hrest _).trans ((i.execute P metadata kDown v).2 r hi)
  | block c body rest ihb ih =>
    obtain ⟨hbody, hrest⟩ := Bool.or_eq_false_iff.mp h
    rw [walk_block, ih hrest]
    split
    · exact ihb hbody _
    · rfl
  | loop x n body rest ihb ih =>
    obtain ⟨h, hrest⟩ := Bool.or_eq_false_iff.mp h
    obtain ⟨hx, hbody⟩ := Bool.or_eq_false_iff.mp h
    refine (ih hrest _).trans ((iterate_registers (fun v => ?_) _ _).trans ?_)
    · exact (View.countDown_registers_ne _ hx).trans (ihb hbody v)
    · exact v.set_registers_ne _ fun h' => ne_of_beq_false hx (Fin.ext (Option.some.inj h').symm)

/-- As long as no loop is entered, a run passes over a sequence as the walk does. -/
lemma reaches_walk (p : Code) (hat : At vm p.encode) (hno : p.entersLoop P metadata kDown v = false) :
    ∃ n, Reaches P metadata kDown (v.onto vm) n
      ((p.walk P metadata kDown v).onto (vm.advance p.encode.length)) := by
  induction p generalizing v vm with
  | nil => exact ⟨0, .refl _⟩
  | instr i rest ih =>
    obtain ⟨hi, hrest⟩ := hat.append
    obtain ⟨n, hn⟩ := ih hrest hno
    refine ⟨n + 1, ?_⟩
    rw [Code.encode, List.length_append, ← DmntCheatVm.advance_advance]
    exact (reaches_instr P metadata kDown i v hi).trans hn
  | block c body rest ihb ih =>
    obtain ⟨hc, hat⟩ := hat.append
    have hwhole := hat
    rw [← List.append_assoc] at hwhole
    replace hwhole := hwhole.append.1
    obtain ⟨hbody, hat⟩ := hat.append
    obtain ⟨hend, hrest⟩ := hat.append
    rw [Code.entersLoop_block] at hno
    obtain ⟨hnobody, hnorest⟩ := Bool.or_eq_false_iff.mp hno
    rw [Code.walk_block, Code.encode, List.length_append, List.length_append, List.length_append,
      ← DmntCheatVm.advance_advance, ← DmntCheatVm.advance_advance, ← DmntCheatVm.advance_advance]
    cases hcheck : (c.check P metadata kDown v).1 with
    | true =>
      simp only [hcheck, Bool.true_and, if_true] at hnobody hnorest ⊢
      -- the body is run one level deeper, and its end comes back up
      let opened : DmntCheatVm := { vm.advance c.toInstr.encode.length with
        conditionDepth := vm.conditionDepth + 1 }
      have hopen := reaches_block_holds P metadata kDown hc hcheck
      have hbody' : At opened body.encode := hbody.congr rfl rfl rfl rfl
      have hend' : At (opened.advance body.encode.length) Instr.endCond.encode :=
        hend.congr rfl rfl rfl rfl
      obtain ⟨n, hn⟩ := ihb hbody' hnobody
      have hclose := reaches_endCond P metadata kDown
        (body.walk P metadata kDown (c.check P metadata kDown v).2) hend'
      obtain ⟨n', hn'⟩ := ih hrest hnorest
      exact ⟨_, ((hopen.trans hn).trans hclose).trans hn'⟩
    | false =>
      simp only [hcheck] at hnorest ⊢
      have hskip := reaches_block_skipped P metadata kDown hc body.wellNested hwhole hcheck
      rw [← DmntCheatVm.advance_advance] at hskip
      obtain ⟨n, hn⟩ := ih hrest hnorest
      exact ⟨_, hskip.trans hn⟩
  | loop x n body rest ihb ih => cases hno

/-! ## A loop over register 0 -/

lemma ofNat_succ_sub_one (m : Nat) : UInt64.ofNat (m + 1) - 1 = UInt64.ofNat m := by
  apply UInt64.toNat_inj.mp
  simp

/-- A pass takes one off the counter. -/
lemma Code.pass_registers (body : Code) (h : body.writes r = false) (v : View σ) :
    (body.pass P metadata kDown r v).registers r = v.registers r - 1 := by
  rw [← body.walk_registers P metadata kDown h v]
  exact View.countDown_registers _ r

lemma Code.pass_registers_ne (body : Code) {r x : Fin 16} (hx : x ≠ r) (h : body.writes x = false)
    (v : View σ) : (body.pass P metadata kDown r v).registers x = v.registers x := by
  refine (View.countDown_registers_ne _ ?_).trans (body.walk_registers P metadata kDown h v)
  exact beq_eq_false_iff_ne.mpr hx.symm

/-- One pass, from the top of the loop to behind its end if the counter has come to zero, else back
to the top. -/
lemma reaches_pass {body : Code} (hbody : body.writes 0 = false) {m : Nat} (hm : m < 2 ^ 32)
    (hat : At vm (body.encode ++ endLoopWords r)) (htop : vm.loopTops 0 = vm.instructionPtr)
    (hv : v.registers 0 = UInt64.ofNat (m + 1)) (hno : body.entersLoop P metadata kDown v = false) :
    (body.pass P metadata kDown 0 v).registers 0 = UInt64.ofNat m ∧
    ∃ n, Reaches P metadata kDown (v.onto vm) n ((body.pass P metadata kDown 0 v).onto
      (if m = 0 then vm.advance (body.encode.length + (endLoopWords r).length) else vm)) := by
  have hcount : (body.pass P metadata kDown 0 v).registers 0 = UInt64.ofNat m := by
    refine (body.pass_registers P metadata kDown hbody v).trans ?_
    change v.registers 0 - 1 = _
    rw [hv, ofNat_succ_sub_one]
  have hzero : (body.pass P metadata kDown 0 v).registers 0 = 0 ↔ m = 0 := by
    rw [hcount, ← UInt64.toNat_inj, UInt64.toNat_ofNat']
    rw [Nat.mod_eq_of_lt (by omega)]
    rfl
  obtain ⟨hatBody, hatEnd⟩ := hat.append
  obtain ⟨n, hn⟩ := reaches_walk P metadata kDown body hatBody hno
  have hend := reaches_endLoop P metadata kDown (v := body.walk P metadata kDown v) hatEnd
  have hback : (vm.advance body.encode.length).atTop = vm := by
    rw [DmntCheatVm.atTop]
    change { vm with instructionPtr := vm.loopTops 0 } = vm
    rw [htop]
  change Reaches _ _ _ _ _ ((body.pass P metadata kDown 0 v).onto
    (if (body.pass P metadata kDown 0 v).registers 0 = 0 then _ else _)) at hend
  rw [hback, DmntCheatVm.advance_advance] at hend
  simp only [hzero] at hend
  exact ⟨hcount, _, hn.trans hend⟩

/-- Back at the top after `k` passes, with more of them to come. -/
lemma reaches_top {body : Code} (hbody : body.writes 0 = false) {k m : Nat}
    (hm : k + m < 2 ^ 32)
    (hat : At vm (body.encode ++ endLoopWords r)) (htop : vm.loopTops 0 = vm.instructionPtr)
    (hv : v.registers 0 = UInt64.ofNat (k + m + 1))
    (hno : ∀ j < k, body.entersLoop P metadata kDown
      ((body.pass P metadata kDown 0)^[j] v) = false) :
    ((body.pass P metadata kDown 0)^[k] v).registers 0 = UInt64.ofNat (m + 1) ∧
    ∃ n, Reaches P metadata kDown (v.onto vm) n
      (((body.pass P metadata kDown 0)^[k] v).onto vm) := by
  induction k generalizing v with
  | zero =>
    rw [Nat.zero_add] at hv
    exact ⟨hv, 0, .refl _⟩
  | succ k ih =>
    rw [Nat.add_right_comm k 1 m] at hm hv
    obtain ⟨hcount, n, hn⟩ :=
      reaches_pass P metadata kDown hbody hm hat htop hv (hno 0 (Nat.succ_pos _))
    rw [if_neg (Nat.succ_ne_zero _)] at hn
    obtain ⟨hcount', n', hn'⟩ := ih (Nat.lt_of_succ_lt hm) hcount fun j hj =>
      hno (j + 1) (Nat.succ_lt_succ hj)
    exact ⟨hcount', _, hn.trans hn'⟩

/-- All passes: with `m + 1` of them left, from the top of the loop to behind its end. -/
lemma reaches_passes {body : Code} (hbody : body.writes 0 = false) {m : Nat}
    (hm : m < 2 ^ 32)
    (hat : At vm (body.encode ++ endLoopWords r)) (htop : vm.loopTops 0 = vm.instructionPtr)
    (hv : v.registers 0 = UInt64.ofNat (m + 1))
    (hno : ∀ k < m + 1, body.entersLoop P metadata kDown
      ((body.pass P metadata kDown 0)^[k] v) = false) :
    ∃ n, Reaches P metadata kDown (v.onto vm) n
      (((body.pass P metadata kDown 0)^[m + 1] v).onto
        (vm.advance (body.encode.length + (endLoopWords r).length))) := by
  obtain ⟨hcount, n, hn⟩ := reaches_top P metadata kDown hbody (m := 0) hm hat htop hv
    fun j hj => hno j (Nat.lt_succ_of_lt hj)
  obtain ⟨-, n', hn'⟩ := reaches_pass P metadata kDown hbody (by decide) hat htop hcount
    (hno m (Nat.lt_succ_self m))
  rw [if_pos rfl, ← Function.iterate_succ_apply' (body.pass P metadata kDown 0)] at hn'
  exact ⟨_, hn.trans hn'⟩

end Steps

/-- The words `300R0000 VVVVVVVV B 310R0000`. -/
def loopWords (r : Fin 16) (n : UInt32) (body : Code) : List UInt32 :=
  startLoopWords r n ++ (body.encode ++ endLoopWords r)

/-- What the documents promise of a loop that is all there is left of a program, whatever the state it
is come to in: the run ends, after the count was put in the register and the body was run that many
times, with one taken off after each; the register is zero then, and those the body does not write are
as they were. -/
def LoopRuns (r : Fin 16) (n : UInt32) (body : Code) : Prop :=
  ∀ {σ : Type} (P : CheatProcess σ) (metadata : CheatProcessMetadata) (kDown : UInt64)
    (st : ExecState σ), At st.vm (loopWords r n body) →
    st.vm.instructionPtr + (loopWords r n body).length = st.vm.numOpcodes →
    ∃ st', (∃ enough, ∀ fuel, enough < fuel → executeLoop P metadata kDown fuel st = .finished st') ∧
      st'.view = (body.pass P metadata kDown r)^[n.toNat] (st.view.set r n.toUInt64) ∧
      st'.vm.registers r = 0 ∧
      ∀ x : Fin 16, x ≠ r → body.writes x = false → st'.vm.registers x = st.vm.registers x

/-- In none of the passes of a loop over register 0 does the body come to a loop of its own. -/
def NeverEntersLoop (n : UInt32) (body : Code) : Prop :=
  ∀ {σ : Type} (P : CheatProcess σ) (metadata : CheatProcessMetadata) (kDown : UInt64) (v : View σ),
    ∀ k < n.toNat, body.entersLoop P metadata kDown
      ((body.pass P metadata kDown 0)^[k] (v.set 0 n.toUInt64)) = false

variable {σ : Type} {v : View σ} {r : Fin 16} {body : Code}

lemma iterate_pass_registers (P : CheatProcess σ) (metadata : CheatProcessMetadata) (kDown : UInt64)
    (hbody : body.writes r = false) {n m : Nat} (hv : v.registers r = UInt64.ofNat (n + m)) :
    ((body.pass P metadata kDown r)^[n] v).registers r = UInt64.ofNat m := by
  induction n generalizing v with
  | zero =>
    rw [Nat.zero_add] at hv
    exact hv
  | succ n ih =>
    apply ih
    rw [body.pass_registers P metadata kDown hbody, hv, Nat.add_right_comm, ofNat_succ_sub_one]

variable {n : UInt32}

/-- The promise is kept for register 0 and a body that comes to no loop. -/
lemma loopRuns_zero (hn : 0 < n) (hbody : body.writes 0 = false)
    (hno : NeverEntersLoop n body) : LoopRuns 0 n body := by
  intro σ P metadata kDown st hat hend
  obtain ⟨hstart, hat⟩ := hat.append
  obtain ⟨m, hm⟩ : ∃ m, n.toNat = m + 1 := Nat.exists_eq_succ_of_ne_zero (Nat.ne_of_gt hn)
  have hlt := n.toNat_lt
  let top : DmntCheatVm := { st.vm.advance (startLoopWords 0 n).length with
    loopTops := Function.update st.vm.loopTops 0 (st.vm.instructionPtr + 2) }
  have hcount : (st.view.set 0 n.toUInt64).registers 0 = UInt64.ofNat (m + 1) := by
    refine (Function.update_self 0 n.toUInt64 st.vm.registers).trans ?_
    rw [← hm]
    apply UInt64.toNat_inj.mp
    simp
  have htop : top.loopTops 0 = top.instructionPtr :=
    Function.update_self 0 (st.vm.instructionPtr + 2) st.vm.loopTops
  have hstep := reaches_startLoop P metadata kDown st.view hstart
  have hatTop : At top (body.encode ++ endLoopWords 0) := hat.congr rfl rfl rfl rfl
  obtain ⟨k, hk⟩ := reaches_passes P metadata kDown hbody (by omega) hatTop htop hcount
    (fun k hk => hno P metadata kDown st.view k (by omega))
  have hrun := hstep.trans hk
  rw [← hm] at hrun
  refine ⟨_, ⟨_, executeLoop_finished P metadata kDown hrun ?_⟩, rfl, ?_, ?_⟩
  · refine Eq.trans ?_ hend
    simp only [loopWords, List.length_append, ← Nat.add_assoc]
    rfl
  · exact iterate_pass_registers P metadata kDown hbody (m := 0) (hcount.trans (by rw [hm]))
  · intro x hx hxbody
    refine (iterate_registers (fun v => body.pass_registers_ne P metadata kDown hx hxbody v) _ _).trans ?_
    exact st.view.set_registers_ne _ fun h => hx (Fin.ext (Option.some.inj h))

/-! ## Where the cursor can be -/

/-- A block or a loop the cursor is in, with what comes after it. -/
inductive Scope where
  | block (rest : Code)
  | loop (r : Fin 16) (rest : Code)

def Scope.rest : Scope → Code
  | block rest => rest
  | loop _ rest => rest

def Scope.encode : Scope → List UInt32
  | block rest => Instr.endCond.encode ++ rest.encode
  | loop r rest => endLoopWords r ++ rest.encode

/-- The words that are left to a cursor in front of `p`, inside `ks`. -/
def leftWords (p : Code) (ks : List Scope) : List UInt32 := p.encode ++ ks.flatMap Scope.encode

/-- The cursor stands in front of `p`, inside `ks`; the program ends with the outermost of these, and
nothing that is left of it writes register `r`. -/
structure Within (r : Fin 16) (vm : DmntCheatVm) (p : Code) (ks : List Scope) : Prop where
  left : At vm (leftWords p ks)
  last : vm.instructionPtr + (leftWords p ks).length = vm.numOpcodes
  code : p.writes r = false
  frames : ∀ k ∈ ks, k.rest.writes r = false

variable {ks : List Scope} {vm vm' : DmntCheatVm}

/-- The position depends on the program, the pointer and the flag only. -/
lemma Within.congr {p : Code} (h : Within r vm p ks)
    (hs : vm'.decodeSuccess = vm.decodeSuccess) (hn : vm'.numOpcodes = vm.numOpcodes) (hp : vm'.program = vm.program)
    (hi : vm'.instructionPtr = vm.instructionPtr) : Within r vm' p ks where
  left := h.left.congr hs hn hp hi
  last := by rw [hi, hn]; exact h.last
  code := h.code
  frames := h.frames

/-- The loop top is the same at another depth. -/
lemma Within.at_top {p : Code} (h : Within r vm.atTop p ks)
    (hat : vm'.atTop = { vm.atTop with conditionDepth := vm'.conditionDepth }) : Within r vm'.atTop p ks := by
  rw [hat]
  exact h.congr rfl rfl rfl rfl

variable {vm : DmntCheatVm}

/-- Some words further on, if they are what is in front. -/
lemma Within.advance {p : Code} (h : Within r vm p ks) (ws : List UInt32) (p' : Code) (ks' : List Scope)
    (hws : leftWords p ks = ws ++ leftWords p' ks') (hp : p'.writes r = false)
    (hks : ∀ k ∈ ks', k.rest.writes r = false) : At vm ws ∧ Within r (vm.advance ws.length) p' ks' := by
  have hleft := h.left
  rw [hws] at hleft
  obtain ⟨hat, hat'⟩ := hleft.append
  refine ⟨hat, hat', ?_, hp, hks⟩
  have hlast := h.last
  rw [hws, List.length_append, ← Nat.add_assoc] at hlast
  exact hlast

/-- What one turn does to a cursor inside `ks`. -/
inductive Moves {σ : Type} (r : Fin 16) (v : View σ) (vm : DmntCheatVm) (ks : List Scope) :
    View σ → DmntCheatVm → Prop where
  -- along the sequence, into a block or out of one
  | along {v' vm' p' ks'} :
    Within r vm' p' ks' →
    (ks' = ks ∨ (∃ rest, ks' = .block rest :: ks) ∨ ∃ rest, ks = .block rest :: ks') →
    vm'.atTop = { vm.atTop with conditionDepth := vm'.conditionDepth } →
    v'.registers r = v.registers r →
    Moves r v vm ks v' vm'
  -- into a loop
  | enter {n vm' p' x rest} :
    Within r vm' p' (.loop x rest :: ks) →
    vm'.loopTops 0 = vm'.instructionPtr →
    Moves r v vm ks (v.set 0 n) vm'
  -- from the end of a loop back to a top
  | again {x rest ks'} :
    ks = .loop x rest :: ks' →
    (v.countDown 0).registers 0 ≠ 0 →
    Moves r v vm ks (v.countDown 0) vm.atTop
  -- past the end of a loop
  | leave {x rest ks' vm'} :
    ks = .loop x rest :: ks' →
    (v.countDown 0).registers 0 = 0 →
    Within r vm' rest ks' →
    vm'.atTop = vm.atTop →
    Moves r v vm ks (v.countDown 0) vm'

/-- One turn at a position: the program is at its end, or the cursor moves. -/
lemma Within.step {σ : Type} (P : CheatProcess σ) (metadata : CheatProcessMetadata) (kDown : UInt64) {r : Fin 16}
    {v : View σ} {vm : DmntCheatVm} {p : Code} {ks : List Scope} (h : Within r vm p ks) :
    (p = .nil ∧ ks = []) ∨ ∃ v' vm', Reaches P metadata kDown (v.onto vm) 1 (v'.onto vm') ∧
      Moves r v vm ks v' vm' := by
  cases p with
  | nil =>
    -- the sequence is over: what comes next is the end of the block or the loop it is in
    cases ks with
    | nil => exact .inl ⟨rfl, rfl⟩
    | cons k ks =>
      obtain ⟨hk, hks⟩ := List.forall_mem_cons.mp h.frames
      cases k with
      | block rest =>
        obtain ⟨hat, hw⟩ := h.advance (Instr.endCond.encode) rest (ks)
          (List.append_assoc _ _ _) hk hks
        exact .inr ⟨_, _, reaches_endCond P metadata kDown v hat,
          .along (hw.congr rfl rfl rfl rfl) (.inr (.inr ⟨rest, rfl⟩)) rfl rfl⟩
      | loop x rest =>
        obtain ⟨hat, hw⟩ := h.advance (endLoopWords x) rest (ks)
          (List.append_assoc _ _ _) hk hks
        have hend := reaches_endLoop P metadata kDown (v := v) hat
        by_cases hv : (v.countDown 0).registers 0 = 0
        · rw [if_pos hv] at hend
          exact .inr ⟨_, _, hend, .leave rfl hv hw rfl⟩
        · rw [if_neg hv] at hend
          exact .inr ⟨_, _, hend, .again rfl hv⟩
  | instr i rest =>
    obtain ⟨hi, hrest⟩ := Bool.or_eq_false_iff.mp h.code
    obtain ⟨hat, hw⟩ := h.advance (i.toInstr.encode) rest (ks)
      (List.append_assoc _ _ _) hrest h.frames
    exact .inr ⟨_, _, reaches_instr P metadata kDown i v hat,
      .along hw (.inl rfl) rfl ((i.execute P metadata kDown v).2 r hi)⟩
  | block c body rest =>
    obtain ⟨hbody, hrest⟩ := Bool.or_eq_false_iff.mp h.code
    cases hc : (c.check P metadata kDown v).1 with
    | true =>
      obtain ⟨hat, hw⟩ := h.advance (c.toInstr.encode) body
        (.block rest :: ks) (by simp [leftWords, Code.encode, Scope.encode]) hbody
        (List.forall_mem_cons.mpr ⟨hrest, h.frames⟩)
      exact .inr ⟨_, _, reaches_block_holds P metadata kDown hat hc,
        .along (hw.congr rfl rfl rfl rfl) (.inr (.inl ⟨rest, rfl⟩)) rfl rfl⟩
    | false =>
      -- the skip goes over the body and its end, which are balanced
      obtain ⟨hat, hw⟩ := h.advance (c.toInstr.encode ++ (body.encode ++ Instr.endCond.encode)) rest ks
        (by simp [leftWords, Code.encode]) hrest h.frames
      obtain ⟨hopen, hskip⟩ := hat.append
      rw [List.length_append, List.length_append, ← DmntCheatVm.advance_advance] at hw
      exact .inr ⟨_, _, reaches_block_skipped P metadata kDown hopen body.wellNested hskip hc,
        .along hw (.inl rfl) rfl rfl⟩
  | loop x n body rest =>
    obtain ⟨h', hrest⟩ := Bool.or_eq_false_iff.mp h.code
    obtain ⟨-, hbody⟩ := Bool.or_eq_false_iff.mp h'
    obtain ⟨hat, hw⟩ := h.advance (startLoopWords x n) body
      (.loop x rest :: ks) (by simp [leftWords, Code.encode, Scope.encode]) hbody
      (List.forall_mem_cons.mpr ⟨hrest, h.frames⟩)
    exact .inr ⟨_, _, reaches_startLoop P metadata kDown v hat,
      .enter (hw.congr rfl rfl rfl rfl) (Function.update_self 0 (vm.instructionPtr + 2) vm.loopTops)⟩

/-! ## A register that is not touched -/

/-- What a run keeps when nothing that is left of the program, here or at the loop top, writes `r`. -/
structure Untouched {σ : Type} (r : Fin 16) (c : UInt64) (v : View σ) (vm : DmntCheatVm) : Prop where
  here : ∃ p ks, Within r vm p ks
  top : ∃ p ks, Within r vm.atTop p ks
  value : v.registers r = c

lemma Untouched.moves (hr : r ≠ 0) {c : UInt64} {v v' : View σ} (h : Untouched r c v vm) (hm : Moves r v vm ks v' vm') :
    Untouched r c v' vm' := by
  have hset : ∀ x, (v.set 0 x).registers r = c := by
    intro x
    refine (v.set_registers_ne x fun h' => hr (Fin.ext (Option.some.inj h'))).trans h.value
  obtain ⟨p, ks₀, htop⟩ := h.top
  cases hm with
  | along hw _ hat hv => exact ⟨⟨_, _, hw⟩, ⟨p, ks₀, htop.at_top hat⟩, hv.trans h.value⟩
  | enter hw hat => exact ⟨⟨_, _, hw⟩, ⟨_, _, hw.congr rfl rfl rfl hat⟩, hset _⟩
  | again _ _ => exact ⟨⟨_, _, htop⟩, ⟨_, _, htop.congr rfl rfl rfl rfl⟩, hset _⟩
  | leave _ _ hw hat =>
    refine ⟨⟨_, _, hw⟩, ⟨p, ks₀, ?_⟩, hset _⟩
    rw [hat]
    exact htop

/-- If the run ends, the register is what it was. -/
lemma Untouched.finished {P : CheatProcess σ} {metadata : CheatProcessMetadata} {kDown : UInt64} (hr : r ≠ 0)
    {c : UInt64} {fuel : Nat} {st : ExecState σ} (h : Untouched r c v vm)
    (hrun : executeLoop P metadata kDown fuel (v.onto vm) = .finished st) : st.vm.registers r = c := by
  induction fuel generalizing v vm with
  | zero => cases hrun
  | succ fuel ih =>
    obtain ⟨p, ks, hw⟩ := h.here
    obtain ⟨rfl, rfl⟩ | ⟨v', vm', hreach, hm⟩ := hw.step P metadata kDown (v := v)
    · rw [executeLoop_end P metadata kDown hw.last] at hrun
      cases hrun
      exact h.value
    · rw [hreach] at hrun
      exact ih (h.moves hr hm) hrun

/-! ## A loop that is never left -/

/-- The loop top is that of a loop inside the outer one, over `x`, and the cursor is still inside that
loop, or has left it with the counter at zero. -/
inductive Stuck {σ : Type} (x : Fin 16) (v : View σ) (vm : DmntCheatVm) : Prop where
  | inside {p body y rest inner deeper} :
    Within 0 vm p (deeper ++ .loop y rest :: (inner ++ [.loop x .nil])) →
    Within 0 vm.atTop body (.loop y rest :: (inner ++ [.loop x .nil])) →
    Stuck x v vm
  | behind {p body y rest inner deeper} :
    v.registers 0 = 0 →
    Within 0 vm p (deeper ++ [.loop x .nil]) →
    Within 0 vm.atTop body (.loop y rest :: (inner ++ [.loop x .nil])) →
    Stuck x v vm

/-- At the top of a loop inside the outer one. -/
lemma Stuck.inside_top {x y : Fin 16} {p body rest : Code} {inner : List Scope}
    (h : Within 0 vm p (.loop y rest :: (inner ++ [.loop x .nil])))
    (htop : Within 0 vm.atTop body (.loop y rest :: (inner ++ [.loop x .nil]))) : Stuck x v vm :=
  @Stuck.inside σ x v vm p body y rest inner [] h htop

/-- Entering a loop inside the outer one is being stuck. -/
lemma Stuck.enter {σ : Type} {x y : Fin 16} {v : View σ} {vm : DmntCheatVm} {body rest : Code}
    {ks : List Scope} (h : Within 0 vm body (.loop y rest :: (ks ++ [.loop x .nil])))
    (htop : vm.loopTops 0 = vm.instructionPtr) : Stuck x v vm :=
  Stuck.inside_top h (h.congr rfl rfl rfl htop)

/-- A move along the sequence keeps the outermost frames, a loop first among them. -/
lemma along_scopes {y : Fin 16} {rest : Code} {deeper outer ks' : List Scope}
    (h : ks' = deeper ++ .loop y rest :: outer ∨
      (∃ r, ks' = .block r :: (deeper ++ .loop y rest :: outer)) ∨
      ∃ r, deeper ++ .loop y rest :: outer = .block r :: ks') :
    ∃ deeper', ks' = deeper' ++ .loop y rest :: outer := by
  obtain rfl | ⟨r, rfl⟩ | ⟨r, hr⟩ := h
  · exact ⟨deeper, rfl⟩
  · exact ⟨.block r :: deeper, rfl⟩
  · cases deeper with
    | nil => cases (List.cons.inj hr).1
    | cons k deeper => exact ⟨deeper, (List.cons.inj hr).2.symm⟩

lemma countDown_zero (h : v.registers 0 = 0) : (v.countDown 0).registers 0 ≠ 0 := by
  have hc : (v.countDown 0).registers 0 = v.registers 0 - 1 := v.countDown_registers 0
  rw [hc, h]
  decide

/-- Whoever is stuck stays stuck. -/
lemma Stuck.step {σ : Type} (P : CheatProcess σ) (metadata : CheatProcessMetadata) (kDown : UInt64)
    {x : Fin 16} {v : View σ} {vm : DmntCheatVm} (h : Stuck x v vm) :
    ∃ v' vm', Reaches P metadata kDown (v.onto vm) 1 (v'.onto vm') ∧ Stuck x v' vm' := by
  cases h with
  | @inside p body y rest inner deeper hw htop =>
    obtain ⟨-, hks⟩ | ⟨v', vm', hreach, hm⟩ := hw.step P metadata kDown (v := v)
    · simp at hks
    · refine ⟨v', vm', hreach, ?_⟩
      cases hm with
      | along hw' hks hat hv =>
        obtain ⟨deeper', rfl⟩ := along_scopes hks
        have htop' := htop.at_top hat
        exact .inside hw' htop'
      | @enter n vm' p' y' rest' hw' hat =>
        have hks : deeper ++ .loop y rest :: (inner ++ [.loop x .nil]) =
            (deeper ++ .loop y rest :: inner) ++ [.loop x .nil] := by simp
        rw [hks] at hw'
        exact .enter hw' hat
      | again _ _ => exact .inside_top htop htop
      | @leave y' rest' ks' vm' hks hv hw' hat =>
        rw [← hat] at htop
        cases deeper with
        | nil =>
          cases hks
          exact .behind hv hw' htop
        | cons k deeper =>
          cases hks
          exact .inside hw' htop
  | @behind p body y rest inner deeper hzero hw htop =>
    obtain ⟨-, hks⟩ | ⟨v', vm', hreach, hm⟩ := hw.step P metadata kDown (v := v)
    · simp at hks
    · refine ⟨v', vm', hreach, ?_⟩
      cases hm with
      | along hw' hks hat hv =>
        obtain ⟨deeper', rfl⟩ := along_scopes hks
        have htop' := htop.at_top hat
        exact .behind (hv.trans hzero) hw' htop'
      | enter hw' hat => exact .enter hw' hat
      | again _ _ => exact .inside_top htop htop
      | leave _ hv _ _ => exact absurd hv (countDown_zero hzero)

/-- No fuel is enough. -/
lemma Stuck.outOfFuel (P : CheatProcess σ) (metadata : CheatProcessMetadata)
    (kDown : UInt64) {x : Fin 16} (h : Stuck x v vm) (fuel : Nat) :
    executeLoop P metadata kDown fuel (v.onto vm) = .outOfFuel := by
  induction fuel generalizing v vm with
  | zero => rfl
  | succ fuel ih =>
    obtain ⟨v', vm', hreach, h'⟩ := h.step P metadata kDown
    rw [hreach]
    exact ih h'

/-- A walk that comes to a loop takes the VM into it. -/
lemma reaches_stuck (P : CheatProcess σ) (metadata : CheatProcessMetadata) (kDown : UInt64) (p : Code) {x : Fin 16}
    (h : Within 0 vm p (ks ++ [.loop x .nil])) (hp : p.entersLoop P metadata kDown v = true) :
    ∃ n v' vm', Reaches P metadata kDown (v.onto vm) n (v'.onto vm') ∧ Stuck x v' vm' := by
  induction p generalizing v vm ks with
  | nil => cases hp
  | instr i rest ih =>
    obtain ⟨-, hrest⟩ := Bool.or_eq_false_iff.mp h.code
    obtain ⟨hat, hw⟩ := h.advance (i.toInstr.encode) rest _
      (List.append_assoc _ _ _) hrest h.frames
    obtain ⟨n, v', vm', hreach, hstuck⟩ := ih hw hp
    exact ⟨_, v', vm', (reaches_instr P metadata kDown i v hat).trans hreach, hstuck⟩
  | block c body rest ihb ih =>
    obtain ⟨hbody, hrest⟩ := Bool.or_eq_false_iff.mp h.code
    rw [Code.entersLoop_block] at hp
    by_cases henters : ((c.check P metadata kDown v).1 &&
        body.entersLoop P metadata kDown (c.check P metadata kDown v).2) = true
    · obtain ⟨hc, henters⟩ := (Bool.and_eq_true _ _).mp henters
      obtain ⟨hat, hw⟩ := h.advance (c.toInstr.encode) body
        (.block rest :: (ks ++ [.loop x .nil])) (by simp [leftWords, Code.encode, Scope.encode])
        hbody (List.forall_mem_cons.mpr ⟨hrest, h.frames⟩)
      have hopen := reaches_block_holds P metadata kDown hat hc
      have hw' : Within 0 { vm.advance c.toInstr.encode.length with
          conditionDepth := vm.conditionDepth + 1 } body ((.block rest :: ks) ++ [.loop x .nil]) :=
        hw.congr rfl rfl rfl rfl
      obtain ⟨n, v', vm', hreach, hstuck⟩ := ihb hw' henters
      exact ⟨_, v', vm', hopen.trans hreach, hstuck⟩
    · -- the block is passed over, and the loop is behind it
      rw [Bool.not_eq_true] at henters
      rw [henters, Bool.false_or] at hp
      obtain ⟨hat, hw⟩ := h.advance ((Code.block c body .nil).encode) rest _
        (by simp [leftWords, Code.encode]) hrest h.frames
      obtain ⟨n, hpass⟩ := reaches_walk P metadata kDown (.block c body .nil) hat
        (Bool.or_eq_false_iff.mpr ⟨henters, rfl⟩)
      obtain ⟨n', v', vm', hreach, hstuck⟩ := ih hw hp
      exact ⟨_, v', vm', hpass.trans hreach, hstuck⟩
  | loop y n body rest ihb ih =>
    obtain ⟨h', hrest⟩ := Bool.or_eq_false_iff.mp h.code
    obtain ⟨-, hbody⟩ := Bool.or_eq_false_iff.mp h'
    obtain ⟨hat, hw⟩ := h.advance (startLoopWords y n) body
      (.loop y rest :: (ks ++ [.loop x .nil])) (by simp [leftWords, Code.encode, Scope.encode])
      hbody (List.forall_mem_cons.mpr ⟨hrest, h.frames⟩)
    exact ⟨_, _, _, reaches_startLoop P metadata kDown v hat,
      .enter (hw.congr rfl rfl rfl rfl) (Function.update_self 0 (vm.instructionPtr + 2) vm.loopTops)⟩

/-! ## When the promise is kept -/

/-- Where a loop over `r` stands after it is entered: in front of its body, at its top. -/
lemma within_body {r x : Fin 16} (hat : At vm (loopWords r n body))
    (hlast : vm.instructionPtr + (loopWords r n body).length = vm.numOpcodes) (hbody : body.writes x = false) :
    Within x { vm.advance (startLoopWords r n).length with
      loopTops := Function.update vm.loopTops 0 (vm.instructionPtr + 2) } body [.loop r .nil] where
  left := by
    have hleft := hat.append.2
    rw [leftWords, List.flatMap_singleton, Scope.encode, Code.encode, List.append_nil]
    exact hleft.congr rfl rfl rfl rfl
  last := by
    rw [leftWords, List.flatMap_singleton, Scope.encode, Code.encode, List.append_nil]
    rw [loopWords, List.length_append, ← Nat.add_assoc] at hlast
    exact hlast
  code := hbody
  frames := List.forall_mem_singleton.mpr rfl

/-- The promise is not kept for another register than 0: that register is never touched. -/
lemma eq_zero_of_loopRuns (hbody : body.writes r = false) (h : LoopRuns r n body) : r = 0 := by
  by_contra hr
  let P : CheatProcess Unit := { read := fun _ _ _ => ([], ()), write := fun _ _ _ => () }
  let start : ExecState Unit := ExecState.load
    { vm := { registers := fun _ => 1 }, process := () } (loopWords r n body)
  have hat : At start.vm (loopWords r n body) := ExecState.load_at _ _
  have hlast : start.vm.instructionPtr + (loopWords r n body).length = start.vm.numOpcodes :=
    Nat.zero_add _
  obtain ⟨st', ⟨enough, hrun⟩, -, hzero, -⟩ := h P {} 0 start hat hlast
  have hstep := reaches_startLoop P {} 0 start.view hat.append.1
  have hw := within_body hat hlast hbody
  have hvalue : (start.view.set 0 n.toUInt64).registers r = 1 :=
    start.view.set_registers_ne _ fun h' => hr (Fin.ext (Option.some.inj h'))
  have huntouched : Untouched r 1 (start.view.set 0 n.toUInt64) _ :=
    ⟨⟨_, _, hw⟩, ⟨_, _, hw.congr rfl rfl rfl (Function.update_self 0 2 start.vm.loopTops)⟩, hvalue⟩
  have hend := hrun (enough + 1 + 1) (by omega)
  rw [ExecState.onto_view] at hstep
  rw [hstep] at hend
  rw [huntouched.finished hr hend] at hzero
  cases hzero

/-- The promise is not kept if a pass comes to a loop: the run does not end. -/
lemma neverEntersLoop_of_loopRuns (hbody : body.writes 0 = false) (h : LoopRuns 0 n body) : NeverEntersLoop n body := by
  intro σ P metadata kDown v k hk
  by_contra henters
  rw [Bool.not_eq_false] at henters
  -- the first pass that comes to a loop
  let v₀ := v.set 0 n.toUInt64
  have hex : ∃ j, body.entersLoop P metadata kDown
      ((body.pass P metadata kDown 0)^[j] v₀) = true := ⟨k, henters⟩
  obtain ⟨j, hj, hmin, hle⟩ : ∃ j, body.entersLoop P metadata kDown
        ((body.pass P metadata kDown 0)^[j] v₀) = true ∧
      (∀ i < j, body.entersLoop P metadata kDown
        ((body.pass P metadata kDown 0)^[i] v₀) = false) ∧ j ≤ k :=
    ⟨Nat.find hex, Nat.find_spec hex, fun i hi => Bool.eq_false_iff.mpr (Nat.find_min hex hi),
      Nat.find_min' hex henters⟩
  let start : ExecState σ := (v.onto {}).load (loopWords 0 n body)
  have hat : At start.vm (loopWords 0 n body) := ExecState.load_at _ _
  have hlast : start.vm.instructionPtr + (loopWords 0 n body).length = start.vm.numOpcodes :=
    Nat.zero_add _
  obtain ⟨st', ⟨enough, hrun⟩, -⟩ := h P metadata kDown start hat hlast
  have hview : start.view = v := rfl
  have hstep := reaches_startLoop P metadata kDown start.view hat.append.1
  rw [ExecState.onto_view, hview] at hstep
  have hw := within_body hat hlast hbody
  have hlt := n.toNat_lt
  have hcount : v₀.registers 0 = UInt64.ofNat (j + (n.toNat - 1 - j) + 1) := by
    refine (Function.update_self 0 n.toUInt64 v.registers).trans ?_
    rw [show j + (n.toNat - 1 - j) + 1 = n.toNat from by omega]
    apply UInt64.toNat_inj.mp
    simp
  let top : DmntCheatVm := { start.vm.advance (startLoopWords 0 n).length with
    loopTops := Function.update start.vm.loopTops 0 (start.vm.instructionPtr + 2) }
  have hatTop : At top (body.encode ++ endLoopWords 0) := hat.append.2.congr rfl rfl rfl rfl
  obtain ⟨-, n₁, htop⟩ := reaches_top P metadata kDown hbody (by omega) hatTop
    (Function.update_self 0 2 start.vm.loopTops) hcount hmin
  have hw' : Within 0 top body ([] ++ [.loop 0 .nil]) := hw
  obtain ⟨n₂, v', vm', hreach, hstuck⟩ := reaches_stuck P metadata kDown body hw' hj
  have hend := hrun (enough + 1 + (n₂ + (n₁ + 1))) (by omega)
  rw [(hstep.trans htop).trans hreach, hstuck.outOfFuel] at hend
  cases hend

/-- The documented loop does what the documents say exactly if its register is register 0 and in none
of its passes the body comes to a loop. -/
theorem loopRuns_iff (r : Fin 16) (n : UInt32) (body : Code) (hn : 0 < n) (hbody : body.writes r = false) :
    LoopRuns r n body ↔ r = 0 ∧ NeverEntersLoop n body := by
  constructor
  · intro h
    obtain rfl := eq_zero_of_loopRuns hbody h
    exact ⟨rfl, neverEntersLoop_of_loopRuns hbody h⟩
  · rintro ⟨rfl, hno⟩
    exact loopRuns_zero hn hbody hno

/-- Three times two, added up in register 1. -/
theorem loopRuns_add : LoopRuns 0 3 (.instr (.plain (.mathImm .w4 .addition 1 1 ⟨2, by decide⟩)) .nil) :=
  (loopRuns_iff 0 3 _ (by decide) rfl).mpr ⟨rfl, fun _ _ _ _ _ _ => rfl⟩

/-- An empty loop over register 1, which held 5, leaves 5 there; and two nested loops, over registers 0
and 1, do not end. -/
theorem not_loopRuns :
    (let words := [0x40010000, 0, 5] ++ loopWords 1 1 .nil
      let vm : DmntCheatVm := { program := fun k => words.getD k 0, numOpcodes := words.length }
      let P : CheatProcess Unit := { read := fun _ _ _ => ([], ()), write := fun _ _ _ => () }
      ∃ st, execute P {} 0 7 vm () = .finished st ∧ st.vm.registers 1 = 5) ∧
    ¬ LoopRuns 1 1 .nil ∧ ¬ LoopRuns 0 2 (.loop 1 2 .nil .nil) := by
  refine ⟨⟨_, rfl, rfl⟩, fun h => absurd (eq_zero_of_loopRuns rfl h) (by decide), ?_⟩
  intro h
  let P : CheatProcess Unit := { read := fun _ _ _ => ([], ()), write := fun _ _ _ => () }
  have hnever := neverEntersLoop_of_loopRuns rfl h P {} 0
    (ExecState.view { vm := {}, process := () }) 0 (by decide)
  exact Bool.noConfusion hnever

end RajNX.Dmnt
