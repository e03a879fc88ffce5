import RajNX.Lib.Interruptible

/-!
# Memory boosts

`BoostSystemMemoryResourceLimit` of `pm_resource_manager.cpp`. Memory is taken from the application and given
to the system by two calls of the kernel, each of which may fail. Which one is first depends on the last
boost that went through, so that the memory is taken before it is given.

What the kernel will answer is part of the state.
-/

namespace RajNX.Pm

open Interruptible

/-- `ResourceLimitGroup` -/
inductive ResourceLimitGroup
  | system | application | applet
deriving Repr, DecidableEq

/-- The results of the calls: `ResultPmInvalidSize`, what the kernel returned, and an assertion that ends the
process. -/
inductive PmError
  | invalidSize
  | kernel (code : Nat)
  | abort
deriving Repr, DecidableEq

/-- What does not change after the initialization: the limits of the memory arrangement, and whether the
firmware is 5.0.0 or later. -/
structure PmConfig where
  memoryResourceLimits : ResourceLimitGroup → UInt64
  isFirmware500 : Bool

/-- The globals of the resource manager, the limits of the kernel, and what the kernel will answer. A missing
answer is a success. -/
structure ResourceState where
  resourceLimits : ResourceLimitGroup → UInt64
  systemMemoryBoostSize : UInt64
  kernelLimits : ResourceLimitGroup → UInt64
  unsafeLimit : UInt64
  answers : List (Option Nat)

/-- The procedures of the resource manager. -/
abbrev ResourceProc (α : Type) := Proc ResourceState PmError α

/-- What the kernel answers next: it fails without effect, or it has an effect. -/
def kernelAnswer (effect : ResourceState → ResourceState) (s : ResourceState) : Except PmError Unit × ResourceState :=
  match s.answers with
  | [] => (.ok (), effect s)
  | none :: answers => (.ok (), effect { s with answers := answers })
  | some code :: answers => (.error (.kernel code), { s with answers := answers })

/-- A call of the kernel. -/
def kernelCall (effect : ResourceState → ResourceState) : ResourceProc Unit := .atomic (kernelAnswer effect)

/-- `svcSetResourceLimitLimitValue` for memory -/
def svcSetResourceLimitLimitValue (group : ResourceLimitGroup) (value : UInt64) : ResourceProc Unit :=
  kernelCall fun s => { s with kernelLimits := Function.update s.kernelLimits group value }

/-- `svcSetUnsafeLimit` -/
def svcSetUnsafeLimit (value : UInt64) : ResourceProc Unit := kernelCall fun s => { s with unsafeLimit := value }

/-- Read the globals. -/
def getState : ResourceProc ResourceState := .atomic fun s => (.ok s, s)

/-- Write to the globals. -/
def modifyState (f : ResourceState → ResourceState) : ResourceProc Unit := .atomic fun s => (.ok (), f s)

/-- `R_TRY_CLEANUP` -/
def tryCleanup (p cleanup : ResourceProc Unit) : ResourceProc Unit :=
  p.attempt >>= fun
    | .ok _ => pure ()
    | .error e => cleanup >>= fun _ => .fail e

/-- `R_ASSERT` -/
def assertSuccess (p : ResourceProc Unit) : ResourceProc Unit := tryCleanup p (.fail .abort)

/-- `SetMemoryResourceLimitLimitValue` -/
def setMemoryResourceLimitLimitValue (group : ResourceLimitGroup) (newMemoryLimit : UInt64) : ResourceProc Unit := do
  let s ← getState
  let oldMemoryLimit := s.resourceLimits group
  modifyState fun s => { s with resourceLimits := Function.update s.resourceLimits group newMemoryLimit }
  let s ← getState
  tryCleanup (svcSetResourceLimitLimitValue group (s.resourceLimits group))
    (modifyState fun s => { s with resourceLimits := Function.update s.resourceLimits group oldMemoryLimit })

/-- The two calls of `BoostSystemMemoryResourceLimit`, given the boost that went through last. -/
def setBoostedLimits (config : PmConfig) (boostSize lastBoostSize : UInt64) : ResourceProc Unit :=
  let newAppSize := config.memoryResourceLimits .application - boostSize
  if config.isFirmware500 then
    -- only one of the calls may fail here
    if boostSize < lastBoostSize then do
      svcSetUnsafeLimit boostSize
      assertSuccess (setMemoryResourceLimitLimitValue .application newAppSize)
    else do
      setMemoryResourceLimitLimitValue .application newAppSize
      assertSuccess (svcSetUnsafeLimit boostSize)
  else
    let newSysSize := config.memoryResourceLimits .system + boostSize
    if boostSize < lastBoostSize then do
      setMemoryResourceLimitLimitValue .system newSysSize
      setMemoryResourceLimitLimitValue .application newAppSize
    else do
      setMemoryResourceLimitLimitValue .application newAppSize
      setMemoryResourceLimitLimitValue .system newSysSize

/-- `BoostSystemMemoryResourceLimit` -/
def boostSystemMemoryResourceLimit (config : PmConfig) (boostSize : UInt64) : ResourceProc Unit :=
  if config.memoryResourceLimits .application < boostSize then .fail .invalidSize
  else do
    let s ← getState
    setBoostedLimits config boostSize s.systemMemoryBoostSize
    modifyState fun s => { s with systemMemoryBoostSize := boostSize }

/-- A sequence of boosts, which ends with the process: every state that is visited. -/
def runBoosts (config : PmConfig) : List UInt64 → ResourceState → List ResourceState
  | [], s => [s]
  | boostSize :: boosts, s =>
    let run := (boostSystemMemoryResourceLimit config boostSize).run s
    s :: run.visited ++ (if run.result = .error .abort then [] else runBoosts config boosts run.final)

/-- The state after the initialization. -/
def initialResourceState (config : PmConfig) (unsafeLimit : UInt64) (answers : List (Option Nat)) : ResourceState where
  resourceLimits := config.memoryResourceLimits
  systemMemoryBoostSize := 0
  kernelLimits := config.memoryResourceLimits
  unsafeLimit := unsafeLimit
  answers := answers

/-! ## What is committed -/

/-- The limits that the kernel has, and the boost that is recorded. -/
structure Commitment where
  kernelLimits : ResourceLimitGroup → UInt64
  unsafeLimit : UInt64
  boostSize : UInt64

/-- What is committed in a state. -/
def ResourceState.commitment (s : ResourceState) : Commitment :=
  ⟨s.kernelLimits, s.unsafeLimit, s.systemMemoryBoostSize⟩

namespace Commitment

/-- A limit of the kernel that is set. -/
def setLimit (c : Commitment) (group : ResourceLimitGroup) (value : UInt64) : Commitment :=
  { c with kernelLimits := Function.update c.kernelLimits group value }

@[simp] lemma setLimit_kernelLimits (c : Commitment) (group : ResourceLimitGroup) (value : UInt64) :
    (c.setLimit group value).kernelLimits group = value := Function.update_self ..

/-- The application and the system, or the application and the unsafe limit, have no more than at first. -/
def WithinTotal (config : PmConfig) (unsafeLimit : UInt64) (c : Commitment) : Prop :=
  if config.isFirmware500 then
    (c.kernelLimits .application).toNat + c.unsafeLimit.toNat ≤
      (config.memoryResourceLimits .application).toNat + unsafeLimit.toNat
  else
    (c.kernelLimits .application).toNat + (c.kernelLimits .system).toNat ≤
      (config.memoryResourceLimits .application).toNat + (config.memoryResourceLimits .system).toNat

/-- A boost has been taken from the application. -/
def Taken (config : PmConfig) (boost : UInt64) (c : Commitment) : Prop :=
  (c.kernelLimits .application).toNat + boost.toNat ≤ (config.memoryResourceLimits .application).toNat

/-- No more than a boost has been given. -/
def Given (config : PmConfig) (unsafeLimit boost : UInt64) (c : Commitment) : Prop :=
  if config.isFirmware500 then c.unsafeLimit.toNat ≤ boost.toNat ∨ c.unsafeLimit = unsafeLimit
  else (c.kernelLimits .system).toNat ≤ (config.memoryResourceLimits .system).toNat + boost.toNat

/-- The invariant: what is given is covered by a boost that has been taken, which is the recorded one also if
the last call went wrong in the middle. -/
structure Covered (config : PmConfig) (unsafeLimit boost : UInt64) (c : Commitment) : Prop where
  taken : c.Taken config boost
  given : c.Given config unsafeLimit boost

variable {config : PmConfig} {unsafeLimit boost boost' : UInt64} {c : Commitment}

lemma Covered.withinTotal (h : c.Covered config unsafeLimit boost) : c.WithinTotal config unsafeLimit := by
  have htaken := h.taken
  have hgiven := h.given
  unfold Taken at htaken
  unfold Given at hgiven
  unfold WithinTotal
  split
  · next hfw =>
    rw [if_pos hfw] at hgiven
    rcases hgiven with hle | heq
    · omega
    · rw [heq]
      omega
  · next hfw =>
    rw [if_neg hfw] at hgiven
    omega

/-- Less has been taken as well. -/
lemma Taken.mono (h : c.Taken config boost) (hle : boost' ≤ boost) : c.Taken config boost' :=
  (Nat.add_le_add_left (UInt64.le_iff_toNat_le.mp hle) _).trans h

/-- No more than a larger boost has been given as well. -/
lemma Given.mono (h : c.Given config unsafeLimit boost) (hle : boost ≤ boost') : c.Given config unsafeLimit boost' := by
  have hle := UInt64.le_iff_toNat_le.mp hle
  unfold Given at h ⊢
  split
  · next hfw =>
    rw [if_pos hfw] at h
    exact h.imp_left fun h => h.trans hle
  · next hfw =>
    rw [if_neg hfw] at h
    exact h.trans (Nat.add_le_add_left hle _)

/-- Taking a boost. -/
lemma taken_setLimit (h : boost ≤ config.memoryResourceLimits .application) :
    (c.setLimit .application (config.memoryResourceLimits .application - boost)).Taken config boost := by
  rw [Taken, setLimit_kernelLimits, UInt64.toNat_sub_of_le _ _ h]
  exact Nat.le_of_eq (Nat.sub_add_cancel (UInt64.le_iff_toNat_le.mp h))

/-- Giving a boost to the system. -/
lemma given_setLimit (hfw : ¬config.isFirmware500) :
    (c.setLimit .system (config.memoryResourceLimits .system + boost)).Given config unsafeLimit boost := by
  rw [Given, if_neg hfw, setLimit_kernelLimits, UInt64.toNat_add]
  exact Nat.mod_le _ _

/-- Giving a boost to what is unsafe. -/
lemma given_unsafeLimit (hfw : config.isFirmware500) :
    ({ c with unsafeLimit := boost } : Commitment).Given config unsafeLimit boost := by
  rw [Given, if_pos hfw]
  exact .inl (Nat.le_refl _)

lemma Given.setLimit_application (h : c.Given config unsafeLimit boost) (value : UInt64) :
    (c.setLimit .application value).Given config unsafeLimit boost := h

lemma Taken.setLimit_system (h : c.Taken config boost) (value : UInt64) :
    (c.setLimit .system value).Taken config boost := h

end Commitment

section Sat

open Proc Commitment

variable {s : ResourceState} {P : Commitment → Prop} {Q : Except PmError Unit → Commitment → Prop}

lemma kernelAnswer_cases (effect : ResourceState → ResourceState) (s : ResourceState) :
    (∃ answers, kernelAnswer effect s = (.ok (), effect { s with answers := answers })) ∨
      ∃ code answers, kernelAnswer effect s = (.error (.kernel code), { s with answers := answers }) := by
  rw [kernelAnswer]
  split
  · exact .inl ⟨s.answers, rfl⟩
  · next answers _ => exact .inl ⟨answers, rfl⟩
  · next code answers _ => exact .inr ⟨code, answers, rfl⟩

/-- A procedure that changes what is committed in a certain way, or not at all if it fails. -/
def Changes (p : ResourceProc Unit) (rel : Commitment → Commitment → Prop) : Prop :=
  ∀ (s : ResourceState) (P : Commitment → Prop) (Q : Except PmError Unit → Commitment → Prop), P s.commitment →
    (∀ c, rel s.commitment c → P c ∧ Q (.ok ()) c) → (∀ e, Q (.error e) s.commitment) →
    p.Sat noFault s (fun t => P t.commitment) fun r t => Q r t.commitment

lemma changes_kernelCall {effect : ResourceState → ResourceState} {f : Commitment → Commitment}
    (heffect : ∀ (s : ResourceState) answers, (effect { s with answers := answers }).commitment = f s.commitment) :
    Changes (kernelCall effect) fun c c' => c' = f c := by
  intro s P Q hs hok herror
  have hanswer : P (kernelAnswer effect s).2.commitment ∧
      Q (kernelAnswer effect s).1 (kernelAnswer effect s).2.commitment := by
    rcases kernelAnswer_cases effect s with ⟨answers, h⟩ | ⟨code, answers, h⟩
    · rw [h, heffect]
      exact hok _ rfl
    · rw [h]
      exact ⟨hs, herror _⟩
  exact sat_atomic hanswer.1 hanswer.2 nofun

lemma changes_svcSetUnsafeLimit (value : UInt64) :
    Changes (svcSetUnsafeLimit value) fun c c' => c' = { c with unsafeLimit := value } :=
  changes_kernelCall fun _ _ => rfl

lemma changes_svcSetResourceLimitLimitValue (group : ResourceLimitGroup) (value : UInt64) :
    Changes (svcSetResourceLimitLimitValue group value) fun c c' => c' = c.setLimit group value :=
  changes_kernelCall fun _ _ => rfl

/-- A failure is followed by the cleanup. -/
lemma sat_tryCleanup {s : ResourceState} {p cleanup : ResourceProc Unit} {R : ResourceState → Prop}
    {Q : Except PmError Unit → ResourceState → Prop}
    (h : p.Sat noFault s R fun r t => (r = .ok () → Q (.ok ()) t) ∧
      ∀ e, r = .error e → (cleanup >>= fun _ => fail e : ResourceProc Unit).Sat noFault t R Q) :
    (tryCleanup p cleanup).Sat noFault s R Q := by
  refine sat_bind (sat_attempt (h.mono (fun _ hR => hR) fun r t hr => ⟨fun r' hr' => ?_, nofun⟩))
  cases hr'
  cases r with
  | ok _ => exact sat_pure (hr.1 rfl)
  | error e => exact hr.2 e rfl

/-- Only the table of the process is cleaned up. -/
lemma changes_tryCleanup {p : ResourceProc Unit} {rel : Commitment → Commitment → Prop} (h : Changes p rel)
    (cleanup : ResourceProc Unit) (hcleanup : ∀ e, Changes (cleanup >>= fun _ => fail e) fun _ _ => False) :
    Changes (tryCleanup p cleanup) rel := by
  intro s P Q hs hok herror
  refine sat_tryCleanup ((h s P (fun r c => (r = .ok () → Q (.ok ()) c) ∧
    ∀ e, r = .error e → P c ∧ ∀ e, Q (.error e) c) hs ?_ fun e => ⟨nofun, fun _ _ => ⟨hs, herror⟩⟩).mono
      (fun _ h => h) ?_)
  · intro c hrel
    obtain ⟨hP, hQ⟩ := hok c hrel
    exact ⟨hP, fun _ => hQ, nofun⟩
  · intro r t hr
    refine ⟨hr.1, fun e he => ?_⟩
    obtain ⟨hP, hQ⟩ := hr.2 e he
    exact hcleanup e t P Q hP (fun c hc => hc.elim) hQ

lemma changes_assertSuccess {p : ResourceProc Unit} {rel : Commitment → Commitment → Prop} (h : Changes p rel) :
    Changes (assertSuccess p) rel :=
  changes_tryCleanup h _ fun _ _ _ _ _ _ herror => herror _

/-- A limit is set, or nothing changes. -/
lemma changes_setMemoryResourceLimitLimitValue (group : ResourceLimitGroup) (value : UInt64) :
    Changes (setMemoryResourceLimitLimitValue group value) fun c c' => c' = c.setLimit group value := by
  intro s P Q hs hok herror
  have hvalue : Function.update s.resourceLimits group value group = value := Function.update_self ..
  have hcall := changes_tryCleanup
    (changes_svcSetResourceLimitLimitValue group (Function.update s.resourceLimits group value group))
    (modifyState fun t =>
      { t with resourceLimits := Function.update t.resourceLimits group (s.resourceLimits group) })
    fun e t P Q hP _ herror => ⟨hP, herror e, nofun⟩
  refine ⟨hs, ⟨hs, ⟨hs, hcall _ P Q hs (fun c hc => hok c ?_) herror, nofun⟩, nofun⟩, nofun⟩
  rw [hvalue] at hc
  exact hc

variable {s : ResourceState} {config : PmConfig} {unsafeLimit boost last : UInt64}

/-- What two calls leave: the boost is covered if both go through, and the last one if not. -/
structure BoostOutcome (config : PmConfig) (unsafeLimit boost : UInt64) (c : Commitment) (r : Except PmError Unit)
    (c' : Commitment) : Prop where
  boostSize_eq : c'.boostSize = c.boostSize
  ok : r = .ok () → c'.Covered config unsafeLimit boost
  error : ∀ e, r = .error e → c'.Covered config unsafeLimit c.boostSize

/-- Two calls, with the last boost still covered in between. -/
lemma sat_twoCalls {p p' : ResourceProc Unit} {rel rel' : Commitment → Commitment → Prop} (hp : Changes p rel)
    (hp' : Changes p' rel') (hs : s.commitment.Covered config unsafeLimit s.commitment.boostSize)
    (hmid : ∀ c, rel s.commitment c → c.boostSize = s.commitment.boostSize ∧
      c.Covered config unsafeLimit s.commitment.boostSize ∧
      ∀ c', rel' c c' → c'.boostSize = c.boostSize ∧ c'.Covered config unsafeLimit boost) :
    (p >>= fun _ => p').Sat noFault s (fun t => t.commitment.WithinTotal config unsafeLimit)
      fun r t => BoostOutcome config unsafeLimit boost s.commitment r t.commitment := by
  have hsecond : ∀ t : ResourceState, rel s.commitment t.commitment →
      p'.Sat noFault t (fun t => t.commitment.WithinTotal config unsafeLimit)
        fun r t => BoostOutcome config unsafeLimit boost s.commitment r t.commitment := by
    intro t ht
    obtain ⟨hsize, hcovered, hnext⟩ := hmid _ ht
    refine hp' t _ (BoostOutcome config unsafeLimit boost s.commitment) hcovered.withinTotal ?_
      fun e => ⟨hsize, nofun, fun _ _ => hcovered⟩
    intro c' hc'
    obtain ⟨hsize', hcovered'⟩ := hnext c' hc'
    exact ⟨hcovered'.withinTotal, hsize'.trans hsize, fun _ => hcovered', nofun⟩
  refine sat_bind ((hp s (fun c => c.WithinTotal config unsafeLimit)
    (fun r c => (∀ a, r = .ok a → rel s.commitment c) ∧ ∀ e, r = .error e → c = s.commitment)
    hs.withinTotal ?_ fun e => ⟨nofun, fun _ _ => rfl⟩).mono (fun _ h => h) ?_)
  · intro c hc
    exact ⟨(hmid c hc).2.1.withinTotal, fun _ _ => hc, nofun⟩
  · intro r t hr
    refine ⟨fun a ha => hsecond t (hr.1 a ha), fun e he => ?_⟩
    rw [hr.2 e he]
    exact ⟨rfl, nofun, fun _ _ => hs⟩

/-- The order of the calls: a smaller boost is given first, a larger one is taken first. -/
lemma sat_setBoostedLimits (hle : boost ≤ config.memoryResourceLimits .application)
    (hs : s.commitment.Covered config unsafeLimit s.commitment.boostSize) :
    (setBoostedLimits config boost s.commitment.boostSize).Sat noFault s
      (fun t => t.commitment.WithinTotal config unsafeLimit)
      fun r t => BoostOutcome config unsafeLimit boost s.commitment r t.commitment := by
  rw [setBoostedLimits]
  dsimp only
  split
  · next hfw =>
    split
    · next hlt =>
      refine sat_twoCalls (changes_svcSetUnsafeLimit _)
        (changes_assertSuccess (changes_setMemoryResourceLimitLimitValue _ _)) hs ?_
      rintro c rfl
      have hgiven : ({ s.commitment with unsafeLimit := boost } : Commitment).Given config unsafeLimit boost :=
        given_unsafeLimit hfw
      refine ⟨rfl, ⟨hs.taken, hgiven.mono (UInt64.le_of_lt hlt)⟩, ?_⟩
      rintro c' rfl
      exact ⟨rfl, taken_setLimit hle, hgiven.setLimit_application _⟩
    · next hge =>
      refine sat_twoCalls (changes_setMemoryResourceLimitLimitValue _ _)
        (changes_assertSuccess (changes_svcSetUnsafeLimit _)) hs ?_
      rintro c rfl
      have htaken := taken_setLimit (c := s.commitment) hle
      refine ⟨rfl, ⟨htaken.mono (UInt64.not_lt.mp hge), hs.given.setLimit_application _⟩, ?_⟩
      rintro c' rfl
      exact ⟨rfl, htaken, given_unsafeLimit hfw⟩
  · next hfw =>
    split
    · next hlt =>
      refine sat_twoCalls (changes_setMemoryResourceLimitLimitValue _ _)
        (changes_setMemoryResourceLimitLimitValue _ _) hs ?_
      rintro c rfl
      have hgiven : (s.commitment.setLimit .system (config.memoryResourceLimits .system + boost)).Given config
          unsafeLimit boost := given_setLimit hfw
      refine ⟨rfl, ⟨hs.taken.setLimit_system _, hgiven.mono (UInt64.le_of_lt hlt)⟩, ?_⟩
      rintro c' rfl
      exact ⟨rfl, taken_setLimit hle, hgiven.setLimit_application _⟩
    · next hge =>
      refine sat_twoCalls (changes_setMemoryResourceLimitLimitValue _ _)
        (changes_setMemoryResourceLimitLimitValue _ _) hs ?_
      rintro c rfl
      have htaken := taken_setLimit (c := s.commitment) hle
      refine ⟨rfl, ⟨htaken.mono (UInt64.not_lt.mp hge), hs.given.setLimit_application _⟩, ?_⟩
      rintro c' rfl
      exact ⟨rfl, htaken.setLimit_system _, given_setLimit hfw⟩

/-- One boost keeps the recorded boost covered, whatever the kernel answers. -/
lemma sat_boostSystemMemoryResourceLimit (boost : UInt64)
    (hs : s.commitment.Covered config unsafeLimit s.commitment.boostSize) :
    (boostSystemMemoryResourceLimit config boost).Sat noFault s
      (fun t => t.commitment.WithinTotal config unsafeLimit)
      fun _ t => t.commitment.Covered config unsafeLimit t.commitment.boostSize := by
  rw [boostSystemMemoryResourceLimit]
  split
  · exact sat_fail hs
  · next hle =>
    have hlimits := sat_setBoostedLimits (UInt64.not_lt.mp hle) hs
    refine ⟨hs.withinTotal, sat_bind (p := setBoostedLimits config boost s.systemMemoryBoostSize)
      (hlimits.mono (fun _ h => h) fun r t hr => ⟨fun a ha => ?_, fun e he => ?_⟩), nofun⟩
    · have hcovered := hr.ok ha
      exact ⟨hcovered.withinTotal, ⟨hcovered.taken, hcovered.given⟩, nofun⟩
    · rw [hr.boostSize_eq]
      exact hr.error e he

lemma runBoosts_withinTotal {boosts : List UInt64}
    (hs : s.commitment.Covered config unsafeLimit s.commitment.boostSize) :
    ∀ t ∈ runBoosts config boosts s, t.commitment.WithinTotal config unsafeLimit := by
  induction boosts generalizing s with
  | nil =>
    intro t ht
    rw [List.mem_singleton.mp ht]
    exact hs.withinTotal
  | cons boost boosts ih =>
    obtain ⟨hvisited, hfinal⟩ := (sat_boostSystemMemoryResourceLimit boost hs).run
    intro t ht
    rw [runBoosts, List.cons_append, List.mem_cons, List.mem_append] at ht
    rcases ht with rfl | ht | ht
    · exact hs.withinTotal
    · exact hvisited t ht
    · split at ht
      · cases ht
      · exact ih hfinal t ht

end Sat

/-- Boosts of any sizes, with calls of the kernel that fail or not: after every one of them no more is committed
than at first. -/
theorem runBoosts_never_overcommits (config : PmConfig) (unsafeLimit : UInt64) (answers : List (Option Nat))
    (boosts : List UInt64) :
    ∀ t ∈ runBoosts config boosts (initialResourceState config unsafeLimit answers), if config.isFirmware500 then
        (t.kernelLimits .application).toNat + t.unsafeLimit.toNat ≤
          (config.memoryResourceLimits .application).toNat + unsafeLimit.toNat
      else
        (t.kernelLimits .application).toNat + (t.kernelLimits .system).toNat ≤
          (config.memoryResourceLimits .application).toNat + (config.memoryResourceLimits .system).toNat := by
  have hcovered : (initialResourceState config unsafeLimit answers).commitment.Covered config unsafeLimit 0 := by
    refine ⟨Nat.le_refl _, ?_⟩
    rw [Commitment.Given]
    split
    · exact .inr rfl
    · exact Nat.le_refl _
  exact runBoosts_withinTotal hcovered

section Example

/-- An application that may have 0x100 bytes and a system that may have 0x80. -/
def exampleConfig : PmConfig where
  memoryResourceLimits
    | .application => 0x100
    | .system => 0x80
    | .applet => 0
  isFirmware500 := false

/-- The states of a boost of 0x10 bytes whose calls all succeed. -/
def exampleBoosts : List ResourceState := runBoosts exampleConfig [0x10] (initialResourceState exampleConfig 0 [])

lemma exampleBoosts_ne_nil : exampleBoosts ≠ [] := List.cons_ne_nil _ _

end Example

/-- A boost that has gone through has given the system what it has taken from the application. -/
theorem runBoosts_never_overcommits_boosted :
    (exampleBoosts.getLast exampleBoosts_ne_nil).kernelLimits .system = 0x90 ∧
      ((exampleBoosts.getLast exampleBoosts_ne_nil).kernelLimits .application).toNat +
        ((exampleBoosts.getLast exampleBoosts_ne_nil).kernelLimits .system).toNat ≤ 0x180 :=
  ⟨by decide, runBoosts_never_overcommits exampleConfig 0 [] [0x10] _ (List.getLast_mem exampleBoosts_ne_nil)⟩

end RajNX.Pm
