import Mathlib.Logic.Relation
import RajNX.Pm.ProcessManager

/-!
# Runs of the process manager

The steps of the tracking thread and of the sessions in any order, and what holds after any of them: there is at
most one application in the list, and what is outstanding is what the processes in the list have, apart from a
launch that is going on.
-/

namespace RajNX.Pm

/-- One step of the tracking thread or of a session. A request that fails changes nothing, and is no step. -/
inductive Step (fw : FirmwareVersion) : PmState → PmState → Prop
  | launch {s : PmState} {launch : Launch} (h : s.tracker = .waiting) :
    Step fw s { s with tracker := .launching launch .found }
  | applicationRunning {s : PmState} {launch : Launch} (h : s.tracker = .launching launch .found)
      (happ : launch.programInfo.isApplication) (hlock : s.starting = none) (hhas : s.hasApplicationProcess) :
    Step fw s { s with tracker := .waiting }
  | check {s : PmState} {launch : Launch} (h : s.tracker = .launching launch .found)
      (hcheck : launch.programInfo.isApplication → s.starting = none ∧ s.hasApplicationProcess = false) :
    Step fw s { s with tracker := .launching launch .checked }
  | pinFails {s : PmState} {launch : Launch} (h : s.tracker = .launching launch .checked) :
    Step fw s { s with tracker := .waiting }
  | pin {s : PmState} {launch : Launch} {pinId : Nat} (h : s.tracker = .launching launch .checked)
      (hnew : .pin pinId ∉ s.ledger.outstanding) :
    Step fw s { s with
      tracker := .launching launch (.pinned pinId), ledger := s.ledger.acquire (.pin pinId) }
  | createFails {s : PmState} {launch : Launch} {pinId : Nat} (h : s.tracker = .launching launch (.pinned pinId)) :
    Step fw s { s with tracker := .waiting, ledger := s.ledger.release (.pin pinId) }
  | create {s : PmState} {launch : Launch} {pinId handle processId : Nat}
      (h : s.tracker = .launching launch (.pinned pinId)) (hnew : .handle handle ∉ s.ledger.outstanding)
      (hid : s.infos processId = none) :
    Step fw s (s.makeInfo launch pinId handle processId)
  | fsRegisterFails {s : PmState} {launch : Launch} {processId : Nat}
      (h : s.tracker = .launching launch (.created processId)) :
    Step fw s (s.abandon processId)
  | fsRegister {s : PmState} {launch : Launch} {processId : Nat}
      (h : s.tracker = .launching launch (.created processId)) :
    Step fw s { s with
      tracker := .launching launch (.fsRegistered processId), ledger := s.ledger.acquire (.fs processId) }
  | smRegisterFails {s : PmState} {launch : Launch} {processId : Nat}
      (h : s.tracker = .launching launch (.fsRegistered processId)) :
    Step fw s (s.abandon processId)
  | smRegister {s : PmState} {launch : Launch} {processId : Nat}
      (h : s.tracker = .launching launch (.fsRegistered processId)) :
    Step fw s { s with
      tracker := .launching launch (.smRegistered processId), ledger := s.ledger.acquire (.sm processId) }
  | setFlags {s : PmState} {launch : Launch} {processId : Nat}
      (h : s.tracker = .launching launch (.smRegistered processId)) :
    Step fw s (s.setFlags fw launch processId)
  | titleIdHook {s : PmState} {launch : Launch} {processId : Nat}
      (h : s.tracker = .launching launch (.flagged processId)) (hhook : launch.programInfo.titleId = s.titleIdHook) :
    Step fw s { s with tracker := .launching launch (.started processId), titleIdHook := 0 }
  | applicationHook {s : PmState} {launch : Launch} {processId : Nat}
      (h : s.tracker = .launching launch (.flagged processId)) (hne : launch.programInfo.titleId ≠ s.titleIdHook)
      (hhook : launch.programInfo.isApplication ∧ s.applicationHook) :
    Step fw s { s with tracker := .launching launch (.started processId), applicationHook := false }
  | startSuspended {s : PmState} {launch : Launch} {processId : Nat}
      (h : s.tracker = .launching launch (.flagged processId)) (hne : launch.programInfo.titleId ≠ s.titleIdHook)
      (hnone : ¬(launch.programInfo.isApplication ∧ s.applicationHook))
      (hsuspended : shouldStartSuspended fw launch.flags) :
    Step fw s { s with tracker := .launching launch (.started processId) }
  | startFails {s : PmState} {launch : Launch} {processId : Nat}
      (h : s.tracker = .launching launch (.flagged processId)) (hne : launch.programInfo.titleId ≠ s.titleIdHook)
      (hnone : ¬(launch.programInfo.isApplication ∧ s.applicationHook))
      (hsuspended : ¬shouldStartSuspended fw launch.flags) :
    Step fw s (s.abandon processId)
  | start {s : PmState} {launch : Launch} {processId : Nat}
      (h : s.tracker = .launching launch (.flagged processId)) (hne : launch.programInfo.titleId ≠ s.titleIdHook)
      (hnone : ¬(launch.programInfo.isApplication ∧ s.applicationHook))
      (hsuspended : ¬shouldStartSuspended fw launch.flags) :
    Step fw s { s.modifyInfo processId ({ · with state := .running }) with
      tracker := .launching launch (.started processId) }
  | add {s : PmState} {launch : Launch} {processId : Nat}
      (h : s.tracker = .launching launch (.started processId)) (hlock : s.starting = none) :
    Step fw s (s.addProcess processId)
  | signal {s : PmState} {processId : Nat} {info : ProcessInfo} (h : s.tracker = .waiting)
      (hwaiter : processId ∈ s.waiters) (hinfo : s.infos processId = some info) (hopen : info.handle.isSome) :
    Step fw s { s with tracker := .notified processId info.state }
  | update {s : PmState} {processId : Nat} {oldState newState : ProcessState}
      (h : s.tracker = .notified processId oldState) :
    Step fw s (s.updateState processId oldState newState)
  | handle {s : PmState} {processId : Nat} {info : ProcessInfo} {oldState : ProcessState}
      (h : s.tracker = .signaled processId oldState) (hinfo : s.infos processId = some info) :
    Step fw s (s.handleState fw processId info oldState)
  | exit {s : PmState} {processId : Nat} (h : s.tracker = .exited processId) (hlock : s.starting = none) :
    Step fw s ((s.cleanupProcess fw processId).stopWaiting processId)
  | startProcess {s s' : PmState} {processId : Nat} (hlock : s.starting = none)
      (h : s.startProcess processId = .ok s') :
    Step fw s s'
  | finishStart {s : PmState} {processId : Nat} (h : s.starting = some processId) :
    Step fw s (s.finishStart processId)
  | terminateProcess {s s' : PmState} {processId : Nat} (hlock : s.starting = none)
      (h : s.terminateProcess processId = .ok s') :
    Step fw s s'
  | getProcessEventInfo {s : PmState} (hlock : s.starting = none) : Step fw s (s.getProcessEventInfo fw).1
  | popDeadProcess {s : PmState} (h : 0 < s.asking) : Step fw s (s.popDeadProcess fw).1
  | cleanupProcess {s s' : PmState} {processId : Nat} (hlock : s.starting = none)
      (h : s.cleanupProcessRequest fw processId = .ok s') :
    Step fw s s'
  | clearExceptionOccurred {s s' : PmState} {processId : Nat} (hlock : s.starting = none)
      (h : s.clearExceptionOccurred processId = .ok s') :
    Step fw s s'
  | hookToCreateProcess {s s' : PmState} {titleId : Nat} (h : s.hookToCreateProcess titleId = .ok s') : Step fw s s'
  | hookToCreateApplicationProcess {s s' : PmState} (h : s.hookToCreateApplicationProcess = .ok s') : Step fw s s'
  | clearHook {s : PmState} {which : UInt32} : Step fw s (s.clearHook which)

/-- The states that a run can reach. -/
def Reachable (fw : FirmwareVersion) (s : PmState) : Prop := Relation.ReflTransGen (Step fw) .initial s

/-! ## The invariants -/

namespace Tracker

/-- The process of a launch, when it has been made. -/
def launched : Tracker → Option Nat
  | .launching _ (.created processId) | .launching _ (.fsRegistered processId)
  | .launching _ (.smRegistered processId) | .launching _ (.flagged processId)
  | .launching _ (.started processId) => some processId
  | _ => none

/-- What `Cleanup` would release that has not been acquired yet. -/
def missing : Tracker → List Resource
  | .launching _ (.created processId) => [.fs processId, .sm processId]
  | .launching _ (.fsRegistered processId) => [.sm processId]
  | _ => []

/-- What has been acquired before there is an object for it. -/
def unowned : Tracker → List Resource
  | .launching _ (.pinned pinId) => [.pin pinId]
  | _ => []

/-- An application has passed the check. -/
def admitsApplication : Tracker → Bool
  | .launching _ .found => false
  | .launching launch _ => launch.programInfo.isApplication
  | _ => false

/-- The process whose signal is being handled. -/
def handled : Tracker → Option Nat
  | .notified processId _ | .signaled processId _ => some processId
  | .exited processId => some processId
  | _ => none

end Tracker

namespace PmState

/-- What a process has. -/
def resourcesOf (s : PmState) (processId : Nat) : List Resource :=
  match s.infos processId with
  | some info => info.resources processId
  | none => []

/-- A list, a thread or a session knows the process. -/
def Refers (s : PmState) (processId : Nat) : Prop :=
  processId ∈ s.processList ∨ processId ∈ s.deadProcessList ∨ processId ∈ s.waiters ∨
    s.starting = some processId ∨ s.tracker.handled = some processId

/-- What is outstanding is what the processes have that are in the list or are being launched, and nothing has
been released twice. -/
structure Books (s : PmState) : Prop where
  outstanding_iff : ∀ r, r ∈ s.ledger.outstanding ↔
    (∃ processId, r ∈ s.resourcesOf processId ∧ r ∉ s.tracker.missing) ∨ r ∈ s.tracker.unowned
  apart : ∀ p q r, r ∈ s.resourcesOf p → r ∈ s.resourcesOf q → p = q
  unowned_apart : ∀ p r, r ∈ s.tracker.unowned → r ∉ s.resourcesOf p
  open_iff : ∀ p, s.resourcesOf p ≠ [] ↔ p ∈ s.processList ∨ s.tracker.launched = some p
  nodup : s.processList.Nodup
  known : ∀ p, s.Refers p → s.infos p ≠ none ∧ s.tracker.launched ≠ some p
  released : ∀ p, .fs p ∈ s.ledger.released ∨ .sm p ∈ s.ledger.released → s.infos p ≠ none ∧ s.resourcesOf p = []
  sound : s.ledger.Sound

/-- There is at most one application, in the list or being launched. -/
structure Applications (s : PmState) : Prop where
  unique : ∀ p ∈ s.processList, ∀ q ∈ s.processList, s.isApplication p → s.isApplication q → p = q
  alone : s.tracker.admitsApplication → ∀ p ∈ s.processList, ¬s.isApplication p
  launched : ∀ p, s.tracker.launched = some p → s.isApplication p → s.tracker.admitsApplication

/-! ## Changes -/

section Changes

variable {s s' : PmState} {p q : Nat} {r : Resource} {f : ProcessInfo → ProcessInfo}

/-- The objects after a change of one of them. -/
lemma infos_modifyInfo : (s.modifyInfo p f).infos q = if q = p then (s.infos p).map f else s.infos q :=
  Function.update_apply _ _ _ _

lemma infos_modifyInfo_eq_none : (s.modifyInfo p f).infos q = none ↔ s.infos q = none := by
  rw [infos_modifyInfo]
  split
  · next hq => rw [Option.map_eq_none_iff, hq]
  · exact Iff.rfl

/-- A change that leaves the handle and the pin alone. -/
lemma resourcesOf_modifyInfo (hf : ∀ info, (f info).handle = info.handle ∧ (f info).pinId = info.pinId) :
    (s.modifyInfo p f).resourcesOf q = s.resourcesOf q := by
  rw [resourcesOf, resourcesOf, infos_modifyInfo]
  split_ifs with hq
  · subst hq
    cases s.infos q with
    | none => rfl
    | some info =>
      obtain ⟨hhandle, hpin⟩ := hf info
      simp only [Option.map_some, ProcessInfo.resources, hhandle, hpin]
  · rfl

/-- A change that leaves the application flag alone. -/
lemma isApplication_modifyInfo (hf : ∀ info, (f info).flags.application = info.flags.application) :
    (s.modifyInfo p f).isApplication q = s.isApplication q := by
  rw [isApplication, isApplication, infos_modifyInfo]
  split_ifs with hq
  · subst hq
    cases s.infos q with
    | none => rfl
    | some info => exact hf info
  · rfl

/-- An object that has something has everything. -/
lemma resourcesOf_cases (p : Nat) : s.resourcesOf p = [] ∨
    ∃ info h, s.infos p = some info ∧ info.handle = some h ∧
      s.resourcesOf p = [.fs p, .sm p, .pin info.pinId, .handle h] := by
  rw [resourcesOf]
  cases hinfo : s.infos p with
  | none => exact .inl rfl
  | some info =>
    cases hhandle : info.handle with
    | none =>
      refine .inl ?_
      simp only [ProcessInfo.resources, hhandle]
    | some h =>
      refine .inr ⟨info, h, rfl, hhandle, ?_⟩
      simp only [ProcessInfo.resources, hhandle]

/-- What has a handle is registered. -/
lemma ids_mem_resourcesOf (h : s.resourcesOf p ≠ []) : .fs p ∈ s.resourcesOf p ∧ .sm p ∈ s.resourcesOf p := by
  obtain h' | ⟨info, handle, -, -, heq⟩ := s.resourcesOf_cases p
  · exact absurd h' h
  · rw [heq]
    exact ⟨.head _, .tail _ (.head _)⟩

/-- The registrations of a process are those of its own id. -/
lemma eq_of_id_mem (h : .fs q ∈ s.resourcesOf p ∨ .sm q ∈ s.resourcesOf p) : q = p := by
  obtain h' | ⟨info, handle, -, -, heq⟩ := s.resourcesOf_cases p
  · simp [h'] at h
  · rw [heq] at h
    simpa using h

/-- Nothing is acquired twice for one object. -/
lemma nodup_resourcesOf (p : Nat) : (s.resourcesOf p).Nodup := by
  obtain h | ⟨info, handle, -, -, heq⟩ := s.resourcesOf_cases p
  · rw [h]
    exact List.nodup_nil
  · rw [heq]
    simp

/-- What has something is an object. -/
lemma infos_ne_none (h : s.resourcesOf p ≠ []) : s.infos p ≠ none := by
  intro hnone
  rw [resourcesOf, hnone] at h
  exact h rfl

/-- There is nothing to clean up for an object that has nothing. -/
lemma cleanup_eq_self (h : s.resourcesOf p = []) : s.cleanup p = s := by
  rw [resourcesOf] at h
  rw [cleanup]
  cases hinfo : s.infos p with
  | none => rfl
  | some info =>
    rw [hinfo] at h
    cases hhandle : info.handle with
    | none => simp only [hhandle, Option.isSome_none, Bool.false_eq_true, if_false]
    | some handle => simp [ProcessInfo.resources, hhandle] at h

/-- What has been acquired for the object is released, and the object has no handle. -/
lemma cleanup_eq (p : Nat) : s.cleanup p =
    { s.modifyInfo p ({ · with handle := none }) with ledger := s.ledger.releaseAll (s.resourcesOf p) } := by
  obtain h | ⟨info, handle, hinfo, hhandle, -⟩ := s.resourcesOf_cases p
  · have hinfos : Function.update s.infos p ((s.infos p).map ({ · with handle := none })) = s.infos := by
      refine Function.update_eq_self_iff.mpr ?_
      rw [resourcesOf] at h
      cases hinfo : s.infos p with
      | none => rfl
      | some info =>
        rw [hinfo] at h
        cases hhandle : info.handle with
        | none => rw [Option.map_some, ← hhandle]
        | some handle => simp [ProcessInfo.resources, hhandle] at h
    rw [cleanup_eq_self h, h, modifyInfo, hinfos]
    rfl
  · rw [cleanup, hinfo]
    dsimp only
    rw [if_pos (by rw [hhandle]; rfl), resourcesOf, hinfo]

/-- `Cleanup` takes everything from one object. -/
lemma resourcesOf_cleanup : (s.cleanup p).resourcesOf q = if q = p then [] else s.resourcesOf q := by
  rw [cleanup_eq, resourcesOf]
  dsimp only
  rw [infos_modifyInfo]
  split_ifs with hq
  · cases s.infos p with
    | none => rfl
    | some info => rfl
  · rfl

/-- `Cleanup` releases what the object had. -/
lemma ledger_cleanup : (s.cleanup p).ledger = s.ledger.releaseAll (s.resourcesOf p) := by rw [cleanup_eq]

/-- No object goes away. -/
lemma infos_cleanup_eq_none : (s.cleanup p).infos q = none ↔ s.infos q = none := by
  rw [cleanup_eq]
  exact infos_modifyInfo_eq_none

@[simp] lemma processList_cleanup : (s.cleanup p).processList = s.processList := by
  rw [cleanup_eq]
  rfl

@[simp] lemma deadProcessList_cleanup : (s.cleanup p).deadProcessList = s.deadProcessList := by
  rw [cleanup_eq]
  rfl

@[simp] lemma waiters_cleanup : (s.cleanup p).waiters = s.waiters := by
  rw [cleanup_eq]
  rfl

@[simp] lemma starting_cleanup : (s.cleanup p).starting = s.starting := by
  rw [cleanup_eq]
  rfl

@[simp] lemma tracker_cleanup : (s.cleanup p).tracker = s.tracker := by
  rw [cleanup_eq]
  rfl

/-- `Cleanup` leaves lists, threads and sessions. -/
lemma refers_cleanup : (s.cleanup p).Refers q ↔ s.Refers q := by
  rw [Refers, Refers, processList_cleanup, deadProcessList_cleanup, waiters_cleanup, starting_cleanup, tracker_cleanup]

/-- Only what the tracking thread handles is new. -/
lemma Refers.of_tracker {t : Tracker} (h : { s with tracker := t }.Refers q) (ht : t.handled = some q → s.Refers q) :
    s.Refers q := by
  rcases h with h | h | h | h | h
  · exact .inl h
  · exact .inr (.inl h)
  · exact .inr (.inr (.inl h))
  · exact .inr (.inr (.inr (.inl h)))
  · exact ht h

/-- `Cleanup` leaves the flags. -/
lemma isApplication_cleanup : (s.cleanup p).isApplication q = s.isApplication q := by
  rw [cleanup_eq]
  exact isApplication_modifyInfo fun _ => rfl

end Changes

/-! ## The books -/

section Books

variable {fw : FirmwareVersion} {s s' : PmState} {p q : Nat} {r : Resource}

/-- What the books are about is the same. -/
lemma Books.congr (h : s.Books) (hinfos : ∀ q, s'.infos q = none ↔ s.infos q = none)
    (hresources : ∀ q, s'.resourcesOf q = s.resourcesOf q) (hlist : s'.processList = s.processList)
    (hledger : s'.ledger = s.ledger) (hmissing : s'.tracker.missing = s.tracker.missing)
    (hunowned : s'.tracker.unowned = s.tracker.unowned) (hlaunched : s'.tracker.launched = s.tracker.launched)
    (hrefers : ∀ q, s'.Refers q → s.Refers q) : s'.Books := by
  obtain ⟨houtstanding, hapart, hunowned', hopen, hnodup, hknown, hreleased, hsound⟩ := h
  constructor
  · simpa only [hledger, hresources, hmissing, hunowned] using houtstanding
  · simpa only [hresources] using hapart
  · simpa only [hresources, hunowned] using hunowned'
  · simpa only [hresources, hlist, hlaunched] using hopen
  · rw [hlist]
    exact hnodup
  · intro q hq
    obtain ⟨hinfo, hne⟩ := hknown q (hrefers q hq)
    rw [hlaunched]
    exact ⟨fun hnone => hinfo ((hinfos q).mp hnone), hne⟩
  · intro q hq
    rw [hledger] at hq
    obtain ⟨hinfo, hnone⟩ := hreleased q hq
    exact ⟨fun h => hinfo ((hinfos q).mp h), (hresources q).trans hnone⟩
  · rw [hledger]
    exact hsound

/-- Only registrations of the process of a launch are missing. -/
lemma missing_cases {t : Tracker} (hr : r ∈ t.missing) : ∃ p, t.launched = some p ∧ (r = .fs p ∨ r = .sm p) := by
  cases t with
  | launching launch stage =>
    cases stage with
    | created p =>
      simp only [Tracker.missing, List.mem_cons, List.not_mem_nil, or_false] at hr
      exact ⟨p, rfl, hr⟩
    | fsRegistered p =>
      simp only [Tracker.missing, List.mem_cons, List.not_mem_nil, or_false] at hr
      exact ⟨p, rfl, .inr hr⟩
    | _ => cases hr
  | _ => cases hr

/-- What an object has, apart from what is missing, has not been released. -/
lemma Books.notMem_released (h : s.Books) (hr : r ∈ s.resourcesOf p) : r ∉ s.ledger.released := by
  intro hreleased
  by_cases hmissing : r ∈ s.tracker.missing
  · obtain ⟨q, -, rfl | rfl⟩ := missing_cases hmissing
    · obtain rfl := eq_of_id_mem (.inl hr)
      rw [(h.released q (.inl hreleased)).2] at hr
      cases hr
    · obtain rfl := eq_of_id_mem (.inr hr)
      rw [(h.released q (.inr hreleased)).2] at hr
      cases hr
  · exact h.sound.disjoint r hreleased ((h.outstanding_iff r).mpr (.inl ⟨p, hr, hmissing⟩))

/-- An object is closed, and what it had is released. -/
lemma Books.close (h : s.Books) (hinfos : ∀ q, s'.infos q = none ↔ s.infos q = none)
    (hresources : ∀ q, s'.resourcesOf q = if q = p then [] else s.resourcesOf q)
    (hledger : s'.ledger = s.ledger.releaseAll (s.resourcesOf p)) (hlist : s'.processList = s.processList.erase p)
    (hmissing : ∀ q r, q ≠ p → r ∈ s.resourcesOf q → (r ∈ s'.tracker.missing ↔ r ∈ s.tracker.missing))
    (hunowned : s'.tracker.unowned = s.tracker.unowned)
    (hlaunched : ∀ q, s'.tracker.launched = some q ↔ s.tracker.launched = some q ∧ q ≠ p)
    (hrefers : ∀ q, s'.Refers q → s.Refers q) : s'.Books := by
  -- what the closed process had is gone, and what the others have stays
  have hother {q : Nat} {r : Resource} : r ∈ s'.resourcesOf q ↔ q ≠ p ∧ r ∈ s.resourcesOf q := by
    rw [hresources]
    split
    · next hq => exact ⟨fun hr => absurd hr List.not_mem_nil, fun hr => absurd hq hr.1⟩
    · next hq => exact ⟨fun hr => ⟨hq, hr⟩, fun hr => hr.2⟩
  constructor
  case outstanding_iff =>
    intro r
    rw [hledger, Ledger.mem_outstanding_releaseAll, h.outstanding_iff, hunowned]
    constructor
    · rintro ⟨⟨q, hr, hmem⟩ | hr, hp⟩
      · have hq : q ≠ p := by
          rintro rfl
          exact hp hr
        exact .inl ⟨q, hother.mpr ⟨hq, hr⟩, fun hm => hmem ((hmissing q r hq hr).mp hm)⟩
      · exact .inr hr
    · rintro (⟨q, hr, hmem⟩ | hr)
      · obtain ⟨hq, hr⟩ := hother.mp hr
        exact ⟨.inl ⟨q, hr, fun hm => hmem ((hmissing q r hq hr).mpr hm)⟩, fun hp => hq (h.apart q p r hr hp)⟩
      · exact ⟨.inr hr, h.unowned_apart p r hr⟩
  case apart =>
    intro q q' r hr hr'
    exact h.apart q q' r (hother.mp hr).2 (hother.mp hr').2
  case unowned_apart =>
    intro q r hr hr'
    rw [hunowned] at hr
    exact h.unowned_apart q r hr (hother.mp hr').2
  case open_iff =>
    intro q
    rw [hlaunched, hlist, hresources]
    split
    · next hq =>
      subst hq
      refine iff_of_false (not_not.mpr rfl) ?_
      rintro (hmem | ⟨-, hne⟩)
      · exact h.nodup.not_mem_erase hmem
      · exact hne rfl
    · next hq => rw [h.open_iff, List.mem_erase_of_ne hq, and_iff_left hq]
  case nodup =>
    rw [hlist]
    exact h.nodup.erase p
  case known =>
    intro q hq
    obtain ⟨hinfo, hne⟩ := h.known q (hrefers q hq)
    exact ⟨fun hnone => hinfo ((hinfos q).mp hnone), fun hl => hne ((hlaunched q).mp hl).1⟩
  case released =>
    intro q hq
    -- it was released before, or it is what the closed process had
    have hcases : (.fs q ∈ s.ledger.released ∨ .sm q ∈ s.ledger.released) ∨
        .fs q ∈ s.resourcesOf p ∨ .sm q ∈ s.resourcesOf p := by
      rw [hledger] at hq
      rcases hq with hq | hq
      · rcases Ledger.mem_released_of_releaseAll hq with hq | ⟨hq, -⟩
        · exact .inl (.inl hq)
        · exact .inr (.inl hq)
      · rcases Ledger.mem_released_of_releaseAll hq with hq | ⟨hq, -⟩
        · exact .inl (.inr hq)
        · exact .inr (.inr hq)
    rcases hcases with hq | hq
    · obtain ⟨hinfo, hnone⟩ := h.released q hq
      refine ⟨fun hnone => hinfo ((hinfos q).mp hnone), ?_⟩
      rw [hresources, hnone, ite_self]
    · have hqp : q = p := eq_of_id_mem hq
      subst hqp
      have hne : s.resourcesOf q ≠ [] := hq.elim List.ne_nil_of_mem List.ne_nil_of_mem
      exact ⟨fun hnone => infos_ne_none hne ((hinfos q).mp hnone), by rw [hresources, if_pos rfl]⟩
  case sound =>
    rw [hledger]
    exact h.sound.releaseAll (nodup_resourcesOf p) fun r hr => h.notMem_released hr

/-- A pointer that goes out of scope changes nothing if the process is not being launched. -/
lemma Books.drop_eq (h : s.Books) (hne : s.tracker.launched ≠ some p) : s.drop p = s := by
  rw [drop]
  split
  · rfl
  · next hreferenced =>
    refine cleanup_eq_self ?_
    by_contra hopen
    rcases (h.open_iff p).mp hopen with hmem | hlaunched
    · exact hreferenced (decide_eq_true (.inl hmem))
    · exact hne hlaunched

/-- A launch that fails gives everything back. -/
lemma Books.abandon (h : s.Books) (hlaunched : s.tracker.launched = some p) (hunowned : s.tracker.unowned = []) :
    (s.abandon p).Books := by
  have hunknown : ¬s.Refers p := fun hrefers => (h.known p hrefers).2 hlaunched
  have heq : s.abandon p = { s with tracker := .waiting }.cleanup p := by
    refine if_neg fun hreferenced => hunknown ?_
    rcases of_decide_eq_true hreferenced with hmem | hmem | hmem | hmem
    · exact .inl hmem
    · exact .inr (.inl hmem)
    · exact .inr (.inr (.inl hmem))
    · exact .inr (.inr (.inr (.inl hmem)))
  rw [heq]
  refine h.close (p := p) (fun q => infos_cleanup_eq_none) (fun q => resourcesOf_cleanup) ledger_cleanup ?_ ?_ ?_ ?_ ?_
  · rw [processList_cleanup, List.erase_of_not_mem fun hmem => hunknown (.inl hmem)]
  · intro q r hq hr
    refine iff_of_false (by rw [tracker_cleanup]; exact List.not_mem_nil) fun hmissing => ?_
    obtain ⟨p', hp', rfl | rfl⟩ := missing_cases hmissing
    · exact hq ((eq_of_id_mem (.inl hr)).symm.trans (Option.some_inj.mp (hp'.symm.trans hlaunched)))
    · exact hq ((eq_of_id_mem (.inr hr)).symm.trans (Option.some_inj.mp (hp'.symm.trans hlaunched)))
  · rw [tracker_cleanup, hunowned]
    rfl
  · intro q
    rw [tracker_cleanup, hlaunched]
    refine iff_of_false (fun hnone => by cases hnone) fun hq => hq.2 ?_
    exact (Option.some_inj.mp hq.1).symm
  · exact fun q hq => (refers_cleanup.mp hq).of_tracker nofun

/-- The state without a process in the list. -/
def unlist (s : PmState) (processId : Nat) : PmState := { s with processList := s.processList.erase processId }

/-- A process is taken out of the list and closed, and it may be kept as a dead one. -/
lemma exists_cleanupProcess_eq (fw : FirmwareVersion) (s : PmState) (p : Nat) :
    ∃ dead, (∀ q ∈ dead, q ∈ s.deadProcessList ∨ q = p) ∧
      s.cleanupProcess fw p = { (s.unlist p).cleanup p with deadProcessList := dead } := by
  have hmem {q : Nat} (hq : q ∈ ((s.unlist p).cleanup p).deadProcessList) : q ∈ s.deadProcessList := by
    rw [deadProcessList_cleanup] at hq
    exact hq
  unfold cleanupProcess
  dsimp only
  split
  · refine ⟨((s.unlist p).cleanup p).deadProcessList ++ [p], fun q hq => ?_, rfl⟩
    rcases List.mem_append.mp hq with hq | hq
    · exact .inl (hmem hq)
    · exact .inr (List.mem_singleton.mp hq)
  · exact ⟨((s.unlist p).cleanup p).deadProcessList, fun q hq => .inl (hmem hq), rfl⟩

/-- `CleanupProcess` moves a process between lists. -/
lemma Refers.of_cleanupProcess (h : (s.cleanupProcess fw p).Refers q) (hp : s.Refers p) : s.Refers q := by
  obtain ⟨dead, hdead, heq⟩ := exists_cleanupProcess_eq fw s p
  rw [heq] at h
  have hrefers : (s.unlist p).Refers q ∨ q = p := by
    rcases h with h | h | h
    · exact .inl (refers_cleanup.mp (.inl h))
    · exact (hdead q h).imp_left fun h => .inr (.inl h)
    · exact .inl (refers_cleanup.mp (.inr (.inr h)))
  rcases hrefers with h | rfl
  · exact h.imp_left List.mem_of_mem_erase
  · exact hp

/-- `CleanupProcess` keeps the books of a process that is held. -/
lemma Books.cleanupProcess (h : s.Books) (fw : FirmwareVersion) (hrefers : s.Refers p) :
    (s.cleanupProcess fw p).Books := by
  obtain ⟨dead, -, heq⟩ := exists_cleanupProcess_eq fw s p
  have hne := (h.known p hrefers).2
  have htracker : (s.cleanupProcess fw p).tracker = s.tracker := by
    rw [heq]
    exact tracker_cleanup
  refine h.close (p := p) ?_ ?_ ?_ ?_ ?_ ?_ ?_ fun q hq => hq.of_cleanupProcess hrefers
  · rw [heq]
    exact fun q => infos_cleanup_eq_none
  · rw [heq]
    exact fun q => resourcesOf_cleanup
  · rw [heq]
    exact ledger_cleanup
  · rw [heq]
    exact processList_cleanup
  · rw [htracker]
    exact fun q r _ _ => Iff.rfl
  · rw [htracker]
  · rw [htracker]
    refine fun q => ⟨fun hq => ⟨hq, ?_⟩, fun hq => hq.1⟩
    rintro rfl
    exact hne hq

/-- The tracking thread is done with a process. -/
lemma Books.stopWaiting (h : s.Books) (hmissing : s.tracker.missing = []) (hunowned : s.tracker.unowned = [])
    (hlaunched : s.tracker.launched = none) (p : Nat) : (s.stopWaiting p).Books := by
  have hbooks : { s with waiters := s.waiters.erase p, tracker := .waiting }.Books := by
    refine h.congr (fun _ => Iff.rfl) (fun _ => rfl) rfl rfl hmissing.symm hunowned.symm hlaunched.symm ?_
    rintro q (hq | hq | hq | hq | hq)
    · exact .inl hq
    · exact .inr (.inl hq)
    · exact .inr (.inr (.inl (List.mem_of_mem_erase hq)))
    · exact .inr (.inr (.inr (.inl hq)))
    · cases hq
  rw [PmState.stopWaiting, hbooks.drop_eq (fun hnone => by cases hnone)]
  exact hbooks

variable {launch : Launch}

/-- A pin that is acquired before there is an object for it. -/
lemma Books.acquirePin (h : s.Books) {pinId : Nat} (ht : s.tracker = .launching launch .checked)
    (hnew : .pin pinId ∉ s.ledger.outstanding) :
    { s with tracker := .launching launch (.pinned pinId), ledger := s.ledger.acquire (.pin pinId) }.Books := by
  obtain ⟨houtstanding, hapart, -, hopen, hnodup, hknown, hreleased, hsound⟩ := h
  rw [ht] at houtstanding hopen hknown
  refine ⟨fun r => ?_, hapart, fun q r hr hr' => ?_, hopen, hnodup, fun q hq => ?_, fun q hq => ?_, hsound.acquire _⟩
  · rw [Ledger.mem_outstanding_acquire, houtstanding]
    constructor
    · rintro (rfl | ⟨q, hr, hmissing⟩ | hr)
      · exact .inr (.head _)
      · exact .inl ⟨q, hr, hmissing⟩
      · cases hr
    · rintro (⟨q, hr, hmissing⟩ | hr)
      · exact .inr (.inl ⟨q, hr, hmissing⟩)
      · exact .inl (List.mem_singleton.mp hr)
  · obtain rfl := List.mem_singleton.mp hr
    exact hnew ((houtstanding _).mpr (.inl ⟨q, hr', List.not_mem_nil⟩))
  · exact hknown q (Refers.of_tracker hq nofun)
  · exact hreleased q (hq.imp (fun hq => (Ledger.mem_released_acquire.mp hq).2)
      fun hq => (Ledger.mem_released_acquire.mp hq).2)

/-- A pin is released when the process cannot be made. -/
lemma Books.releasePin (h : s.Books) {pinId : Nat} (ht : s.tracker = .launching launch (.pinned pinId)) :
    { s with tracker := .waiting, ledger := s.ledger.release (.pin pinId) }.Books := by
  obtain ⟨houtstanding, hapart, hunowned, hopen, hnodup, hknown, hreleased, hsound⟩ := h
  rw [ht] at houtstanding hunowned hopen hknown
  have hmem : .pin pinId ∈ s.ledger.outstanding := (houtstanding _).mpr (.inr (.head _))
  refine ⟨fun r => ?_, hapart, fun q r hr => (by cases hr), hopen, hnodup, fun q hq => ?_, fun q hq => ?_,
    hsound.release fun hpin => hsound.disjoint _ hpin hmem⟩
  · rw [Ledger.mem_outstanding_release, houtstanding]
    constructor
    · rintro ⟨⟨q, hr, hmissing⟩ | hr, hne⟩
      · exact .inl ⟨q, hr, hmissing⟩
      · exact absurd (List.mem_singleton.mp hr) hne
    · rintro (⟨q, hr, hmissing⟩ | hr)
      · refine ⟨.inl ⟨q, hr, hmissing⟩, ?_⟩
        rintro rfl
        exact hunowned q _ (.head _) hr
      · cases hr
  · exact hknown q (hq.of_tracker nofun)
  · have hother {r : Resource} (hr : r ∈ (s.ledger.release (.pin pinId)).released) (hne : r ≠ .pin pinId) :
        r ∈ s.ledger.released :=
      (Ledger.mem_released_release.mp hr).resolve_right fun hr => hne hr.1
    exact hreleased q (hq.imp (fun hq => hother hq (by simp)) fun hq => hother hq (by simp))

/-- One of the registrations of a launch. -/
lemma Books.register (h : s.Books) {t : Tracker} (hr : r ∈ s.resourcesOf p)
    (hmissing : ∀ r', r' ∈ s.tracker.missing ↔ r' = r ∨ r' ∈ t.missing) (hnew : r ∉ t.missing)
    (hunowned : t.unowned = s.tracker.unowned) (hlaunched : t.launched = s.tracker.launched)
    (hhandled : t.handled = none) : { s with tracker := t, ledger := s.ledger.acquire r }.Books := by
  obtain ⟨houtstanding, hapart, hunowned', hopen, hnodup, hknown, hreleased, hsound⟩ := h
  refine ⟨fun r' => ?_, hapart, ?_, ?_, hnodup, fun q hq => ?_, fun q hq => ?_, hsound.acquire _⟩
  · rw [Ledger.mem_outstanding_acquire, houtstanding, hunowned]
    constructor
    · rintro (rfl | ⟨q, hr', hmem⟩ | hr')
      · exact .inl ⟨p, hr, hnew⟩
      · exact .inl ⟨q, hr', fun hm => hmem ((hmissing r').mpr (.inr hm))⟩
      · exact .inr hr'
    · rintro (⟨q, hr', hmem⟩ | hr')
      · by_cases heq : r' = r
        · exact .inl heq
        · exact .inr (.inl ⟨q, hr', fun hm => ((hmissing r').mp hm).elim heq hmem⟩)
      · exact .inr (.inr hr')
  · dsimp only
    rw [hunowned]
    exact hunowned'
  · dsimp only
    rw [hlaunched]
    exact hopen
  · dsimp only
    rw [hlaunched]
    exact hknown q (Refers.of_tracker hq fun hq => by cases hhandled.symm.trans hq)
  · exact hreleased q (hq.imp (fun hq => (Ledger.mem_released_acquire.mp hq).2)
      fun hq => (Ledger.mem_released_acquire.mp hq).2)

/-- The objects with a new one. -/
lemma infos_makeInfo {pinId handle : Nat} :
    (s.makeInfo launch pinId handle p).infos q = if q = p then some
      ⟨pinId, launch.programInfo.titleId, launch.storageId, some handle, .created, .empty⟩ else s.infos q :=
  Function.update_apply _ _ _ _

/-- A new object has everything. -/
lemma resourcesOf_makeInfo {pinId handle : Nat} :
    (s.makeInfo launch pinId handle p).resourcesOf q =
      if q = p then [.fs p, .sm p, .pin pinId, .handle handle] else s.resourcesOf q := by
  rw [resourcesOf, infos_makeInfo]
  split_ifs with hq
  · rw [hq]
    rfl
  · rfl

/-- The object of a launch takes over the pin, and it has the handle. -/
lemma Books.makeInfo (h : s.Books) {pinId handle : Nat}
    (ht : s.tracker = .launching launch (.pinned pinId)) (hnew : .handle handle ∉ s.ledger.outstanding)
    (hid : s.infos p = none) : (s.makeInfo launch pinId handle p).Books := by
  obtain ⟨houtstanding, hapart, hunowned, hopen, hnodup, hknown, hreleased, hsound⟩ := h
  rw [ht] at houtstanding hunowned hopen hknown
  have hunknown : ¬s.Refers p := fun hrefers => (hknown p hrefers).1 hid
  -- nobody else has what the new object has
  have hother {q : Nat} {r : Resource} (hq : q ≠ p) (hr : r ∈ s.resourcesOf q) :
      r ∉ [Resource.fs p, .sm p, .pin pinId, .handle handle] := by
    simp only [List.mem_cons, List.not_mem_nil, or_false]
    rintro (rfl | rfl | rfl | rfl)
    · exact hq (eq_of_id_mem (.inl hr)).symm
    · exact hq (eq_of_id_mem (.inr hr)).symm
    · exact hunowned q _ (.head _) hr
    · exact hnew ((houtstanding _).mpr (.inl ⟨q, hr, List.not_mem_nil⟩))
  have hmem {q : Nat} {r : Resource} : r ∈ (s.makeInfo launch pinId handle p).resourcesOf q ↔
      (q = p ∧ r ∈ [Resource.fs p, .sm p, .pin pinId, .handle handle]) ∨ (q ≠ p ∧ r ∈ s.resourcesOf q) := by
    rw [resourcesOf_makeInfo]
    split
    · next hq => simp only [hq, true_and, ne_eq, not_true_eq_false, false_and, or_false]
    · next hq => simp only [hq, false_and, ne_eq, not_false_eq_true, true_and, false_or]
  have hnone : s.resourcesOf p = [] := by rw [resourcesOf, hid]
  constructor
  case outstanding_iff =>
    intro r
    change r ∈ (s.ledger.acquire (.handle handle)).outstanding ↔
      (∃ q, r ∈ (s.makeInfo launch pinId handle p).resourcesOf q ∧ r ∉ [Resource.fs p, .sm p]) ∨ r ∈ []
    rw [Ledger.mem_outstanding_acquire, houtstanding]
    constructor
    · rintro (rfl | ⟨q, hr, -⟩ | hr)
      · exact .inl ⟨p, hmem.mpr (.inl ⟨rfl, by simp⟩), by simp⟩
      · have hq : q ≠ p := by
          rintro rfl
          rw [hnone] at hr
          cases hr
        have hfree := hother hq hr
        simp only [List.mem_cons, List.not_mem_nil, or_false, not_or] at hfree
        exact .inl ⟨q, hmem.mpr (.inr ⟨hq, hr⟩), by simp [hfree.1, hfree.2.1]⟩
      · obtain rfl := List.mem_singleton.mp hr
        exact .inl ⟨p, hmem.mpr (.inl ⟨rfl, by simp⟩), by simp⟩
    · rintro (⟨q, hr, hmissing⟩ | hr)
      · rcases hmem.mp hr with ⟨-, hr⟩ | ⟨-, hr⟩
        · simp only [List.mem_cons, List.not_mem_nil, or_false, not_or] at hr hmissing
          rcases hr with rfl | rfl | rfl | rfl
          · exact absurd rfl hmissing.1
          · exact absurd rfl hmissing.2
          · exact .inr (.inr (.head _))
          · exact .inl rfl
        · exact .inr (.inl ⟨q, hr, List.not_mem_nil⟩)
      · cases hr
  case apart =>
    intro q q' r hr hr'
    rcases hmem.mp hr with ⟨hq, hnew⟩ | ⟨hq, hold⟩
    · rcases hmem.mp hr' with ⟨hq', -⟩ | ⟨hq', hold'⟩
      · exact hq.trans hq'.symm
      · exact absurd hnew (hother hq' hold')
    · rcases hmem.mp hr' with ⟨-, hnew'⟩ | ⟨-, hold'⟩
      · exact absurd hnew' (hother hq hold)
      · exact hapart q q' r hold hold'
  case unowned_apart =>
    intro q r hr
    cases hr
  case open_iff =>
    intro q
    change _ ↔ q ∈ s.processList ∨ some p = some q
    rw [resourcesOf_makeInfo]
    split
    · next hq => exact iff_of_true (List.cons_ne_nil _ _) (.inr (congrArg some hq.symm))
    · next hq =>
      rw [hopen]
      exact or_congr_right (iff_of_false (fun hnone => by cases hnone) fun hsome => hq (Option.some_inj.mp hsome).symm)
  case nodup => exact hnodup
  case known =>
    intro q hq
    have hrefers : s.Refers q := Refers.of_tracker hq nofun
    have hne : q ≠ p := by
      rintro rfl
      exact hunknown hrefers
    rw [infos_makeInfo, if_neg hne]
    exact ⟨(hknown q hrefers).1, fun hsome => hne (Option.some_inj.mp hsome).symm⟩
  case released =>
    intro q hq
    obtain ⟨hinfo, hclosed⟩ := hreleased q (hq.imp (fun hq => (Ledger.mem_released_acquire.mp hq).2)
      fun hq => (Ledger.mem_released_acquire.mp hq).2)
    have hne : q ≠ p := by
      rintro rfl
      exact hinfo hid
    rw [infos_makeInfo, resourcesOf_makeInfo, if_neg hne, if_neg hne]
    exact ⟨hinfo, hclosed⟩
  case sound => exact hsound.acquire _

/-- A launched process goes into the list. -/
lemma Books.addProcess (h : s.Books) (ht : s.tracker = .launching launch (.started p)) : (s.addProcess p).Books := by
  obtain ⟨houtstanding, hapart, hunowned, hopen, hnodup, hknown, hreleased, hsound⟩ := h
  rw [ht] at houtstanding hunowned hopen hknown
  have hunknown : ¬s.Refers p := fun hrefers => (hknown p hrefers).2 rfl
  have hinfo : s.infos p ≠ none := infos_ne_none ((hopen p).mpr (.inr rfl))
  refine ⟨houtstanding, hapart, hunowned, fun q => ?_, ?_, fun q hq => ⟨?_, fun hnone => by cases hnone⟩, hreleased,
    hsound⟩
  · change s.resourcesOf q ≠ [] ↔ q ∈ s.processList ++ [p] ∨ none = some q
    rw [hopen, List.mem_append, List.mem_singleton]
    constructor
    · rintro (hq | hq)
      · exact .inl (.inl hq)
      · exact .inl (.inr (Option.some_inj.mp hq).symm)
    · rintro ((hq | rfl) | hq)
      · exact .inl hq
      · exact .inr rfl
      · cases hq
  · exact List.nodup_append_comm.mp (List.nodup_cons.mpr ⟨fun hmem => hunknown (.inl hmem), hnodup⟩)
  · change s.infos q ≠ none
    rcases hq with hq | hq | hq | hq | hq
    · rcases List.mem_append.mp hq with hq | hq
      · exact (hknown q (.inl hq)).1
      · rw [List.mem_singleton.mp hq]
        exact hinfo
    · exact (hknown q (.inr (.inl hq))).1
    · rcases List.mem_append.mp hq with hq | hq
      · exact (hknown q (.inr (.inr (.inl hq)))).1
      · rw [List.mem_singleton.mp hq]
        exact hinfo
    · exact (hknown q (.inr (.inr (.inr (.inl hq))))).1
    · cases hq

/-- The tracking thread goes on, and nothing is acquired or released. -/
lemma Books.track (h : s.Books) {t : Tracker} (hmissing : t.missing = s.tracker.missing)
    (hunowned : t.unowned = s.tracker.unowned) (hlaunched : t.launched = s.tracker.launched)
    (hhandled : ∀ q, t.handled = some q → s.Refers q) : { s with tracker := t }.Books := by
  exact h.congr (fun _ => Iff.rfl) (fun _ => rfl) rfl rfl hmissing hunowned hlaunched fun q hq =>
    hq.of_tracker (hhandled q)

/-- An object changes, but not its handle and its pin. -/
lemma Books.modifyInfo (h : s.Books) {f : ProcessInfo → ProcessInfo}
    (hf : ∀ info, (f info).handle = info.handle ∧ (f info).pinId = info.pinId) : (s.modifyInfo p f).Books :=
  h.congr (fun _ => infos_modifyInfo_eq_none) (fun _ => resourcesOf_modifyInfo hf) rfl rfl rfl rfl rfl fun _ hq => hq

/-- What is found is in the list. -/
lemma mem_of_find {info : ProcessInfo} (h : s.find p = some info) : p ∈ s.processList := by
  rw [find] at h
  split at h
  · assumption
  · cases h

/-- The flags after a signal. -/
def flagsAfterSignal (fw : FirmwareVersion) (info : ProcessInfo) (oldState : ProcessState) (flags : ProcessFlags) :
    ProcessFlags :=
  flagsAfter fw info.state
    (if oldState = .crashed ∧ info.state ≠ .crashed then { flags with exceptionWaitingAttach := false } else flags)

/-- The three ways to handle a signal. -/
lemma handleState_eq (info : ProcessInfo) (oldState : ProcessState) :
    s.handleState fw p info oldState = if info.hasExited then
        if fw < firmwareVersion500 ∧ info.flags.signalOnExit then
          (s.modifyInfo p fun info' =>
            { info' with flags := flagsAfterSignal fw info oldState info'.flags }).stopWaiting p
        else { s.modifyInfo p fun info' =>
            { info' with flags := flagsAfterSignal fw info oldState info'.flags } with tracker := .exited p }
      else { s.modifyInfo p fun info' =>
          { info' with flags := flagsAfterSignal fw info oldState info'.flags } with tracker := .waiting } := rfl

lemma tracker_cleanupProcess : (s.cleanupProcess fw p).tracker = s.tracker := by
  obtain ⟨dead, -, heq⟩ := exists_cleanupProcess_eq fw s p
  rw [heq]
  exact tracker_cleanup

variable (h : s.Books)

include h

lemma Books.modifyAndTrack {t : Tracker} {f : ProcessInfo → ProcessInfo}
    (hf : ∀ info, (f info).handle = info.handle ∧ (f info).pinId = info.pinId)
    (hmissing : t.missing = s.tracker.missing) (hunowned : t.unowned = s.tracker.unowned)
    (hlaunched : t.launched = s.tracker.launched) (hhandled : ∀ q, t.handled = some q → s.Refers q) :
    { s.modifyInfo p f with tracker := t }.Books :=
  (h.modifyInfo hf).track hmissing hunowned hlaunched hhandled

/-- Nothing of the books changes. -/
lemma Books.frame (hinfos : s'.infos = s.infos) (hlist : s'.processList = s.processList)
    (hledger : s'.ledger = s.ledger) (htracker : s'.tracker = s.tracker) (hrefers : ∀ q, s'.Refers q → s.Refers q) :
    s'.Books := by
  refine h.congr (fun q => by rw [hinfos]) (fun q => ?_) hlist hledger ?_ ?_ ?_ hrefers
  · rw [resourcesOf, resourcesOf, hinfos]
  · rw [htracker]
  · rw [htracker]
  · rw [htracker]

/-- The books when a signal is handled. -/
lemma Books.handleState {info : ProcessInfo} {oldState : ProcessState}
    (ht : s.tracker = .signaled p oldState) : (s.handleState fw p info oldState).Books := by
  have hrefers : s.Refers p := .inr (.inr (.inr (.inr (by rw [ht]; rfl))))
  have hbooks : (s.modifyInfo p fun info' =>
      { info' with flags := flagsAfterSignal fw info oldState info'.flags }).Books := h.modifyInfo fun _ => ⟨rfl, rfl⟩
  have hmissing : s.tracker.missing = [] := congrArg Tracker.missing ht
  have hunowned : s.tracker.unowned = [] := congrArg Tracker.unowned ht
  have hlaunched : s.tracker.launched = none := congrArg Tracker.launched ht
  rw [handleState_eq]
  split
  · split
    · exact hbooks.stopWaiting hmissing hunowned hlaunched p
    · refine hbooks.track hmissing.symm hunowned.symm hlaunched.symm fun q hq => ?_
      obtain rfl := Option.some_inj.mp hq
      exact hrefers
  · refine hbooks.track hmissing.symm hunowned.symm hlaunched.symm fun q hq => ?_
    cases hq

/-- The books when an event is taken. -/
lemma Books.getProcessEventInfo : (s.getProcessEventInfo fw).1.Books := by
  unfold PmState.getProcessEventInfo
  split
  · exact h.modifyInfo fun _ => ⟨rfl, rfl⟩
  · split
    · exact h.frame rfl rfl rfl rfl fun _ hq => hq
    · exact h

/-- The books when a dead process is taken. -/
lemma Books.popDeadProcess : (s.popDeadProcess fw).1.Books := by
  unfold PmState.popDeadProcess
  dsimp only
  split
  · next p rest hdead =>
    have hbooks : { s with asking := s.asking - 1, deadProcessList := rest }.Books := by
      refine h.frame rfl rfl rfl rfl ?_
      rintro q (hq | hq | hq)
      · exact .inl hq
      · refine .inr (.inl ?_)
        rw [hdead]
        exact .tail _ hq
      · exact .inr (.inr hq)
    have hp : s.Refers p := .inr (.inl (by rw [hdead]; exact .head _))
    rw [hbooks.drop_eq (h.known p hp).2]
    exact hbooks
  · exact h.frame rfl rfl rfl rfl fun _ hq => hq

/-- The books after a request to clean up. -/
lemma Books.cleanupProcessRequest (hok : s.cleanupProcessRequest fw p = .ok s') : s'.Books := by
  unfold PmState.cleanupProcessRequest at hok
  split at hok
  · cases hok
  · next info hfind =>
    split at hok
    · have hrefers : s.Refers p := .inl (mem_of_find hfind)
      have hbooks := h.cleanupProcess fw hrefers
      obtain rfl := Except.ok.inj hok
      rw [hbooks.drop_eq (by rw [tracker_cleanupProcess]; exact (h.known p hrefers).2)]
      exact hbooks
    · cases hok

/-- The books after a request to start. -/
lemma Books.startProcess (hok : s.startProcess p = .ok s') : s'.Books := by
  unfold PmState.startProcess at hok
  split at hok
  · cases hok
  · next info hfind =>
    split at hok
    · cases hok
    · obtain rfl := Except.ok.inj hok
      refine h.frame rfl rfl rfl rfl ?_
      rintro q (hq | hq | hq | hq | hq)
      · exact .inl hq
      · exact .inr (.inl hq)
      · exact .inr (.inr (.inl hq))
      · obtain rfl := Option.some_inj.mp hq
        exact .inl (mem_of_find hfind)
      · exact .inr (.inr (.inr (.inr hq)))

/-- The books when the start is done. -/
lemma Books.finishStart : (s.finishStart p).Books := by
  refine (h.modifyInfo (p := p) (f := ({ · with state := .running })) fun _ => ⟨rfl, rfl⟩).frame rfl rfl rfl rfl ?_
  rintro q (hq | hq | hq | hq | hq)
  · exact .inl hq
  · exact .inr (.inl hq)
  · exact .inr (.inr (.inl hq))
  · cases hq
  · exact .inr (.inr (.inr (.inr hq)))

/-- The books are right after a step. -/
lemma Books.step (hstep : Step fw s s') : s'.Books := by
  cases hstep with
  -- steps that only move the tracking thread on
  | launch ht | applicationRunning ht | check ht | pinFails ht =>
    exact h.track (by rw [ht]; rfl) (by rw [ht]; rfl) (by rw [ht]; rfl) fun q hq => by cases hq
  | pin ht hnew => exact h.acquirePin ht hnew
  | createFails ht => exact h.releasePin ht
  | create ht hnew hid => exact h.makeInfo ht hnew hid
  | fsRegisterFails ht | smRegisterFails ht | startFails ht =>
    exact h.abandon (congrArg Tracker.launched ht) (congrArg Tracker.unowned ht)
  | @fsRegister launch p ht =>
    have hlaunched : s.tracker.launched = some p := congrArg Tracker.launched ht
    refine h.register (ids_mem_resourcesOf ((h.open_iff p).mpr (.inr hlaunched))).1 (fun r => ?_) ?_
      (congrArg Tracker.unowned ht).symm hlaunched.symm rfl
    · rw [ht]
      exact List.mem_cons
    · simp [Tracker.missing]
  | @smRegister launch p ht =>
    have hlaunched : s.tracker.launched = some p := congrArg Tracker.launched ht
    refine h.register (ids_mem_resourcesOf ((h.open_iff p).mpr (.inr hlaunched))).2 (fun r => ?_) ?_
      (congrArg Tracker.unowned ht).symm hlaunched.symm rfl
    · rw [ht]
      exact List.mem_cons
    · exact List.not_mem_nil
  | setFlags ht =>
    exact h.modifyAndTrack (fun _ => ⟨rfl, rfl⟩) (congrArg Tracker.missing ht).symm (congrArg Tracker.unowned ht).symm
      (congrArg Tracker.launched ht).symm fun q hq => by cases hq
  | titleIdHook ht =>
    have hbooks : { s with titleIdHook := 0 }.Books := h.frame rfl rfl rfl rfl fun _ hq => hq
    exact hbooks.track (congrArg Tracker.missing ht).symm (congrArg Tracker.unowned ht).symm
      (congrArg Tracker.launched ht).symm fun q hq => by cases hq
  | applicationHook ht =>
    have hbooks : { s with applicationHook := false }.Books := h.frame rfl rfl rfl rfl fun _ hq => hq
    exact hbooks.track (congrArg Tracker.missing ht).symm (congrArg Tracker.unowned ht).symm
      (congrArg Tracker.launched ht).symm fun q hq => by cases hq
  | startSuspended ht =>
    exact h.track (by rw [ht]; rfl) (by rw [ht]; rfl) (by rw [ht]; rfl) fun q hq => by cases hq
  | start ht =>
    exact h.modifyAndTrack (fun _ => ⟨rfl, rfl⟩) (congrArg Tracker.missing ht).symm (congrArg Tracker.unowned ht).symm
      (congrArg Tracker.launched ht).symm fun q hq => by cases hq
  | add ht => exact h.addProcess ht
  | signal ht hwaiter =>
    refine h.track (by rw [ht]; rfl) (by rw [ht]; rfl) (by rw [ht]; rfl) fun q hq => ?_
    obtain rfl := Option.some_inj.mp hq
    exact .inr (.inr (.inl hwaiter))
  | update ht =>
    exact h.modifyAndTrack (fun _ => ⟨rfl, rfl⟩) (congrArg Tracker.missing ht).symm (congrArg Tracker.unowned ht).symm
      (congrArg Tracker.launched ht).symm fun q hq => .inr (.inr (.inr (.inr ((congrArg Tracker.handled ht).trans hq))))
  | handle ht => exact h.handleState ht
  | @exit p ht =>
    have hrefers : s.Refers p := .inr (.inr (.inr (.inr (congrArg Tracker.handled ht))))
    have htracker : (s.cleanupProcess fw p).tracker = .exited p := tracker_cleanupProcess.trans ht
    refine (h.cleanupProcess fw hrefers).stopWaiting ?_ ?_ ?_ p
    · exact congrArg Tracker.missing htracker
    · exact congrArg Tracker.unowned htracker
    · exact congrArg Tracker.launched htracker
  | startProcess _ hok => exact h.startProcess hok
  | finishStart => exact h.finishStart
  -- a request that fails leaves the books as they are
  | terminateProcess _ hok =>
    unfold terminateProcess at hok
    split at hok
    · cases hok
    · obtain rfl := Except.ok.inj hok
      exact h
  | getProcessEventInfo => exact h.getProcessEventInfo
  | popDeadProcess => exact h.popDeadProcess
  | cleanupProcess _ hok => exact h.cleanupProcessRequest hok
  | clearExceptionOccurred _ hok =>
    unfold clearExceptionOccurred at hok
    split at hok
    · cases hok
    · obtain rfl := Except.ok.inj hok
      exact h.modifyInfo fun _ => ⟨rfl, rfl⟩
  | hookToCreateProcess hok =>
    unfold hookToCreateProcess at hok
    split at hok
    · obtain rfl := Except.ok.inj hok
      exact h.frame rfl rfl rfl rfl fun _ hq => hq
    · cases hok
  | hookToCreateApplicationProcess hok =>
    unfold hookToCreateApplicationProcess at hok
    split at hok
    · cases hok
    · obtain rfl := Except.ok.inj hok
      exact h.frame rfl rfl rfl rfl fun _ hq => hq
  | clearHook => exact h.frame rfl rfl rfl rfl fun _ hq => hq

end Books

/-! ## Applications -/

section Applications

variable {fw : FirmwareVersion} {s s' : PmState} {p q : Nat}

/-- The list only becomes shorter, and no application is let in. -/
lemma Applications.congr (h : s.Applications) (hlist : ∀ q ∈ s'.processList, q ∈ s.processList)
    (happ : ∀ q, s'.isApplication q = s.isApplication q)
    (hadmits : s'.tracker.admitsApplication → s.tracker.admitsApplication)
    (hlaunched : ∀ q, s'.tracker.launched = some q →
      s.tracker.launched = some q ∧ (s.tracker.admitsApplication → s'.tracker.admitsApplication)) :
    s'.Applications := by
  refine ⟨fun q hq q' hq' => ?_, fun hyes q hq => ?_, fun q hq => ?_⟩
  · rw [happ, happ]
    exact h.unique q (hlist q hq) q' (hlist q' hq')
  · rw [happ]
    exact h.alone (hadmits hyes) q (hlist q hq)
  · rw [happ]
    obtain ⟨hq, himp⟩ := hlaunched q hq
    exact fun hqapp => himp (h.launched q hq hqapp)

/-- The tracking thread waits for the next event. -/
lemma Applications.wait (h : s.Applications) (hlist : ∀ q ∈ s'.processList, q ∈ s.processList)
    (happ : ∀ q, s'.isApplication q = s.isApplication q) (hwaiting : s'.tracker.launched = none)
    (hadmits : s'.tracker.admitsApplication = false) : s'.Applications := by
  refine h.congr hlist happ (fun hyes => ?_) fun q hq => ?_
  · cases hadmits.symm.trans hyes
  · cases hwaiting.symm.trans hq

/-- A launch goes on. -/
lemma Applications.goOn (h : s.Applications) (hlist : s'.processList = s.processList)
    (happ : ∀ q, s'.isApplication q = s.isApplication q) (hlaunched : s'.tracker.launched = s.tracker.launched)
    (hadmits : s'.tracker.admitsApplication = s.tracker.admitsApplication) : s'.Applications := by
  refine h.congr (fun q hq => hlist ▸ hq) happ (fun hyes => hadmits ▸ hyes) fun q hq => ⟨hlaunched ▸ hq, fun hyes => ?_⟩
  exact hadmits.trans hyes

/-- A pointer that goes leaves the list. -/
lemma processList_drop : (s.drop p).processList = s.processList := by
  rw [drop]
  split
  · rfl
  · exact processList_cleanup

lemma tracker_drop : (s.drop p).tracker = s.tracker := by
  rw [drop]
  split
  · rfl
  · exact tracker_cleanup

lemma isApplication_drop : (s.drop p).isApplication q = s.isApplication q := by
  rw [drop]
  split
  · rfl
  · exact isApplication_cleanup

/-- `CleanupProcess` leaves the flags. -/
lemma isApplication_cleanupProcess : (s.cleanupProcess fw p).isApplication q = s.isApplication q := by
  obtain ⟨dead, -, heq⟩ := exists_cleanupProcess_eq fw s p
  rw [heq]
  exact isApplication_cleanup

/-- `CleanupProcess` adds nothing to the list. -/
lemma mem_of_mem_cleanupProcess (hq : q ∈ (s.cleanupProcess fw p).processList) : q ∈ s.processList := by
  obtain ⟨dead, -, heq⟩ := exists_cleanupProcess_eq fw s p
  rw [heq] at hq
  have hmem : q ∈ (s.unlist p).processList := processList_cleanup ▸ hq
  exact List.mem_of_mem_erase hmem

section

variable (h : s.Applications)

include h

/-- The tracking thread lets go of a process. -/
lemma Applications.stopWaiting (p : Nat) : (s.stopWaiting p).Applications := by
  refine h.wait (fun q hq => ?_) (fun q => isApplication_drop) (congrArg Tracker.launched tracker_drop)
    (congrArg Tracker.admitsApplication tracker_drop)
  rw [PmState.stopWaiting, processList_drop] at hq
  exact hq

/-- A launch fails. -/
lemma Applications.abandon (p : Nat) : (s.abandon p).Applications := by
  refine h.wait (fun q hq => ?_) (fun q => isApplication_drop) (congrArg Tracker.launched tracker_drop)
    (congrArg Tracker.admitsApplication tracker_drop)
  rw [PmState.abandon, processList_drop] at hq
  exact hq

/-- A process leaves the list. -/
lemma Applications.cleanupProcess (fw : FirmwareVersion) (p : Nat) : (s.cleanupProcess fw p).Applications := by
  refine h.congr (fun q hq => mem_of_mem_cleanupProcess hq) (fun q => isApplication_cleanupProcess) ?_ ?_
  · rw [tracker_cleanupProcess]
    exact id
  · rw [tracker_cleanupProcess]
    exact fun q hq => ⟨hq, id⟩

/-- A new object is no application yet. -/
lemma Applications.makeInfo (hbooks : s.Books) {launch : Launch} {pinId handle : Nat}
    (ht : s.tracker = .launching launch (.pinned pinId)) (hid : s.infos p = none) :
    (s.makeInfo launch pinId handle p).Applications := by
  have hnew : (s.makeInfo launch pinId handle p).isApplication p = false := by
    rw [isApplication, infos_makeInfo, if_pos rfl]
    rfl
  have hold {q : Nat} (hq : q ∈ s.processList) :
      (s.makeInfo launch pinId handle p).isApplication q = s.isApplication q := by
    have hne : q ≠ p := by
      rintro rfl
      exact (hbooks.known q (.inl hq)).1 hid
    rw [isApplication, isApplication, infos_makeInfo, if_neg hne]
  refine ⟨fun q hq q' hq' => ?_, fun hyes q hq => ?_, fun q hq hqapp => ?_⟩
  · rw [hold hq, hold hq']
    exact h.unique q hq q' hq'
  · rw [hold hq]
    refine h.alone ?_ q hq
    rw [ht]
    exact hyes
  · obtain rfl := Option.some_inj.mp hq
    cases hnew.symm.trans hqapp

/-- The application flag is set if the launch is one of an application. -/
lemma Applications.setFlags (hbooks : s.Books) {launch : Launch}
    (ht : s.tracker = .launching launch (.smRegistered p)) : (s.setFlags fw launch p).Applications := by
  have hlaunched : s.tracker.launched = some p := congrArg Tracker.launched ht
  have hold {q : Nat} (hne : q ≠ p) : (s.setFlags fw launch p).isApplication q = s.isApplication q := by
    rw [isApplication, isApplication, PmState.setFlags]
    dsimp only
    rw [infos_modifyInfo, if_neg hne]
  have hlisted {q : Nat} (hq : q ∈ s.processList) : q ≠ p := by
    rintro rfl
    exact (hbooks.known q (.inl hq)).2 hlaunched
  refine ⟨fun q hq q' hq' => ?_, fun hyes q hq => ?_, fun q hq hqapp => ?_⟩
  · rw [hold (hlisted hq), hold (hlisted hq')]
    exact h.unique q hq q' hq'
  · rw [hold (hlisted hq)]
    refine h.alone ?_ q hq
    rw [ht]
    exact hyes
  · obtain rfl := Option.some_inj.mp hq
    have hcases : launch.programInfo.isApplication = true ∨ s.isApplication p = true := by
      rw [isApplication, PmState.setFlags] at hqapp
      dsimp only at hqapp
      rw [infos_modifyInfo, if_pos rfl] at hqapp
      rw [isApplication]
      cases hinfo : s.infos p with
      | none =>
        rw [hinfo] at hqapp
        cases hqapp
      | some info =>
        rw [hinfo] at hqapp
        exact Bool.or_eq_true_iff.mp hqapp
    rcases hcases with happ | happ
    · exact happ
    · have hadmits := h.launched p hlaunched happ
      rw [ht] at hadmits
      exact hadmits

/-- An application is added when there is none in the list. -/
lemma Applications.addProcess {launch : Launch} (ht : s.tracker = .launching launch (.started p)) :
    (s.addProcess p).Applications := by
  have halone (happ : s.isApplication p) : ∀ q ∈ s.processList, ¬s.isApplication q :=
    h.alone (h.launched p (congrArg Tracker.launched ht) happ)
  refine ⟨fun q hq q' hq' hqapp hqapp' => ?_, fun hyes => (by cases hyes), fun q hq => (by cases hq)⟩
  rcases List.mem_append.mp hq with hq | hq
  · rcases List.mem_append.mp hq' with hq' | hq'
    · exact h.unique q hq q' hq' hqapp hqapp'
    · rw [List.mem_singleton.mp hq'] at hqapp'
      exact absurd hqapp (halone hqapp' q hq)
  · rcases List.mem_append.mp hq' with hq' | hq'
    · rw [List.mem_singleton.mp hq] at hqapp
      exact absurd hqapp' (halone hqapp q' hq')
    · exact (List.mem_singleton.mp hq).trans (List.mem_singleton.mp hq').symm

/-- An application is admitted only if there is none. -/
lemma Applications.check {launch : Launch}
    (hcheck : launch.programInfo.isApplication → s.starting = none ∧ s.hasApplicationProcess = false) :
    { s with tracker := .launching launch .checked }.Applications := by
  refine ⟨h.unique, fun hyes q hq happ => ?_, fun q hq => by cases hq⟩
  have hnone := (hcheck hyes).2
  rw [hasApplicationProcess, List.any_eq_false] at hnone
  exact hnone q hq happ

/-- A change that leaves the application flag. -/
lemma Applications.modifyInfo {f : ProcessInfo → ProcessInfo}
    (hf : ∀ info, (f info).flags.application = info.flags.application) : (s.modifyInfo p f).Applications :=
  h.goOn rfl (fun _ => isApplication_modifyInfo hf) rfl rfl

end

/-- A signal leaves the application flag. -/
lemma application_flagsAfter (newState : ProcessState) (flags : ProcessFlags) :
    (flagsAfter fw newState flags).application = flags.application := by
  unfold flagsAfter
  split
  · split
    · rfl
    · split
      · rfl
      · rfl
  · rfl
  · split
    · rfl
    · rfl
  · split
    · rfl
    · rfl
  · rfl
  · rfl
  · rfl
  · rfl

lemma application_flagsAfterSignal (info : ProcessInfo) (oldState : ProcessState) (flags : ProcessFlags) :
    (flagsAfterSignal fw info oldState flags).application = flags.application := by
  rw [flagsAfterSignal, application_flagsAfter]
  split
  · rfl
  · rfl

/-- A signal is handled. -/
lemma Applications.handleState (h : s.Applications) (info : ProcessInfo) (oldState : ProcessState) :
    (s.handleState fw p info oldState).Applications := by
  have happ : (s.modifyInfo p fun info' =>
      { info' with flags := flagsAfterSignal fw info oldState info'.flags }).Applications :=
    h.modifyInfo fun _ => application_flagsAfterSignal _ _ _
  rw [handleState_eq]
  split
  · split
    · exact happ.stopWaiting p
    · exact happ.wait (fun _ hq => hq) (fun _ => rfl) rfl rfl
  · exact happ.wait (fun _ hq => hq) (fun _ => rfl) rfl rfl

/-- An event leaves the application flag. -/
lemma application_eventOf {info : ProcessInfo} {event : ProcessEvent} {flags : ProcessFlags}
    (h : eventOf fw info = some (event, flags)) : flags.application = info.flags.application := by
  rw [eventOf] at h
  split at h
  · cases h
    rfl
  · split at h
    · cases h
      rfl
    · split at h
      · cases h
        rfl
      · split at h
        · cases h
          rfl
        · cases h

/-- The event that is told is one of the process. -/
lemma listEvent_eq_some {event : ProcessEvent} {flags : ProcessFlags} (h : s.listEvent fw = some (p, event, flags)) :
    ∃ info, s.infos p = some info ∧ eventOf fw info = some (event, flags) := by
  obtain ⟨q, -, hevent⟩ := List.exists_of_findSome?_eq_some h
  obtain ⟨info, hinfo, hevent⟩ := Option.bind_eq_some_iff.mp hevent
  obtain ⟨found, hfound, heq⟩ := Option.map_eq_some_iff.mp hevent
  cases heq
  exact ⟨info, hinfo, hfound⟩

/-- An event is taken. -/
lemma Applications.getProcessEventInfo (h : s.Applications) : (s.getProcessEventInfo fw).1.Applications := by
  unfold PmState.getProcessEventInfo
  split
  · next p event flags hevent =>
    obtain ⟨info, hinfo, hfound⟩ := listEvent_eq_some hevent
    refine h.goOn rfl (fun q => ?_) rfl rfl
    rw [isApplication, isApplication, infos_modifyInfo]
    split_ifs with hq
    · rw [hq, hinfo]
      exact application_eventOf hfound
    · rfl
  · split
    · exact h.goOn rfl (fun _ => rfl) rfl rfl
    · exact h

/-- A dead process is taken. -/
lemma Applications.popDeadProcess (h : s.Applications) : (s.popDeadProcess fw).1.Applications := by
  unfold PmState.popDeadProcess
  dsimp only
  split
  · exact h.goOn processList_drop (fun _ => isApplication_drop) (congrArg Tracker.launched tracker_drop)
      (congrArg Tracker.admitsApplication tracker_drop)
  · exact h.goOn rfl (fun _ => rfl) rfl rfl

/-- There is at most one application after a step. -/
lemma Applications.step (h : s.Applications) (hbooks : s.Books) (hstep : Step fw s s') : s'.Applications := by
  cases hstep with
  | launch | applicationRunning | pinFails | createFails | signal =>
    exact h.wait (fun _ hq => hq) (fun _ => rfl) rfl rfl
  | check _ hcheck => exact h.check hcheck
  | pin ht | fsRegister ht | smRegister ht | titleIdHook ht | applicationHook ht | startSuspended ht =>
    exact h.goOn rfl (fun _ => rfl) (congrArg Tracker.launched ht).symm (congrArg Tracker.admitsApplication ht).symm
  | create ht _ hid => exact h.makeInfo hbooks ht hid
  | fsRegisterFails | smRegisterFails | startFails => exact h.abandon _
  -- the books say that the process that is flagged is the one that is launched
  | setFlags ht => exact h.setFlags hbooks ht
  | start ht =>
    exact h.goOn rfl (fun _ => isApplication_modifyInfo fun _ => rfl) (congrArg Tracker.launched ht).symm
      (congrArg Tracker.admitsApplication ht).symm
  | add ht => exact h.addProcess ht
  | update => exact h.wait (fun _ hq => hq) (fun _ => isApplication_modifyInfo fun _ => rfl) rfl rfl
  | handle => exact h.handleState _ _
  | exit => exact (h.cleanupProcess fw _).stopWaiting _
  | startProcess _ hok =>
    unfold startProcess at hok
    split at hok
    · cases hok
    · split at hok
      · cases hok
      · obtain rfl := Except.ok.inj hok
        exact h.goOn rfl (fun _ => rfl) rfl rfl
  | finishStart => exact h.goOn rfl (fun _ => isApplication_modifyInfo fun _ => rfl) rfl rfl
  | terminateProcess _ hok =>
    unfold terminateProcess at hok
    split at hok
    · cases hok
    · obtain rfl := Except.ok.inj hok
      exact h
  | getProcessEventInfo => exact h.getProcessEventInfo
  | popDeadProcess => exact h.popDeadProcess
  | cleanupProcess _ hok =>
    unfold cleanupProcessRequest at hok
    split at hok
    · cases hok
    · split at hok
      · obtain rfl := Except.ok.inj hok
        exact (h.cleanupProcess fw _).goOn processList_drop (fun _ => isApplication_drop)
          (congrArg Tracker.launched tracker_drop) (congrArg Tracker.admitsApplication tracker_drop)
      · cases hok
  | clearExceptionOccurred _ hok =>
    unfold clearExceptionOccurred at hok
    split at hok
    · cases hok
    · obtain rfl := Except.ok.inj hok
      exact h.modifyInfo fun _ => rfl
  | hookToCreateProcess hok =>
    unfold hookToCreateProcess at hok
    split at hok
    · obtain rfl := Except.ok.inj hok
      exact h.goOn rfl (fun _ => rfl) rfl rfl
    · cases hok
  | hookToCreateApplicationProcess hok =>
    unfold hookToCreateApplicationProcess at hok
    split at hok
    · cases hok
    · obtain rfl := Except.ok.inj hok
      exact h.goOn rfl (fun _ => rfl) rfl rfl
  | clearHook => exact h.goOn rfl (fun _ => rfl) rfl rfl

end Applications

/-! ## Runs -/

/-- At first nothing is outstanding. -/
lemma initial_books : initial.Books := by
  refine ⟨fun r => ?_, fun p q r hr => (by cases hr), fun p r hr => (by cases hr), fun p => ?_, List.nodup_nil,
    fun p hp => ?_, fun p hp => ?_, Ledger.sound_empty⟩
  · refine iff_of_false (Finset.notMem_empty r) ?_
    rintro (⟨p, hr, -⟩ | hr)
    · cases hr
    · cases hr
  · refine iff_of_false (not_not.mpr rfl) ?_
    rintro (hp | hp)
    · cases hp
    · cases hp
  · rcases hp with hp | hp | hp | hp | hp
    all_goals cases hp
  · rcases hp with hp | hp
    · exact absurd hp (Finset.notMem_empty _)
    · exact absurd hp (Finset.notMem_empty _)

/-- At first there is no process. -/
lemma initial_applications : initial.Applications :=
  ⟨fun p hp => (by cases hp), fun hyes => (by cases hyes), fun p hp => (by cases hp)⟩

/-- The invariants hold of all states that are reached. -/
lemma invariants_of_reachable {fw : FirmwareVersion} {s : PmState} (h : Reachable fw s) : s.Books ∧ s.Applications := by
  induction h with
  | refl => exact ⟨initial_books, initial_applications⟩
  | tail _ hstep ih =>
    obtain ⟨hbooks, happlications⟩ := ih
    exact ⟨hbooks.step hstep, happlications.step hbooks hstep⟩

end PmState

/-- A launch is in progress. -/
def PmState.IsLaunching (s : PmState) : Prop := ∃ launch stage, s.tracker = .launching launch stage

/-- Nothing is on its way apart from a launch. -/
lemma PmState.tracker_of_not_launching {s : PmState} (h : ¬s.IsLaunching) :
    s.tracker.missing = [] ∧ s.tracker.unowned = [] ∧ s.tracker.launched = none := by
  cases ht : s.tracker with
  | launching launch stage => exact absurd ⟨launch, stage, ht⟩ h
  | _ => exact ⟨rfl, rfl, rfl⟩

/-- In every state of a run there is at most one application in the list and nothing has been released twice. When no
launch is in progress, what is outstanding is what the processes in the list have, each of them a pin, both
registrations and a handle of its own. -/
theorem reachable_balanced (fw : FirmwareVersion) (s : PmState) (h : Reachable fw s) :
    (∀ p ∈ s.processList, ∀ q ∈ s.processList, s.isApplication p → s.isApplication q → p = q) ∧
      s.ledger.doubles = [] ∧ s.processList.Nodup ∧
      (¬s.IsLaunching → (∀ r, r ∈ s.ledger.outstanding ↔ ∃ p ∈ s.processList, r ∈ s.resourcesOf p) ∧
        (∀ p ∈ s.processList, ∃ pinId handle, s.resourcesOf p = [.fs p, .sm p, .pin pinId, .handle handle]) ∧
        ∀ p ∈ s.processList, ∀ q ∈ s.processList, ∀ r, r ∈ s.resourcesOf p → r ∈ s.resourcesOf q → p = q) := by
  obtain ⟨hbooks, happlications⟩ := PmState.invariants_of_reachable h
  refine ⟨happlications.unique, hbooks.sound.doubles_eq, hbooks.nodup, fun hidle => ?_⟩
  obtain ⟨hmissing, hunowned, hlaunched⟩ := PmState.tracker_of_not_launching hidle
  have hopen (p : Nat) : s.resourcesOf p ≠ [] ↔ p ∈ s.processList := by
    rw [hbooks.open_iff, hlaunched]
    exact or_iff_left fun hnone => by cases hnone
  refine ⟨fun r => ?_, fun p hp => ?_, fun p _ q _ r => hbooks.apart p q r⟩
  · rw [hbooks.outstanding_iff, hmissing, hunowned]
    constructor
    · rintro (⟨p, hr, -⟩ | hr)
      · exact ⟨p, (hopen p).mp (List.ne_nil_of_mem hr), hr⟩
      · cases hr
    · rintro ⟨p, -, hr⟩
      exact .inl ⟨p, hr, List.not_mem_nil⟩
  · obtain hnone | ⟨info, handle, -, -, heq⟩ := s.resourcesOf_cases p
    · exact absurd hnone ((hopen p).mpr hp)
    · exact ⟨info.pinId, handle, heq⟩

/-- A launch of an application. -/
def exampleLaunch : Launch := ⟨5, 0, ⟨0x0100000000001000, 1⟩⟩

/-- The process 3 is launched with the pin 1 and the handle 2. -/
lemma exampleLaunch_reachable :
    ∃ s, Reachable firmwareVersion500 s ∧ ¬s.IsLaunching ∧ s.processList = [3] ∧ s.isApplication 3 = true := by
  have hcheck : Reachable firmwareVersion500 _ := (Relation.ReflTransGen.refl.tail (.launch rfl)).tail
    (@Step.check _ _ exampleLaunch rfl fun _ => ⟨rfl, rfl⟩)
  have hcreate : Reachable firmwareVersion500 _ := (hcheck.tail (@Step.pin _ _ _ 1 rfl (Finset.notMem_empty _))).tail
    (@Step.create _ _ _ _ 2 3 rfl (by decide) rfl)
  have hregister : Reachable firmwareVersion500 _ := ((hcreate.tail (.fsRegister rfl)).tail (.smRegister rfl)).tail
    (.setFlags rfl)
  have hstart : Reachable firmwareVersion500 _ := hregister.tail (.start rfl (by decide) (by decide) (by decide))
  refine ⟨_, hstart.tail (.add rfl rfl), ?_, rfl, by decide⟩
  rintro ⟨launch, stage, htracker⟩
  cases htracker

/-- What is outstanding then is what the process has. -/
theorem reachable_balanced_example :
    ∃ s : PmState, Reachable firmwareVersion500 s ∧ s.processList = [3] ∧
      ∀ r, r ∈ s.ledger.outstanding ↔ ∃ p ∈ s.processList, r ∈ s.resourcesOf p := by
  obtain ⟨s, hreachable, hidle, hlist, -⟩ := exampleLaunch_reachable
  exact ⟨s, hreachable, hlist, ((reachable_balanced firmwareVersion500 s hreachable).2.2.2 hidle).1⟩

end RajNX.Pm
