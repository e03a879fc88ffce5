import RajNX.Lib.Ledger

/-!
# The process manager

`ProcessInfo` of `pm_process_info.cpp`, and the launches, the signals of processes and the requests of
`pm_process_manager.cpp`, as steps of one thread that tracks the processes and of the sessions beside it. The
sessions take the lock of the process list for the whole of a request. The tracking thread takes it to look for
an application, to add a process and to clean one up, and writes the state of a process without it. A flag of a
process is changed in one step.

No two processes have one id, which the kernel promises. An object is known by the id of its process, and stays
in `infos` when it has been destroyed.
-/

namespace RajNX.Pm

/-- `FirmwareVersion` -/
abbrev FirmwareVersion := Nat

/-- `FirmwareVersion_200` -/
def firmwareVersion200 : FirmwareVersion := 1

/-- `FirmwareVersion_500` -/
def firmwareVersion500 : FirmwareVersion := 4

/-! ## Flags and events -/

/-- `LaunchFlags` and `LaunchFlagsDeprecated`, as the mask that `GET_FLAG_MASK` takes. -/
def getFlagMask (fw : FirmwareVersion) (mask deprecated : UInt32) : UInt32 :=
  if firmwareVersion500 ≤ fw then mask else deprecated

/-- `ShouldSignalOnExit` -/
def shouldSignalOnExit (fw : FirmwareVersion) (flags : UInt32) : Bool := flags &&& getFlagMask fw 1 1 ≠ 0

/-- `ShouldSignalOnStart` -/
def shouldSignalOnStart (fw : FirmwareVersion) (flags : UInt32) : Bool :=
  firmwareVersion200 ≤ fw ∧ flags &&& getFlagMask fw 2 32 ≠ 0

/-- `ShouldSignalOnDebugEvent` -/
def shouldSignalOnDebugEvent (fw : FirmwareVersion) (flags : UInt32) : Bool := flags &&& getFlagMask fw 8 16 ≠ 0

/-- `ShouldStartSuspended` -/
def shouldStartSuspended (fw : FirmwareVersion) (flags : UInt32) : Bool := flags &&& getFlagMask fw 16 2 ≠ 0

/-- `ProcessEvent` -/
inductive ProcessEvent
  | none | exited | started | exception | debugRunning | debugSuspended
deriving Repr, DecidableEq

/-- `GetProcessEventValue` -/
def getProcessEventValue (fw : FirmwareVersion) (event : ProcessEvent) : Nat :=
  if firmwareVersion500 ≤ fw then
    match event with
    | .none => 0
    | .exited => 1
    | .started => 2
    | .exception => 3
    | .debugRunning => 4
    | .debugSuspended => 5
  else
    match event with
    | .none => 0
    | .exception => 1
    | .exited => 2
    | .debugRunning => 3
    | .debugSuspended => 4
    | .started => 5

/-- `ProcessEventInfo` -/
structure ProcessEventInfo where
  event : Nat
  processId : Nat
deriving Repr, DecidableEq

/-- `ProgramInfo`, with the fields that a launch reads. -/
structure ProgramInfo where
  titleId : Nat
  flags : UInt16
deriving Repr, DecidableEq

/-- `is_application` -/
def ProgramInfo.isApplication (info : ProgramInfo) : Bool := info.flags &&& 3 = 1

/-- `allow_debug` -/
def ProgramInfo.allowDebug (fw : FirmwareVersion) (info : ProgramInfo) : Bool :=
  info.flags &&& 4 ≠ 0 ∨ fw < firmwareVersion200

/-! ## Processes -/

/-- `ProcessState` -/
inductive ProcessState
  | created | createdAttached | running | crashed | runningAttached | exiting | exited | debugSuspended
deriving Repr, DecidableEq

/-- The flags of a `ProcessInfo`. -/
structure ProcessFlags where
  signalOnExit : Bool
  exceptionOccurred : Bool
  exceptionWaitingAttach : Bool
  signalOnDebugEvent : Bool
  suspendedStateChanged : Bool
  suspended : Bool
  application : Bool
  signalOnStart : Bool
  startedStateChanged : Bool
deriving Repr, DecidableEq

/-- No flag is set. -/
def ProcessFlags.empty : ProcessFlags := ⟨false, false, false, false, false, false, false, false, false⟩

/-- What is acquired for a process and released again. -/
inductive Resource
  | pin (pinId : Nat)
  | fs (processId : Nat)
  | sm (processId : Nat)
  | handle (h : Nat)
deriving Repr, DecidableEq

/-- `ProcessInfo`. The handle is none when it is `INVALID_HANDLE`. -/
structure ProcessInfo where
  pinId : Nat
  titleId : Nat
  storageId : Nat
  handle : Option Nat
  state : ProcessState
  flags : ProcessFlags
deriving Repr, DecidableEq

namespace ProcessInfo

/-- `HasStarted` -/
def hasStarted (info : ProcessInfo) : Bool := info.state ≠ .created ∧ info.state ≠ .createdAttached

/-- `HasExited` -/
def hasExited (info : ProcessInfo) : Bool := info.state = .exited

/-- What `Cleanup` releases, in its order. -/
def resources (processId : Nat) (info : ProcessInfo) : List Resource :=
  match info.handle with
  | some h => [.fs processId, .sm processId, .pin info.pinId, .handle h]
  | none => []

end ProcessInfo

/-! ## The state -/

/-- A launch: the arguments, and what the loader knows about the program. -/
structure Launch where
  storageId : Nat
  flags : UInt32
  programInfo : ProgramInfo
deriving Repr, DecidableEq

/-- How far a launch has come. -/
inductive LaunchStage
  | found
  | checked
  | pinned (pinId : Nat)
  | created (processId : Nat)
  | fsRegistered (processId : Nat)
  | smRegistered (processId : Nat)
  | flagged (processId : Nat)
  | started (processId : Nat)
deriving Repr, DecidableEq

/-- What the tracking thread is doing. -/
inductive Tracker
  | waiting
  | launching (launch : Launch) (stage : LaunchStage)
  | notified (processId : Nat) (oldState : ProcessState)
  | signaled (processId : Nat) (oldState : ProcessState)
  | exited (processId : Nat)
deriving Repr, DecidableEq

/-- The objects, the lists, what the threads are doing, and what has been acquired and released. `starting` is the
process that a session has started while it holds the lock of the list, and `asking` is the number of sessions
that have found no event in the list and go on to the dead processes. -/
structure PmState where
  infos : Nat → Option ProcessInfo
  processList : List Nat
  deadProcessList : List Nat
  waiters : List Nat
  tracker : Tracker
  starting : Option Nat
  asking : Nat
  titleIdHook : Nat
  applicationHook : Bool
  ledger : Ledger Resource

/-- The results of the requests. -/
inductive PmResult
  | processNotFound | alreadyStarted | notExited | debugHookInUse
deriving Repr, DecidableEq

namespace PmState

/-- No process has been launched. -/
def initial : PmState where
  infos _ := none
  processList := []
  deadProcessList := []
  waiters := []
  tracker := .waiting
  starting := none
  asking := 0
  titleIdHook := 0
  applicationHook := false
  ledger := .empty

variable (fw : FirmwareVersion) (s : PmState) (processId : Nat)

/-- Change one of the objects. -/
def modifyInfo (f : ProcessInfo → ProcessInfo) : PmState :=
  { s with infos := Function.update s.infos processId ((s.infos processId).map f) }

/-- `ProcessList::Find` -/
def find : Option ProcessInfo :=
  if processId ∈ s.processList then s.infos processId else none

/-- `IsApplication` -/
def isApplication : Bool := (s.infos processId).any (·.flags.application)

/-- `HasApplicationProcess` -/
def hasApplicationProcess : Bool := s.processList.any s.isApplication

/-- `ProcessInfo::Cleanup` -/
def cleanup : PmState :=
  match s.infos processId with
  | some info =>
    if info.handle.isSome then
      { s.modifyInfo processId ({ · with handle := none }) with
        ledger := s.ledger.releaseAll (info.resources processId) }
    else s
  | none => s

/-- Something points to the object. -/
def isReferenced : Bool :=
  processId ∈ s.processList ∨ processId ∈ s.deadProcessList ∨ processId ∈ s.waiters ∨ s.starting = some processId

/-- A pointer to the object goes out of scope. The last one destroys it. -/
def drop : PmState :=
  if s.isReferenced processId then s else s.cleanup processId

/-- `CleanupProcess`, for a process whose object is held by the caller -/
def cleanupProcess : PmState :=
  let s := { s with processList := s.processList.erase processId }
  let s := s.cleanup processId
  if firmwareVersion500 ≤ fw ∧ (s.infos processId).any (·.flags.signalOnExit) then
    { s with deadProcessList := s.deadProcessList ++ [processId] }
  else s

/-! ## Launching -/

/-- The end of a launch that fails when the process has been made. -/
def abandon : PmState := { s with tracker := .waiting }.drop processId

/-- A `ProcessInfo` is made for the process. -/
def makeInfo (launch : Launch) (pinId handle processId : Nat) : PmState :=
  { s with
    infos := Function.update s.infos processId (some
      ⟨pinId, launch.programInfo.titleId, launch.storageId, some handle, .created, .empty⟩)
    tracker := .launching launch (.created processId)
    ledger := s.ledger.acquire (.handle handle) }

/-- The flags that a launch sets. -/
def setFlags (launch : Launch) (processId : Nat) : PmState :=
  let allowDebug := launch.programInfo.allowDebug fw
  { s.modifyInfo processId fun info => { info with flags := { info.flags with
      application := launch.programInfo.isApplication || info.flags.application
      signalOnStart := shouldSignalOnStart fw launch.flags && allowDebug || info.flags.signalOnStart
      signalOnExit := shouldSignalOnExit fw launch.flags || info.flags.signalOnExit
      signalOnDebugEvent := shouldSignalOnDebugEvent fw launch.flags && allowDebug ||
        info.flags.signalOnDebugEvent } } with
    tracker := .launching launch (.flagged processId) }

/-- The process is added to the list and waited for. -/
def addProcess : PmState :=
  { s with
    processList := s.processList ++ [processId]
    waiters := s.waiters ++ [processId]
    tracker := .waiting }

/-! ## Signals -/

/-- `OnProcessSignaled`, as far as the state that the kernel tells is written -/
def updateState (oldState newState : ProcessState) : PmState :=
  { s.modifyInfo processId ({ · with state := newState }) with tracker := .signaled processId oldState }

/-- The switch of `OnProcessSignaled` for a process that goes on, on the flags. -/
def flagsAfter (newState : ProcessState) (flags : ProcessFlags) : ProcessFlags :=
  match newState with
  | .running =>
    if flags.signalOnDebugEvent then { flags with suspended := false, suspendedStateChanged := true }
    else if firmwareVersion200 ≤ fw ∧ flags.signalOnStart then
      { flags with startedStateChanged := true, signalOnStart := false }
    else flags
  | .crashed => { flags with exceptionOccurred := true, exceptionWaitingAttach := true }
  | .runningAttached =>
    if flags.signalOnDebugEvent then { flags with suspended := false, suspendedStateChanged := true } else flags
  | .debugSuspended =>
    if flags.signalOnDebugEvent then { flags with suspended := true, suspendedStateChanged := true } else flags
  | .created | .createdAttached | .exiting | .exited => flags

/-- `ConnectionClosed`: the process is not waited for any longer. -/
def stopWaiting : PmState :=
  { s with waiters := s.waiters.erase processId, tracker := .waiting }.drop processId

/-- The rest of `OnProcessSignaled`: the state is read again, and there is a case for each. A process that
has exited is cleaned up when the lock is free, if it is not kept for a request. -/
def handleState (info : ProcessInfo) (oldState : ProcessState) : PmState :=
  let clear (flags : ProcessFlags) : ProcessFlags :=
    if oldState = .crashed ∧ info.state ≠ .crashed then { flags with exceptionWaitingAttach := false } else flags
  let s := s.modifyInfo processId fun info' => { info' with flags := flagsAfter fw info.state (clear info'.flags) }
  if info.hasExited then
    if fw < firmwareVersion500 ∧ info.flags.signalOnExit then s.stopWaiting processId
    else { s with tracker := .exited processId }
  else { s with tracker := .waiting }

/-! ## Requests -/

/-- `StartProcess`, as far as the kernel has started the process -/
def startProcess : Except PmResult PmState :=
  match s.find processId with
  | none => .error .processNotFound
  | some info => if info.hasStarted then .error .alreadyStarted else .ok { s with starting := some processId }

/-- The end of `StartProcess` -/
def finishStart : PmState :=
  { s.modifyInfo processId ({ · with state := .running }) with starting := none }

/-- `TerminateProcess`, which leaves the rest to the kernel -/
def terminateProcess : Except PmResult PmState :=
  match s.find processId with
  | none => .error .processNotFound
  | some _ => .ok s

/-- The event of a process in the list, and its flags when it has been told. -/
def eventOf (info : ProcessInfo) : Option (ProcessEvent × ProcessFlags) :=
  let flags := info.flags
  if info.hasStarted ∧ flags.startedStateChanged then some (.started, { flags with startedStateChanged := false })
  else if flags.suspendedStateChanged then
    some (if flags.suspended then .debugSuspended else .debugRunning, { flags with suspendedStateChanged := false })
  else if flags.exceptionOccurred then some (.exception, { flags with exceptionOccurred := false })
  else if fw < firmwareVersion500 ∧ flags.signalOnExit ∧ info.hasExited then some (.exited, flags)
  else none

/-- The first event of the list. -/
def listEvent : Option (Nat × ProcessEvent × ProcessFlags) :=
  s.processList.findSome? fun processId =>
    (s.infos processId).bind fun info => (eventOf fw info).map fun event => (processId, event)

/-- `GetProcessEventInfo`, as far as it holds the lock of the list -/
def getProcessEventInfo : PmState × Option ProcessEventInfo :=
  match s.listEvent fw with
  | some (processId, event, flags) =>
    (s.modifyInfo processId ({ · with flags := flags }), some ⟨getProcessEventValue fw event, processId⟩)
  | none =>
    if firmwareVersion500 ≤ fw then ({ s with asking := s.asking + 1 }, none)
    else (s, some ⟨getProcessEventValue fw .none, 0⟩)

/-- The part of `GetProcessEventInfo` about the dead processes -/
def popDeadProcess : PmState × ProcessEventInfo :=
  let s := { s with asking := s.asking - 1 }
  match s.deadProcessList with
  | processId :: rest =>
    ({ s with deadProcessList := rest }.drop processId, ⟨getProcessEventValue fw .exited, processId⟩)
  | [] => (s, ⟨getProcessEventValue fw .none, 0⟩)

/-- `CleanupProcess`, the request -/
def cleanupProcessRequest : Except PmResult PmState :=
  match s.find processId with
  | none => .error .processNotFound
  | some info =>
    if info.hasExited then .ok ((s.cleanupProcess fw processId).drop processId) else .error .notExited

/-- `ClearExceptionOccurred` -/
def clearExceptionOccurred : Except PmResult PmState :=
  match s.find processId with
  | none => .error .processNotFound
  | some _ => .ok (s.modifyInfo processId fun info =>
      { info with flags := { info.flags with exceptionOccurred := false } })

/-- `HookToCreateProcess` -/
def hookToCreateProcess (titleId : Nat) : Except PmResult PmState :=
  if s.titleIdHook = 0 then .ok { s with titleIdHook := titleId } else .error .debugHookInUse

/-- `HookToCreateApplicationProcess` -/
def hookToCreateApplicationProcess : Except PmResult PmState :=
  if s.applicationHook then .error .debugHookInUse else .ok { s with applicationHook := true }

/-- `ClearHook` -/
def clearHook (which : UInt32) : PmState :=
  { s with
    titleIdHook := if which &&& 1 ≠ 0 then 0 else s.titleIdHook
    applicationHook := if which &&& 2 ≠ 0 then false else s.applicationHook }

end PmState

end RajNX.Pm
