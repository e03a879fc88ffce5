import RajNX.Lib.Fallible
import RajNX.Lib.Slots
import RajNX.Sm.ProcessList

/-!
# The service manager

The requests of `sm_service_manager.cpp` on the lists of processes, services and future mitms. What the
kernel and the mitm answer is part of a request, so that a run is a list of requests. A request ends with a
reply and a new state, or in `std::abort` or a failed `R_ASSERT`.

`Change` says what a request can do to the state, and every invariant is derived from it: no two services
have the same name, a service goes away only with its owner's `UnregisterService`, and a declared mitm is
not installed yet.
-/

namespace RajNX.Sm

open Slots Fallible

/-- A handle that is valid. -/
abbrev Handle := Nat

/-- `ServiceInfo`. A handle that was cleared is none. -/
structure ServiceInfo where
  name : ServiceName
  ownerPid : Nat
  portH : Option Handle
  maxSessions : Nat
  isLight : Bool
  mitmPid : Nat
  mitmPortH : Option Handle
  mitmQueryH : Option Handle
  mitmWaitingAck : Bool
  mitmWaitingAckPid : Nat
  mitmFwdSessH : Option Handle

/-- `InvalidServiceName` -/
def invalidServiceName : ServiceName := .encode [] 0

namespace ServiceInfo

/-- `Free` -/
def free : ServiceInfo where
  name := invalidServiceName
  ownerPid := invalidProcessId
  portH := none
  maxSessions := 0
  isLight := false
  mitmPid := invalidProcessId
  mitmPortH := none
  mitmQueryH := none
  mitmWaitingAck := false
  mitmWaitingAckPid := invalidProcessId
  mitmFwdSessH := none

/-- `FreeMitm` -/
def freeMitm (s : ServiceInfo) : ServiceInfo :=
  { s with mitmPortH := none, mitmQueryH := none, mitmPid := invalidProcessId }

end ServiceInfo

/-- The state of the service manager. -/
structure ServiceManager where
  processList : ProcessList
  serviceList : List ServiceInfo
  futureMitmList : List ServiceName
  endedInitialDefers : Bool

/-- The state in which it starts. -/
def startState : ServiceManager where
  processList := emptyProcessList
  serviceList := List.replicate 0x100 .free
  futureMitmList := List.replicate 0x20 invalidServiceName
  endedInitialDefers := false

/-- What does not change: the range of the initial processes, and whether the firmware is 8.0.0 or later. -/
structure SystemConfig where
  initialMin : Nat
  initialMax : Nat
  isFirmware800 : Bool

/-- The places in which the service manager ends. -/
inductive SmAbort
  | invalidProcessId
  | noProcessInfo
  | mitmHostDead
deriving Repr, DecidableEq

/-- The replies to requests. That of `GetServiceHandle` with a mitm session has the forward session with
it, which the client does not get. -/
inductive SmReply
  | failed (result : SmResult)
  | done
  | flag (value : Bool)
  | session (handle : Handle)
  | mitmSession (handle forward : Handle)
  | port (handle : Handle)
  | mitm (handle query : Handle)
  | acknowledged (pid tid : Nat) (forward : Option Handle)
deriving DecidableEq

/-! ## Processes and services -/

/-- `IsInitialProcess` -/
def isInitialProcess (sys : SystemConfig) (pid : Nat) : Except SmAbort Bool :=
  if pid = invalidProcessId then .error .invalidProcessId
  else .ok (sys.initialMin ≤ pid && pid ≤ sys.initialMax)

/-- `GetServiceInfo`, with the index -/
def getServiceInfo (services : List ServiceInfo) (service : ServiceName) : Option (Nat × ServiceInfo) :=
  find ServiceInfo.name services service

/-- `GetTitleIdForMitm` -/
def getTitleIdForMitm (processes : ProcessList) (pid : Nat) : Except SmAbort Nat :=
  match find ProcessInfo.pid processes pid with
  | none => .error .noProcessInfo
  | some (_, p) => .ok p.tid

/-- `IsMitmDisallowed` -/
def isMitmDisallowed (titleId : Nat) : Bool :=
  titleId = 0x0100000000000001 || titleId = 0x0100000000000005 || titleId = 0x010041544D530000 ||
    titleId = 0x0100000000000036

/-- `HasMitm` -/
def hasMitm (services : List ServiceInfo) (service : ServiceName) : Bool :=
  match getServiceInfo services service with
  | none => false
  | some (_, info) => info.mitmPid ≠ invalidProcessId

/-- `AddFutureMitmDeclaration` -/
def addFutureMitmDeclaration (future : List ServiceName) (service : ServiceName) : SmResult × List ServiceName :=
  match future.findIdx? (· = invalidServiceName) with
  | none => (.insufficientServices, future)
  | some i => (.success, future.set i service)

/-- `HasFutureMitmDeclaration` -/
def hasFutureMitmDeclaration (future : List ServiceName) (service : ServiceName) : Bool :=
  future.any (· = service)

/-- `ClearFutureMitmDeclaration` -/
def clearFutureMitmDeclaration (future : List ServiceName) (service : ServiceName) : List ServiceName :=
  future.map fun name => if name = service then invalidServiceName else name

/-- `ValidateServiceName` -/
def validateServiceName (service : ServiceName) : SmResult :=
  if service.name.getD 0 0 = 0 then .invalidServiceName
  else
    let nameLen := 1 + ((service.name.drop 1).takeWhile (· ≠ 0)).length
    if (service.name.drop nameLen).all (· = 0) then .success else .invalidServiceName

/-- `fsp-srv` -/
def fspSrv : ServiceName := .encode [0x66, 0x73, 0x70, 0x2D, 0x73, 0x72, 0x76] 7

/-- `apm:p` -/
def apmP : ServiceName := .encode [0x61, 0x70, 0x6D, 0x3A, 0x70] 5

/-- `ShouldDeferForInit` -/
def shouldDeferForInit (s : ServiceManager) (service : ServiceName) : Bool :=
  if s.endedInitialDefers then false else service = fspSrv

/-! ## Requests -/

/-- What the kernel and the mitm answer to `GetServiceHandle`: the result of the query, whether the mitm
wants the session, and the sessions with the two ports. -/
structure SessionAnswers where
  query : Except Nat Bool
  connect : Except Nat Handle
  connectMitm : Except Nat Handle

/-- `GetMitmServiceHandleImpl` -/
def getMitmServiceHandleImpl (info : ServiceInfo) (pid : Nat) (answers : SessionAnswers) :
    Except Nat (SmReply × ServiceInfo) := do
  let shouldMitm ← answers.query
  if ¬shouldMitm then
    let handle ← answers.connect
    return (.session handle, info)
  else
    let forward ← answers.connect
    let handle ← answers.connectMitm
    return (.mitmSession handle forward,
      { info with mitmFwdSessH := some forward, mitmWaitingAckPid := pid, mitmWaitingAck := true })

/-- A normal session with a service. -/
def connectToPort (info : ServiceInfo) (answers : SessionAnswers) : Except Nat (SmReply × ServiceInfo) := do
  let handle ← answers.connect
  return (.session handle, info)

/-- `GetServiceHandleImpl` -/
def getServiceHandleImpl (processes : ProcessList) (info : ServiceInfo) (pid : Nat)
    (answers : SessionAnswers) : Except SmAbort (Except Nat (SmReply × ServiceInfo)) :=
  if info.mitmPid ≠ invalidProcessId ∧ info.mitmPid ≠ pid then do
    let titleId ← getTitleIdForMitm processes pid
    if isMitmDisallowed titleId then return connectToPort info answers
    else
      match getMitmServiceHandleImpl info pid answers with
      | .error _ => throw .mitmHostDead
      | .ok session => return .ok session
  else return connectToPort info answers

/-- `ResultKernelOutOfSessions` -/
def resultKernelOutOfSessions : Nat := 1 + 512 * 7

/-- The result of the kernel as a result of the service manager. -/
def convertKernelResult (result : Nat) : SmResult :=
  if result = resultKernelOutOfSessions then .insufficientSessions else .kernel result

/-- How a request ends: it aborts, or there are a reply and the state after it. -/
abbrev SmOutcome := Except SmAbort (SmReply × ServiceManager)

section

variable (sys : SystemConfig) (s : ServiceManager) (pid : Nat) (service : ServiceName)

/-- What ends a request early. -/
def reject (result : SmResult) : SmOutcome :=
  .ok (.failed result, s)

/-- Go on with a request if a check passes. -/
def check (result : SmResult) (next : SmOutcome) : SmOutcome :=
  match result with
  | .success => next
  | e => reject s e

/-- The check that a client is registered and is allowed to use, or to host, a service. -/
def checkClientAccess (isHost : Bool) : Except SmAbort SmResult := do
  if ← isInitialProcess sys pid then return .success
  else return checkAccess s.processList pid service isHost

/-- The check that a client is registered. -/
def checkClient : Except SmAbort SmResult := do
  if ← isInitialProcess sys pid then return .success
  else
    match getProcessInfo s.processList pid with
    | none => return .invalidClient
    | some _ => return .success

/-- Change a service in its slot. -/
def ServiceManager.setService (i : Nat) (info : ServiceInfo) : ServiceManager :=
  { s with serviceList := s.serviceList.set i info }

/-- `GetServiceHandle`, for a service that is registered -/
def getHandleOf (answers : SessionAnswers) (i : Nat) (info : ServiceInfo) : SmOutcome :=
  if shouldDeferForInit s service ∨ hasFutureMitmDeclaration s.futureMitmList service ∨
      info.mitmWaitingAck then
    reject s .deferredByUser
  else do
    match ← getServiceHandleImpl s.processList info pid answers with
    | .error e => reject s (convertKernelResult e)
    | .ok (reply, info) => return (reply, s.setService i info)

/-- `GetServiceHandle` -/
def getServiceHandle (answers : SessionAnswers) : SmOutcome :=
  check s (validateServiceName service)
    (if sys.isFirmware800 ∧ service = apmP then reject s .notAllowed
    else do
      let access ← checkClientAccess sys s pid service false
      check s access
        (match getServiceInfo s.serviceList service with
        | none => reject s .deferredByUser
        | some (i, info) => getHandleOf s pid service answers i info))

/-- `SM_MINIMUM_SESSION_LIMIT` of the makefile. -/
def smMinimumSessionLimit : Nat := 8

/-- `RegisterServiceImpl`. The kernel makes the two ends of a port. -/
def registerServiceImpl (maxSessions : Nat) (isLight : Bool) (port : Except Nat (Handle × Handle)) : SmOutcome :=
  check s (validateServiceName service)
    (match getServiceInfo s.serviceList service with
    | some _ => reject s .alreadyRegistered
    | none =>
      match getServiceInfo s.serviceList invalidServiceName with
      | none => reject s .insufficientServices
      | some (i, info) =>
        match port with
        | .error e => .ok (.failed (.kernel e), s.setService i { info with portH := none })
        | .ok (out, portH) => .ok (.port out, s.setService i
            { info with portH := some portH, name := service, ownerPid := pid,
                        maxSessions := max maxSessions smMinimumSessionLimit, isLight := isLight }))

/-- `RegisterService` -/
def registerService (maxSessions : Nat) (isLight : Bool) (port : Except Nat (Handle × Handle)) : SmOutcome :=
  check s (validateServiceName service) (do
    let access ← checkClientAccess sys s pid service true
    check s access
      (match getServiceInfo s.serviceList service with
      | some _ => reject s .alreadyRegistered
      | none => registerServiceImpl s pid service maxSessions isLight port))

/-- `RegisterServiceForSelf` -/
def registerServiceForSelf (selfPid : Except Nat Nat) (service : ServiceName) (maxSessions : Nat)
    (port : Except Nat (Handle × Handle)) : SmOutcome :=
  match selfPid with
  | .error e => reject s (.kernel e)
  | .ok pid => registerServiceImpl s pid service maxSessions false port

/-- What the requests on a service that has to be there have in common. -/
def withService (next : Nat → ServiceInfo → SmOutcome) : SmOutcome :=
  check s (validateServiceName service) (do
    let client ← checkClient sys s pid
    check s client
      (match getServiceInfo s.serviceList service with
      | none => reject s .notRegistered
      | some (i, info) => next i info))

/-- `UnregisterService` -/
def unregisterService : SmOutcome :=
  withService sys s pid service fun i info =>
    if info.ownerPid ≠ pid then reject s .notAllowed else .ok (.done, s.setService i .free)

/-- `InstallMitm`, for a service that is registered. The kernel makes the two ends of a port and of a
session. -/
def installMitmOf (port session : Except Nat (Handle × Handle)) (i : Nat) (info : ServiceInfo) : SmOutcome :=
  if info.mitmPid ≠ invalidProcessId then reject s .alreadyRegistered
  else
    match port, session with
    | .error e, _ => reject s (.kernel e)
    | .ok _, .error e => reject s (.kernel e)
    | .ok (out, portH), .ok (query, mitmQuery) =>
      let s := s.setService i
        { info with mitmPid := pid, mitmPortH := some portH, mitmQueryH := some mitmQuery }
      .ok (.mitm out query, { s with futureMitmList := clearFutureMitmDeclaration s.futureMitmList service })

/-- `InstallMitm` -/
def installMitm (port session : Except Nat (Handle × Handle)) : SmOutcome :=
  check s (validateServiceName service) (do
    let access ← checkClientAccess sys s pid service true
    check s access
      (match getServiceInfo s.serviceList service with
      | none => reject s .deferredByUser
      | some (i, info) => installMitmOf s pid service port session i info))

/-- `UninstallMitm` -/
def uninstallMitm : SmOutcome :=
  withService sys s pid service fun i info =>
    if info.mitmPid ≠ pid then reject s .notAllowed else .ok (.done, s.setService i info.freeMitm)

/-- `DeclareFutureMitm` -/
def declareFutureMitm : SmOutcome :=
  check s (validateServiceName service) (do
    let access ← checkClientAccess sys s pid service true
    check s access
      (if hasMitm s.serviceList service ∨ hasFutureMitmDeclaration s.futureMitmList service then
        reject s .alreadyRegistered
      else
        match addFutureMitmDeclaration s.futureMitmList service with
        | (.success, future) => .ok (.done, { s with futureMitmList := future })
        | (e, _) => reject s e))

/-- `ServiceInfo::AcknowledgeMitmSession`, and the state after it -/
def acknowledgeOf (i : Nat) (info : ServiceInfo) : SmOutcome := do
  let titleId ← getTitleIdForMitm s.processList info.mitmWaitingAckPid
  return (.acknowledged info.mitmWaitingAckPid titleId info.mitmFwdSessH, s.setService i
    { info with mitmFwdSessH := none, mitmWaitingAck := false, mitmWaitingAckPid := invalidProcessId })

/-- `AcknowledgeMitmSession` -/
def acknowledgeMitmSession : SmOutcome :=
  withService sys s pid service fun i info =>
    if info.mitmPid ≠ pid ∨ info.mitmWaitingAck = false then reject s .notAllowed
    else acknowledgeOf s i info

/-- `HasService` -/
def hasService : SmOutcome :=
  check s (validateServiceName service)
    (.ok (.flag (getServiceInfo s.serviceList service).isSome, s))

/-- `WaitService` -/
def waitService : SmOutcome :=
  check s (validateServiceName service)
    (if (getServiceInfo s.serviceList service).isSome then .ok (.done, s) else reject s .deferredByUser)

/-- `HasMitm` -/
def hasMitmRequest : SmOutcome :=
  check s (validateServiceName service) (.ok (.flag (hasMitm s.serviceList service), s))

/-- `WaitMitm` -/
def waitMitm : SmOutcome :=
  check s (validateServiceName service)
    (if hasMitm s.serviceList service then .ok (.done, s) else reject s .deferredByUser)

/-- The requests to the service manager, with what the kernel and the mitms answer. -/
inductive SmRequest
  | registerProcess (pid tid : Nat) (acid aci : List UInt8)
  | unregisterProcess (pid : Nat)
  | hasService (service : ServiceName)
  | waitService (service : ServiceName)
  | getServiceHandle (pid : Nat) (service : ServiceName) (answers : SessionAnswers)
  | registerService (pid : Nat) (service : ServiceName) (maxSessions : Nat) (isLight : Bool)
    (port : Except Nat (Handle × Handle))
  | registerServiceForSelf (selfPid : Except Nat Nat) (service : ServiceName) (maxSessions : Nat)
    (port : Except Nat (Handle × Handle))
  | unregisterService (pid : Nat) (service : ServiceName)
  | hasMitm (service : ServiceName)
  | waitMitm (service : ServiceName)
  | installMitm (pid : Nat) (service : ServiceName) (port session : Except Nat (Handle × Handle))
  | uninstallMitm (pid : Nat) (service : ServiceName)
  | declareFutureMitm (pid : Nat) (service : ServiceName)
  | acknowledgeMitmSession (pid : Nat) (service : ServiceName)
  | endInitialDefers

/-- The reply of a request on the processes. -/
def processReply (r : SmResult × ProcessList) : SmOutcome :=
  match r with
  | (.success, processes) => .ok (.done, { s with processList := processes })
  | (e, processes) => .ok (.failed e, { s with processList := processes })

/-- A request to the service manager. -/
def step : SmRequest → SmOutcome
  | .registerProcess pid tid acid aci => processReply s (registerProcess s.processList pid tid acid aci)
  | .unregisterProcess pid => processReply s (unregisterProcess s.processList pid)
  | .hasService service => hasService s service
  | .waitService service => waitService s service
  | .getServiceHandle pid service answers => getServiceHandle sys s pid service answers
  | .registerService pid service maxSessions isLight port =>
    registerService sys s pid service maxSessions isLight port
  | .registerServiceForSelf selfPid service maxSessions port =>
    registerServiceForSelf s selfPid service maxSessions port
  | .unregisterService pid service => unregisterService sys s pid service
  | .hasMitm service => hasMitmRequest s service
  | .waitMitm service => waitMitm s service
  | .installMitm pid service port session => installMitm sys s pid service port session
  | .uninstallMitm pid service => uninstallMitm sys s pid service
  | .declareFutureMitm pid service => declareFutureMitm sys s pid service
  | .acknowledgeMitmSession pid service => acknowledgeMitmSession sys s pid service
  | .endInitialDefers => .ok (.done, { s with endedInitialDefers := true })

end

/-! ## What a request can do -/

/-- The requests that only ask. -/
def SmRequest.IsQuestion : SmRequest → Prop
  | .hasService _ => True
  | .waitService _ => True
  | .hasMitm _ => True
  | .waitMitm _ => True
  | _ => False

/-- What `RegisterService` and `RegisterServiceForSelf` ask for. -/
def SmRequest.Registers (pid : Nat) (service : ServiceName) : SmRequest → Prop
  | .registerService pid' service' _ _ _ => pid' = pid ∧ service' = service
  | .registerServiceForSelf selfPid service' _ _ => selfPid = .ok pid ∧ service' = service
  | _ => False

/-- What a request that returns does, for each of the ways it can go. -/
inductive Change (sys : SystemConfig) (s : ServiceManager) : SmRequest → SmReply → ServiceManager → Prop
  | rejected {req : SmRequest} {result : SmResult} : Change sys s req (.failed result) s
  | asked {req : SmRequest} {reply : SmReply} : req.IsQuestion → Change sys s req reply s
  | registerProcess {pid tid : Nat} {acid aci : List UInt8} {processes : ProcessList} :
    Sm.registerProcess s.processList pid tid acid aci = (.success, processes) →
    Change sys s (.registerProcess pid tid acid aci) .done { s with processList := processes }
  | unregisterProcess {pid i : Nat} : getProcessInfo s.processList pid = some i →
    Change sys s (.unregisterProcess pid) .done { s with processList := s.processList.set i .free }
  | session {pid i : Nat} {service : ServiceName} {answers : SessionAnswers} {info : ServiceInfo}
    {handle : Handle} : getServiceInfo s.serviceList service = some (i, info) →
    hasFutureMitmDeclaration s.futureMitmList service = false →
    Change sys s (.getServiceHandle pid service answers) (.session handle) s
  | mitmSession {pid i tid : Nat} {service : ServiceName} {answers : SessionAnswers}
    {info : ServiceInfo} {handle forward : Handle} : pid ≠ invalidProcessId →
    getServiceInfo s.serviceList service = some (i, info) →
    hasFutureMitmDeclaration s.futureMitmList service = false → info.mitmWaitingAck = false →
    info.mitmPid ≠ invalidProcessId → getTitleIdForMitm s.processList pid = .ok tid →
    answers.connect = .ok forward →
    Change sys s (.getServiceHandle pid service answers) (.mitmSession handle forward)
      (s.setService i { info with
        mitmFwdSessH := some forward, mitmWaitingAckPid := pid, mitmWaitingAck := true })
  | registerFailed {req : SmRequest} {i e : Nat} {info : ServiceInfo} :
    getServiceInfo s.serviceList invalidServiceName = some (i, info) →
    Change sys s req (.failed (.kernel e)) (s.setService i { info with portH := none })
  | registered {req : SmRequest} {pid i maxSessions : Nat} {service : ServiceName} {isLight : Bool}
    {info : ServiceInfo} {out portH : Handle} : req.Registers pid service →
    validateServiceName service = .success → getServiceInfo s.serviceList service = none →
    getServiceInfo s.serviceList invalidServiceName = some (i, info) →
    Change sys s req (.port out) (s.setService i { info with
      portH := some portH, name := service, ownerPid := pid, maxSessions := maxSessions,
      isLight := isLight })
  | unregistered {pid i : Nat} {service : ServiceName} {info : ServiceInfo} :
    validateServiceName service = .success → getServiceInfo s.serviceList service = some (i, info) →
    info.ownerPid = pid → Change sys s (.unregisterService pid service) .done (s.setService i .free)
  | installed {pid i : Nat} {service : ServiceName} {port session : Except Nat (Handle × Handle)}
    {info : ServiceInfo} {out query portH mitmQuery : Handle} : pid ≠ invalidProcessId →
    validateServiceName service = .success → getServiceInfo s.serviceList service = some (i, info) →
    info.mitmPid = invalidProcessId →
    Change sys s (.installMitm pid service port session) (.mitm out query)
      { s.setService i { info with
          mitmPid := pid, mitmPortH := some portH, mitmQueryH := some mitmQuery } with
        futureMitmList := clearFutureMitmDeclaration s.futureMitmList service }
  | uninstalled {pid i : Nat} {service : ServiceName} {info : ServiceInfo} : pid ≠ invalidProcessId →
    getServiceInfo s.serviceList service = some (i, info) → info.mitmPid = pid →
    Change sys s (.uninstallMitm pid service) .done (s.setService i info.freeMitm)
  | declared {pid i : Nat} {service : ServiceName} : validateServiceName service = .success →
    hasMitm s.serviceList service = false →
    hasFutureMitmDeclaration s.futureMitmList service = false →
    s.futureMitmList.findIdx? (· = invalidServiceName) = some i →
    Change sys s (.declareFutureMitm pid service) .done
      { s with futureMitmList := s.futureMitmList.set i service }
  | acknowledged {pid i tid : Nat} {service : ServiceName} {info : ServiceInfo} :
    getServiceInfo s.serviceList service = some (i, info) → info.mitmPid = pid →
    info.mitmWaitingAck = true → getTitleIdForMitm s.processList info.mitmWaitingAckPid = .ok tid →
    Change sys s (.acknowledgeMitmSession pid service)
      (.acknowledged info.mitmWaitingAckPid tid info.mitmFwdSessH)
      (s.setService i { info with
        mitmFwdSessH := none, mitmWaitingAck := false, mitmWaitingAckPid := invalidProcessId })
  | ended : Change sys s .endInitialDefers .done { s with endedInitialDefers := true }

section Inversion

variable {sys : SystemConfig} {s s' : ServiceManager} {reply : SmReply}
  {next : SmOutcome}

lemma check_eq_ok {result : SmResult} (h : check s result next = .ok (reply, s')) :
    result = .success ∧ next = .ok (reply, s') ∨ reply = .failed result ∧ s' = s := by
  unfold check at h
  split at h
  · exact .inl ⟨rfl, h⟩
  · cases h
    exact .inr ⟨rfl, rfl⟩

lemma check_eq_error {result : SmResult}
    {e : SmAbort} (h : check s result next = .error e) : result = .success ∧ next = .error e := by
  unfold check at h
  split at h
  · exact ⟨rfl, h⟩
  · cases h

variable {pid : Nat}

lemma isInitialProcess_eq_ok {b : Bool} (h : isInitialProcess sys pid = .ok b) : pid ≠ invalidProcessId := by
  rw [isInitialProcess] at h
  split at h
  · cases h
  · next hpid => exact hpid

variable {service : ServiceName}

lemma checkClientAccess_eq_ok {isHost : Bool} {r : SmResult}
    (h : checkClientAccess sys s pid service isHost = .ok r) : pid ≠ invalidProcessId := by
  rw [checkClientAccess] at h
  obtain ⟨b, hb, -⟩ := bind_eq_ok h
  exact isInitialProcess_eq_ok hb

lemma checkClient_eq_ok {r : SmResult} (h : checkClient sys s pid = .ok r) : pid ≠ invalidProcessId := by
  rw [checkClient] at h
  obtain ⟨b, hb, -⟩ := bind_eq_ok h
  exact isInitialProcess_eq_ok hb

/-- A request on a service that has to be there goes on, or is rejected. -/
lemma withService_eq_ok {next : Nat → ServiceInfo → SmOutcome}
    (h : withService sys s pid service next = .ok (reply, s')) :
    (∃ i info, validateServiceName service = .success ∧ pid ≠ invalidProcessId ∧
        getServiceInfo s.serviceList service = some (i, info) ∧ next i info = .ok (reply, s')) ∨
      ∃ result, reply = .failed result ∧ s' = s := by
  rw [withService] at h
  obtain ⟨hname, h⟩ | ⟨hreply, hs⟩ := check_eq_ok h
  · obtain ⟨r, hr, h⟩ := bind_eq_ok h
    obtain ⟨-, h⟩ | ⟨hreply, hs⟩ := check_eq_ok h
    · split at h
      · cases h
        exact .inr ⟨_, rfl, rfl⟩
      · next i info hinfo => exact .inl ⟨i, info, hname, checkClient_eq_ok hr, hinfo, h⟩
    · exact .inr ⟨r, hreply, hs⟩
  · exact .inr ⟨_, hreply, hs⟩

/-- `GetServiceHandleImpl` gives a normal session, or a mitm session that it notes in the service. -/
lemma getServiceHandleImpl_cases {processes : ProcessList} {info info' : ServiceInfo} {answers : SessionAnswers}
    (h : getServiceHandleImpl processes info pid answers = .ok (.ok (reply, info'))) :
    (∃ handle, reply = .session handle ∧ info' = info) ∨
      ∃ handle forward tid, reply = .mitmSession handle forward ∧ answers.connect = .ok forward ∧
        info.mitmPid ≠ invalidProcessId ∧ getTitleIdForMitm processes pid = .ok tid ∧
        info' = { info with
          mitmFwdSessH := some forward, mitmWaitingAckPid := pid, mitmWaitingAck := true } := by
  have hconnect : ∀ {info'}, connectToPort info answers = .ok (reply, info') →
      ∃ handle, reply = .session handle ∧ info' = info := by
    intro info' h
    obtain ⟨handle, -, h⟩ := bind_eq_ok h
    cases h
    exact ⟨handle, rfl, rfl⟩
  unfold getServiceHandleImpl at h
  split at h
  · next hmitm =>
    obtain ⟨tid, htid, h⟩ := bind_eq_ok h
    split at h
    · exact .inl (hconnect (Except.ok.inj h))
    · split at h
      · cases h
      · next session hsession =>
        obtain rfl : session = (reply, info') := Except.ok.inj (Except.ok.inj h)
        obtain ⟨shouldMitm, -, hsession⟩ := bind_eq_ok hsession
        split at hsession
        · obtain ⟨handle, -, hsession⟩ := bind_eq_ok hsession
          cases hsession
          exact .inl ⟨handle, rfl, rfl⟩
        · obtain ⟨forward, hforward, hsession⟩ := bind_eq_ok hsession
          obtain ⟨handle, -, hsession⟩ := bind_eq_ok hsession
          cases hsession
          exact .inr ⟨handle, forward, tid, rfl, hforward, hmitm.1, htid, rfl⟩
  · exact .inl (hconnect (Except.ok.inj h))

/-- A service put back as it was. -/
lemma setService_self {i : Nat} {info : ServiceInfo}
    (h : getServiceInfo s.serviceList service = some (i, info)) : s.setService i info = s := by
  obtain ⟨hslot, -⟩ := find_eq_some.mp h
  obtain ⟨hlt, rfl⟩ := List.getElem?_eq_some_iff.mp hslot
  rw [ServiceManager.setService, List.set_getElem_self]

lemma getServiceHandle_change {answers : SessionAnswers}
    (h : getServiceHandle sys s pid service answers = .ok (reply, s')) :
    Change sys s (.getServiceHandle pid service answers) reply s' := by
  obtain ⟨-, h⟩ | ⟨rfl, rfl⟩ := check_eq_ok h
  · split at h
    · cases h
      exact .rejected
    · obtain ⟨access, haccess, h⟩ := bind_eq_ok h
      obtain ⟨-, h⟩ | ⟨rfl, rfl⟩ := check_eq_ok h
      · split at h
        · cases h
          exact .rejected
        · next i info hinfo =>
          unfold getHandleOf at h
          split at h
          · cases h
            exact .rejected
          · next hdefer =>
            obtain ⟨outcome, houtcome, h⟩ := bind_eq_ok h
            simp only [not_or, Bool.not_eq_true] at hdefer
            obtain ⟨-, hfuture, hwaiting⟩ := hdefer
            split at h
            · cases h
              exact .rejected
            · cases h
              obtain ⟨handle, rfl, rfl⟩ | ⟨handle, forward, tid, rfl, hforward, hmitm, htid, rfl⟩ :=
                getServiceHandleImpl_cases houtcome
              · rw [setService_self hinfo]
                exact .session hinfo hfuture
              · exact .mitmSession (checkClientAccess_eq_ok haccess) hinfo hfuture hwaiting hmitm htid
                  hforward
      · exact .rejected
  · exact .rejected

variable {port : Except Nat (Handle × Handle)}

lemma registerServiceImpl_change {req : SmRequest} {pid maxSessions : Nat}
    {isLight : Bool} (hreq : req.Registers pid service)
    (h : registerServiceImpl s pid service maxSessions isLight port = .ok (reply, s')) : Change sys s req reply s' := by
  obtain ⟨hname, h⟩ | ⟨rfl, rfl⟩ := check_eq_ok h
  · split at h
    · cases h
      exact .rejected
    · next hnone =>
      split at h
      · cases h
        exact .rejected
      · next i info hfree =>
        split at h
        · cases h
          exact .registerFailed hfree
        · cases h
          exact .registered hreq hname hnone hfree
  · exact .rejected

lemma registerService_change {pid maxSessions : Nat} {isLight : Bool}
    (h : registerService sys s pid service maxSessions isLight port = .ok (reply, s')) :
    Change sys s (.registerService pid service maxSessions isLight port) reply s' := by
  obtain ⟨-, h⟩ | ⟨rfl, rfl⟩ := check_eq_ok h
  · obtain ⟨access, -, h⟩ := bind_eq_ok h
    obtain ⟨-, h⟩ | ⟨rfl, rfl⟩ := check_eq_ok h
    · split at h
      · cases h
        exact .rejected
      · exact registerServiceImpl_change ⟨rfl, rfl⟩ h
    · exact .rejected
  · exact .rejected

lemma installMitm_change {port session : Except Nat (Handle × Handle)}
    (h : installMitm sys s pid service port session = .ok (reply, s')) :
    Change sys s (.installMitm pid service port session) reply s' := by
  obtain ⟨hname, h⟩ | ⟨rfl, rfl⟩ := check_eq_ok h
  · obtain ⟨access, haccess, h⟩ := bind_eq_ok h
    obtain ⟨-, h⟩ | ⟨rfl, rfl⟩ := check_eq_ok h
    · split at h
      · cases h
        exact .rejected
      · next i info hinfo =>
        unfold installMitmOf at h
        split at h
        · cases h
          exact .rejected
        · next hmitm =>
          split at h
          · cases h
            exact .rejected
          · cases h
            exact .rejected
          · cases h
            exact .installed (checkClientAccess_eq_ok haccess) hname hinfo (not_not.mp hmitm)
    · exact .rejected
  · exact .rejected

lemma declareFutureMitm_change (h : declareFutureMitm sys s pid service = .ok (reply, s')) :
    Change sys s (.declareFutureMitm pid service) reply s' := by
  obtain ⟨hname, h⟩ | ⟨rfl, rfl⟩ := check_eq_ok h
  · obtain ⟨access, -, h⟩ := bind_eq_ok h
    obtain ⟨-, h⟩ | ⟨rfl, rfl⟩ := check_eq_ok h
    · split at h
      · cases h
        exact .rejected
      · next hfree =>
        simp only [not_or, Bool.not_eq_true] at hfree
        rw [addFutureMitmDeclaration] at h
        cases hidx : s.futureMitmList.findIdx? (· = invalidServiceName) with
        | none =>
          rw [hidx] at h
          cases h
          exact .rejected
        | some i =>
          rw [hidx] at h
          cases h
          exact .declared hname hfree.1 hfree.2 hidx
    · exact .rejected
  · exact .rejected

lemma acknowledgeMitmSession_change (h : acknowledgeMitmSession sys s pid service = .ok (reply, s')) :
    Change sys s (.acknowledgeMitmSession pid service) reply s' := by
  obtain ⟨i, info, -, -, hinfo, h⟩ | ⟨result, rfl, rfl⟩ := withService_eq_ok h
  · split at h
    · cases h
      exact .rejected
    · next hwaiting =>
      simp only [not_or, not_not, Bool.not_eq_false] at hwaiting
      obtain ⟨tid, htid, h⟩ := bind_eq_ok h
      cases h
      exact .acknowledged hinfo hwaiting.1 hwaiting.2 htid
  · exact .rejected

lemma unregisterService_change (h : unregisterService sys s pid service = .ok (reply, s')) :
    Change sys s (.unregisterService pid service) reply s' := by
  obtain ⟨i, info, hname, -, hinfo, h⟩ | ⟨result, rfl, rfl⟩ := withService_eq_ok h
  · split at h
    · cases h
      exact .rejected
    · next howner =>
      cases h
      exact .unregistered hname hinfo (not_not.mp howner)
  · exact .rejected

lemma uninstallMitm_change (h : uninstallMitm sys s pid service = .ok (reply, s')) :
    Change sys s (.uninstallMitm pid service) reply s' := by
  obtain ⟨i, info, -, hpid, hinfo, h⟩ | ⟨result, rfl, rfl⟩ := withService_eq_ok h
  · split at h
    · cases h
      exact .rejected
    · next hmitm =>
      cases h
      exact .uninstalled hpid hinfo (not_not.mp hmitm)
  · exact .rejected

lemma registerProcess_change {pid tid : Nat} {acid aci : List UInt8}
    (h : processReply s (registerProcess s.processList pid tid acid aci) = .ok (reply, s')) :
    Change sys s (.registerProcess pid tid acid aci) reply s' := by
  cases hregister : registerProcess s.processList pid tid acid aci with
  | mk result processes =>
    rw [hregister] at h
    unfold processReply at h
    split at h
    · next heq =>
      cases heq
      cases h
      exact .registerProcess hregister
    · next hfail heq =>
      cases heq
      cases h
      have hsame : processes = s.processList := by
        rw [registerProcess] at hregister
        split at hregister
        · exact (Prod.mk.inj hregister).2.symm
        · split at hregister
          · exact (Prod.mk.inj hregister).2.symm
          · split at hregister
            · exact (Prod.mk.inj hregister).2.symm
            · split at hregister
              · exact absurd (Prod.mk.inj hregister).1.symm (by simpa using hfail)
              · exact (Prod.mk.inj hregister).2.symm
      rw [hsame]
      exact .rejected

lemma unregisterProcess_change (h : processReply s (unregisterProcess s.processList pid) = .ok (reply, s')) :
    Change sys s (.unregisterProcess pid) reply s' := by
  unfold unregisterProcess at h
  split at h
  · cases h
    exact .rejected
  · next i hi =>
    cases h
    exact .unregisterProcess hi

/-- Every request that returns does one of these. -/
lemma step_change {req : SmRequest} (h : step sys s req = .ok (reply, s')) : Change sys s req reply s' := by
  cases req with
  | registerProcess pid tid acid aci => exact registerProcess_change h
  | unregisterProcess pid => exact unregisterProcess_change h
  | hasService service =>
    obtain ⟨-, h⟩ | ⟨rfl, rfl⟩ := check_eq_ok h
    · cases h
      exact .asked trivial
    · exact .rejected
  | waitService service =>
    obtain ⟨-, h⟩ | ⟨rfl, rfl⟩ := check_eq_ok h
    · split at h
      · cases h
        exact .asked trivial
      · cases h
        exact .rejected
    · exact .rejected
  | getServiceHandle pid service answers => exact getServiceHandle_change h
  | registerService pid service maxSessions isLight port => exact registerService_change h
  | registerServiceForSelf selfPid service maxSessions port =>
    cases selfPid with
    | error e =>
      cases h
      exact .rejected
    | ok pid => exact registerServiceImpl_change ⟨rfl, rfl⟩ h
  | unregisterService pid service => exact unregisterService_change h
  | hasMitm service =>
    obtain ⟨-, h⟩ | ⟨rfl, rfl⟩ := check_eq_ok h
    · cases h
      exact .asked trivial
    · exact .rejected
  | waitMitm service =>
    obtain ⟨-, h⟩ | ⟨rfl, rfl⟩ := check_eq_ok h
    · split at h
      · cases h
        exact .asked trivial
      · cases h
        exact .rejected
    · exact .rejected
  | installMitm pid service port session => exact installMitm_change h
  | uninstallMitm pid service => exact uninstallMitm_change h
  | declareFutureMitm pid service => exact declareFutureMitm_change h
  | acknowledgeMitmSession pid service => exact acknowledgeMitmSession_change h
  | endInitialDefers =>
    cases h
    exact .ended

end Inversion

/-! ## One service -/

lemma ne_invalid_of_validate {service : ServiceName} (h : validateServiceName service = .success) :
    service ≠ invalidServiceName := by
  rintro rfl
  revert h
  decide

/-- A slot that is free has no mitm, and none waits for it. -/
def ServiceInfo.Clean (info : ServiceInfo) : Prop :=
  info.name = invalidServiceName → info.mitmPid = invalidProcessId ∧ info.mitmWaitingAck = false

/-- The requests that change a service, with the replies with which they do so. -/
def Touches (n : ServiceName) : SmRequest → SmReply → Prop
  | .getServiceHandle _ service _, .mitmSession _ _ => service = n
  | .registerService _ service _ _ _, .port _ => service = n
  | .registerServiceForSelf _ service _ _, .port _ => service = n
  | .unregisterService _ service, .done => service = n
  | .installMitm _ service _ _, .mitm _ _ => service = n
  | .uninstallMitm _ service, .done => service = n
  | .acknowledgeMitmSession _ service, .acknowledged _ _ _ => service = n
  | _, _ => False

/-- What a request does to one service, given by its slot and its info before and after. -/
inductive ServiceChange (n : ServiceName) (processes : ProcessList) : SmRequest → SmReply →
    Option (Nat × ServiceInfo) → Option (Nat × ServiceInfo) → Prop
  | untouched {req : SmRequest} {reply : SmReply} {o : Option (Nat × ServiceInfo)} :
    ¬Touches n req reply → ServiceChange n processes req reply o o
  | handed {pid i tid : Nat} {answers : SessionAnswers} {info : ServiceInfo} {handle forward : Handle} :
    pid ≠ invalidProcessId → info.mitmWaitingAck = false → info.mitmPid ≠ invalidProcessId →
    getTitleIdForMitm processes pid = .ok tid → answers.connect = .ok forward →
    ServiceChange n processes (.getServiceHandle pid n answers) (.mitmSession handle forward)
      (some (i, info)) (some (i, { info with
        mitmFwdSessH := some forward, mitmWaitingAckPid := pid, mitmWaitingAck := true }))
  | registered {req : SmRequest} {pid i maxSessions : Nat} {isLight : Bool} {info : ServiceInfo}
    {out portH : Handle} : req.Registers pid n → info.mitmPid = invalidProcessId →
    info.mitmWaitingAck = false →
    ServiceChange n processes req (.port out) none (some (i, { info with
      portH := some portH, name := n, ownerPid := pid, maxSessions := maxSessions,
      isLight := isLight }))
  | unregistered {i : Nat} {info : ServiceInfo} :
    ServiceChange n processes (.unregisterService info.ownerPid n) .done (some (i, info)) none
  | installed {pid i : Nat} {port session : Except Nat (Handle × Handle)} {info : ServiceInfo}
    {out query portH mitmQuery : Handle} : pid ≠ invalidProcessId → info.mitmPid = invalidProcessId →
    ServiceChange n processes (.installMitm pid n port session) (.mitm out query) (some (i, info))
      (some (i, { info with
        mitmPid := pid, mitmPortH := some portH, mitmQueryH := some mitmQuery }))
  | uninstalled {i : Nat} {info : ServiceInfo} : info.mitmPid ≠ invalidProcessId →
    ServiceChange n processes (.uninstallMitm info.mitmPid n) .done (some (i, info))
      (some (i, info.freeMitm))
  | acknowledged {i tid : Nat} {info : ServiceInfo} : info.mitmWaitingAck = true →
    getTitleIdForMitm processes info.mitmWaitingAckPid = .ok tid →
    ServiceChange n processes (.acknowledgeMitmSession info.mitmPid n)
      (.acknowledged info.mitmWaitingAckPid tid info.mitmFwdSessH) (some (i, info))
      (some (i, { info with
        mitmFwdSessH := none, mitmWaitingAck := false, mitmWaitingAckPid := invalidProcessId }))

section View

variable {sys : SystemConfig} {s s' : ServiceManager} {req : SmRequest} {reply : SmReply}
  {n service : ServiceName} {i : Nat} {info info' : ServiceInfo} {l : List ServiceInfo}

lemma name_of_getServiceInfo (h : getServiceInfo l service = some (i, info)) : info.name = service :=
  (find_eq_some.mp h).2.1

/-- Another service than the one that is changed. -/
lemma getServiceInfo_set_of_ne (h : getServiceInfo l service = some (i, info)) (hn : service ≠ n)
    (hname : info'.name ≠ n) : getServiceInfo (l.set i info') n = getServiceInfo l n := by
  obtain ⟨hslot, hkey, -⟩ := find_eq_some.mp h
  exact find_set_of_ne hslot (by rw [hkey]; exact hn) hname

lemma not_touches_failed {result : SmResult} : ¬Touches n req (.failed result) := by
  cases req <;> exact id

lemma ServiceChange.untouched_of_eq {processes : ProcessList} {o o' : Option (Nat × ServiceInfo)}
    (heq : o' = o) (h : ¬Touches n req reply) : ServiceChange n processes req reply o o' :=
  heq ▸ .untouched h

/-- A service that keeps its name and its slot, seen from any service. -/
lemma view_of_update {processes : ProcessList} (h : getServiceInfo l service = some (i, info))
    (hname : info'.name = info.name) (hother : service ≠ n → ¬Touches n req reply)
    (hself : service = n → ServiceChange n processes req reply (some (i, info)) (some (i, info'))) :
    ServiceChange n processes req reply (getServiceInfo l n) (getServiceInfo (l.set i info') n) := by
  have hservice : info'.name = service := hname.trans (name_of_getServiceInfo h)
  by_cases hn : service = n
  · have hset : getServiceInfo (l.set i info') n = some (i, info') := by
      rw [← hn]
      exact find_set_self h hservice
    rw [hset, ← hn, h]
    exact hn ▸ hself hn
  · rw [getServiceInfo_set_of_ne h hn (fun heq => hn (hservice.symm.trans heq))]
    exact .untouched (hother hn)

/-- What a request does, seen from one service. -/
lemma Change.view (h : Change sys s req reply s') (hn : n ≠ invalidServiceName)
    (hunique : Unique ServiceInfo.name invalidServiceName s.serviceList) (hclean : ∀ info ∈ s.serviceList, info.Clean) :
    ServiceChange n s.processList req reply (getServiceInfo s.serviceList n)
      (getServiceInfo s'.serviceList n) := by
  cases h with
  | rejected => exact .untouched not_touches_failed
  | asked hquestion => exact .untouched (by cases req <;> first | exact hquestion.elim | exact id)
  | registerProcess _ => exact .untouched id
  | unregisterProcess _ => exact .untouched id
  | session _ _ => exact .untouched id
  | mitmSession hpid hinfo _ hwaiting hmitm htid hforward =>
    exact view_of_update hinfo rfl id fun heq => heq ▸ .handed hpid hwaiting hmitm htid hforward
  | registerFailed hfree =>
    refine .untouched_of_eq (getServiceInfo_set_of_ne hfree hn.symm ?_) not_touches_failed
    exact fun h => hn ((name_of_getServiceInfo hfree).symm.trans h).symm
  | @registered _ pid i maxSessions service isLight info out portH hreq hvalid hnone hfree =>
    by_cases hservice : service = n
    · obtain ⟨hslot, hname, -⟩ := find_eq_some.mp hfree
      have hlt := (List.getElem?_eq_some_iff.mp hslot).1
      obtain ⟨hmitm, hwaiting⟩ := hclean info (List.mem_of_getElem? hslot) hname
      rw [hservice] at hnone hreq ⊢
      rw [hnone]
      have hview : getServiceInfo (s.setService i { info with
          portH := some portH, name := n, ownerPid := pid, maxSessions := maxSessions,
          isLight := isLight }).serviceList n = _ := find_set_new hnone hlt rfl
      rw [hview]
      exact .registered hreq hmitm hwaiting
    · refine .untouched_of_eq (getServiceInfo_set_of_ne hfree hn.symm hservice) ?_
      cases req <;> first | exact id | exact fun h => hservice (hreq.2 ▸ h)
  | @unregistered pid i service info hvalid hinfo howner =>
    subst howner
    by_cases hservice : service = n
    · rw [hservice] at hinfo ⊢
      have hview : getServiceInfo (s.setService i .free).serviceList n = none :=
        find_set_free hunique hinfo hn rfl
      rw [hview, hinfo]
      exact .unregistered
    · exact .untouched_of_eq (getServiceInfo_set_of_ne hinfo hservice hn.symm) hservice
  | installed hpid hvalid hinfo hmitm =>
    exact view_of_update hinfo rfl id fun heq => heq ▸ .installed hpid hmitm
  | uninstalled hpid hinfo hmitm =>
    subst hmitm
    exact view_of_update hinfo rfl id fun heq => heq ▸ .uninstalled hpid
  | declared _ _ _ _ => exact .untouched id
  | acknowledged hinfo hmitm hwaiting htid =>
    subst hmitm
    exact view_of_update hinfo rfl id fun heq => heq ▸ .acknowledged hwaiting htid
  | ended => exact .untouched id

end View

end RajNX.Sm
