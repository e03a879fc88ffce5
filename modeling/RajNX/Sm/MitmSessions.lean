import RajNX.Sm.ServiceTable

/-!
# Sessions handed over to a mitm

A session of a client with a service that has a mitm is handed over to it: the service keeps the client
and the forward session until the mitm acknowledges, and no other client is answered meanwhile. While the
mitm stays, every session is acknowledged in its turn.

`FreeMitm` leaves the hand-off behind, and nothing keeps the process info of the client until the
acknowledgement. `SettledUninstall` and `KnownClient` are the conditions under which neither matters.
-/

namespace RajNX.Sm

open Slots Fallible

/-- Runs all of whose requests meet a condition in the state before them. -/
inductive RunWhere (sys : SystemConfig) (ok : ServiceManager → SmRequest → Prop)
    (start : ServiceManager) : List (SmRequest × SmReply) → ServiceManager → Prop
  | start : RunWhere sys ok start [] start
  | request {t : List (SmRequest × SmReply)} {s s' : ServiceManager} {req : SmRequest}
    {reply : SmReply} : RunWhere sys ok start t s → ok s req → step sys s req = .ok (reply, s') →
    RunWhere sys ok start ((req, reply) :: t) s'

section Runs

variable {sys : SystemConfig} {ok : ServiceManager → SmRequest → Prop} {start s : ServiceManager}
  {t : List (SmRequest × SmReply)}

lemma RunWhere.run (h : RunWhere sys ok start t s) : Run sys start t s := by
  induction h with
  | start => exact .start
  | request _ _ hstep ih => exact .request ih hstep

lemma Run.where (h : Run sys start t s) (hok : ∀ e ∈ t, ∀ s, ok s e.1) : RunWhere sys ok start t s := by
  induction h with
  | start => exact .start
  | request _ hstep ih =>
    obtain ⟨hreq, hok⟩ := List.forall_mem_cons.mp hok
    exact .request (ih hok) (hreq _) hstep

lemma RunWhere.at {after before : List (SmRequest × SmReply)} {req : SmRequest} {reply : SmReply}
    (h : RunWhere sys ok start (after ++ (req, reply) :: before) s) :
    ∃ s₁ s₂, RunWhere sys ok start before s₁ ∧ step sys s₁ req = .ok (reply, s₂) := by
  induction after generalizing s with
  | nil =>
    cases h with
    | request hrun _ hstep => exact ⟨_, _, hrun, hstep⟩
  | cons e after ih =>
    cases h with
    | request hrun _ _ => exact ih hrun

end Runs

/-! ## The order of the sessions -/

/-- The title id of a process, if there is one. -/
def titleIdOf (processes : ProcessList) (pid : Nat) : Nat :=
  match getTitleIdForMitm processes pid with
  | .ok tid => tid
  | .error _ => 0

/-- What a mitm is to learn of a session: the client, its title id and the forward session. -/
abbrev HandOff := Nat × Nat × Option Handle

/-- The session with a service that a request hands over. -/
def handOff (processes : ProcessList) (n : ServiceName) : SmRequest × SmReply → List HandOff
  | (.getServiceHandle pid service _, .mitmSession _ forward) =>
    if service = n then [(pid, titleIdOf processes pid, some forward)] else []
  | _ => []

/-- The session with a service that a request acknowledges. -/
def acknowledgement (n : ServiceName) : SmRequest × SmReply → List HandOff
  | (.acknowledgeMitmSession _ service, .acknowledged pid tid forward) =>
    if service = n then [(pid, tid, forward)] else []
  | _ => []

/-- The sessions with a service that were answered with a mitm session, in their order. -/
def handOffs (processes : ProcessList) (n : ServiceName) (t : List (SmRequest × SmReply)) : List HandOff :=
  t.reverse.flatMap (handOff processes n)

/-- What the acknowledgements of a service returned, in their order. -/
def acknowledgements (n : ServiceName) (t : List (SmRequest × SmReply)) : List HandOff :=
  t.reverse.flatMap (acknowledgement n)

/-- The hand-off that a service waits with. -/
def outstanding (processes : ProcessList) : Option (Nat × ServiceInfo) → List HandOff
  | none => []
  | some (_, info) =>
    if info.mitmWaitingAck then
      [(info.mitmWaitingAckPid, titleIdOf processes info.mitmWaitingAckPid, info.mitmFwdSessH)]
    else []

/-- The requests that may come while a mitm stays: any but the unregistering of its service, its own
uninstalling and changes of the processes. -/
def SmRequest.Keeps (n : ServiceName) : SmRequest → Prop
  | .unregisterService _ service => service ≠ n
  | .uninstallMitm _ service => service ≠ n
  | .registerProcess _ _ _ _ => False
  | .unregisterProcess _ => False
  | _ => True

section Order

variable {sys : SystemConfig} {s s' : ServiceManager} {req : SmRequest} {reply : SmReply}
  {n : ServiceName} {t : List (SmRequest × SmReply)} {processes : ProcessList}

lemma titleIdOf_eq {pid tid : Nat} (h : getTitleIdForMitm processes pid = .ok tid) : titleIdOf processes pid = tid := by
  rw [titleIdOf, h]

lemma handOffs_cons {e : SmRequest × SmReply} :
    handOffs processes n (e :: t) = handOffs processes n t ++ handOff processes n e := by
  rw [handOffs, List.reverse_cons, List.flatMap_append, List.flatMap_singleton]
  rfl

lemma acknowledgements_cons {e : SmRequest × SmReply} :
    acknowledgements n (e :: t) = acknowledgements n t ++ acknowledgement n e := by
  rw [acknowledgements, List.reverse_cons, List.flatMap_append, List.flatMap_singleton]
  rfl

lemma Change.processList_eq (h : Change sys s req reply s') (hreq : req.Keeps n) : s'.processList = s.processList := by
  cases h with
  | registerProcess _ => exact hreq.elim
  | unregisterProcess _ => exact hreq.elim
  | rejected => rfl
  | asked _ => rfl
  | session _ _ => rfl
  | mitmSession _ _ _ _ _ _ _ => rfl
  | registerFailed _ => rfl
  | registered _ _ _ _ => rfl
  | unregistered _ _ _ => rfl
  | installed _ _ _ _ => rfl
  | uninstalled _ _ _ => rfl
  | declared _ _ _ _ => rfl
  | acknowledged _ _ _ _ => rfl
  | ended => rfl

/-- A request that does not touch a service hands nothing over and acknowledges nothing. -/
lemma handOff_of_untouched (h : ¬Touches n req reply) :
    handOff processes n (req, reply) = [] ∧ acknowledgement n (req, reply) = [] := by
  constructor
  · unfold handOff
    split
    · next heq =>
      cases heq
      exact if_neg h
    · rfl
  · unfold acknowledgement
    split
    · next heq =>
      cases heq
      exact if_neg h
    · rfl

variable {info : ServiceInfo}

lemma outstanding_of_waiting {i : Nat} (h : info.mitmWaitingAck = true) :
    outstanding processes (some (i, info)) =
      [(info.mitmWaitingAckPid, titleIdOf processes info.mitmWaitingAckPid, info.mitmFwdSessH)] :=
  if_pos h

lemma outstanding_of_not_waiting {i : Nat} (h : info.mitmWaitingAck = false) :
    outstanding processes (some (i, info)) = [] :=
  if_neg (by rw [h]; exact Bool.false_ne_true)

/-- A service hands one session over at a time, and the next acknowledgement is of that one. -/
lemma ServiceChange.queue {o o' : Option (Nat × ServiceInfo)}
    (h : ServiceChange n processes req reply o o') (hreq : req.Keeps n) :
    outstanding processes o ++ handOff processes n (req, reply) =
      acknowledgement n (req, reply) ++ outstanding processes o' := by
  cases h with
  | untouched huntouched =>
    obtain ⟨hhand, hack⟩ := handOff_of_untouched huntouched
    rw [hhand, hack, List.append_nil, List.nil_append]
  | @handed pid i tid answers info handle forward hpid hwaiting hmitm htid hforward =>
    rw [outstanding_of_not_waiting hwaiting, outstanding_of_waiting rfl]
    exact if_pos rfl
  | @registered _ pid i maxSessions isLight info out portH hreg hmitm hwaiting =>
    have hnew : outstanding processes (some (i, { info with
        portH := some portH, name := n, ownerPid := pid, maxSessions := maxSessions,
        isLight := isLight })) = [] := outstanding_of_not_waiting hwaiting
    rw [hnew]
    cases req <;> rfl
  | unregistered => exact absurd rfl hreq
  | installed hpid hmitm => exact List.append_nil _
  | uninstalled hmitm => exact absurd rfl hreq
  | acknowledged hwaiting htid =>
    rw [outstanding_of_waiting hwaiting, outstanding_of_not_waiting rfl, titleIdOf_eq htid, acknowledgement, if_pos rfl]
    rfl

lemma Run.processList_eq {start : ServiceManager} (h : Run sys start t s)
    (hkeeps : ∀ e ∈ t, e.1.Keeps n) : s.processList = start.processList := by
  induction h with
  | start => rfl
  | request _ hstep ih =>
    obtain ⟨hreq, hkeeps⟩ := List.forall_mem_cons.mp hkeeps
    exact ((step_change hstep).processList_eq hreq).trans (ih hkeeps)

/-- The sessions that were handed over are those that were acknowledged, and the one that a service
waits with. -/
lemma Run.queue {start : ServiceManager} (h : Run sys start t s) (hstart : TableInvariant start)
    (hn : n ≠ invalidServiceName) (hkeeps : ∀ e ∈ t, e.1.Keeps n) :
    outstanding start.processList (getServiceInfo start.serviceList n) ++ handOffs start.processList n t =
      acknowledgements n t ++ outstanding start.processList (getServiceInfo s.serviceList n) := by
  induction h with
  | start => exact List.append_nil _
  | request hrun hstep ih =>
    obtain ⟨hreq, hkeeps⟩ := List.forall_mem_cons.mp hkeeps
    have htables := hrun.tableInvariant hstart
    have hview := (step_change hstep).view hn htables.unique htables.clean
    rw [hrun.processList_eq hkeeps] at hview
    rw [handOffs_cons, acknowledgements_cons, ← List.append_assoc, ih hkeeps, List.append_assoc,
      hview.queue hreq, List.append_assoc]

lemma outstanding_length_le {o : Option (Nat × ServiceInfo)} : (outstanding processes o).length ≤ 1 := by
  unfold outstanding
  split
  · exact Nat.zero_le 1
  · split
    · exact Nat.le_refl 1
    · exact Nat.zero_le 1

/-- A slot with a mitm, or with a hand-off that waits, is not free. -/
lemma TableInvariant.name_ne (hs : TableInvariant s) (hmem : info ∈ s.serviceList)
    (hinfo : info.mitmPid ≠ invalidProcessId ∨ info.mitmWaitingAck = true) : info.name ≠ invalidServiceName := by
  intro hname
  obtain ⟨hmitm, hwaiting⟩ := hs.clean info hmem hname
  rcases hinfo with hinfo | hinfo
  · exact hinfo hmitm
  · rw [hwaiting] at hinfo
    cases hinfo

/-- The name of a service with a mitm, or with a hand-off that waits, is valid. -/
lemma TableInvariant.service_ne {i : Nat} (hs : TableInvariant s)
    (hinfo : getServiceInfo s.serviceList n = some (i, info))
    (hmitm : info.mitmPid ≠ invalidProcessId ∨ info.mitmWaitingAck = true) : n ≠ invalidServiceName := by
  obtain ⟨hslot, hname, -⟩ := find_eq_some.mp hinfo
  rw [← hname]
  exact hs.name_ne (List.mem_of_getElem? hslot) hmitm

end Order

/-- While a service keeps its mitm, the sessions that are handed over are acknowledged in their order, each
with the client, the title id and the forward session it was made for. At most one of them waits. -/
theorem mitm_sessions_in_order (sys : SystemConfig) (t₀ t : List (SmRequest × SmReply)) (s₀ s : ServiceManager)
    (n : ServiceName) (i : Nat) (info : ServiceInfo) (h₀ : Run sys startState t₀ s₀)
    (hinfo : getServiceInfo s₀.serviceList n = some (i, info)) (hmitm : info.mitmPid ≠ invalidProcessId)
    (h : Run sys s₀ t s) (hkeeps : ∀ e ∈ t, e.1.Keeps n) :
    outstanding s₀.processList (some (i, info)) ++ handOffs s₀.processList n t =
        acknowledgements n t ++ outstanding s.processList (getServiceInfo s.serviceList n) ∧
      (outstanding s.processList (getServiceInfo s.serviceList n)).length ≤ 1 ∧
      (info.mitmWaitingAck = false → ∀ (k : Nat) (handed : HandOff),
        (acknowledgements n t)[k]? = some handed → (handOffs s₀.processList n t)[k]? = some handed) := by
  have htables := h₀.tableInvariant tableInvariant_start
  have hqueue := h.queue htables (htables.service_ne hinfo (.inl hmitm)) hkeeps
  rw [hinfo] at hqueue
  refine ⟨?_, outstanding_length_le, ?_⟩
  · rw [h.processList_eq hkeeps]
    exact hqueue
  · intro hwaiting k handed hk
    rw [outstanding_of_not_waiting hwaiting, List.nil_append] at hqueue
    rw [hqueue]
    rw [List.getElem?_append_left (List.getElem?_eq_some_iff.mp hk).1]
    exact hk

section Example

/-- A firmware of 8.0.0 or later, with the usual range of the initial processes. -/
def exampleSystem : SystemConfig := ⟨0, 0x50, true⟩

/-- A service `a` of process 1. -/
def exampleService : ServiceName := .encode [0x61] 1

/-- The info of the service with a mitm of a process. -/
def exampleInfo (mitmPid : Nat) : ServiceInfo :=
  { ServiceInfo.free with
    portH := some 11, name := exampleService, ownerPid := 1, maxSessions := 8,
    mitmPid := mitmPid, mitmPortH := some 21, mitmQueryH := some 23 }

/-- Process 2 has a process info, and the service has a mitm of process 3. -/
def exampleState : ServiceManager where
  processList := emptyProcessList.set 0 (ProcessInfo.free.save 2 0x1000 [0] (by decide))
  serviceList := (List.replicate 0x100 .free).set 0 (exampleInfo 3)
  futureMitmList := List.replicate 0x20 invalidServiceName
  endedInitialDefers := false

/-- How that state is reached. -/
def exampleTrace : List (SmRequest × SmReply) :=
  [(.installMitm 3 exampleService (.ok (20, 21)) (.ok (22, 23)), .mitm 20 22),
   (.registerService 1 exampleService 1 false (.ok (10, 11)), .port 10),
   (.registerProcess 2 0x1000 [] [0], .done)]

set_option maxRecDepth 4000 in
lemma exampleState_run : Run exampleSystem startState exampleTrace exampleState := by
  let processes := emptyProcessList.set 0 (ProcessInfo.free.save 2 0x1000 [0] (by decide))
  let info : ServiceInfo := { ServiceInfo.free with
    portH := some 11, name := exampleService, ownerPid := 1, maxSessions := 8 }
  let s₁ : ServiceManager := { startState with processList := processes }
  let s₂ : ServiceManager := s₁.setService 0 info
  have hvalid : validateAccessControl ⟨[]⟩ ⟨[0]⟩ = .success := by
    rw [validateAccessControl, if_neg (by decide)]
  have hprocess : step exampleSystem startState (.registerProcess 2 0x1000 [] [0]) = .ok (.done, s₁) := by
    rw [step, registerProcess, dif_neg (by decide)]
    have hfree : getFreeProcessInfo startState.processList = some 0 := rfl
    rw [hfree, hvalid]
    rfl
  have hservice : step exampleSystem s₁ (.registerService 1 exampleService 1 false (.ok (10, 11))) =
      .ok (.port 10, s₂) := rfl
  have hinstall : step exampleSystem s₂ (.installMitm 3 exampleService (.ok (20, 21)) (.ok (22, 23))) =
      .ok (.mitm 20 22, exampleState) := rfl
  exact .request (.request (.request .start hprocess) hservice) hinstall

/-- Process 2 asks for the service, and the mitm wants the session. -/
def exampleAsking : SmRequest := .getServiceHandle 2 exampleService ⟨.ok true, .ok 30, .ok 31⟩

/-- The state after that. -/
def exampleWaiting : ServiceManager :=
  exampleState.setService 0 { exampleInfo 3 with
    mitmFwdSessH := some 30, mitmWaitingAckPid := 2, mitmWaitingAck := true }

end Example

set_option maxRecDepth 4000 in
/-- Process 2 gets a session, and the mitm learns of it. -/
theorem mitm_sessions_in_order_one :
    ∃ t s, Run exampleSystem exampleState t s ∧ (∀ e ∈ t, e.1.Keeps exampleService) ∧
      acknowledgements exampleService t = [(2, 0x1000, some 30)] ∧
      (handOffs exampleState.processList exampleService t)[0]? = some (2, 0x1000, some 30) := by
  have hget : step exampleSystem exampleState exampleAsking = .ok (.mitmSession 31 30, exampleWaiting) := rfl
  have hack : step exampleSystem exampleWaiting (.acknowledgeMitmSession 3 exampleService) =
      .ok (.acknowledged 2 0x1000 (some 30), exampleState) := rfl
  have hrun := Run.request (.request .start hget) hack
  have hkeeps : ∀ e ∈ [(SmRequest.acknowledgeMitmSession 3 exampleService,
      SmReply.acknowledged 2 0x1000 (some 30)), (exampleAsking, .mitmSession 31 30)],
      e.1.Keeps exampleService := by simp [SmRequest.Keeps, exampleAsking]
  obtain ⟨-, -, horder⟩ := mitm_sessions_in_order exampleSystem _ _ exampleState _ exampleService 0
    (exampleInfo 3) exampleState_run rfl (by decide) hrun hkeeps
  exact ⟨_, _, hrun, hkeeps, rfl, horder rfl 0 _ rfl⟩

/-! ## Hand-offs of a mitm that is gone -/

/-- The condition on `UninstallMitm`: a mitm goes only when nothing waits for its acknowledgement. -/
def SettledUninstall (s : ServiceManager) : SmRequest → Prop
  | .uninstallMitm pid service => ∀ i info, getServiceInfo s.serviceList service = some (i, info) →
    info.mitmPid = pid → info.mitmWaitingAck = false
  | _ => True

/-- A hand-off that was recorded in a run after the last mitm was installed. -/
def Recorded (n : ServiceName) (t : List (SmRequest × SmReply)) (pid : Nat) (forward : Option Handle) : Prop :=
  ∃ between answers handle session before,
    t = between ++ (.getServiceHandle pid n answers, .mitmSession handle session) :: before ∧
      forward = some session ∧ ∀ e ∈ between, ¬Installs n e

/-- A hand-off that waits is for the mitm that is there. -/
def HeldForMitm (n : ServiceName) (t : List (SmRequest × SmReply)) (info : ServiceInfo) : Prop :=
  info.mitmWaitingAck = true → info.mitmPid ≠ invalidProcessId ∧ Recorded n t info.mitmWaitingAckPid info.mitmFwdSessH

section Held

variable {sys : SystemConfig} {s s' : ServiceManager} {req : SmRequest} {reply : SmReply}
  {n : ServiceName} {t : List (SmRequest × SmReply)} {info : ServiceInfo}

lemma Installs.touches (h : Installs n (req, reply)) : Touches n req reply := by
  obtain ⟨pid, port, session, out, query, heq⟩ := h
  cases heq
  exact rfl

lemma heldForMitm_of_not_waiting (h : info.mitmWaitingAck = false) : HeldForMitm n t info := by
  intro hwaiting
  rw [h] at hwaiting
  cases hwaiting

lemma HeldForMitm.cons (h : HeldForMitm n t info) (hreq : ¬Touches n req reply) :
    HeldForMitm n ((req, reply) :: t) info := by
  intro hwaiting
  obtain ⟨hmitm, between, answers, handle, session, before, rfl, hforward, hbetween⟩ := h hwaiting
  refine ⟨hmitm, (req, reply) :: between, answers, handle, session, before, rfl, hforward, ?_⟩
  exact List.forall_mem_cons.mpr ⟨fun h => hreq h.touches, hbetween⟩

/-- A hand-off is held for the mitm that is there, whatever happens to the service. -/
lemma ServiceChange.heldForMitm {o o' : Option (Nat × ServiceInfo)}
    (h : ServiceChange n s.processList req reply o o') (ho : o = getServiceInfo s.serviceList n)
    (hreq : SettledUninstall s req) (hheld : ∀ i info, o = some (i, info) → HeldForMitm n t info) :
    ∀ i info, o' = some (i, info) → HeldForMitm n ((req, reply) :: t) info := by
  intro j info hinfo
  cases h with
  | untouched huntouched => exact (hheld j info hinfo).cons huntouched
  | handed hpid hwaiting hmitm htid hforward =>
    cases hinfo
    exact fun _ => ⟨hmitm, [], _, _, _, t, rfl, rfl, List.forall_mem_nil _⟩
  | registered hreg hmitm hwaiting =>
    cases hinfo
    exact heldForMitm_of_not_waiting hwaiting
  | unregistered => cases hinfo
  | @installed pid i port session info out query portH mitmQuery hpid hmitm =>
    cases hinfo
    -- Nothing waits at a service without a mitm.
    have hwaiting : info.mitmWaitingAck = false := by
      cases hflag : info.mitmWaitingAck with
      | false => rfl
      | true => exact absurd hmitm (hheld _ info rfl hflag).1
    exact heldForMitm_of_not_waiting hwaiting
  | @uninstalled i info hmitm =>
    cases hinfo
    have hwaiting : info.freeMitm.mitmWaitingAck = false := hreq _ info ho.symm rfl
    exact heldForMitm_of_not_waiting hwaiting
  | acknowledged hwaiting htid =>
    cases hinfo
    exact heldForMitm_of_not_waiting rfl

lemma RunWhere.heldForMitm (h : RunWhere sys SettledUninstall startState t s) (hn : n ≠ invalidServiceName) :
    ∀ i info, getServiceInfo s.serviceList n = some (i, info) → HeldForMitm n t info := by
  induction h with
  | start =>
    intro i info hinfo
    obtain ⟨hslot, -⟩ := find_eq_some.mp hinfo
    obtain rfl : info = .free := List.eq_of_mem_replicate (List.mem_of_getElem? hslot)
    exact heldForMitm_of_not_waiting rfl
  | request hrun hok hstep ih =>
    have htables := hrun.run.tableInvariant tableInvariant_start
    exact ((step_change hstep).view hn htables.unique htables.clean).heldForMitm rfl hok ih

/-- What an acknowledgement returns is the hand-off that waited. -/
lemma Change.acknowledged_eq {pid client tid : Nat} {forward : Option Handle}
    (h : Change sys s (.acknowledgeMitmSession pid n) (.acknowledged client tid forward) s') :
    ∃ i info, getServiceInfo s.serviceList n = some (i, info) ∧ info.mitmPid = pid ∧
      info.mitmWaitingAck = true ∧ client = info.mitmWaitingAckPid ∧
      forward = info.mitmFwdSessH := by
  cases h with
  | asked hquestion => exact hquestion.elim
  | acknowledged hinfo hmitm hwaiting _ => exact ⟨_, _, hinfo, hmitm, hwaiting, rfl, rfl⟩

end Held

/-- In a run in which a mitm is uninstalled only when it has acknowledged every session, a service that
waits for an acknowledgement has a mitm, and what a mitm learns of was recorded since it was installed. -/
theorem hand_off_held_for_mitm (sys : SystemConfig) (t : List (SmRequest × SmReply)) (s : ServiceManager)
    (h : RunWhere sys SettledUninstall startState t s) :
    (∀ info ∈ s.serviceList, info.mitmWaitingAck = true → info.mitmPid ≠ invalidProcessId) ∧
      ∀ n pid client tid forward after before,
        t = after ++ (.acknowledgeMitmSession pid n, .acknowledged client tid forward) :: before →
        Recorded n before client forward := by
  constructor
  · intro info hinfo hwaiting
    have htables := h.run.tableInvariant tableInvariant_start
    obtain ⟨i, hslot⟩ := List.mem_iff_getElem?.mp hinfo
    have hname := htables.name_ne hinfo (.inr hwaiting)
    exact (h.heldForMitm hname i info (htables.unique.find_eq hslot hname) hwaiting).1
  · intro n pid client tid forward after before ht
    subst ht
    obtain ⟨s₁, s₂, hrun, hstep⟩ := h.at
    obtain ⟨i, info, hinfo, hmitm, hwaiting, rfl, rfl⟩ := (step_change hstep).acknowledged_eq
    have htables := hrun.run.tableInvariant tableInvariant_start
    have hn := htables.service_ne hinfo (.inr hwaiting)
    exact (hrun.heldForMitm hn i info hinfo hwaiting).2

set_option maxRecDepth 4000 in
/-- Process 2 gets a session, and the mitm acknowledges it before it goes. -/
theorem hand_off_held_for_mitm_settled :
    ∃ t s, RunWhere exampleSystem SettledUninstall startState
        ((.uninstallMitm 3 exampleService, .done) ::
          (.acknowledgeMitmSession 3 exampleService, .acknowledged 2 0x1000 (some 30)) :: t) s ∧
      Recorded exampleService t 2 (some 30) ∧
      ∀ info ∈ s.serviceList, info.mitmWaitingAck = true → info.mitmPid ≠ invalidProcessId := by
  have hget : step exampleSystem exampleState exampleAsking = .ok (.mitmSession 31 30, exampleWaiting) := rfl
  have hack : step exampleSystem exampleWaiting (.acknowledgeMitmSession 3 exampleService) =
      .ok (.acknowledged 2 0x1000 (some 30), exampleState) := rfl
  have hleave : step exampleSystem exampleState (.uninstallMitm 3 exampleService) =
      .ok (.done, exampleState.setService 0 (exampleInfo 3).freeMitm) := rfl
  have hsettled : SettledUninstall exampleState (.uninstallMitm 3 exampleService) := by
    intro i info hinfo _
    obtain ⟨-, rfl⟩ : 0 = i ∧ exampleInfo 3 = info := by
      have hslot : getServiceInfo exampleState.serviceList exampleService = some (0, exampleInfo 3) := rfl
      rw [hslot] at hinfo
      exact Prod.mk.inj (Option.some_inj.mp hinfo)
    rfl
  have hstart : RunWhere exampleSystem SettledUninstall startState exampleTrace exampleState :=
    exampleState_run.where (by simp [exampleTrace, SettledUninstall])
  have hasking : SettledUninstall exampleState exampleAsking := trivial
  have hknown : SettledUninstall exampleWaiting (.acknowledgeMitmSession 3 exampleService) := trivial
  have hrun := RunWhere.request (.request (.request hstart hasking hget) hknown hack) hsettled hleave
  obtain ⟨hmitm, hrecorded⟩ := hand_off_held_for_mitm exampleSystem _ _ hrun
  exact ⟨_, _, hrun, hrecorded exampleService 3 2 0x1000 (some 30) [_] _ rfl, hmitm⟩

set_option maxRecDepth 4000 in
/-- The mitm goes while process 2 has a session that it has not acknowledged. The service then waits for
nobody, and the next mitm gets the session of the last one. -/
theorem hand_off_left_behind :
    ∃ t s s', Run exampleSystem startState t s ∧
      (∃ info ∈ s.serviceList, info.mitmWaitingAck = true ∧ info.mitmPid = invalidProcessId) ∧
      Run exampleSystem startState
        ((.acknowledgeMitmSession 4 exampleService, .acknowledged 2 0x1000 (some 30)) ::
          (.installMitm 4 exampleService (.ok (20, 21)) (.ok (22, 23)), .mitm 20 22) :: t) s' ∧
      ¬Recorded exampleService
        ((.installMitm 4 exampleService (.ok (20, 21)) (.ok (22, 23)), .mitm 20 22) :: t) 2
        (some 30) := by
  let left : ServiceInfo := { exampleInfo 3 with
    mitmFwdSessH := some 30, mitmWaitingAckPid := 2, mitmWaitingAck := true }
  have hget : step exampleSystem exampleState exampleAsking = .ok (.mitmSession 31 30, exampleWaiting) := rfl
  have hleave : step exampleSystem exampleWaiting (.uninstallMitm 3 exampleService) =
      .ok (.done, exampleState.setService 0 left.freeMitm) := rfl
  have hinstall : step exampleSystem (exampleState.setService 0 left.freeMitm)
      (.installMitm 4 exampleService (.ok (20, 21)) (.ok (22, 23))) =
      .ok (.mitm 20 22, exampleState.setService 0 { left with mitmPid := 4 }) := rfl
  have hack : step exampleSystem (exampleState.setService 0 { left with mitmPid := 4 })
      (.acknowledgeMitmSession 4 exampleService) =
      .ok (.acknowledged 2 0x1000 (some 30), exampleState.setService 0 (exampleInfo 4)) := rfl
  have hrun := Run.request (.request exampleState_run hget) hleave
  refine ⟨_, _, _, hrun, ⟨left.freeMitm, List.mem_cons_self, rfl, rfl⟩, .request (.request hrun hinstall) hack, ?_⟩
  rintro ⟨between, answers, handle, session, before, ht, -, hbetween⟩
  cases between with
  | nil => cases ht
  | cons e between =>
    obtain ⟨rfl, -⟩ := List.cons.inj ht
    exact hbetween _ List.mem_cons_self ⟨_, _, _, _, _, rfl⟩

/-! ## The process info of a client -/

/-- A process that has a process info. -/
def HasProcessInfo (processes : ProcessList) (pid : Nat) : Prop := ∃ p ∈ processes, p.pid = pid

/-- The condition under which a mitm's clients have a process info: an initial process has one when it
asks for a service that another process has a mitm for, and no process that a service waits with is
unregistered. -/
def KnownClient (sys : SystemConfig) (s : ServiceManager) : SmRequest → Prop
  | .getServiceHandle pid service _ => sys.initialMin ≤ pid → pid ≤ sys.initialMax →
    ¬(sys.isFirmware800 ∧ service = apmP) → shouldDeferForInit s service = false →
    ∀ i info, getServiceInfo s.serviceList service = some (i, info) → info.mitmWaitingAck = false →
      info.mitmPid ≠ invalidProcessId → info.mitmPid ≠ pid → HasProcessInfo s.processList pid
  | .unregisterProcess pid => ∀ info ∈ s.serviceList, info.mitmWaitingAck = true →
    info.mitmWaitingAckPid ≠ pid
  | _ => True

/-- The processes that services wait with have a process info. -/
def WaitingKnown (s : ServiceManager) : Prop :=
  ∀ info ∈ s.serviceList, info.mitmWaitingAck = true → info.mitmWaitingAckPid ≠ invalidProcessId ∧
    HasProcessInfo s.processList info.mitmWaitingAckPid

section Known

variable {sys : SystemConfig} {s s' : ServiceManager} {req : SmRequest} {reply : SmReply}
  {n service : ServiceName} {pid tid : Nat} {processes : ProcessList}

lemma hasProcessInfo_of_getTitleId (h : getTitleIdForMitm processes pid = .ok tid) : HasProcessInfo processes pid := by
  unfold getTitleIdForMitm at h
  split at h
  · cases h
  · next i p hfind =>
    obtain ⟨hslot, hpid, -⟩ := find_eq_some.mp hfind
    exact ⟨p, List.mem_of_getElem? hslot, hpid⟩

variable {e : SmAbort}

/-- `GetTitleIdForMitm` aborts only without a process info. -/
lemma getTitleIdForMitm_eq_error (h : getTitleIdForMitm processes pid = .error e) : ¬HasProcessInfo processes pid := by
  unfold getTitleIdForMitm at h
  split at h
  · next hfind =>
    rintro ⟨p, hp, hpid⟩
    exact find_eq_none.mp hfind p hp hpid
  · cases h

lemma HasProcessInfo.of_access {isHost : Bool}
    (h : checkAccess processes pid service isHost = .success) : HasProcessInfo processes pid := by
  unfold checkAccess at h
  split at h
  · cases h
  · next p hp =>
    obtain ⟨i, hi, hslot⟩ := Option.bind_eq_some_iff.mp hp
    obtain ⟨hlt, hpid, -⟩ := List.findIdx?_eq_some_iff_getElem.mp hi
    exact ⟨_, List.getElem_mem hlt, by simpa using hpid⟩

/-- A slot of another process is changed. -/
lemma HasProcessInfo.set {i : Nat} {old new : ProcessInfo} (h : HasProcessInfo processes pid)
    (hold : processes[i]? = some old) (hpid : old.pid ≠ pid) : HasProcessInfo (processes.set i new) pid := by
  obtain ⟨p, hp, rfl⟩ := h
  obtain ⟨j, hj⟩ := List.mem_iff_getElem?.mp hp
  refine ⟨p, List.mem_of_getElem? (i := j) ?_, rfl⟩
  rw [List.getElem?_set_ne, hj]
  rintro rfl
  rw [hj, Option.some_inj] at hold
  exact hpid (congrArg ProcessInfo.pid hold).symm

lemma getProcessInfo_eq_some {i : Nat} (h : getProcessInfo processes pid = some i) :
    ∃ p, processes[i]? = some p ∧ p.pid = pid := by
  obtain ⟨hlt, hpid, -⟩ := List.findIdx?_eq_some_iff_getElem.mp h
  exact ⟨_, List.getElem?_eq_getElem hlt, by simpa using hpid⟩

/-- A process keeps its process info until it is unregistered. -/
lemma Change.hasProcessInfo (h : Change sys s req reply s') (hpid : pid ≠ invalidProcessId)
    (hreq : req ≠ .unregisterProcess pid) (hinfo : HasProcessInfo s.processList pid) :
    HasProcessInfo s'.processList pid := by
  cases h with
  | registerProcess hregister =>
    obtain ⟨i, p, hsize, hfree, hslot, -, rfl⟩ := registerProcess_cases hregister
    obtain ⟨p', hslot', hp'⟩ := getProcessInfo_eq_some hfree
    exact hinfo.set hslot' (by rw [hp']; exact hpid.symm)
  | @unregisterProcess pid' i hi =>
    obtain ⟨p, hslot, hp⟩ := getProcessInfo_eq_some hi
    refine hinfo.set hslot (fun heq => hreq ?_)
    rw [← hp, heq]
  | rejected => exact hinfo
  | asked _ => exact hinfo
  | session _ _ => exact hinfo
  | mitmSession _ _ _ _ _ _ _ => exact hinfo
  | registerFailed _ => exact hinfo
  | registered _ _ _ _ => exact hinfo
  | unregistered _ _ _ => exact hinfo
  | installed _ _ _ _ => exact hinfo
  | uninstalled _ _ _ => exact hinfo
  | declared _ _ _ _ => exact hinfo
  | acknowledged _ _ _ _ => exact hinfo
  | ended => exact hinfo

/-- A slot that is changed waits with the process it waited with before. -/
lemma mem_set_waiting {l : List ServiceInfo} {i : Nat} {old new info : ServiceInfo}
    (h : getServiceInfo l n = some (i, old)) (hmem : info ∈ l.set i new)
    (hwaiting : new.mitmWaitingAck = old.mitmWaitingAck) (hpid : new.mitmWaitingAckPid = old.mitmWaitingAckPid) :
    ∃ info' ∈ l, info.mitmWaitingAck = info'.mitmWaitingAck ∧
      info.mitmWaitingAckPid = info'.mitmWaitingAckPid := by
  obtain ⟨hslot, -⟩ := find_eq_some.mp h
  rcases List.mem_or_eq_of_mem_set hmem with hmem | rfl
  · exact ⟨info, hmem, rfl, rfl⟩
  · exact ⟨old, List.mem_of_getElem? hslot, hwaiting, hpid⟩

/-- Where the hand-offs that wait come from. -/
lemma Change.waiting {info : ServiceInfo} (h : Change sys s req reply s') (hmem : info ∈ s'.serviceList)
    (hwaiting : info.mitmWaitingAck = true) :
    (∃ info' ∈ s.serviceList, info.mitmWaitingAck = info'.mitmWaitingAck ∧
        info.mitmWaitingAckPid = info'.mitmWaitingAckPid) ∨
      info.mitmWaitingAckPid ≠ invalidProcessId ∧
        HasProcessInfo s'.processList info.mitmWaitingAckPid := by
  cases h with
  | mitmSession hpid _ _ _ _ htid _ =>
    rcases List.mem_or_eq_of_mem_set hmem with hmem | rfl
    · exact .inl ⟨info, hmem, rfl, rfl⟩
    · exact .inr ⟨hpid, hasProcessInfo_of_getTitleId htid⟩
  | registerFailed hfree | registered _ _ _ hfree => exact .inl (mem_set_waiting hfree hmem rfl rfl)
  | installed _ _ hinfo _ | uninstalled _ hinfo _ => exact .inl (mem_set_waiting hinfo hmem rfl rfl)
  | unregistered _ _ _ | acknowledged _ _ _ _ =>
    rcases List.mem_or_eq_of_mem_set hmem with hmem | rfl
    · exact .inl ⟨info, hmem, rfl, rfl⟩
    · cases hwaiting
  | rejected | asked _ | registerProcess _ | unregisterProcess _ | session _ _
  | declared _ _ _ _ | ended => exact .inl ⟨info, hmem, rfl, rfl⟩

lemma WaitingKnown.change (hs : WaitingKnown s) (h : Change sys s req reply s')
    (hreq : KnownClient sys s req) : WaitingKnown s' := by
  intro info hmem hwaiting
  obtain ⟨info', hmem', hflag, hpid⟩ | ⟨hvalid, hinfo⟩ := h.waiting hmem hwaiting
  · obtain ⟨hvalid, hinfo⟩ := hs info' hmem' (hflag.symm.trans hwaiting)
    rw [hpid]
    refine ⟨hvalid, h.hasProcessInfo hvalid ?_ hinfo⟩
    rintro rfl
    exact hreq info' hmem' (hflag.symm.trans hwaiting) rfl
  · exact ⟨hvalid, hinfo⟩

lemma RunWhere.waitingKnown {t : List (SmRequest × SmReply)}
    (h : RunWhere sys (KnownClient sys) startState t s) : WaitingKnown s := by
  induction h with
  | start =>
    intro info hmem hwaiting
    rw [List.eq_of_mem_replicate hmem] at hwaiting
    cases hwaiting
  | request _ hok hstep ih => exact ih.change (step_change hstep) hok

/-! ## What requests abort with -/

lemma isInitialProcess_eq_error (h : isInitialProcess sys pid = .error e) : e = .invalidProcessId := by
  rw [isInitialProcess] at h
  split at h
  · exact (Except.error.inj h).symm
  · cases h

lemma checkClientAccess_eq_error {isHost : Bool}
    (h : checkClientAccess sys s pid service isHost = .error e) : e = .invalidProcessId := by
  obtain h | ⟨b, -, h⟩ := bind_eq_error h
  · exact isInitialProcess_eq_error h
  · cases b <;> cases h

lemma checkClient_eq_error (h : checkClient sys s pid = .error e) : e = .invalidProcessId := by
  obtain h | ⟨b, -, h⟩ := bind_eq_error h
  · exact isInitialProcess_eq_error h
  · cases b with
    | true => cases h
    | false =>
      simp only [Bool.false_eq_true, if_false] at h
      split at h <;> cases h

/-- A client that may use a service is an initial process, or has a process info. -/
lemma checkClientAccess_eq_success {isHost : Bool} (h : checkClientAccess sys s pid service isHost = .ok .success) :
    (sys.initialMin ≤ pid ∧ pid ≤ sys.initialMax) ∨ HasProcessInfo s.processList pid := by
  obtain ⟨b, hb, h⟩ := bind_eq_ok h
  cases b with
  | true =>
    rw [isInitialProcess] at hb
    split at hb
    · cases hb
    · exact .inl (by simpa using Except.ok.inj hb)
  | false => exact .inr (.of_access (Except.ok.inj h))

/-- A request on a service that has to be there aborts for a process id, or goes on and aborts. -/
lemma withService_eq_error {next : Nat → ServiceInfo → SmOutcome}
    (h : withService sys s pid service next = .error e) :
    e = .invalidProcessId ∨ ∃ i info, getServiceInfo s.serviceList service = some (i, info) ∧
      next i info = .error e := by
  obtain ⟨-, h⟩ := check_eq_error h
  obtain h | ⟨r, -, h⟩ := bind_eq_error h
  · exact .inl (checkClient_eq_error h)
  · obtain ⟨-, h⟩ := check_eq_error h
    split at h
    · cases h
    · next i info hinfo => exact .inr ⟨i, info, hinfo, h⟩

/-- A request that needs access aborts for a process id, or goes on and aborts. -/
lemma access_eq_error {isHost : Bool} {next : SmOutcome}
    (h : (do let access ← checkClientAccess sys s pid service isHost; check s access next) = .error e) :
    e = .invalidProcessId ∨
      checkClientAccess sys s pid service isHost = .ok .success ∧ next = .error e := by
  obtain h | ⟨access, haccess, h⟩ := bind_eq_error h
  · exact .inl (checkClientAccess_eq_error h)
  · obtain ⟨rfl, h⟩ := check_eq_error h
    exact .inr ⟨haccess, h⟩

lemma registerServiceImpl_ne_error {maxSessions : Nat} {isLight : Bool} {port : Except Nat (Handle × Handle)} :
    registerServiceImpl s pid service maxSessions isLight port ≠ .error e := by
  intro h
  obtain ⟨-, h⟩ := check_eq_error h
  split at h
  · cases h
  · split at h
    · cases h
    · cases port <;> cases h

/-- `GetServiceHandleImpl` aborts for a client without a process info. -/
lemma getServiceHandleImpl_eq_error {info : ServiceInfo} {answers : SessionAnswers}
    (h : getServiceHandleImpl processes info pid answers = .error .noProcessInfo) :
    info.mitmPid ≠ invalidProcessId ∧ info.mitmPid ≠ pid ∧ ¬HasProcessInfo processes pid := by
  unfold getServiceHandleImpl at h
  split at h
  · next hmitm =>
    obtain h | ⟨tid, -, h⟩ := bind_eq_error h
    · exact ⟨hmitm.1, hmitm.2, getTitleIdForMitm_eq_error h⟩
    · split at h
      · cases h
      · split at h <;> cases h
  · cases h

/-- `GetServiceHandle` aborts for an initial process without a process info. -/
lemma getServiceHandle_eq_error {answers : SessionAnswers}
    (h : getServiceHandle sys s pid service answers = .error .noProcessInfo) :
    ¬KnownClient sys s (.getServiceHandle pid service answers) := by
  obtain ⟨-, h⟩ := check_eq_error h
  split at h
  · cases h
  · next hapm =>
    obtain h | ⟨haccess, h⟩ := access_eq_error h
    · cases h
    · split at h
      · cases h
      · next i info hinfo =>
        unfold getHandleOf at h
        split at h
        · cases h
        · next hdefer =>
          simp only [not_or, Bool.not_eq_true] at hdefer
          obtain h | ⟨outcome, -, h⟩ := bind_eq_error h
          · obtain ⟨hmitm, hother, hno⟩ := getServiceHandleImpl_eq_error h
            intro hknown
            obtain ⟨hmin, hmax⟩ | hinfo' := checkClientAccess_eq_success haccess
            · exact hno (hknown hmin hmax hapm hdefer.1 i info hinfo hdefer.2.2 hmitm hother)
            · exact hno hinfo'
          · split at h <;> cases h

/-- `AcknowledgeMitmSession` aborts for a client that has no process info any more. -/
lemma acknowledgeMitmSession_eq_error
    (h : acknowledgeMitmSession sys s pid service = .error .noProcessInfo) : ¬WaitingKnown s := by
  obtain h | ⟨i, info, hinfo, h⟩ := withService_eq_error h
  · cases h
  · split at h
    · cases h
    · next hwaiting =>
      simp only [not_or, not_not, Bool.not_eq_false] at hwaiting
      obtain h | ⟨tid, -, h⟩ := bind_eq_error h
      · intro hknown
        obtain ⟨hslot, -⟩ := find_eq_some.mp hinfo
        exact getTitleIdForMitm_eq_error h (hknown info (List.mem_of_getElem? hslot) hwaiting.2).2
      · cases h

/-- No request aborts in `GetTitleIdForMitm` while the clients are known. -/
lemma WaitingKnown.step_ne_error (hs : WaitingKnown s) (hreq : KnownClient sys s req) :
    step sys s req ≠ .error .noProcessInfo := by
  intro h
  cases req with
  | registerProcess pid tid acid aci | unregisterProcess pid =>
    rw [step] at h
    unfold processReply at h
    split at h <;> cases h
  | hasService service => cases (check_eq_error h).2
  | waitService service =>
    obtain ⟨-, h⟩ := check_eq_error h
    split at h <;> cases h
  | getServiceHandle pid service answers => exact getServiceHandle_eq_error h hreq
  | registerService pid service maxSessions isLight port =>
    obtain ⟨-, h⟩ := check_eq_error h
    obtain h | ⟨-, h⟩ := access_eq_error h
    · cases h
    · split at h
      · cases h
      · exact registerServiceImpl_ne_error h
  | registerServiceForSelf selfPid service maxSessions port =>
    cases selfPid with
    | error e => cases h
    | ok pid => exact registerServiceImpl_ne_error h
  | unregisterService pid service =>
    obtain h | ⟨i, info, -, h⟩ := withService_eq_error h
    · cases h
    · split at h <;> cases h
  | hasMitm service => cases (check_eq_error h).2
  | waitMitm service =>
    obtain ⟨-, h⟩ := check_eq_error h
    split at h <;> cases h
  | installMitm pid service port session =>
    obtain ⟨-, h⟩ := check_eq_error h
    obtain h | ⟨-, h⟩ := access_eq_error h
    · cases h
    · split at h
      · cases h
      · unfold installMitmOf at h
        split at h
        · cases h
        · split at h <;> cases h
  | uninstallMitm pid service =>
    obtain h | ⟨i, info, -, h⟩ := withService_eq_error h
    · cases h
    · split at h <;> cases h
  | declareFutureMitm pid service =>
    obtain ⟨-, h⟩ := check_eq_error h
    obtain h | ⟨-, h⟩ := access_eq_error h
    · cases h
    · split at h
      · cases h
      · split at h <;> cases h
  | acknowledgeMitmSession pid service => exact acknowledgeMitmSession_eq_error h hs
  | endInitialDefers => cases h

end Known

/-- No request of a run aborts in `GetTitleIdForMitm` if initial processes have a process info when they
ask for a service that has a mitm, and no client is unregistered before its session is acknowledged. -/
theorem mitm_client_known (sys : SystemConfig) (t : List (SmRequest × SmReply)) (s : ServiceManager)
    (req : SmRequest) (h : RunWhere sys (KnownClient sys) startState t s)
    (hreq : KnownClient sys s req) : step sys s req ≠ .error .noProcessInfo :=
  h.waitingKnown.step_ne_error hreq

set_option maxRecDepth 4000 in
/-- Process 2 has a process info when it asks for the service. -/
theorem mitm_client_known_registered :
    ∃ t s, RunWhere exampleSystem (KnownClient exampleSystem) startState t s ∧
      hasMitm s.serviceList exampleService = true ∧
      step exampleSystem s exampleAsking ≠ .error .noProcessInfo := by
  have hknown : KnownClient exampleSystem exampleState exampleAsking := by
    intro _ _ _ _ _ _ _ _ _ _
    exact ⟨_, List.mem_cons_self, rfl⟩
  have hstart : RunWhere exampleSystem (KnownClient exampleSystem) startState exampleTrace exampleState :=
    exampleState_run.where (by simp [exampleTrace, KnownClient])
  exact ⟨_, _, hstart, rfl, mitm_client_known exampleSystem _ _ _ hstart hknown⟩

set_option maxRecDepth 4000 in
/-- Process 4 is an initial one and has no process info: its request for a service with a mitm aborts. So
does the acknowledgement of a session of process 2 when that has been unregistered. -/
theorem mitm_client_unknown :
    ∃ t s t' s', Run exampleSystem startState t s ∧ Run exampleSystem startState t' s' ∧
      step exampleSystem s (.getServiceHandle 4 exampleService ⟨.ok true, .ok 30, .ok 31⟩) = .error .noProcessInfo ∧
      step exampleSystem s' (.acknowledgeMitmSession 3 exampleService) = .error .noProcessInfo := by
  have hget : step exampleSystem exampleState exampleAsking = .ok (.mitmSession 31 30, exampleWaiting) := rfl
  have hleave : step exampleSystem exampleWaiting (.unregisterProcess 2) =
      .ok (.done, { exampleWaiting with processList := emptyProcessList }) := rfl
  exact ⟨_, _, _, _, exampleState_run, .request (.request exampleState_run hget) hleave, rfl, rfl⟩

end RajNX.Sm
