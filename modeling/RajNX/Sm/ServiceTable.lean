import RajNX.Sm.ServiceManager

/-!
# Runs of the service manager

What holds of the tables of the service manager after any requests, with whatever the kernel answers. The
requests of a run are listed with their replies, the last one first.
-/

namespace RajNX.Sm

open Slots

/-- Runs from a state, with their requests and replies, the last one first. -/
inductive Run (sys : SystemConfig) (start : ServiceManager) :
    List (SmRequest × SmReply) → ServiceManager → Prop
  | start : Run sys start [] start
  | request {t : List (SmRequest × SmReply)} {s s' : ServiceManager} {req : SmRequest} {reply : SmReply} :
    Run sys start t s → step sys s req = .ok (reply, s') → Run sys start ((req, reply) :: t) s'

variable {sys : SystemConfig} {start s : ServiceManager} {after before : List (SmRequest × SmReply)}

/-- The request at any place of a run. -/
lemma Run.at {req : SmRequest} {reply : SmReply} (h : Run sys start (after ++ (req, reply) :: before) s) :
    ∃ s₁ s₂, Run sys start before s₁ ∧ step sys s₁ req = .ok (reply, s₂) := by
  induction after generalizing s with
  | nil =>
    cases h with
    | request hrun hstep => exact ⟨_, _, hrun, hstep⟩
  | cons e after ih =>
    cases h with
    | request hrun _ => exact ih hrun

/-- The tables of services and future mitms. -/
structure TableInvariant (s : ServiceManager) : Prop where
  unique : Unique ServiceInfo.name invalidServiceName s.serviceList
  clean : ∀ info ∈ s.serviceList, info.Clean
  futureUnique : Unique id invalidServiceName s.futureMitmList
  futureNoMitm : ∀ n ∈ s.futureMitmList, n ≠ invalidServiceName → hasMitm s.serviceList n = false

section Step

variable {sys : SystemConfig} {s s' : ServiceManager} {req : SmRequest} {reply : SmReply}
  {n : ServiceName}

lemma hasFutureMitmDeclaration_iff {future : List ServiceName} :
    hasFutureMitmDeclaration future n = true ↔ n ∈ future := by
  simp [hasFutureMitmDeclaration]

lemma hasMitm_eq_false {services : List ServiceInfo} :
    hasMitm services n = false ↔
      ∀ i info, getServiceInfo services n = some (i, info) → info.mitmPid = invalidProcessId := by
  rw [hasMitm]
  cases hinfo : getServiceInfo services n with
  | none => simp
  | some found =>
    obtain ⟨i, info⟩ := found
    simp only [ne_eq, decide_not, Bool.not_eq_false', decide_eq_true_eq]
    constructor
    · intro h i' info' heq
      cases heq
      exact h
    · intro h
      exact h i info rfl

/-- A request changes at most one slot, which keeps its name, or gets a new one, or is made free. -/
lemma Change.slot (h : Change sys s req reply s') (hclean : ∀ info ∈ s.serviceList, info.Clean) :
    s'.serviceList = s.serviceList ∨
      ∃ (i : Nat) (info info' : ServiceInfo), s.serviceList[i]? = some info ∧
        s'.serviceList = s.serviceList.set i info' ∧ info'.Clean ∧
        (info'.name = info.name ∨ getServiceInfo s.serviceList info'.name = none ∨
          info'.name = invalidServiceName) := by
  cases h with
  | mitmSession _ hinfo _ _ hmitm _ _ =>
    obtain ⟨hslot, -⟩ := find_eq_some.mp hinfo
    refine .inr ⟨_, _, _, hslot, rfl, fun hname => ?_, .inl rfl⟩
    exact absurd (hclean _ (List.mem_of_getElem? hslot) hname).1 hmitm
  | registerFailed hfree =>
    obtain ⟨hslot, -⟩ := find_eq_some.mp hfree
    have hfreeClean := hclean _ (List.mem_of_getElem? hslot)
    exact .inr ⟨_, _, _, hslot, rfl, hfreeClean, .inl rfl⟩
  | registered _ hvalid hnone hfree =>
    obtain ⟨hslot, -⟩ := find_eq_some.mp hfree
    refine .inr ⟨_, _, _, hslot, rfl, fun hname => ?_, .inr (.inl hnone)⟩
    exact absurd hname (ne_invalid_of_validate hvalid)
  | unregistered _ hinfo _ =>
    obtain ⟨hslot, -⟩ := find_eq_some.mp hinfo
    exact .inr ⟨_, _, _, hslot, rfl, fun _ => ⟨rfl, rfl⟩, .inr (.inr rfl)⟩
  | installed _ hvalid hinfo _ =>
    obtain ⟨hslot, hkey, -⟩ := find_eq_some.mp hinfo
    refine .inr ⟨_, _, _, hslot, rfl, fun hname => ?_, .inl rfl⟩
    exact absurd (hkey.symm.trans hname) (ne_invalid_of_validate hvalid)
  | uninstalled hpid hinfo hmitm =>
    obtain ⟨hslot, -⟩ := find_eq_some.mp hinfo
    refine .inr ⟨_, _, _, hslot, rfl, fun hname => ?_, .inl rfl⟩
    exact absurd (hmitm.symm.trans (hclean _ (List.mem_of_getElem? hslot) hname).1) hpid
  | acknowledged hinfo _ hwaiting _ =>
    obtain ⟨hslot, -⟩ := find_eq_some.mp hinfo
    refine .inr ⟨_, _, _, hslot, rfl, fun hname => ?_, .inl rfl⟩
    rw [(hclean _ (List.mem_of_getElem? hslot) hname).2] at hwaiting
    cases hwaiting
  | rejected => exact .inl rfl
  | asked _ => exact .inl rfl
  | registerProcess _ => exact .inl rfl
  | unregisterProcess _ => exact .inl rfl
  | session _ _ => exact .inl rfl
  | declared _ _ _ _ => exact .inl rfl
  | ended => exact .inl rfl

/-- Where the future mitms come from, and that an installed one is not among them. -/
lemma Change.mem_future (h : Change sys s req reply s') (hn : n ≠ invalidServiceName) (hmem : n ∈ s'.futureMitmList) :
    (n ∈ s.futureMitmList ∨ hasMitm s.serviceList n = false) ∧
      ∀ pid port session out query, req = .installMitm pid n port session → reply ≠ .mitm out query := by
  cases h with
  | installed _ _ _ _ =>
    obtain ⟨m, hm, hclear⟩ := List.mem_map.mp hmem
    split at hclear
    · exact absurd hclear.symm hn
    · next hne =>
      subst hclear
      refine ⟨.inl hm, fun pid port session out query hreq => ?_⟩
      cases hreq
      exact absurd rfl hne
  | declared _ hmitm _ _ =>
    refine ⟨?_, nofun⟩
    rcases List.mem_or_eq_of_mem_set hmem with hm | rfl
    · exact .inl hm
    · exact .inr hmitm
  | asked hquestion =>
    refine ⟨.inl hmem, fun pid port session out query hreq => ?_⟩
    rw [hreq] at hquestion
    exact hquestion.elim
  | registered hreg _ _ _ => exact ⟨.inl hmem, nofun⟩
  | rejected => exact ⟨.inl hmem, nofun⟩
  | registerProcess _ => exact ⟨.inl hmem, nofun⟩
  | unregisterProcess _ => exact ⟨.inl hmem, nofun⟩
  | session _ _ => exact ⟨.inl hmem, nofun⟩
  | mitmSession _ _ _ _ _ _ _ => exact ⟨.inl hmem, nofun⟩
  | registerFailed _ => exact ⟨.inl hmem, nofun⟩
  | unregistered _ _ _ => exact ⟨.inl hmem, nofun⟩
  | uninstalled _ _ _ => exact ⟨.inl hmem, nofun⟩
  | acknowledged _ _ _ _ => exact ⟨.inl hmem, nofun⟩
  | ended => exact ⟨.inl hmem, nofun⟩

/-- A future mitm stays declared until it is installed. -/
lemma Change.future_mem (h : Change sys s req reply s') (hn : n ≠ invalidServiceName) (hmem : n ∈ s.futureMitmList) :
    n ∈ s'.futureMitmList ∨
      ∃ pid port session out query, req = .installMitm pid n port session ∧
        reply = .mitm out query := by
  cases h with
  | @installed pid i service port session info out query _ _ _ _ _ _ =>
    by_cases hservice : n = service
    · subst hservice
      exact .inr ⟨pid, port, session, out, query, rfl, rfl⟩
    · exact .inl (List.mem_map.mpr ⟨n, hmem, if_neg hservice⟩)
  | @declared pid i service _ _ _ hidx =>
    -- The new name is put into a free slot, which is not that of another name.
    obtain ⟨hlt, hfree, -⟩ := List.findIdx?_eq_some_iff_getElem.mp hidx
    obtain ⟨j, hj⟩ := List.mem_iff_getElem?.mp hmem
    refine .inl (List.mem_of_getElem? (i := j) ?_)
    rw [List.getElem?_set_ne, hj]
    rintro rfl
    rw [List.getElem?_eq_getElem hlt, Option.some_inj] at hj
    exact hn (hj.symm.trans (by simpa using hfree))
  | rejected => exact .inl hmem
  | asked _ => exact .inl hmem
  | registerProcess _ => exact .inl hmem
  | unregisterProcess _ => exact .inl hmem
  | session _ _ => exact .inl hmem
  | mitmSession _ _ _ _ _ _ _ => exact .inl hmem
  | registerFailed _ => exact .inl hmem
  | registered _ _ _ _ => exact .inl hmem
  | unregistered _ _ _ => exact .inl hmem
  | uninstalled _ _ _ => exact .inl hmem
  | acknowledged _ _ _ _ => exact .inl hmem
  | ended => exact .inl hmem

/-- A mitm that has been declared is among the future ones. -/
lemma Change.declared_mem {pid : Nat} (h : Change sys s (.declareFutureMitm pid n) .done s') :
    n ∈ s'.futureMitmList ∧ n ≠ invalidServiceName := by
  cases h with
  | asked hquestion => exact hquestion.elim
  | declared hvalid _ _ hidx =>
    obtain ⟨hlt, -⟩ := List.findIdx?_eq_some_iff_getElem.mp hidx
    exact ⟨List.mem_of_getElem? (List.getElem?_set_self hlt), ne_invalid_of_validate hvalid⟩

/-- A service with a future mitm is not handed out. -/
lemma Change.no_handle {pid : Nat} {answers : SessionAnswers}
    (h : Change sys s (.getServiceHandle pid n answers) reply s') (hmem : n ∈ s.futureMitmList) :
    ∃ result, reply = .failed result := by
  have hfuture := hasFutureMitmDeclaration_iff.mpr hmem
  cases h with
  | rejected => exact ⟨_, rfl⟩
  | asked hquestion => exact hquestion.elim
  | registerFailed _ => exact ⟨_, rfl⟩
  | registered hreq _ _ _ => exact hreq.elim
  | session _ hnot | mitmSession _ _ hnot _ _ _ _ =>
    rw [hfuture] at hnot
    cases hnot

lemma Change.futureUnique (h : Change sys s req reply s') (hunique : Unique id invalidServiceName s.futureMitmList) :
    Unique id invalidServiceName s'.futureMitmList := by
  cases h with
  | @installed pid i service _ _ _ _ _ _ _ _ _ _ _ =>
    intro a b x y hx hy (hkey : x = y) hne
    -- A name that is not cleared was there before.
    have hold : ∀ (j : Nat) (z : ServiceName), (clearFutureMitmDeclaration s.futureMitmList service)[j]? =
        some z → z ≠ invalidServiceName → s.futureMitmList[j]? = some z := by
      intro j z hz hvalid
      rw [clearFutureMitmDeclaration, List.getElem?_map, Option.map_eq_some_iff] at hz
      obtain ⟨m, hm, hclear⟩ := hz
      split at hclear
      · exact absurd hclear.symm hvalid
      · rw [hm, hclear]
    subst hkey
    exact hunique a b x x (hold a x hx hne) (hold b x hy hne) rfl hne
  | @declared pid i service _ _ hnot hidx =>
    obtain ⟨hlt, -⟩ := List.findIdx?_eq_some_iff_getElem.mp hidx
    refine hunique.set (List.getElem?_eq_getElem hlt) (.inr (.inl (find_eq_none.mpr ?_)))
    intro m hm (heq : m = service)
    subst heq
    rw [hasFutureMitmDeclaration_iff.mpr hm] at hnot
    cases hnot
  | rejected => exact hunique
  | asked _ => exact hunique
  | registerProcess _ => exact hunique
  | unregisterProcess _ => exact hunique
  | session _ _ => exact hunique
  | mitmSession _ _ _ _ _ _ _ => exact hunique
  | registerFailed _ => exact hunique
  | registered _ _ _ _ => exact hunique
  | unregistered _ _ _ => exact hunique
  | uninstalled _ _ _ => exact hunique
  | acknowledged _ _ _ _ => exact hunique
  | ended => exact hunique

/-- A service that has no mitm and does not get one. -/
lemma ServiceChange.noMitm {processes : ProcessList} {o o' : Option (Nat × ServiceInfo)}
    (h : ServiceChange n processes req reply o o')
    (hinstall : ∀ pid port session out query, req = .installMitm pid n port session → reply ≠ .mitm out query)
    (hno : ∀ i info, o = some (i, info) → info.mitmPid = invalidProcessId) :
    ∀ i info, o' = some (i, info) → info.mitmPid = invalidProcessId := by
  intro i info hinfo
  cases h with
  | untouched _ => exact hno i info hinfo
  | handed _ _ hmitm _ _ => exact absurd (hno _ _ rfl) hmitm
  | registered _ hmitm _ =>
    cases hinfo
    exact hmitm
  | unregistered => cases hinfo
  | installed _ _ => exact absurd rfl (hinstall _ _ _ _ _ rfl)
  | uninstalled _ =>
    cases hinfo
    rfl
  | @acknowledged _ _ info _ _ =>
    cases hinfo
    exact hno _ info rfl

/-- Every request keeps the tables in order. -/
lemma TableInvariant.step (hs : TableInvariant s) (h : Change sys s req reply s') : TableInvariant s' := by
  refine ⟨?_, ?_, h.futureUnique hs.futureUnique, ?_⟩
  · obtain heq | ⟨i, info, info', hslot, heq, -, hname⟩ := h.slot hs.clean
    · rw [heq]
      exact hs.unique
    · rw [heq]
      exact hs.unique.set hslot hname
  · obtain heq | ⟨i, info, info', hslot, heq, hclean, -⟩ := h.slot hs.clean
    · rw [heq]
      exact hs.clean
    · rw [heq]
      intro x hx
      rcases List.mem_or_eq_of_mem_set hx with hx | rfl
      · exact hs.clean x hx
      · exact hclean
  · intro n hmem hn
    obtain ⟨hbefore, hinstall⟩ := h.mem_future hn hmem
    have hno : hasMitm s.serviceList n = false := by
      rcases hbefore with hbefore | hbefore
      · exact hs.futureNoMitm n hbefore hn
      · exact hbefore
    exact hasMitm_eq_false.mpr
      ((h.view hn hs.unique hs.clean).noMitm hinstall (hasMitm_eq_false.mp hno))

end Step

/-! ## The tables in every run -/

lemma tableInvariant_start : TableInvariant startState := by
  have hfree : ∀ info ∈ startState.serviceList, info = .free := fun _ => List.eq_of_mem_replicate
  have hnone : ∀ n ∈ startState.futureMitmList, n = invalidServiceName :=
    fun _ => List.eq_of_mem_replicate
  refine ⟨?_, ?_, ?_, ?_⟩
  · intro i j x y hx _ _ hne
    exact absurd (congrArg ServiceInfo.name (hfree x (List.mem_of_getElem? hx))) hne
  · intro info hinfo _
    rw [hfree info hinfo]
    exact ⟨rfl, rfl⟩
  · intro i j x y hx _ _ hne
    exact absurd (hnone x (List.mem_of_getElem? hx)) hne
  · intro n hn hne
    exact absurd (hnone n hn) hne

lemma Run.tableInvariant {t : List (SmRequest × SmReply)} (h : Run sys start t s) (hstart : TableInvariant start) :
    TableInvariant s := by
  induction h with
  | start => exact hstart
  | request _ hstep ih => exact ih.step (step_change hstep)

/-- A service stays with its owner, or its owner unregisters it. -/
lemma ServiceChange.kept {n : ServiceName} {processes : ProcessList} {req : SmRequest} {reply : SmReply}
    {i : Nat} {info : ServiceInfo} {o' : Option (Nat × ServiceInfo)}
    (h : ServiceChange n processes req reply (some (i, info)) o') :
    (∃ info', o' = some (i, info') ∧ info'.ownerPid = info.ownerPid) ∨
      req = .unregisterService info.ownerPid n ∧ reply = .done := by
  cases h with
  | untouched _ => exact .inl ⟨info, rfl, rfl⟩
  | handed _ _ _ _ _ => exact .inl ⟨_, rfl, rfl⟩
  | unregistered => exact .inr ⟨rfl, rfl⟩
  | installed _ _ => exact .inl ⟨_, rfl, rfl⟩
  | uninstalled _ => exact .inl ⟨_, rfl, rfl⟩
  | acknowledged _ _ => exact .inl ⟨_, rfl, rfl⟩

/-- A mitm is installed for a service. -/
def Installs (n : ServiceName) (e : SmRequest × SmReply) : Prop :=
  ∃ pid port session out query, e = (.installMitm pid n port session, .mitm out query)

/-- Since its declaration a mitm that is not installed yet is among the future ones. -/
lemma Run.future_mem {n : ServiceName} {pid : Nat}
    (h : Run sys start (after ++ (.declareFutureMitm pid n, .done) :: before) s)
    (hafter : ∀ e ∈ after, ¬Installs n e) : n ∈ s.futureMitmList ∧ n ≠ invalidServiceName := by
  induction after generalizing s with
  | nil =>
    cases h with
    | request _ hstep => exact (step_change hstep).declared_mem
  | cons e after ih =>
    cases h with
    | request hrun hstep =>
      obtain ⟨hmem, hn⟩ := ih hrun fun e he => hafter e (List.mem_cons_of_mem _ he)
      obtain hmem | ⟨pid, port, session, out, query, rfl, rfl⟩ := (step_change hstep).future_mem hn hmem
      · exact ⟨hmem, hn⟩
      · exact absurd ⟨pid, port, session, out, query, rfl⟩ (hafter _ List.mem_cons_self)

/-- Between the declaration of a mitm and its installation nothing is handed out. -/
lemma Run.no_handle {n : ServiceName} {pid pid' : Nat} {answers : SessionAnswers} {reply : SmReply}
    (h : Run sys start (after ++ (.declareFutureMitm pid n, .done) :: before) s) (hafter : ∀ e ∈ after, ¬Installs n e)
    (hget : (.getServiceHandle pid' n answers, reply) ∈ after) : ∃ result, reply = .failed result := by
  obtain ⟨later, between, rfl⟩ := List.append_of_mem hget
  rw [List.append_assoc, List.cons_append] at h
  obtain ⟨s₁, s₂, hrun, hstep⟩ := h.at
  have hbetween : ∀ e ∈ between, ¬Installs n e := fun e he =>
    hafter e (List.mem_append_right _ (List.mem_cons_of_mem _ he))
  exact (step_change hstep).no_handle (hrun.future_mem hbetween).1

/-- In every state that requests lead to, no two slots hold the same name, and a future mitm is listed
once and is not installed. The next request leaves every service with its owner, or is the owner's
`UnregisterService`. Since a mitm was declared, and before it is installed, no process was given a
handle. -/
theorem service_tables_ok (sys : SystemConfig) (t : List (SmRequest × SmReply)) (s : ServiceManager)
    (h : Run sys startState t s) :
    (∀ (i j : Nat) (a b : ServiceInfo), s.serviceList[i]? = some a → s.serviceList[j]? = some b →
        a.name = b.name → a.name ≠ invalidServiceName → i = j) ∧
      (∀ (i j : Nat) (n : ServiceName), s.futureMitmList[i]? = some n → s.futureMitmList[j]? = some n →
        n ≠ invalidServiceName → i = j) ∧
      (∀ n ∈ s.futureMitmList, n ≠ invalidServiceName → hasMitm s.serviceList n = false) ∧
      (∀ req reply s' n i info, step sys s req = .ok (reply, s') → n ≠ invalidServiceName →
        getServiceInfo s.serviceList n = some (i, info) →
        (∃ info', getServiceInfo s'.serviceList n = some (i, info') ∧ info'.ownerPid = info.ownerPid) ∨
          req = .unregisterService info.ownerPid n ∧ reply = .done) ∧
      ∀ n pid after before, t = after ++ (.declareFutureMitm pid n, .done) :: before →
        (∀ e ∈ after, ¬Installs n e) → ∀ pid' answers reply,
        (.getServiceHandle pid' n answers, reply) ∈ after → ∃ result, reply = .failed result := by
  have hs := h.tableInvariant tableInvariant_start
  refine ⟨hs.unique, ?_, hs.futureNoMitm, ?_, ?_⟩
  · intro i j n hi hj hn
    exact hs.futureUnique i j n n hi hj rfl hn
  · intro req reply s' n i info hstep hn hinfo
    have hview := (step_change hstep).view hn hs.unique hs.clean
    rw [hinfo] at hview
    exact hview.kept
  · intro n pid after before ht hafter pid' answers reply hget
    subst ht
    exact h.no_handle hafter hget

set_option maxRecDepth 4000 in
/-- A service `a` for which a mitm is declared before a client asks for it. -/
theorem service_tables_ok_declared :
    let sys : SystemConfig := ⟨0, 0x50, true⟩
    let a : ServiceName := .encode [0x61] 1
    let answers : SessionAnswers := ⟨.ok true, .ok 1, .ok 2⟩
    ∃ s reply, Run sys startState
        [(.getServiceHandle 2 a answers, reply), (.declareFutureMitm 1 a, .done)] s ∧
      a ∈ s.futureMitmList ∧ hasMitm s.serviceList a = false ∧ ∃ result, reply = .failed result := by
  intro sys a answers
  let s : ServiceManager := { startState with futureMitmList := startState.futureMitmList.set 0 a }
  have hdeclare : step sys startState (.declareFutureMitm 1 a) = .ok (.done, s) := rfl
  have hget : step sys s (.getServiceHandle 2 a answers) = .ok (.failed .deferredByUser, s) := rfl
  have hrun := Run.request (.request .start hdeclare) hget
  obtain ⟨-, -, hmitm, -, hwindow⟩ := service_tables_ok sys _ s hrun
  have hmem : a ∈ s.futureMitmList := List.mem_cons_self
  refine ⟨s, _, hrun, hmem, hmitm a hmem (by decide), ?_⟩
  refine hwindow a 1 [_] [] rfl ?_ 2 answers _ List.mem_cons_self
  intro e he hinstalls
  obtain ⟨pid, port, session, out, query, rfl⟩ := hinstalls
  simp at he

end RajNX.Sm
