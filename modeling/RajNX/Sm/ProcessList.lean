import RajNX.Lib.Splice
import RajNX.Sm.AccessControl

/-!
# The processes of the service manager

`RegisterProcess` and `UnregisterProcess` of `sm_service_manager.cpp`, on a list of process infos, and the
check of the requests of a client against its access control. A process is registered with the access
control it asks for and with the restriction that was signed; only the first is kept.

Whatever a client is allowed in a run, the restriction it was registered with allows.
-/

namespace RajNX.Sm

open Splice

/-- `InvalidProcessId` -/
def invalidProcessId : Nat := 2 ^ 64 - 1

/-- `AccessControlSizeMax` -/
def accessControlSizeMax : Nat := 0x200

/-- `ProcessInfo` -/
structure ProcessInfo where
  pid : Nat
  tid : Nat
  accessControlSize : Nat
  accessControl : List UInt8
  length_accessControl : accessControl.length = accessControlSizeMax

namespace ProcessInfo

/-- `Free` -/
def free : ProcessInfo where
  pid := invalidProcessId
  tid := 0
  accessControlSize := 0
  accessControl := List.replicate accessControlSizeMax 0
  length_accessControl := List.length_replicate

/-- The access control that is kept. -/
def access (p : ProcessInfo) : AccessControlEntry := ⟨p.accessControl.take p.accessControlSize⟩

/-- The part of `RegisterProcess` that saves the info. -/
def save (p : ProcessInfo) (pid tid : Nat) (aci : List UInt8) (h : aci.length ≤ accessControlSizeMax) :
    ProcessInfo where
  pid := pid
  tid := tid
  accessControlSize := aci.length
  accessControl := splice p.accessControl 0 aci
  length_accessControl := by
    rw [length_splice (by rw [Nat.zero_add, p.length_accessControl]; exact h), p.length_accessControl]

lemma access_save (p : ProcessInfo) (pid tid : Nat) (aci : List UInt8)
    (h : aci.length ≤ accessControlSizeMax) : (p.save pid tid aci h).access = ⟨aci⟩ := by
  have htake : (splice p.accessControl 0 aci).take aci.length = aci := by
    rw [splice, List.take_zero, List.nil_append, List.take_left]
  exact congrArg AccessControlEntry.mk htake

end ProcessInfo

/-- `g_process_list` -/
abbrev ProcessList := List ProcessInfo

/-- `ProcessCountMax` free infos. -/
def emptyProcessList : ProcessList := List.replicate 0x40 .free

/-- `GetProcessInfo`, as an index -/
def getProcessInfo (list : ProcessList) (pid : Nat) : Option Nat := list.findIdx? (·.pid = pid)

/-- `GetFreeProcessInfo`, as an index -/
def getFreeProcessInfo (list : ProcessList) : Option Nat := getProcessInfo list invalidProcessId

/-- `RegisterProcess` -/
def registerProcess (list : ProcessList) (pid tid : Nat) (acid aci : List UInt8) : SmResult × ProcessList :=
  if h : accessControlSizeMax < aci.length then (.tooLargeAccessControl, list)
  else
    match getFreeProcessInfo list with
    | none => (.insufficientProcesses, list)
    | some i =>
      if aci.length = 0 then (.notAllowed, list)
      else
        match validateAccessControl ⟨acid⟩ ⟨aci⟩ with
        | .success => (.success, list.modify i (·.save pid tid aci (Nat.le_of_not_lt h)))
        | e => (e, list)

/-- `UnregisterProcess` -/
def unregisterProcess (list : ProcessList) (pid : Nat) : SmResult × ProcessList :=
  match getProcessInfo list pid with
  | none => (.invalidClient, list)
  | some i => (.success, list.set i .free)

/-- The check of `GetServiceHandle`, `RegisterService` and others for a process that is not an initial
one. -/
def checkAccess (list : ProcessList) (pid : Nat) (service : ServiceName) (isHost : Bool) : SmResult :=
  match (getProcessInfo list pid).bind (list[·]?) with
  | none => .invalidClient
  | some p => validateService p.access service isHost false

/-! ## The restriction -/

/-- What an access control allows at use, the restriction allows. -/
def Restricts (acid : List UInt8) (access : AccessControlEntry) : Prop :=
  ∀ service isHost, validateService access service isHost false = .success →
    validateService ⟨acid⟩ service isHost false = .success

/-- `RegisterProcess` changes one info, of which it keeps an access control that passed. -/
lemma registerProcess_cases {list list' : ProcessList} {pid tid : Nat} {acid aci : List UInt8}
    (h : registerProcess list pid tid acid aci = (.success, list')) :
    ∃ i p hsize, getFreeProcessInfo list = some i ∧ list[i]? = some p ∧
      validateAccessControl ⟨acid⟩ ⟨aci⟩ = .success ∧
      list' = list.set i (p.save pid tid aci hsize) := by
  rw [registerProcess] at h
  split at h
  · cases h
  · next hsize =>
    split at h
    · cases h
    · next i hi =>
      split at h
      · cases h
      · split at h
        · next hvalid =>
          obtain ⟨hlt, -⟩ := List.findIdx?_eq_some_iff_getElem.mp hi
          cases h
          refine ⟨i, list[i], Nat.le_of_not_lt hsize, hi, List.getElem?_eq_getElem hlt, hvalid, ?_⟩
          rw [List.modify_eq_set_getElem?, List.getElem?_eq_getElem hlt]
          rfl
        · next hfail =>
          exact absurd (Prod.mk.inj h).1 hfail

/-- An access control that passed is restricted. -/
lemma restricts_save {acid aci : List UInt8} (hvalid : validateAccessControl ⟨acid⟩ ⟨aci⟩ = .success)
    (p : ProcessInfo) (pid tid : Nat) (hsize : aci.length ≤ accessControlSizeMax) :
    Restricts acid (p.save pid tid aci hsize).access := by
  intro service isHost hservice
  rw [ProcessInfo.access_save] at hservice
  exact validateService_of_validateAccessControl hvalid hservice

/-- A process that was registered is allowed at most what its restriction allows: what it asked for is
kept as it is, in one info, and at every use it is allowed, as a client or as a host, no service that
the restriction does not allow it. -/
theorem registerProcess_restricts (list list' : ProcessList) (pid tid : Nat) (acid aci : List UInt8)
    (h : registerProcess list pid tid acid aci = (.success, list')) :
    ∃ (i : Nat) (p : ProcessInfo), list'[i]? = some p ∧ p.pid = pid ∧ p.access = ⟨aci⟩ ∧
      (∀ j, j ≠ i → list'[j]? = list[j]?) ∧
      ∀ service isHost, validateService p.access service isHost false = .success →
        validateService ⟨acid⟩ service isHost false = .success := by
  obtain ⟨i, p, hsize, -, hp, hvalid, rfl⟩ := registerProcess_cases h
  obtain ⟨hlt, -⟩ := List.getElem?_eq_some_iff.mp hp
  refine ⟨i, p.save pid tid aci hsize, List.getElem?_set_self hlt, rfl, p.access_save .., ?_,
    restricts_save hvalid p pid tid hsize⟩
  intro j hj
  exact List.getElem?_set_ne (Ne.symm hj)

/-- A client of `abcd` whose restriction is `ab*`. -/
lemma registerProcess_wildcard :
    registerProcess emptyProcessList 5 7 [0x02, 0x61, 0x62, 0x2A] [0x03, 0x61, 0x62, 0x63, 0x64] =
      (.success, emptyProcessList.modify 0 (·.save 5 7 [0x03, 0x61, 0x62, 0x63, 0x64] (by decide))) := by
  have hvalid : validateAccessControl ⟨[0x02, 0x61, 0x62, 0x2A]⟩ ⟨[0x03, 0x61, 0x62, 0x63, 0x64]⟩ = .success := by
    rw [validateAccessControl, if_pos (by decide), validateService, if_pos (by decide),
      if_pos (by decide), validateAccessControl, if_neg (by decide)]
  rw [registerProcess, dif_neg (by decide), show getFreeProcessInfo emptyProcessList = some 0 from rfl]
  dsimp only
  rw [if_neg (by decide), hvalid]

/-- A restriction with a wildcard, and one service that it covers. -/
theorem registerProcess_restricts_wildcard :
    let acid : List UInt8 := [0x02, 0x61, 0x62, 0x2A]
    let aci : List UInt8 := [0x03, 0x61, 0x62, 0x63, 0x64]
    ∃ list', registerProcess emptyProcessList 5 7 acid aci = (.success, list') ∧
      ∃ (i : Nat) (p : ProcessInfo), list'[i]? = some p ∧ p.access = ⟨aci⟩ ∧
        ∀ service isHost, validateService p.access service isHost false = .success →
          validateService ⟨acid⟩ service isHost false = .success := by
  intro acid aci
  obtain ⟨i, p, hp, -, haccess, -, hrestricts⟩ := registerProcess_restricts _ _ 5 7 acid aci registerProcess_wildcard
  exact ⟨_, registerProcess_wildcard, i, p, hp, haccess, hrestricts⟩

/-! ## Runs -/

/-- The lists that runs of registrations lead to, with the restriction each info was registered with. -/
inductive Registered : ProcessList → (Nat → List UInt8) → Prop
  | start : Registered emptyProcessList fun _ => []
  | register {list list' : ProcessList} {acids : Nat → List UInt8} {pid tid : Nat}
    {acid aci : List UInt8} {i : Nat} : Registered list acids → getFreeProcessInfo list = some i →
    registerProcess list pid tid acid aci = (.success, list') →
    Registered list' (Function.update acids i acid)
  | unregister {list : ProcessList} {acids : Nat → List UInt8} (pid : Nat) : Registered list acids →
    Registered (unregisterProcess list pid).2 acids

/-- A free info is allowed nothing. -/
lemma restricts_free (acid : List UInt8) : Restricts acid ProcessInfo.free.access := by
  intro service isHost h
  rw [validateService, if_neg (by decide)] at h
  cases h

/-- Every info of a run is restricted. -/
lemma Registered.restricts {list : ProcessList} {acids : Nat → List UInt8} (h : Registered list acids) :
    ∀ (i : Nat) (p : ProcessInfo), list[i]? = some p → Restricts (acids i) p.access := by
  induction h with
  | start =>
    intro i p hp
    rw [List.eq_of_mem_replicate (List.mem_of_getElem? hp)]
    exact restricts_free _
  | @register list list' acids pid tid acid aci i _ hi hregister ih =>
    obtain ⟨i', p', hsize, hi', hp', hvalid, rfl⟩ := registerProcess_cases hregister
    rw [hi] at hi'
    cases hi'
    intro j p hp
    by_cases hj : j = i
    · obtain ⟨hlt, -⟩ := List.getElem?_eq_some_iff.mp hp'
      rw [hj, List.getElem?_set_self hlt, Option.some_inj] at hp
      rw [hj, Function.update_self, ← hp]
      exact restricts_save hvalid p' pid tid hsize
    · rw [List.getElem?_set_ne (Ne.symm hj)] at hp
      rw [Function.update_of_ne hj]
      exact ih j p hp
  | @unregister list acids pid _ ih =>
    intro j p hp
    rw [unregisterProcess] at hp
    split at hp
    · exact ih j p hp
    · next i hi =>
      by_cases hj : j = i
      · obtain ⟨hlt, -⟩ := List.findIdx?_eq_some_iff_getElem.mp hi
        rw [hj, List.getElem?_set_self hlt, Option.some_inj] at hp
        rw [← hp]
        exact restricts_free _
      · rw [List.getElem?_set_ne (Ne.symm hj)] at hp
        exact ih j p hp

/-- A request that passes the check in a run is one that the restriction of the process allows. -/
theorem checkAccess_restricted {list : ProcessList} {acids : Nat → List UInt8} (h : Registered list acids) {pid : Nat}
    {service : ServiceName} {isHost : Bool} (hcheck : checkAccess list pid service isHost = .success) :
    ∃ i, getProcessInfo list pid = some i ∧
      validateService ⟨acids i⟩ service isHost false = .success := by
  rw [checkAccess] at hcheck
  cases hi : getProcessInfo list pid with
  | none =>
    rw [hi] at hcheck
    cases hcheck
  | some i =>
    obtain ⟨hlt, -⟩ := List.findIdx?_eq_some_iff_getElem.mp hi
    rw [hi, Option.bind_some, List.getElem?_eq_getElem hlt] at hcheck
    exact ⟨i, rfl, h.restricts i _ (List.getElem?_eq_getElem hlt) service isHost hcheck⟩

/-- The process may use the service, as its restriction says. -/
theorem checkAccess_restricted_wildcard :
    ∃ list acids i, Registered list acids ∧ getProcessInfo list 5 = some i ∧
      validateService ⟨acids i⟩ (.encode [0x61, 0x62, 0x63, 0x64] 4) false false = .success := by
  have hfree : getFreeProcessInfo emptyProcessList = some 0 := rfl
  have hreg := Registered.register .start hfree registerProcess_wildcard
  have hcheck : validateService ⟨[0x03, 0x61, 0x62, 0x63, 0x64]⟩ (.encode [0x61, 0x62, 0x63, 0x64] 4) false false =
      .success := by
    rw [validateService, if_pos (by decide), if_pos (by decide)]
  obtain ⟨i, hi, hvalid⟩ := @checkAccess_restricted _ _ hreg 5 _ _ hcheck
  exact ⟨_, _, i, hreg, hi, hvalid⟩

end RajNX.Sm
