import Mathlib.Tactic

/-!
# Service access control

The access control of the service manager, of `sm_service_manager.cpp`: a string of entries of different
sizes, each a byte with flags and the size of a name, and the name, which may end in a wildcard. It is
asked for a service at use, and compared with a restriction, entry by entry, when a process is registered.

What an access control allows at use is the union of what its entries grant. A restriction that passes
the comparison grants all that each entry grants.
-/

namespace RajNX.Sm

/-- `ServiceName` -/
structure ServiceName where
  name : List UInt8
  length_name : name.length = 8
deriving DecidableEq

/-- `ServiceName::Encode` -/
def ServiceName.encode (name : List UInt8) (nameSize : Nat) : ServiceName where
  name := (List.range 8).map fun i => if i < nameSize then name.getD i 0 else 0
  length_name := by rw [List.length_map, List.length_range]

/-- The results of the service manager. -/
inductive SmResult
  | success
  | invalidClient
  | notAllowed
  | insufficientProcesses
  | tooLargeAccessControl
  | invalidServiceName
  | alreadyRegistered
  | notRegistered
  | insufficientServices
  | insufficientSessions
  | deferredByUser
  | kernel (result : Nat)
deriving Repr, DecidableEq

/-! ## Entries -/

/-- `AccessControlEntry`: the bytes from the entry on, as many as its capacity is; a null pointer has
none -/
structure AccessControlEntry where
  entry : List UInt8

namespace AccessControlEntry

variable (e : AccessControlEntry)

/-- `GetServiceNameSize` -/
def getServiceNameSize : Nat := (e.entry.getD 0 0 &&& 7).toNat + 1

/-- `GetSize` -/
def getSize : Nat := e.getServiceNameSize + 1

/-- `GetServiceName` -/
def getServiceName : ServiceName :=
  .encode (e.entry.drop 1) e.getServiceNameSize

/-- `IsHost` -/
def isHost : Bool := e.entry.getD 0 0 &&& 0x80 ≠ 0

/-- `IsWildcard` -/
def isWildcard : Bool := e.entry.getD e.getServiceNameSize 0 = 0x2A

/-- `IsValid` -/
def isValid : Bool :=
  if e.entry = [] then false else e.getSize ≤ e.entry.length

/-- `GetNextEntry` -/
def getNextEntry : AccessControlEntry := ⟨e.entry.drop e.getSize⟩

lemma isValid_iff (e : AccessControlEntry) : e.isValid = true ↔ e.getSize ≤ e.entry.length := by
  rw [isValid]
  by_cases h : e.entry = []
  · rw [if_pos h, h, List.length_nil]
    exact ⟨nofun, nofun⟩
  · rw [if_neg h, decide_eq_true_iff]

lemma getNextEntry_shorter {e : AccessControlEntry} (h : e.isValid = true) :
    e.getNextEntry.entry.length < e.entry.length := by
  have hle := e.isValid_iff.mp h
  rw [getNextEntry, List.length_drop]
  rw [getSize] at hle ⊢
  omega

end AccessControlEntry

open AccessControlEntry

/-- Whether an entry answers a question: by its name, or by what stands before its wildcard. -/
def matchesService (e : AccessControlEntry) (service : ServiceName) (isHost isWildcard : Bool) : Bool :=
  if e.isHost = isHost then
    if e.isWildcard = isWildcard then e.getServiceName = service
    else if e.isWildcard then
      e.getServiceName.name.take (e.getServiceNameSize - 1) = service.name.take (e.getServiceNameSize - 1)
    else false
  else false

/-- `ValidateAccessControl`, for a service -/
def validateService (accessControl : AccessControlEntry) (service : ServiceName)
    (isHost isWildcard : Bool) : SmResult :=
  if accessControl.isValid then
    if matchesService accessControl service isHost isWildcard then .success
    else validateService accessControl.getNextEntry service isHost isWildcard
  else .notAllowed
termination_by accessControl.entry.length
decreasing_by exact getNextEntry_shorter ‹_›

/-- `ValidateAccessControl`, for the entries of an access control -/
def validateAccessControl (restriction access : AccessControlEntry) : SmResult :=
  if access.isValid then
    match validateService restriction access.getServiceName access.isHost access.isWildcard with
    | .success => validateAccessControl restriction access.getNextEntry
    | e => e
  else .success
termination_by access.entry.length
decreasing_by exact getNextEntry_shorter ‹_›

/-! ## What is granted -/

/-- The valid entries of an access control, from an entry on. -/
inductive EntryOf : AccessControlEntry → AccessControlEntry → Prop
  | here {e : AccessControlEntry} : e.isValid = true → EntryOf e e
  | next {e a : AccessControlEntry} : a.isValid = true → EntryOf e a.getNextEntry → EntryOf e a

variable {service : ServiceName}

/-- A question is answered by one of the entries. -/
lemma validateService_iff {a : AccessControlEntry} {isHost isWildcard : Bool} :
    validateService a service isHost isWildcard = .success ↔
      ∃ e, EntryOf e a ∧ matchesService e service isHost isWildcard = true := by
  fun_induction validateService a service isHost isWildcard with
  | case1 a hvalid hmatch => exact ⟨fun _ => ⟨a, .here hvalid, hmatch⟩, fun _ => rfl⟩
  | case2 a hvalid hmatch ih =>
    rw [ih]
    constructor
    · intro h
      obtain ⟨e, he, hmatches⟩ := h
      exact ⟨e, .next hvalid he, hmatches⟩
    · intro h
      obtain ⟨e, he, hmatches⟩ := h
      cases he with
      | here _ => exact absurd hmatches hmatch
      | next _ he => exact ⟨e, he, hmatches⟩
  | case3 a hvalid =>
    refine ⟨nofun, ?_⟩
    intro h
    obtain ⟨e, he, -⟩ := h
    cases he with
    | here h => exact absurd h hvalid
    | next h _ => exact absurd h hvalid

/-- Every entry of an access control that passes is answered by the restriction. -/
lemma validateService_of_entryOf {restriction access e : AccessControlEntry}
    (h : validateAccessControl restriction access = .success) (he : EntryOf e access) :
    validateService restriction e.getServiceName e.isHost e.isWildcard = .success := by
  induction he with
  | here hvalid =>
    rw [validateAccessControl, if_pos hvalid] at h
    split at h
    · next hsuccess => exact hsuccess
    · next hfail => exact absurd h hfail
  | next hvalid _ ih =>
    rw [validateAccessControl, if_pos hvalid] at h
    split at h
    · exact ih h
    · next hfail => exact absurd h hfail

lemma getServiceNameSize_le (e : AccessControlEntry) : e.getServiceNameSize ≤ 8 := by
  have hle : (e.entry.getD 0 0 &&& 7).toNat ≤ 7 := by
    rw [UInt8.toNat_and]
    exact Nat.and_le_right
  exact Nat.succ_le_succ hle

/-- The bytes of an entry's name, with zeros behind them. -/
lemma getElem?_getServiceName (e : AccessControlEntry) {i : Nat} (hi : i < 8) :
    e.getServiceName.name[i]? =
      some (if i < e.getServiceNameSize then e.entry.getD (i + 1) 0 else 0) := by
  rw [getServiceName, ServiceName.encode, List.getElem?_map, List.getElem?_range hi, Option.map_some,
    List.getD_eq_getElem?_getD, List.getElem?_drop, ← List.getD_eq_getElem?_getD, Nat.add_comm 1]

/-- Names that end in wildcards and are equal with the zeros behind them have the same size. -/
lemma getServiceNameSize_eq {e e' : AccessControlEntry} (h : e.isWildcard = true)
    (h' : e'.isWildcard = true) (hname : e.getServiceName = e'.getServiceName) :
    e.getServiceNameSize = e'.getServiceNameSize := by
  -- The last byte of the longer name would be one of the zeros of the other.
  have hshorter : ∀ {a b : AccessControlEntry}, a.isWildcard = true →
      a.getServiceName = b.getServiceName → ¬b.getServiceNameSize < a.getServiceNameSize := by
    intro a b ha heq hlt
    have hle := getServiceNameSize_le a
    have hlast := congrArg (fun n => n.name[a.getServiceNameSize - 1]?) heq
    rw [getElem?_getServiceName a (by omega), getElem?_getServiceName b (by omega),
      if_pos (by omega), if_neg (by omega), Option.some_inj,
      Nat.sub_add_cancel (Nat.le_of_lt_succ (Nat.succ_lt_succ (Nat.zero_lt_of_lt hlt)))] at hlast
    rw [isWildcard, decide_eq_true_iff, hlast] at ha
    cases ha
  have h₁ := hshorter h hname
  have h₂ := hshorter h' hname.symm
  omega

/-- At use, an entry grants its name, or the names that begin with what stands before its wildcard. -/
inductive Grants (e : AccessControlEntry) (service : ServiceName) : Prop
  | exact : e.isWildcard = false → e.getServiceName = service → Grants e service
  | fuzzy : e.isWildcard = true → e.getServiceName.name.take (e.getServiceNameSize - 1) =
      service.name.take (e.getServiceNameSize - 1) → Grants e service

lemma matchesService_iff {e : AccessControlEntry} {host : Bool} :
    matchesService e service host false = true ↔ e.isHost = host ∧ Grants e service := by
  rw [matchesService]
  by_cases hhost : e.isHost = host
  · rw [if_pos hhost]
    cases hwild : e.isWildcard with
    | false =>
      rw [if_pos rfl, decide_eq_true_iff]
      refine ⟨fun h => ⟨hhost, .exact hwild h⟩, ?_⟩
      intro h
      obtain ⟨-, hgrants⟩ := h
      cases hgrants with
      | exact _ h => exact h
      | fuzzy h _ =>
        rw [hwild] at h
        cases h
    | true =>
      rw [if_neg nofun, if_pos rfl, decide_eq_true_iff]
      refine ⟨fun h => ⟨hhost, .fuzzy hwild h⟩, ?_⟩
      intro h
      obtain ⟨-, hgrants⟩ := h
      cases hgrants with
      | exact h _ =>
        rw [hwild] at h
        cases h
      | fuzzy _ h => exact h
  · rw [if_neg hhost]
    exact ⟨nofun, fun h => absurd h.1 hhost⟩

/-- A wildcard entry is answered by an entry with the same name. -/
lemma matchesService_wildcard {r : AccessControlEntry} {host : Bool} (h : matchesService r service host true = true) :
    r.isHost = host ∧ r.isWildcard = true ∧ r.getServiceName = service := by
  rw [matchesService] at h
  by_cases hhost : r.isHost = host
  · rw [if_pos hhost] at h
    cases hwild : r.isWildcard with
    | false =>
      rw [hwild, if_neg nofun, if_neg nofun] at h
      cases h
    | true =>
      rw [hwild, if_pos rfl, decide_eq_true_iff] at h
      exact ⟨hhost, rfl, h⟩
  · rw [if_neg hhost] at h
    cases h

/-- An entry of the restriction that answers an entry of the access control grants what this grants. -/
lemma matchesService_trans {r e : AccessControlEntry}
    (hr : matchesService r e.getServiceName e.isHost e.isWildcard = true) (he : Grants e service) :
    matchesService r service e.isHost false = true := by
  cases he with
  | exact hwild hname =>
    rw [hwild, hname] at hr
    exact hr
  | fuzzy hwild hfuzzy =>
    rw [hwild] at hr
    obtain ⟨hhost, hwild', hname⟩ := matchesService_wildcard hr
    refine matchesService_iff.mpr ⟨hhost, .fuzzy hwild' ?_⟩
    rw [getServiceNameSize_eq hwild' hwild hname, hname]
    exact hfuzzy

/-- An access control that passes the comparison allows at use what the restriction allows. -/
lemma validateService_of_validateAccessControl {restriction access : AccessControlEntry}
    (h : validateAccessControl restriction access = .success) {host : Bool}
    (hservice : validateService access service host false = .success) :
    validateService restriction service host false = .success := by
  obtain ⟨e, he, hmatches⟩ := validateService_iff.mp hservice
  obtain ⟨rfl, hgrants⟩ := matchesService_iff.mp hmatches
  obtain ⟨r, hr, hanswers⟩ := validateService_iff.mp (validateService_of_entryOf h he)
  exact validateService_iff.mpr ⟨r, hr, matchesService_trans hanswers hgrants⟩

end RajNX.Sm
