import RajNX.Sm.MitmSessions

/-!
# Listing the service records by pages

`ListServiceRecords` and a client that calls it again and again, each time behind the records that it got,
until a call returns no more. The loop over the slots counts what it writes, and pages of its counts would
list every registered service once; but the count that the call returns is always zero.
-/

namespace RajNX.Sm

/-- `ServiceRecord` -/
structure ServiceRecord where
  service : ServiceName
  ownerPid : Nat
  maxSessions : Nat
  mitmPid : Nat
  mitmWaitingAckPid : Nat
  isLight : Bool
  mitmWaitingAck : Bool

/-- `GetServiceInfoRecord` -/
def getServiceInfoRecord (info : ServiceInfo) : ServiceRecord where
  service := info.name
  ownerPid := info.ownerPid
  maxSessions := info.maxSessions
  mitmPid := info.mitmPid
  mitmWaitingAckPid := info.mitmWaitingAckPid
  isLight := info.isLight
  mitmWaitingAck := info.mitmWaitingAck

/-- The loop of `ListServiceRecords` over the slots: the records that it writes from here on, and the count
at its end. -/
def listRecordsLoop (maxCount : Nat) : List ServiceInfo → Nat → Nat → List ServiceRecord × Nat
  | [], _, count => ([], count)
  | info :: rest, offset, count =>
    if count < maxCount then
      if info.name ≠ invalidServiceName then
        if offset = 0 then
          let (out, n) := listRecordsLoop maxCount rest offset (count + 1)
          (getServiceInfoRecord info :: out, n)
        else listRecordsLoop maxCount rest (offset - 1) count
      else listRecordsLoop maxCount rest offset count
    else ([], count)

/-- `ListServiceRecords`: what it writes to `out`, and `*out_count`. -/
def listServiceRecords (services : List ServiceInfo) (offset maxCount : Nat) : List ServiceRecord × Nat :=
  let (out, _) := listRecordsLoop maxCount services offset 0
  (out, 0)

/-- The records of the services that are registered. -/
def serviceRecords (services : List ServiceInfo) : List ServiceRecord :=
  (services.filter fun info => info.name ≠ invalidServiceName).map getServiceInfoRecord

/-- A client that reads pages from an offset on, until a call returns none, with the records that it is
given. -/
inductive Pages (call : Nat → List ServiceRecord × Nat) : Nat → List ServiceRecord → Prop
  | last {offset : Nat} : (call offset).2 = 0 → Pages call offset []
  | next {offset : Nat} {rest : List ServiceRecord} :
    (call offset).2 ≠ 0 → Pages call (offset + (call offset).2) rest →
    Pages call offset ((call offset).1.take (call offset).2 ++ rest)

/-- What paging is for: every call counts what it writes, and the pages have every record once. -/
structure ListedByPages (call : Nat → List ServiceRecord × Nat) (records : List ServiceRecord) : Prop where
  counted : ∀ offset, (call offset).2 = (call offset).1.length
  listed : ∃ yielded, Pages call 0 yielded ∧ yielded.Perm records

section Loop

variable {services : List ServiceInfo} {maxCount offset count : Nat}

lemma serviceRecords_cons_free {info : ServiceInfo} (h : info.name = invalidServiceName) :
    serviceRecords (info :: services) = serviceRecords services := by
  rw [serviceRecords, List.filter_cons_of_neg (by simpa using h), ← serviceRecords]

lemma serviceRecords_cons {info : ServiceInfo} (h : info.name ≠ invalidServiceName) :
    serviceRecords (info :: services) = getServiceInfoRecord info :: serviceRecords services := by
  rw [serviceRecords, List.filter_cons_of_pos (by simpa using h), List.map_cons, ← serviceRecords]

lemma serviceRecords_eq_nil : serviceRecords services = [] ↔ ∀ info ∈ services, info.name = invalidServiceName := by
  rw [serviceRecords, List.map_eq_nil_iff, List.filter_eq_nil_iff]
  simp

/-- The loop writes the next records behind the offset, and counts them. -/
lemma listRecordsLoop_eq (hcount : count ≤ maxCount) :
    listRecordsLoop maxCount services offset count = (((serviceRecords services).drop offset).take (maxCount - count),
        count + (((serviceRecords services).drop offset).take (maxCount - count)).length) := by
  induction services generalizing offset count with
  | nil => simp [listRecordsLoop, serviceRecords]
  | cons info rest ih =>
    rw [listRecordsLoop]
    by_cases hfull : count < maxCount
    · rw [if_pos hfull]
      by_cases hname : info.name = invalidServiceName
      · rw [if_neg (not_not.mpr hname), ih hcount, serviceRecords_cons_free hname]
      · rw [if_pos hname, serviceRecords_cons hname]
        cases offset with
        | zero =>
          rw [if_pos rfl, ih hfull]
          obtain ⟨room, hroom⟩ : ∃ room, maxCount - count = room + 1 := ⟨maxCount - count - 1, by omega⟩
          have hnext : maxCount - (count + 1) = room := by omega
          simp only [hroom, hnext, List.drop_zero, List.take_succ_cons, List.length_cons]
          rw [Nat.succ_eq_add_one, Nat.add_assoc, Nat.add_comm 1]
        | succ offset =>
          rw [if_neg (Nat.succ_ne_zero offset), ih hcount, Nat.add_sub_cancel, List.drop_succ_cons]
    · have hroom : maxCount - count = 0 := by omega
      rw [if_neg hfull, hroom, List.take_zero, List.length_nil, Nat.add_zero]

end Loop

/-- A client that is always told that there are no more records is given none. -/
lemma Pages.eq_nil {call : Nat → List ServiceRecord × Nat} {offset : Nat} {yielded : List ServiceRecord}
    (h : Pages call offset yielded) (hnone : ∀ offset, (call offset).2 = 0) : yielded = [] := by
  cases h with
  | last _ => rfl
  | next hmore _ => exact absurd (hnone offset) hmore

/-- The services are listed by pages exactly when none is registered. -/
theorem listServiceRecords_listed_iff (services : List ServiceInfo) (maxCount : Nat) :
    ListedByPages (listServiceRecords services · maxCount) (serviceRecords services) ↔
      ∀ info ∈ services, info.name = invalidServiceName := by
  rw [← serviceRecords_eq_nil]
  constructor
  · intro h
    obtain ⟨yielded, hpages, hperm⟩ := h.listed
    have hnone := hpages.eq_nil fun offset => rfl
    subst hnone
    exact List.perm_nil.mp hperm.symm
  · intro hnone
    refine ⟨fun offset => ?_, [], .last rfl, by rw [hnone]⟩
    rw [listServiceRecords, listRecordsLoop_eq (Nat.zero_le _), hnone, List.drop_nil, List.take_nil]
    rfl

/-- One registered service: the first call writes its record and returns that there is none. -/
theorem listServiceRecords_counts_none :
    listServiceRecords exampleState.serviceList 0 8 = ([getServiceInfoRecord (exampleInfo 3)], 0) ∧
      ¬ListedByPages (listServiceRecords exampleState.serviceList · 8)
        (serviceRecords exampleState.serviceList) := by
  have hservices : exampleState.serviceList = exampleInfo 3 :: List.replicate 0xFF .free := rfl
  have hfree : serviceRecords (List.replicate 0xFF .free) = [] :=
    serviceRecords_eq_nil.mpr fun info hinfo => by rw [List.eq_of_mem_replicate hinfo]; rfl
  have hone : serviceRecords exampleState.serviceList = [getServiceInfoRecord (exampleInfo 3)] := by
    rw [hservices, serviceRecords_cons (by decide), hfree]
  have hcall : listServiceRecords exampleState.serviceList 0 8 =
      ([getServiceInfoRecord (exampleInfo 3)], 0) := by
    rw [listServiceRecords, listRecordsLoop_eq (Nat.zero_le _), hone]
    rfl
  refine ⟨hcall, fun h => ?_⟩
  have hcounted := h.counted 0
  rw [hcall] at hcounted
  cases hcounted

end RajNX.Sm
