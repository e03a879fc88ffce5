import RajNX.Kvdb.FileKeyValueCacheRuns

/-!
# Failed writes of the file key-value cache

What `Set` leaves when the value could not be written. After a failure for lack of space it reaches `Pop`, whose
behaviour is undefined. After any other failure it returns the error with the key in the list, unless the number of
keys wraps around to zero. This holds in every state that runs of any calls lead to.
-/

namespace RajNX.Kvdb

variable {κ : Type}

/-! ## Keys without a file -/

section Store

variable {pod : Pod κ} {dirPath : List UInt8} {s : FileKeyValueStore}

/-- A key without a file is not found. -/
lemma Plain.get_absent (h : Plain dirPath s) (hfits : Fits pod dirPath) {key : κ}
    (hnone : valueFile pod dirPath s.disk key = none) (maxOutSize : Nat) :
    ∃ s', s.get (pod.toBytes key) maxOutSize = some (.plain resultKvdbKeyNotFound, s') := by
  obtain ⟨hoff, rfl⟩ := h
  obtain ⟨path, hpath⟩ := hfits.path key
  rw [valueFile_eq hpath] at hnone
  rw [FileKeyValueStore.get, if_neg (hfits.not_long key), Cache.tryGet_off hoff, hpath]
  simp only [Option.bind_eq_bind, Option.bind_some, hnone]
  exact ⟨_, rfl⟩

/-- `GetSize` of the store changes no file, and does not find a key without one. -/
lemma Plain.getSize (h : Plain dirPath s) (hfits : Fits pod dirPath) (key : κ) :
    ∃ reply s', s.getSize (pod.toBytes key) = some (reply, s') ∧ Plain dirPath s' ∧
      (valueFile pod dirPath s.disk key = none → reply = .plain resultKvdbKeyNotFound) := by
  obtain ⟨hoff, rfl⟩ := h
  obtain ⟨path, hpath⟩ := hfits.path key
  rw [FileKeyValueStore.getSize, if_neg (hfits.not_long key), Cache.tryGetSize_off hoff, hpath, valueFile_eq hpath]
  simp only [Option.bind_eq_bind, Option.bind_some]
  cases s.disk.files path with
  | none => exact ⟨_, _, rfl, ⟨hoff, rfl⟩, fun _ => rfl⟩
  | some contents => exact ⟨_, _, rfl, ⟨hoff, rfl⟩, by rintro ⟨⟩⟩

variable [DecidableEq κ] {c : FileKeyValueCache κ} {capacity : Nat} {key : κ}

/-- A key that is neither in the list nor in the directory. -/
structure Absent (pod : Pod κ) (dirPath : List UInt8) (c : FileKeyValueCache κ) (key : κ) : Prop where
  list : key ∉ c.lruList.live
  file : valueFile pod dirPath c.kvs.disk key = none
  contains : c.contains key = false
  get (maxOutSize : Nat) : ∃ c', c.get pod key maxOutSize = some (.plain resultKvdbKeyNotFound, c')
  getSize : ∃ c', c.getSize pod key = some (.plain resultKvdbKeyNotFound, c')

lemma Ready.absent (h : Ready dirPath capacity c) (hfits : Fits pod dirPath) (hlist : key ∉ c.lruList.live)
    (hfile : valueFile pod dirPath c.kvs.disk key = none) : Absent pod dirPath c key where
  list := hlist
  file := hfile
  contains := by
    rw [FileKeyValueCache.contains, LruList.contains, h.valid.lastIndex_of_notMem hlist]
    rfl
  get maxOutSize := by
    obtain ⟨kvs, hget⟩ := h.plain.get_absent hfits hfile maxOutSize
    rw [FileKeyValueCache.get, h.valid.update_of_notMem hlist]
    simp only [Option.bind_eq_bind, Option.bind_some, hget]
    exact ⟨_, rfl⟩
  getSize := by
    obtain ⟨reply, kvs, hsize, -, hreply⟩ := h.plain.getSize hfits key
    rw [FileKeyValueCache.getSize, hsize, hreply hfile]
    exact ⟨_, rfl⟩

end Store

/-! ## Runs of any calls -/

section Runs

variable [DecidableEq κ]

/-- The caches that runs of any calls lead to, with their histories. -/
inductive AnyReachable (pod : Pod κ) (start : FileKeyValueCache κ) : FileKeyValueCache κ → History κ → Prop
  | start : AnyReachable pod start start ⟨[], fun _ => none⟩
  | call {c c' : FileKeyValueCache κ} {h : History κ} {reply : StoreReply} (call : CacheCall κ) :
    AnyReachable pod start c h → c.call pod call = some (reply, c') →
    AnyReachable pod start c' (h.next c reply call)
  | getSize {c c' : FileKeyValueCache κ} {h : History κ} {reply : StoreReply} (key : κ) :
    AnyReachable pod start c h → c.getSize pod key = some (reply, c') → AnyReachable pod start c' h

/-- What holds of a cache after any calls: its keys are distinct. -/
structure Distinct (dirPath : List UInt8) (capacity : Nat) (c : FileKeyValueCache κ) : Prop where
  ready : Ready dirPath capacity c
  nodup : c.lruList.live.Nodup

/-- A key that is set is counted from zero again. -/
structure Wraps (c : FileKeyValueCache κ) (key : κ) : Prop where
  notMem : key ∉ c.lruList.live
  room : c.lruList.isFull = false
  count : c.lruList.getCount + 1 = 2 ^ 32

section List

variable {l : LruList κ} {key : κ}

/-- The key at the end is not one of the others. -/
lemma nodup_erase_append {live : List κ} (hnodup : live.Nodup) (key : κ) : (live.erase key ++ [key]).Nodup := by
  rw [List.nodup_append_comm, List.singleton_append, List.nodup_cons, hnodup.mem_erase_iff]
  exact ⟨fun hmem => hmem.1 rfl, hnodup.erase key⟩

/-- `Update` keeps the keys distinct. -/
lemma LruList.Valid.update_nodup (h : l.Valid) (hnodup : l.live.Nodup) (key : κ) :
    ∃ updated l', l.update key = some (updated, l') ∧ l'.Valid ∧ l'.capacity = l.capacity ∧ l'.live.Nodup := by
  by_cases hkey : key ∈ l.live
  · obtain ⟨l', hupdate, hvalid, hcapacity, hlive⟩ := h.update_of_mem hnodup hkey
    exact ⟨true, l', hupdate, hvalid, hcapacity, hlive ▸ nodup_erase_append hnodup key⟩
  · exact ⟨false, l, h.update_of_notMem hkey, h, rfl, hnodup⟩

/-- `Remove` keeps the keys distinct. -/
lemma LruList.Valid.remove_nodup (h : l.Valid) (hnodup : l.live.Nodup) (key : κ) :
    ∃ removed l', l.remove key = some (removed, l') ∧ l'.Valid ∧ l'.capacity = l.capacity ∧ l'.live.Nodup := by
  by_cases hkey : key ∈ l.live
  · obtain ⟨l', hremove, hvalid, hcapacity, hlive⟩ := h.remove_of_mem hnodup hkey
    exact ⟨true, l', hremove, hvalid, hcapacity, hlive ▸ hnodup.erase key⟩
  · exact ⟨false, l, h.remove_of_notMem hkey, h, rfl, hnodup⟩

end List

section Steps

variable {pod : Pod κ} {dirPath : List UInt8} {capacity : Nat} {c c' : FileKeyValueCache κ} {key : κ}

/-- The first part of `Set`: it reaches `Pop`, or the key is in the list, or there is none left in it. -/
lemma Distinct.prepare_cases (h : Distinct dirPath capacity c) (hfits : Fits pod dirPath) (key : κ) :
    (FileKeyValueCache.prepare pod c key = none ∧ ¬Wraps c key) ∨
      ∃ c', FileKeyValueCache.prepare pod c key = some c' ∧ Distinct dirPath capacity c' ∧
        (key ∈ c'.lruList.live ∧ ¬Wraps c key ∨ c'.lruList.live = [] ∧ Wraps c key) := by
  by_cases hkey : key ∈ c.lruList.live
  · obtain ⟨c', hprepare, hready, hlive, -⟩ := h.ready.prepare_of_mem hfits h.nodup hkey
    refine .inr ⟨c', hprepare, ⟨hready, hlive ▸ nodup_erase_append h.nodup key⟩,
      .inl ⟨?_, fun hwraps => hwraps.notMem hkey⟩⟩
    rw [hlive]
    exact List.mem_append_right _ List.mem_cons_self
  cases hfull : c.lruList.isFull with
  | true =>
    refine .inl ⟨?_, fun hwraps => Bool.false_ne_true (hwraps.room.symm.trans hfull)⟩
    rw [h.ready.prepare_of_notMem hkey, hfull]
    rfl
  | false =>
    have hlt : c.lruList.getCount < 2 ^ 32 := h.ready.valid.count_lt
    by_cases hcount : c.lruList.getCount + 1 = 2 ^ 32
    · obtain ⟨l', hpush, hvalid, hcapacity, hlive⟩ := LruList.push_wraps hfull hcount key
      refine .inr ⟨{ c with lruList := l' }, ?_, ⟨⟨h.ready.plain, hvalid, hcapacity.trans h.ready.capacity_eq⟩, ?_⟩,
        .inr ⟨hlive, hkey, hfull, hcount⟩⟩
      · rw [h.ready.prepare_of_notMem hkey, hfull, hpush]
        rfl
      · rw [hlive]
        exact List.nodup_nil
    · obtain ⟨c', hprepare, hready, hlive, -⟩ := h.ready.prepare hfits h.nodup (.inr ⟨hfull, by omega⟩)
      refine .inr ⟨c', hprepare, ⟨hready, hlive ▸ nodup_erase_append h.nodup key⟩,
        .inl ⟨?_, fun hwraps => hcount hwraps.count⟩⟩
      rw [hlive]
      exact List.mem_append_right _ List.mem_cons_self

/-- Once its first part is done, `Set` ends with the result of the attempt to write the value, and leaves the list. -/
lemma Distinct.set_eq (hfits : Fits pod dirPath) (value : List UInt8) (faults : Nat → Option Disk.WriteFault)
    {c₁ : FileKeyValueCache κ} (hprepare : FileKeyValueCache.prepare pod c key = some c₁)
    (h₁ : Distinct dirPath capacity c₁) :
    ∃ result c', c'.lruList = c₁.lruList ∧ Distinct dirPath capacity c' ∧
      c.set pod key value faults = (if isNotEnoughFreeSpace result then none else some (.plain result, c')) ∧
      (∀ code, faults 0 = some (.atOpen code) → result = code) ∧
      (valueFile pod dirPath c'.kvs.disk key = none ↔ ∃ code, faults 0 = some (.atOpen code)) := by
  obtain ⟨result, kvs, hset, hplain, -, -, hopen, hfile⟩ := h₁.ready.plain.set hfits key value (faults 0)
  have hready (listFile : Nat × List κ) : Distinct dirPath capacity ⟨kvs, c₁.lruList, listFile⟩ :=
    ⟨⟨hplain, h₁.ready.valid, h₁.ready.capacity_eq⟩, h₁.nodup⟩
  have hcall : c.set pod key value faults = (FileKeyValueCache.setLoop pod key value faults 0 c₁).bind
      fun r => some (.plain r.1, r.2) := by
    rw [FileKeyValueCache.set, hprepare]
    rfl
  rw [hcall, setLoop_eq hset]
  by_cases hresult : result = resultSuccess
  · refine ⟨result, .saveList { c₁ with kvs }, rfl, hready _, ?_, hopen, hfile⟩
    rw [if_neg (not_not.mpr hresult), hresult]
    split <;> rfl
  · refine ⟨result, { c₁ with kvs }, rfl, hready _, ?_, hopen, hfile⟩
    rw [if_pos hresult]
    split <;> rfl

/-- Every call keeps the keys distinct. -/
lemma Distinct.call (h : Distinct dirPath capacity c) (hfits : Fits pod dirPath) {call : CacheCall κ}
    {reply : StoreReply} (hcall : c.call pod call = some (reply, c')) : Distinct dirPath capacity c' := by
  cases call with
  | set key value faults =>
    obtain ⟨hnone, -⟩ | ⟨c₁, hprepare, h₁, -⟩ := h.prepare_cases hfits key
    · rw [FileKeyValueCache.call, FileKeyValueCache.set, hnone] at hcall
      cases hcall
    · obtain ⟨result, c₂, -, h₂, hset, -⟩ := Distinct.set_eq hfits value faults hprepare h₁
      rw [FileKeyValueCache.call, hset] at hcall
      split at hcall
      · cases hcall
      · cases hcall
        exact h₂
  | get key maxOutSize =>
    obtain ⟨updated, l', hupdate, hvalid, hcapacity, hnodup⟩ := h.ready.valid.update_nodup h.nodup key
    obtain ⟨reply', kvs, hget, hplain, -⟩ := h.ready.plain.get hfits key maxOutSize
    rw [FileKeyValueCache.call, FileKeyValueCache.get, hupdate] at hcall
    simp only [Option.bind_eq_bind, Option.bind_some, hget] at hcall
    cases hcall
    exact ⟨⟨hplain, hvalid, hcapacity.trans h.ready.capacity_eq⟩, hnodup⟩
  | remove key =>
    obtain ⟨removed, l', hremove, hvalid, hcapacity, hnodup⟩ := h.ready.valid.remove_nodup h.nodup key
    obtain ⟨reply', kvs, hkvs, hplain, -⟩ := h.ready.plain.remove hfits key
    rw [FileKeyValueCache.call, FileKeyValueCache.remove, hremove] at hcall
    simp only [Option.bind_eq_bind, Option.bind_some, hkvs] at hcall
    split at hcall
    · cases hcall
      exact ⟨⟨hplain, hvalid, hcapacity.trans h.ready.capacity_eq⟩, hnodup⟩
    · cases hcall
      exact ⟨⟨hplain, hvalid, hcapacity.trans h.ready.capacity_eq⟩, hnodup⟩
  | removeAll =>
    rw [FileKeyValueCache.call, FileKeyValueCache.removeAll, removeAllLoop_eq] at hcall
    split at hcall
    · cases hcall
      exact ⟨⟨h.ready.plain, h.ready.valid, h.ready.capacity_eq⟩, h.nodup⟩
    · cases hcall

end Steps

/-- Runs of any calls keep the keys distinct. -/
lemma AnyReachable.distinct {pod : Pod κ} {dirPath : List UInt8} {capacity : Nat} {start c : FileKeyValueCache κ}
    {h : History κ} (hreach : AnyReachable pod start c h) (hstart : Distinct dirPath capacity start)
    (hfits : Fits pod dirPath) : Distinct dirPath capacity c := by
  induction hreach with
  | start => exact hstart
  | call call _ hcall ih => exact ih.call hfits hcall
  | getSize key _ hcall ih =>
    obtain ⟨reply, kvs, hsize, hplain, -⟩ := ih.ready.plain.getSize hfits key
    rw [FileKeyValueCache.getSize, hsize] at hcall
    cases hcall
    exact ⟨⟨hplain, ih.ready.valid, ih.ready.capacity_eq⟩, ih.nodup⟩

/-- In every state that a run of any calls leads to, a `Set` returns an error and leaves its key absent and every key
in the list with the value that was set last, just if the number of keys wraps around to zero and the file of the key
cannot be opened, for another reason than lack of space. -/
theorem failedSet_agrees_iff (pod : Pod κ) (dirPath : List UInt8) (disk : Disk) (capacity : Nat) (zero : κ)
    (kvs : FileKeyValueStore) (hkey : pod.size ≤ maxKeySize)
    (hpath : dirPath.length + 1 + 2 * pod.size + 4 < maxPathLength)
    (hkvs : FileKeyValueStore.initializeStore dirPath disk = some (resultSuccess, kvs))
    (c : FileKeyValueCache κ) (h : History κ) (hreach : AnyReachable pod (newCache kvs capacity zero) c h) (key : κ)
    (value : List UInt8) (faults : Nat → Option Disk.WriteFault) :
    (∃ reply c', c.call pod (.set key value faults) = some (reply, c') ∧ reply.result ≠ resultSuccess ∧
        Absent pod dirPath c' key ∧
        ∀ k ∈ c'.lruList.live, ∃ v, (h.next c reply (.set key value faults)).lastSet k = some v ∧
          valueFile pod dirPath c'.kvs.disk k = some v) ↔
      (key ∉ c.lruList.live ∧ c.lruList.isFull = false ∧ c.lruList.getCount + 1 = 2 ^ 32) ∧
        ∃ code, faults 0 = some (.atOpen code) ∧ isNotEnoughFreeSpace code = false ∧ code ≠ resultSuccess := by
  have hfits : Fits pod dirPath := ⟨hkey, hpath⟩
  have hnew := newCache_invariant pod (plain_initializeStore hkvs) capacity zero
  have hdistinct := hreach.distinct ⟨hnew.ready, hnew.order.nodup⟩ hfits
  obtain ⟨hnone, hwraps⟩ | ⟨c₁, hprepare, h₁, hlist⟩ := hdistinct.prepare_cases hfits key
  · -- `Pop` is reached before anything is written
    refine iff_of_false ?_ fun hcond => hwraps ⟨hcond.1.1, hcond.1.2.1, hcond.1.2.2⟩
    rintro ⟨reply, c', hcall, -⟩
    rw [FileKeyValueCache.call, FileKeyValueCache.set, hnone] at hcall
    cases hcall
  obtain ⟨result, c₂, hlru, h₂, hset, hopen, hfile⟩ := Distinct.set_eq hfits value faults hprepare h₁
  rw [FileKeyValueCache.call, hset]
  obtain ⟨hmem, hwraps⟩ | ⟨hlive, hwraps⟩ := hlist
  · refine iff_of_false ?_ fun hcond => hwraps ⟨hcond.1.1, hcond.1.2.1, hcond.1.2.2⟩
    rintro ⟨reply, c', hcall, -, habsent, -⟩
    split at hcall
    · cases hcall
    · cases hcall
      exact habsent.list (hlru ▸ hmem)
  · refine Iff.trans ?_ (and_iff_right ⟨hwraps.notMem, hwraps.room, hwraps.count⟩).symm
    constructor
    · rintro ⟨reply, c', hcall, hresult, habsent, -⟩
      split at hcall
      · cases hcall
      next hspace =>
        cases hcall
        obtain ⟨code, hcode⟩ := hfile.mp habsent.file
        obtain rfl := hopen code hcode
        exact ⟨result, hcode, Bool.eq_false_of_not_eq_true hspace, hresult⟩
    · rintro ⟨code, hcode, hspace, hresult⟩
      obtain rfl := hopen code hcode
      have hgone (k : κ) : k ∉ c₂.lruList.live := by
        rw [hlru, hlive]
        exact List.not_mem_nil
      rw [hspace]
      exact ⟨_, c₂, rfl, hresult, h₂.ready.absent hfits (hgone key) (hfile.mpr ⟨result, hcode⟩),
        fun k hk => absurd hk (hgone k)⟩

/-- A `Set` of a new cache whose write fails after the file was created. -/
theorem failedSet_agrees_iff_atWrite :
    ¬∃ reply c', emptyCache.call bytePod (.set 1 [5] fun _ => some (.atWrite 0 resultFsPathNotFound)) =
        some (reply, c') ∧ reply.result ≠ resultSuccess ∧ Absent bytePod [0x73] c' 1 ∧
      ∀ k ∈ c'.lruList.live, ∃ v, (History.next ⟨[], fun _ => none⟩ emptyCache reply
          (.set 1 [5] fun _ => some (.atWrite 0 resultFsPathNotFound))).lastSet k = some v ∧
        valueFile bytePod [0x73] c'.kvs.disk k = some v := by
  rw [failedSet_agrees_iff bytePod [0x73] ⟨fun _ => none, 0⟩ 1 0 emptyStore (by decide) (by decide) rfl emptyCache _
    .start 1 [5] fun _ => some (.atWrite 0 resultFsPathNotFound)]
  rintro ⟨-, code, ⟨⟩, -⟩

end Runs

/-- Two failures of a new cache: a write that fails for another reason than lack of space leaves the key in the list,
and one that fails for lack of space reaches `Pop`. -/
theorem failedSet_leaves :
    (∃ reply c', emptyCache.call bytePod (.set 1 [5] fun _ => some (.atWrite 0 resultFsPathNotFound)) =
      some (reply, c') ∧ reply.result ≠ resultSuccess ∧ 1 ∈ c'.lruList.live ∧ c'.contains 1 = true) ∧
    emptyCache.call bytePod (.set 1 [5, 6] fun _ => some (.atWrite 1 resultFsNotEnoughFreeSpaceRangeStart)) = none := by
  refine ⟨?_, ?_⟩
  · obtain ⟨listFile, hcall⟩ : ∃ listFile, emptyCache.call bytePod (.set 1 [5] fun _ =>
      some (.atWrite 0 resultFsPathNotFound)) = some (_, ⟨_, ⟨[1], 1⟩, listFile⟩) := emptyCache_set rfl rfl
    exact ⟨_, _, hcall, by decide, List.mem_cons_self, rfl⟩
  · have hprepare : FileKeyValueCache.prepare bytePod emptyCache 1 = some ⟨emptyStore, ⟨[1], 1⟩, (0, [0])⟩ := rfl
    obtain ⟨kvs, hset⟩ : ∃ kvs, emptyStore.set (bytePod.toBytes 1) [5, 6]
      (some (.atWrite 1 resultFsNotEnoughFreeSpaceRangeStart)) =
        some (.plain resultFsNotEnoughFreeSpaceRangeStart, kvs) := ⟨_, rfl⟩
    rw [FileKeyValueCache.call, FileKeyValueCache.set, hprepare]
    simp only [Option.bind_eq_bind, Option.bind_some]
    have hspace : isNotEnoughFreeSpace resultFsNotEnoughFreeSpaceRangeStart = true := rfl
    rw [setLoop_eq (by exact hset), if_pos hspace]
    rfl

end RajNX.Kvdb
