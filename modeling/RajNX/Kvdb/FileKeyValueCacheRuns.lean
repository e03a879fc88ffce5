import RajNX.Kvdb.FileKeyValueCache

/-!
# Runs of the file key-value cache

What holds of a cache in every run from an empty one: its keys are distinct, not more than the capacity and
in the order of their last accesses, and the file of each of them holds the value that was set last. The
accesses and values of a run are kept in a `History` beside it.

`Set` takes a value of no bytes for one that could not be written, does not look at the result of the
flush, and counts the keys in 32 bits. To make room it calls `Pop`, as `RemoveAll` does, and what happens then is
undefined. The runs are those in which none of this matters.
-/

namespace RajNX.Kvdb

open Recency

variable {κ : Type}

/-- The keys that were accessed, the last one at the end, and the value that was last given for a key. -/
structure History (κ : Type) where
  accesses : List κ
  lastSet : κ → Option (List UInt8)

/-- The result of a fault. -/
def Disk.WriteFault.result : Disk.WriteFault → Nat
  | .atOpen result => result
  | .atWrite _ result => result
  | .atFlush _ result => result

/-- Nothing fails but the writing of values, and this for lack of space only. -/
def SpaceFailuresOnly : CacheCall κ → Prop
  | .set _ _ faults => ∀ i, ∀ f ∈ faults i, isNotEnoughFreeSpace f.result = true
  | _ => True

/-- The value of a `Set` is not empty, the first attempt to write it does not fail, and the key is in the list, or
the list has room for it and less keys than 32 bits can count. `RemoveAll` has nothing to remove. -/
def Safe (c : FileKeyValueCache κ) : CacheCall κ → Prop
  | .set key value faults => value ≠ [] ∧ faults 0 = none ∧
    (key ∈ c.lruList.live ∨ c.lruList.isFull = false ∧ c.lruList.getCount + 1 < 2 ^ 32)
  | .removeAll => c.lruList.isEmpty = true
  | _ => True

/-- A cache after `CreateNewCache` and `Initialize`. -/
def newCache (kvs : FileKeyValueStore) (capacity : Nat) (zero : κ) : FileKeyValueCache κ where
  kvs := kvs
  lruList := ⟨List.replicate capacity zero, 0⟩
  listFile := (0, List.replicate capacity zero)

section Runs

variable [DecidableEq κ]

/-- The history after a call with its reply: an access is a `Set` that is successful, or a `Get` of a key
in the list. -/
def History.next (h : History κ) (c : FileKeyValueCache κ) (reply : StoreReply) :
    CacheCall κ → History κ
  | .set key value _ =>
    ⟨if reply.result = resultSuccess then h.accesses ++ [key] else h.accesses,
      Function.update h.lastSet key (some value)⟩
  | .get key _ => if key ∈ c.lruList.live then { h with accesses := h.accesses ++ [key] } else h
  | .remove _ => h
  | .removeAll => h

/-- The caches that runs of safe calls lead to, with their histories. -/
inductive Reachable (pod : Pod κ) (start : FileKeyValueCache κ) :
    FileKeyValueCache κ → History κ → Prop
  | start : Reachable pod start start ⟨[], fun _ => none⟩
  | call {c c' : FileKeyValueCache κ} {h : History κ} {reply : StoreReply} (call : CacheCall κ) :
    Reachable pod start c h → SpaceFailuresOnly call → Safe c call →
    c.call pod call = some (reply, c') → Reachable pod start c' (h.next c reply call)

/-- What holds between the calls. -/
structure LruInvariant (pod : Pod κ) (dirPath : List UInt8) (capacity : Nat) (c : FileKeyValueCache κ)
    (h : History κ) : Prop where
  ready : Ready dirPath capacity c
  order : InRecencyOrder c.lruList.live h.accesses
  values : ∀ k ∈ c.lruList.live, ∃ v, v ≠ [] ∧ h.lastSet k = some v ∧
    valueFile pod dirPath c.kvs.disk k = some v

/-- What a call does beyond keeping the invariant: `Set` is successful and removes no other key, and `Get` of a
key in the list gets its value, if there is room for it. -/
def Serves (c c' : FileKeyValueCache κ) (h : History κ) (reply : StoreReply) : CacheCall κ → Prop
  | .set key _ _ => reply.result = resultSuccess ∧ c'.lruList.live = c.lruList.live.erase key ++ [key]
  | .get key maxOutSize => key ∈ c.lruList.live → ∀ v, h.lastSet key = some v →
    v.length ≤ maxOutSize → reply = ⟨resultSuccess, some v.length, v⟩
  | .remove _ => True
  | .removeAll => c'.lruList.live = []

section Steps

variable {pod : Pod κ} {dirPath : List UInt8} {capacity : Nat} {c : FileKeyValueCache κ} {h : History κ}

/-- A call is served and keeps the invariant. -/
def Steps (pod : Pod κ) (dirPath : List UInt8) (capacity : Nat) (c : FileKeyValueCache κ) (h : History κ)
    (call : CacheCall κ) : Prop :=
  ∃ reply c', c.call pod call = some (reply, c') ∧ Serves c c' h reply call ∧
    LruInvariant pod dirPath capacity c' (h.next c reply call)

section

variable (hinv : LruInvariant pod dirPath capacity c h)

include hinv

lemma LruInvariant.get (hfits : Fits pod dirPath)
    (key : κ) (maxOutSize : Nat) : Steps pod dirPath capacity c h (.get key maxOutSize) := by
  obtain ⟨reply, kvs, hget, hplain, hfiles, hreply⟩ := hinv.ready.plain.get hfits key maxOutSize
  have hnodup := hinv.order.nodup
  have hvalues : ∀ k, valueFile pod dirPath kvs.disk k = valueFile pod dirPath c.kvs.disk k := by
    intro k
    rw [valueFile, valueFile, hfiles]
  have hserves : key ∈ c.lruList.live → ∀ v, h.lastSet key = some v → v.length ≤ maxOutSize →
      reply = ⟨resultSuccess, some v.length, v⟩ := by
    intro hkey v hv hle
    obtain ⟨v', hne, hlast, hfile⟩ := hinv.values key hkey
    rw [hlast] at hv
    cases hv
    exact hreply v hfile hne hle
  by_cases hkey : key ∈ c.lruList.live
  · obtain ⟨lruList, hupdate, hvalid, hcapacity, hlive⟩ := hinv.ready.valid.update_of_mem hnodup hkey
    refine ⟨reply, { c with kvs, lruList }, ?_, hserves,
      ⟨hplain, hvalid, hcapacity.trans hinv.ready.capacity_eq⟩, ?_, ?_⟩
    · rw [FileKeyValueCache.call, FileKeyValueCache.get, hupdate]
      simp only [Option.bind_eq_bind, Option.bind_some, hget]
    · rw [History.next, if_pos hkey, hlive]
      refine (hinv.order.sublist List.erase_sublist).access ?_
      intro hmem
      rw [hnodup.mem_erase_iff] at hmem
      exact hmem.1 rfl
    · intro k hk
      have hk' : k ∈ c.lruList.live := by
        rw [hlive] at hk
        rcases List.mem_append.mp hk with hk | hk
        · exact List.mem_of_mem_erase hk
        · rw [List.mem_singleton.mp hk]
          exact hkey
      obtain ⟨v, hne, hlast, hfile⟩ := hinv.values k hk'
      refine ⟨v, hne, ?_, (hvalues k).trans hfile⟩
      rw [History.next, if_pos hkey]
      exact hlast
  · refine ⟨reply, { c with kvs }, ?_, hserves, ⟨hplain, hinv.ready.valid, hinv.ready.capacity_eq⟩, ?_, ?_⟩
    · rw [FileKeyValueCache.call, FileKeyValueCache.get, hinv.ready.valid.update_of_notMem hkey]
      simp only [Option.bind_eq_bind, Option.bind_some, hget]
    · rw [History.next, if_neg hkey]
      exact hinv.order
    · intro k hk
      obtain ⟨v, hne, hlast, hfile⟩ := hinv.values k hk
      refine ⟨v, hne, ?_, (hvalues k).trans hfile⟩
      rw [History.next, if_neg hkey]
      exact hlast

/-- A safe `Set` puts its key at the end of the list and its value into the file. -/
lemma LruInvariant.set (hfits : Fits pod dirPath) {key : κ}
    {value : List UInt8} {faults : Nat → Option Disk.WriteFault} (hsafe : Safe c (.set key value faults)) :
    Steps pod dirPath capacity c h (.set key value faults) := by
  obtain ⟨hvalue, hfault, hroom⟩ := hsafe
  have hnodup := hinv.order.nodup
  obtain ⟨c', hset, hready, hlive, hfile, hsame⟩ := hinv.ready.set hfits hnodup hvalue hfault hroom
  refine ⟨.plain resultSuccess, c', hset, ⟨rfl, hlive⟩, hready, ?_, ?_⟩
  · rw [hlive, History.next, if_pos (show (StoreReply.plain resultSuccess).result = resultSuccess from rfl)]
    refine (hinv.order.sublist List.erase_sublist).access ?_
    rw [hnodup.mem_erase_iff]
    exact fun hmem => hmem.1 rfl
  · intro k hk
    by_cases hkey : k = key
    · rw [hkey]
      exact ⟨value, hvalue, Function.update_self .., hfile⟩
    · rw [hlive, List.mem_append, List.mem_singleton, or_iff_left hkey] at hk
      obtain ⟨v, hne, hlast, hvalueFile⟩ := hinv.values k (List.mem_of_mem_erase hk)
      exact ⟨v, hne, (Function.update_of_ne hkey _ _).trans hlast, (hsame k hkey).trans hvalueFile⟩

lemma LruInvariant.remove (hfits : Fits pod dirPath) (key : κ) : Steps pod dirPath capacity c h (.remove key) := by
  have hnodup := hinv.order.nodup
  obtain ⟨reply, kvs, hremove, hplain, hsame⟩ := hinv.ready.plain.remove hfits key
  -- The key is gone from the list, if it was there.
  obtain ⟨removed, lruList, hlist, hvalid, hcapacity, hsub, hkey⟩ : ∃ removed lruList,
      c.lruList.remove key = some (removed, lruList) ∧ lruList.Valid ∧
      lruList.capacity = c.lruList.capacity ∧ lruList.live.Sublist c.lruList.live ∧
      key ∉ lruList.live := by
    by_cases hkey : key ∈ c.lruList.live
    · obtain ⟨lruList, hlist, hvalid, hcapacity, hlive⟩ :=
        hinv.ready.valid.remove_of_mem hnodup hkey
      refine ⟨true, lruList, hlist, hvalid, hcapacity, ?_, ?_⟩
      · rw [hlive]
        exact List.erase_sublist
      · rw [hlive, hnodup.mem_erase_iff]
        exact fun hmem => hmem.1 rfl
    · exact ⟨false, c.lruList, hinv.ready.valid.remove_of_notMem hkey, hinv.ready.valid, rfl,
        List.Sublist.refl _, hkey⟩
  have hnext : ∀ listFile, LruInvariant pod dirPath capacity ⟨kvs, lruList, listFile⟩ h := by
    intro listFile
    refine ⟨⟨hplain, hvalid, hcapacity.trans hinv.ready.capacity_eq⟩, hinv.order.sublist hsub, ?_⟩
    intro k hk
    obtain ⟨v, hne, hlast, hfile⟩ := hinv.values k (hsub.subset hk)
    exact ⟨v, hne, hlast, (hsame k fun heq => hkey (heq ▸ hk)).trans hfile⟩
  have hcall : c.remove pod key = if reply.result ≠ resultSuccess then
      some (reply, ⟨kvs, lruList, c.listFile⟩)
      else some (reply, FileKeyValueCache.saveList ⟨kvs, lruList, c.listFile⟩) := by
    rw [FileKeyValueCache.remove, hlist]
    simp only [Option.bind_eq_bind, Option.bind_some, hremove]
  by_cases hresult : reply.result ≠ resultSuccess
  · rw [if_pos hresult] at hcall
    exact ⟨reply, _, hcall, trivial, hnext _⟩
  · rw [if_neg hresult] at hcall
    exact ⟨reply, _, hcall, trivial, hnext _⟩

/-- `RemoveAll` of an empty list. -/
lemma LruInvariant.removeAll (hsafe : Safe c .removeAll) : Steps pod dirPath capacity c h .removeAll := by
  have hempty : c.lruList.isEmpty = true := hsafe
  refine ⟨.plain resultSuccess, c.saveList, ?_, hinv.ready.valid.isEmpty_iff.mp hempty,
    ⟨hinv.ready.plain, hinv.ready.valid, hinv.ready.capacity_eq⟩, hinv.order, hinv.values⟩
  rw [FileKeyValueCache.call, FileKeyValueCache.removeAll, removeAllLoop_eq, if_pos hempty]
  rfl

/-- A safe call. -/
lemma LruInvariant.call (hfits : Fits pod dirPath)
    (call : CacheCall κ) (hsafe : Safe c call) : Steps pod dirPath capacity c h call := by
  cases call with
  | set key value faults => exact hinv.set hfits hsafe
  | get key maxOutSize => exact hinv.get hfits key maxOutSize
  | remove key => exact hinv.remove hfits key
  | removeAll => exact hinv.removeAll hsafe

end

end Steps

/-- A run of safe calls keeps the invariant. -/
lemma Reachable.invariant {pod : Pod κ} {dirPath : List UInt8} {capacity : Nat}
    {start c : FileKeyValueCache κ} {h : History κ} (hreach : Reachable pod start c h)
    (hstart : LruInvariant pod dirPath capacity start ⟨[], fun _ => none⟩) (hfits : Fits pod dirPath) :
    LruInvariant pod dirPath capacity c h := by
  induction hreach with
  | start => exact hstart
  | call call _ _ hsafe hcall ih =>
    obtain ⟨reply, c', hcall', -, hnext⟩ := ih.call hfits call hsafe
    rw [hcall] at hcall'
    cases hcall'
    exact hnext

omit [DecidableEq κ] in
/-- The store of a cache has no cache itself. -/
lemma plain_initializeStore {dirPath : List UInt8} {disk : Disk} {kvs : FileKeyValueStore}
    (h : FileKeyValueStore.initializeStore dirPath disk = some (resultSuccess, kvs)) : Plain dirPath kvs := by
  rw [FileKeyValueStore.initializeStore, FileKeyValueStore.initializeWithCache] at h
  split at h
  · cases h
  · cases h
    exact ⟨rfl, rfl⟩

lemma newCache_invariant (pod : Pod κ) {dirPath : List UInt8} {kvs : FileKeyValueStore}
    (hplain : Plain dirPath kvs) (capacity : Nat) (zero : κ) :
    LruInvariant pod dirPath capacity (newCache kvs capacity zero) ⟨[], fun _ => none⟩ := by
  have hlength : (List.replicate capacity zero).length = capacity := List.length_replicate
  refine ⟨⟨hplain, ⟨Nat.zero_le _, Nat.two_pow_pos 32⟩, hlength⟩, inRecencyOrder_nil _, ?_⟩
  intro k hk
  cases hk

/-- The invariant of the cache, in every run from an empty one. Every safe call ends, and reaches neither an abort of
the list nor `Pop`. -/
theorem fileKeyValueCache_invariant (pod : Pod κ) (dirPath : List UInt8) (disk : Disk) (capacity : Nat) (zero : κ)
    (kvs : FileKeyValueStore) (hkey : pod.size ≤ maxKeySize)
    (hpath : dirPath.length + 1 + 2 * pod.size + 4 < maxPathLength)
    (hkvs : FileKeyValueStore.initializeStore dirPath disk = some (resultSuccess, kvs)) (c : FileKeyValueCache κ)
    (h : History κ) (hreach : Reachable pod (newCache kvs capacity zero) c h) :
    (c.lruList.live.Nodup ∧ c.lruList.getCount = c.lruList.live.length ∧
      c.lruList.getCount ≤ capacity ∧ InRecencyOrder c.lruList.live h.accesses ∧
      ∀ k ∈ c.lruList.live, ∃ v, h.lastSet k = some v ∧
        valueFile pod dirPath c.kvs.disk k = some v) ∧
    ∀ call, SpaceFailuresOnly call → Safe c call →
      ∃ reply c', c.call pod call = some (reply, c') ∧ Serves c c' h reply call := by
  have hfits : Fits pod dirPath := ⟨hkey, hpath⟩
  have hinv := hreach.invariant (newCache_invariant pod (plain_initializeStore hkvs) capacity zero) hfits
  have hlength := hinv.ready.valid.length_live
  have hle := hinv.ready.valid.count_le
  rw [hinv.ready.capacity_eq] at hle
  refine ⟨⟨hinv.order.nodup, hlength.symm, hle, hinv.order, ?_⟩, ?_⟩
  · intro k hk
    obtain ⟨v, -, hlast, hfile⟩ := hinv.values k hk
    exact ⟨v, hlast, hfile⟩
  · intro call _ hsafe
    obtain ⟨reply, c', hcall, hserves, -⟩ := hinv.call hfits call hsafe
    exact ⟨reply, c', hcall, hserves⟩

end Runs

/-! ## Short runs -/

/-- A store over an empty directory. -/
def emptyStore : FileKeyValueStore := ⟨[0x73], ⟨none, 0, none, 0, 0⟩, ⟨fun _ => none, 0⟩⟩

/-- An empty cache with room for one key. -/
def emptyCache : FileKeyValueCache UInt8 := newCache emptyStore 1 0

/-- A first `Set` of a new cache whose first attempt is not for lack of space: the key is in the list. -/
lemma emptyCache_set {value : List UInt8} {faults : Nat → Option Disk.WriteFault} {result : Nat}
    {kvs : FileKeyValueStore} (hset : emptyStore.set [1] value (faults 0) = some (.plain result, kvs))
    (hspace : isNotEnoughFreeSpace result = false) :
    ∃ listFile, emptyCache.call bytePod (.set 1 value faults) =
      some (.plain result, ⟨kvs, ⟨[1], 1⟩, listFile⟩) := by
  have hprepare : FileKeyValueCache.prepare bytePod emptyCache 1 = some ⟨emptyStore, ⟨[1], 1⟩, (0, [0])⟩ := rfl
  rw [FileKeyValueCache.call, FileKeyValueCache.set, hprepare]
  simp only [Option.bind_eq_bind, Option.bind_some]
  rw [@setLoop_eq _ _ _ (1 : UInt8) _ _ _ _ _ (by exact hset), hspace, if_neg Bool.false_ne_true]
  by_cases hresult : result ≠ resultSuccess
  · rw [if_pos hresult]
    exact ⟨_, rfl⟩
  · rw [if_neg hresult, not_ne_iff.mp hresult]
    exact ⟨_, rfl⟩

/-- A first `Set` that is successful fills the cache. -/
lemma emptyCache_filled : ∃ c h, Reachable bytePod emptyCache c h ∧ c.lruList = ⟨[1], 1⟩ := by
  obtain ⟨listFile, hcall⟩ : ∃ listFile, emptyCache.call bytePod (.set 1 [5] fun _ => none) =
    some (_, ⟨_, ⟨[1], 1⟩, listFile⟩) := emptyCache_set rfl rfl
  have hspace : SpaceFailuresOnly (.set (1 : UInt8) [5] fun _ => none) := fun _ => nofun
  have hsafe : Safe emptyCache (.set 1 [5] fun _ => none) := ⟨by decide, rfl, by decide⟩
  exact ⟨_, _, .call _ .start hspace hsafe hcall, rfl⟩

/-- The invariant after a first `Set`. -/
theorem fileKeyValueCache_invariant_set :
    ∃ c h, Reachable bytePod emptyCache c h ∧ c.lruList.live = [1] ∧
      InRecencyOrder c.lruList.live h.accesses ∧
      ∀ k ∈ c.lruList.live, ∃ v, h.lastSet k = some v ∧
        valueFile bytePod [0x73] c.kvs.disk k = some v := by
  obtain ⟨c, h, hreach, hlist⟩ := emptyCache_filled
  obtain ⟨⟨-, -, -, horder, hvalues⟩, -⟩ := fileKeyValueCache_invariant bytePod [0x73]
    ⟨fun _ => none, 0⟩ 1 0 emptyStore (by decide) (by decide) rfl _ _ hreach
  exact ⟨c, h, hreach, by rw [hlist]; rfl, horder, hvalues⟩

/-- Three calls that break the invariant although nothing fails but writing for lack of space: `Set` of a
value of no bytes fails and leaves the key in the list, `Set` is successful with the value lost in the flush, and
`Set` of another key in a full cache reaches `Pop`. -/
theorem fileKeyValueCache_breaks :
    (∃ reply c', emptyCache.call bytePod (.set 1 [] fun _ => none) = some (reply, c') ∧
      SpaceFailuresOnly (.set (1 : UInt8) [] fun _ => none) ∧
      ¬InRecencyOrder c'.lruList.live
        (History.next ⟨[], fun _ => none⟩ emptyCache reply (.set 1 [] fun _ => none)).accesses) ∧
    (∃ faults reply c', emptyCache.call bytePod (.set 1 [5] faults) = some (reply, c') ∧
      SpaceFailuresOnly (.set (1 : UInt8) [5] faults) ∧
      ¬∀ k ∈ c'.lruList.live, ∃ v,
        (History.next ⟨[], fun _ => none⟩ emptyCache reply (.set 1 [5] faults)).lastSet k = some v ∧
          valueFile bytePod [0x73] c'.kvs.disk k = some v) ∧
    ∃ c h, Reachable bytePod emptyCache c h ∧ SpaceFailuresOnly (.set (2 : UInt8) [6] fun _ => none) ∧
      c.call bytePod (.set 2 [6] fun _ => none) = none := by
  refine ⟨?_, ?_, ?_⟩
  · obtain ⟨listFile, hcall⟩ : ∃ listFile, emptyCache.call bytePod (.set 1 [] fun _ => none) =
      some (_, ⟨_, ⟨[1], 1⟩, listFile⟩) := emptyCache_set rfl rfl
    refine ⟨_, _, hcall, fun _ => nofun, ?_⟩
    intro h
    cases h
  · obtain ⟨listFile, hcall⟩ : ∃ listFile, emptyCache.call bytePod (.set 1 [5] fun _ =>
      some (.atFlush 0 resultFsNotEnoughFreeSpaceRangeStart)) =
        some (_, ⟨_, ⟨[1], 1⟩, listFile⟩) := emptyCache_set rfl rfl
    refine ⟨_, _, _, hcall, ?_, ?_⟩
    · intro i f hf
      cases hf
      rfl
    · intro h
      obtain ⟨v, hlast, hfile⟩ := h 1 List.mem_cons_self
      cases hlast
      cases hfile
  · obtain ⟨⟨kvs, lruList, listFile⟩, h, hreach, rfl⟩ := emptyCache_filled
    exact ⟨_, h, hreach, fun _ => nofun, rfl⟩

end RajNX.Kvdb
