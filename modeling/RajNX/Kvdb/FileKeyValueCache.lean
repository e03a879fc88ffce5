import RajNX.Kvdb.Archive
import RajNX.Kvdb.CacheTransparency
import RajNX.Kvdb.LruList
import RajNX.Lib.Recency

/-!
# The file key-value cache

`FileKeyValueCache` of `kvdb_file_key_value_cache.hpp`: a file key-value store of at most so many keys,
with a list of the keys by their last use. `Set` makes room by removing the least recently used keys, one
if the list is full and more as long as there is not enough free space for the value.

A key is removed for room by `Pop`, whose behaviour is undefined. So `Set` is known to end only for a key that is
in the list or for which the list has room, and with a first attempt to write the value that does not fail for lack
of space; `RemoveAll` only for an empty list.
-/

namespace RajNX.Kvdb

variable {κ : Type}

/-- The range of `ResultFsNotEnoughFreeSpace`. -/
def isNotEnoughFreeSpace (result : Nat) : Bool :=
  resultFsNotEnoughFreeSpaceRangeStart ≤ result ∧ result ≤ resultFsNotEnoughFreeSpaceRangeEnd

/-- `FileKeyValueCache`, with what its list file holds -/
structure FileKeyValueCache (κ : Type) where
  kvs : FileKeyValueStore
  lruList : LruList κ
  listFile : Nat × List κ

namespace FileKeyValueCache

/-- `LruList::Save` -/
def saveList (c : FileKeyValueCache κ) : FileKeyValueCache κ :=
  { c with listFile := (c.lruList.entryCount, c.lruList.keys) }

variable (pod : Pod κ)

/-- `RemoveOldestKey` -/
def removeOldestKey (c : FileKeyValueCache κ) : Option (FileKeyValueCache κ) := do
  let oldestKey ← c.lruList.peek
  let lruList ← c.lruList.pop
  let (_, kvs) ← c.kvs.remove (pod.toBytes oldestKey)
  some { c with kvs, lruList }

/-- `RemoveOldestKey` calls `Pop`. -/
@[simp] lemma removeOldestKey_eq_none (c : FileKeyValueCache κ) : removeOldestKey pod c = none := by
  rw [removeOldestKey]
  cases c.lruList.peek with
  | none => rfl
  | some oldestKey =>
    rw [LruList.pop_eq_none]
    rfl

/-- The loop of `Set`, given what goes wrong in each of its attempts to write the value. -/
def setLoop (key : κ) (value : List UInt8) (faults : Nat → Option Disk.WriteFault) (attempt : Nat)
    (c : FileKeyValueCache κ) : Option (Nat × FileKeyValueCache κ) :=
  match c.kvs.set (pod.toBytes key) value (faults attempt) with
  | none => none
  | some (reply, kvs) =>
    if isNotEnoughFreeSpace reply.result then
      -- The only key in the list is that of the value.
      if c.lruList.getCount = 1 then
        c.lruList.pop.map fun lruList => (reply.result, saveList { c with kvs, lruList })
      else
        match h : removeOldestKey pod { c with kvs } with
        | none => none
        | some c => setLoop key value faults (attempt + 1) c
    else if reply.result ≠ resultSuccess then some (reply.result, { c with kvs })
    else some (resultSuccess, saveList { c with kvs })
termination_by c.lruList.entryCount
decreasing_by
  rw [removeOldestKey_eq_none] at h
  cases h

/-- The loop of `RemoveAll`. -/
def removeAllLoop (c : FileKeyValueCache κ) : Option (FileKeyValueCache κ) :=
  if c.lruList.isEmpty then some c
  else
    match _ : removeOldestKey pod c with
    | none => none
    | some c => removeAllLoop c
termination_by c.lruList.entryCount
decreasing_by
  rename_i h
  rw [removeOldestKey_eq_none] at h
  cases h

/-- `RemoveAll` -/
def removeAll (c : FileKeyValueCache κ) : Option (StoreReply × FileKeyValueCache κ) := do
  let c ← removeAllLoop pod c
  some (.plain resultSuccess, saveList c)

/-- `GetSize` -/
def getSize (c : FileKeyValueCache κ) (key : κ) : Option (StoreReply × FileKeyValueCache κ) := do
  let (reply, kvs) ← c.kvs.getSize (pod.toBytes key)
  some (reply, { c with kvs })

variable [DecidableEq κ]

/-- `Contains` -/
def contains (c : FileKeyValueCache κ) (key : κ) : Bool := c.lruList.contains key

/-- `Get` -/
def get (c : FileKeyValueCache κ) (key : κ) (maxOutSize : Nat) :
    Option (StoreReply × FileKeyValueCache κ) := do
  let (_, lruList) ← c.lruList.update key
  let (reply, kvs) ← c.kvs.get (pod.toBytes key) maxOutSize
  some (reply, { c with kvs, lruList })

/-- The first part of `Set`: the key is at the end of the list, and its file does not exist if the key was
in the list before. -/
def prepare (c : FileKeyValueCache κ) (key : κ) : Option (FileKeyValueCache κ) := do
  let (updated, lruList) ← c.lruList.update key
  if updated then
    let (_, kvs) ← c.kvs.remove (pod.toBytes key)
    some { c with kvs, lruList }
  else if lruList.isFull then
    let c ← removeOldestKey pod { c with lruList }
    let lruList ← c.lruList.push key
    some { c with lruList }
  else
    let lruList ← lruList.push key
    some { c with lruList }

/-- `Set` -/
def set (c : FileKeyValueCache κ) (key : κ) (value : List UInt8)
    (faults : Nat → Option Disk.WriteFault) : Option (StoreReply × FileKeyValueCache κ) := do
  let c ← prepare pod c key
  let (result, c) ← setLoop pod key value faults 0 c
  some (.plain result, c)

/-- `Remove` -/
def remove (c : FileKeyValueCache κ) (key : κ) : Option (StoreReply × FileKeyValueCache κ) := do
  let (_, lruList) ← c.lruList.remove key
  let (reply, kvs) ← c.kvs.remove (pod.toBytes key)
  let c := { c with kvs, lruList }
  if reply.result ≠ resultSuccess then some (reply, c) else some (reply, saveList c)

end FileKeyValueCache

/-- The calls of a client. -/
inductive CacheCall (κ : Type)
  | set (key : κ) (value : List UInt8) (faults : Nat → Option Disk.WriteFault)
  | get (key : κ) (maxOutSize : Nat)
  | remove (key : κ)
  | removeAll

/-- One call. -/
def FileKeyValueCache.call [DecidableEq κ] (pod : Pod κ) (c : FileKeyValueCache κ) :
    CacheCall κ → Option (StoreReply × FileKeyValueCache κ)
  | .set key value faults => c.set pod key value faults
  | .get key maxOutSize => c.get pod key maxOutSize
  | .remove key => c.remove pod key
  | .removeAll => c.removeAll pod

/-! ## The value files -/

/-- The value file of a key. -/
def valueFile (pod : Pod κ) (dirPath : List UInt8) (disk : Disk) (key : κ) : Option (List UInt8) := do
  let path ← getPath dirPath (pod.toBytes key)
  disk.files path

lemma appendPath_isSome {path s : List UInt8} (h : path.length + s.length < maxPathLength) :
    appendPath path s = some (path ++ s) := if_neg (Nat.not_le.mpr h)

lemma appendKey_isSome {path key : List UInt8} (h : path.length + 2 * key.length < maxPathLength) :
    appendKey path key = some (path ++ key.flatMap hexByte) := by
  induction key generalizing path with
  | nil => rw [appendKey, List.flatMap_nil, List.append_nil]
  | cons b key ih =>
    have hbyte : (hexByte b).length = 2 := rfl
    rw [List.length_cons] at h
    rw [appendKey, appendPath_isSome (by omega)]
    exact (ih (by rw [List.length_append]; omega)).trans (by
      rw [List.flatMap_cons, List.append_assoc])

/-- Where the directory leaves room, every key has a path. -/
lemma getPath_isSome {dirPath key : List UInt8} (h : dirPath.length + 1 + 2 * key.length + 4 < maxPathLength) :
    ∃ path, getPath dirPath key = some path := by
  have hhex : (key.flatMap hexByte).length = 2 * key.length := by
    induction key with
    | nil => rfl
    | cons b key ih =>
      rw [List.length_cons] at h
      rw [List.flatMap_cons, List.length_append, ih (by omega), List.length_cons]
      exact (Nat.add_comm _ _)
  rw [getPath, appendPath_isSome (by rw [List.length_singleton]; omega)]
  simp only [Option.bind_eq_bind, Option.bind_some]
  rw [appendKey_isSome (by rw [List.length_append, List.length_singleton]; omega), Option.bind_some,
    appendPath_isSome ?_]
  · exact ⟨_, rfl⟩
  · rw [List.length_append, List.length_append, List.length_singleton, hhex]
    exact h

section Kvs

variable {pod : Pod κ} {dirPath : List UInt8} {s : FileKeyValueStore} {key : κ}

/-- The keys have file names, and their paths fit. -/
structure Fits (pod : Pod κ) (dirPath : List UInt8) : Prop where
  key_le : pod.size ≤ maxKeySize
  path_lt : dirPath.length + 1 + 2 * pod.size + 4 < maxPathLength

/-- A store without a cache over the directory. -/
structure Plain (dirPath : List UInt8) (s : FileKeyValueStore) : Prop where
  off : s.cache.hasEntries = false
  dirPath_eq : s.dirPath = dirPath

lemma Fits.path (h : Fits pod dirPath) (key : κ) : ∃ path, getPath dirPath (pod.toBytes key) = some path :=
  getPath_isSome (by rw [pod.length_toBytes]; exact h.path_lt)

lemma Fits.not_long (h : Fits pod dirPath) (key : κ) : ¬maxKeySize < (pod.toBytes key).length := by
  rw [pod.length_toBytes]
  exact Nat.not_lt.mpr h.key_le

/-- The value files but one. -/
def SameValuesBut (pod : Pod κ) (dirPath : List UInt8) (key : κ) (d d' : Disk) : Prop :=
  ∀ k, k ≠ key → valueFile pod dirPath d' k = valueFile pod dirPath d k

lemma sameValuesBut {path : List UInt8} (hpath : getPath dirPath (pod.toBytes key) = some path)
    {d d' : Disk} (h : SameBut path d d') : SameValuesBut pod dirPath key d d' := by
  intro k hk
  rw [valueFile, valueFile]
  cases hpath' : getPath dirPath (pod.toBytes k) with
  | none => rfl
  | some path' =>
    refine h path' ?_
    intro heq
    rw [heq] at hpath'
    have hbytes := congrArg pod.ofBytes (getPath_inj hpath' hpath)
    rw [pod.ofBytes_toBytes, pod.ofBytes_toBytes] at hbytes
    exact hk hbytes

lemma valueFile_eq {path : List UInt8} (hpath : getPath dirPath (pod.toBytes key) = some path)
    (d : Disk) : valueFile pod dirPath d key = d.files path := by
  rw [valueFile, hpath]
  rfl

/-- A file that is removed is not there. -/
lemma remove_files_self (d : Disk) (path : List UInt8) : (d.remove path).2.files path = none := by
  rw [Disk.remove]
  split
  · assumption
  · exact Function.update_self ..

/-- Writing a file that is not there leaves none just if it cannot be opened. -/
lemma write_files_eq_none {d : Disk} {path : List UInt8} (hnone : d.files path = none) {value : List UInt8}
    {fault : Option Disk.WriteFault} :
    (d.write path value fault).2.files path = none ↔ ∃ code, fault = some (.atOpen code) := by
  have hset (d : Disk) (contents : List UInt8) : (d.setFile path (some contents)).files path ≠ none := by
    have hself : (d.setFile path (some contents)).files path = some contents := Function.update_self ..
    rw [hself]
    exact Option.some_ne_none contents
  cases fault with
  | none =>
    refine iff_of_false ?_ (by rintro ⟨_, ⟨⟩⟩)
    rw [Disk.write]
    split
    · exact hset d []
    · exact hset d value
  | some fault =>
    cases fault with
    | atOpen code => exact iff_of_true hnone ⟨code, rfl⟩
    | atWrite written result | atFlush written result =>
      refine iff_of_false ?_ (by rintro ⟨_, ⟨⟩⟩)
      rw [Disk.write]
      split
      · exact hset d []
      · exact hset d (value.take written)

/-- `Remove` of the store. -/
lemma Plain.remove (h : Plain dirPath s) (hfits : Fits pod dirPath) (key : κ) :
    ∃ reply s', s.remove (pod.toBytes key) = some (reply, s') ∧ Plain dirPath s' ∧
      SameValuesBut pod dirPath key s.disk s'.disk := by
  obtain ⟨hoff, rfl⟩ := h
  obtain ⟨path, hpath⟩ := hfits.path key
  rw [FileKeyValueStore.remove, if_neg (hfits.not_long key), Cache.invalidateKey_off hoff, hpath]
  exact ⟨_, _, rfl, ⟨hoff, rfl⟩, sameValuesBut hpath (remove_sameBut s.disk path)⟩

/-- `Set` of the store replaces the file of the key. There is none afterwards just if it was not created. -/
lemma Plain.set (h : Plain dirPath s) (hfits : Fits pod dirPath) (key : κ) (value : List UInt8)
    (fault : Option Disk.WriteFault) :
    ∃ result s', s.set (pod.toBytes key) value fault = some (.plain result, s') ∧ Plain dirPath s' ∧
      SameValuesBut pod dirPath key s.disk s'.disk ∧
      (value ≠ [] → fault = none → result = resultSuccess ∧ valueFile pod dirPath s'.disk key = some value) ∧
      (∀ code, fault = some (.atOpen code) → result = code) ∧
      (valueFile pod dirPath s'.disk key = none ↔ ∃ code, fault = some (.atOpen code)) := by
  obtain ⟨hoff, rfl⟩ := h
  obtain ⟨path, hpath⟩ := hfits.path key
  rw [FileKeyValueStore.set, if_neg (hfits.not_long key), Cache.invalidateKey_off hoff, hpath]
  have hsame : SameBut path s.disk ((s.disk.remove path).2.write path value fault).2 :=
    fun p hp => (write_sameBut _ path value fault p hp).trans (remove_sameBut s.disk path p hp)
  refine ⟨((s.disk.remove path).2.write path value fault).1,
    { s with disk := ((s.disk.remove path).2.write path value fault).2 }, rfl, ⟨hoff, rfl⟩,
    sameValuesBut hpath hsame, ?_, ?_, ?_⟩
  · intro hvalue hnone
    rw [hnone, valueFile_eq hpath, Disk.write, if_neg hvalue]
    exact ⟨rfl, Function.update_self ..⟩
  · rintro code rfl
    rfl
  · rw [valueFile_eq hpath, write_files_eq_none (remove_files_self s.disk path)]

/-- `Get` of the store changes no file, and gets a value that is not empty. -/
lemma Plain.get (h : Plain dirPath s) (hfits : Fits pod dirPath) (key : κ) (maxOutSize : Nat) :
    ∃ reply s', s.get (pod.toBytes key) maxOutSize = some (reply, s') ∧ Plain dirPath s' ∧
      s'.disk.files = s.disk.files ∧
      ∀ value, valueFile pod dirPath s.disk key = some value → value ≠ [] →
        value.length ≤ maxOutSize → reply = ⟨resultSuccess, some value.length, value⟩ := by
  obtain ⟨hoff, rfl⟩ := h
  obtain ⟨path, hpath⟩ := hfits.path key
  rw [FileKeyValueStore.get, if_neg (hfits.not_long key), Cache.tryGet_off hoff, hpath, valueFile_eq hpath]
  simp only [Option.bind_eq_bind, Option.bind_some]
  cases s.disk.files path with
  | none => exact ⟨_, _, rfl, ⟨hoff, rfl⟩, rfl, by rintro _ ⟨⟩⟩
  | some contents =>
    dsimp only
    by_cases hmax : maxOutSize < contents.length
    · rw [if_pos hmax]
      refine ⟨_, _, rfl, ⟨hoff, rfl⟩, rfl, ?_⟩
      intro value hvalue _ hle
      cases hvalue
      exact absurd hle (Nat.not_le.mpr hmax)
    rw [if_neg hmax]
    by_cases hempty : contents = []
    · rw [if_pos hempty]
      refine ⟨_, _, rfl, ⟨hoff, rfl⟩, rfl, ?_⟩
      intro value hvalue hne
      cases hvalue
      exact absurd hempty hne
    · rw [if_neg hempty, Cache.set_off hoff]
      refine ⟨_, _, rfl, ⟨hoff, rfl⟩, rfl, ?_⟩
      intro value hvalue _ _
      cases hvalue
      rfl

end Kvs

/-! ## The calls -/

/-- A cache over the directory, with memory for so many keys. -/
structure Ready (dirPath : List UInt8) (capacity : Nat) (c : FileKeyValueCache κ) : Prop where
  plain : Plain dirPath c.kvs
  valid : c.lruList.Valid
  capacity_eq : c.lruList.capacity = capacity

section Calls

variable {pod : Pod κ} {dirPath : List UInt8} {capacity : Nat} {c : FileKeyValueCache κ} {key : κ}

/-- An attempt to write the value ends the loop of `Set`: by `RemoveOldestKey` or `Pop` if it fails for lack of
space, and with its result otherwise. -/
lemma setLoop_eq {value : List UInt8} {faults : Nat → Option Disk.WriteFault} {attempt result : Nat}
    {kvs : FileKeyValueStore} (hset : c.kvs.set (pod.toBytes key) value (faults attempt) = some (.plain result, kvs)) :
    FileKeyValueCache.setLoop pod key value faults attempt c = if isNotEnoughFreeSpace result then none
      else if result ≠ resultSuccess then some (result, { c with kvs })
      else some (resultSuccess, .saveList { c with kvs }) := by
  rw [FileKeyValueCache.setLoop, hset]
  dsimp only [StoreReply.plain]
  split
  · split
    · rw [LruList.pop_eq_none]
      rfl
    · split
      · rfl
      · next h =>
        rw [FileKeyValueCache.removeOldestKey_eq_none] at h
        cases h
  · rfl

/-- `RemoveAll` of a list that is not empty reaches `Pop`. -/
lemma removeAllLoop_eq : FileKeyValueCache.removeAllLoop pod c = if c.lruList.isEmpty then some c else none := by
  rw [FileKeyValueCache.removeAllLoop]
  split
  · rfl
  · split
    · rfl
    · next h =>
      rw [FileKeyValueCache.removeOldestKey_eq_none] at h
      cases h

variable [DecidableEq κ]

/-- The first part of `Set`, for a key that is in the list. -/
lemma Ready.prepare_of_mem (h : Ready dirPath capacity c) (hfits : Fits pod dirPath) (hnodup : c.lruList.live.Nodup)
    (hkey : key ∈ c.lruList.live) :
    ∃ c', FileKeyValueCache.prepare pod c key = some c' ∧ Ready dirPath capacity c' ∧
      c'.lruList.live = c.lruList.live.erase key ++ [key] ∧
      SameValuesBut pod dirPath key c.kvs.disk c'.kvs.disk := by
  obtain ⟨lruList, hupdate, hvalid', hcapacity', hlive'⟩ := h.valid.update_of_mem hnodup hkey
  obtain ⟨reply, kvs, hremove, hplain, hsame⟩ := h.plain.remove hfits key
  refine ⟨{ c with kvs, lruList }, ?_, ⟨hplain, hvalid', hcapacity'.trans h.capacity_eq⟩, hlive', hsame⟩
  rw [FileKeyValueCache.prepare, hupdate]
  simp only [Option.bind_eq_bind, Option.bind_some, hremove]
  rfl

/-- The first part of `Set`, for a key that is not in the list: it is added if there is room. -/
lemma Ready.prepare_of_notMem (h : Ready dirPath capacity c) (hkey : key ∉ c.lruList.live) :
    FileKeyValueCache.prepare pod c key =
      if c.lruList.isFull then none else (c.lruList.push key).map fun lruList => { c with lruList } := by
  rw [FileKeyValueCache.prepare, h.valid.update_of_notMem hkey]
  simp only [Option.bind_eq_bind, Option.bind_some]
  rw [if_neg Bool.false_ne_true, FileKeyValueCache.removeOldestKey_eq_none]
  split
  · rfl
  · cases c.lruList.push key <;> rfl

/-- The first part of `Set`, for a key that is in the list or for which there is room. -/
lemma Ready.prepare (h : Ready dirPath capacity c) (hfits : Fits pod dirPath) (hnodup : c.lruList.live.Nodup)
    (hroom : key ∈ c.lruList.live ∨ c.lruList.isFull = false ∧ c.lruList.getCount + 1 < 2 ^ 32) :
    ∃ c', FileKeyValueCache.prepare pod c key = some c' ∧ Ready dirPath capacity c' ∧
      c'.lruList.live = c.lruList.live.erase key ++ [key] ∧
      SameValuesBut pod dirPath key c.kvs.disk c'.kvs.disk := by
  by_cases hkey : key ∈ c.lruList.live
  · exact h.prepare_of_mem hfits hnodup hkey
  · obtain ⟨hfull, hcount⟩ := hroom.resolve_left hkey
    rw [h.prepare_of_notMem hkey, hfull, List.erase_of_not_mem hkey]
    rw [LruList.isFull, decide_eq_false_iff_not, Nat.not_le, LruList.getCount, ← h.valid.length_live] at hfull
    rw [LruList.getCount, ← h.valid.length_live] at hcount
    obtain ⟨lruList, hpush, hvalid', hcapacity', hlive'⟩ := h.valid.push hfull hcount key
    refine ⟨{ c with lruList }, ?_, ⟨h.plain, hvalid', hcapacity'.trans h.capacity_eq⟩, hlive', fun k _ => rfl⟩
    rw [hpush]
    rfl

/-- `Set` of a value that is not empty, when there is room for the key and writing does not fail. -/
lemma Ready.set (h : Ready dirPath capacity c) (hfits : Fits pod dirPath) (hnodup : c.lruList.live.Nodup)
    {value : List UInt8} (hvalue : value ≠ []) {faults : Nat → Option Disk.WriteFault} (hfault : faults 0 = none)
    (hroom : key ∈ c.lruList.live ∨ c.lruList.isFull = false ∧ c.lruList.getCount + 1 < 2 ^ 32) :
    ∃ c', c.set pod key value faults = some (.plain resultSuccess, c') ∧ Ready dirPath capacity c' ∧
      c'.lruList.live = c.lruList.live.erase key ++ [key] ∧
      valueFile pod dirPath c'.kvs.disk key = some value ∧
      SameValuesBut pod dirPath key c.kvs.disk c'.kvs.disk := by
  obtain ⟨c₁, hprepare, h₁, hlive, hsame⟩ := h.prepare hfits hnodup hroom
  obtain ⟨result, kvs, hset, hplain, hsame', hdone, -⟩ := h₁.plain.set hfits key value (faults 0)
  obtain ⟨rfl, hfile⟩ := hdone hvalue hfault
  refine ⟨.saveList { c₁ with kvs }, ?_, ⟨hplain, h₁.valid, h₁.capacity_eq⟩, hlive, hfile,
    fun k hk => (hsame' k hk).trans (hsame k hk)⟩
  rw [FileKeyValueCache.set, hprepare]
  simp only [Option.bind_eq_bind, Option.bind_some, setLoop_eq hset]
  rfl

end Calls

end RajNX.Kvdb
