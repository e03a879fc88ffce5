import RajNX.Lib.FlatMemory

/-!
# The file key-value store

`FileKeyValueStore` of `kvdb_file_key_value_store.cpp`: a directory with a file for the value of each key,
named after the key in hexadecimal, and a cache of values that were read. The cache lives in a buffer of
the caller. An array of entries is at its start, the values are behind it, and all of it is given up at
once when there is no room.

A call of the model ends in nothing where the source ends the process or leaves the buffer.
-/

namespace RajNX.Kvdb

open FlatMemory

/-! ## Results -/

/-- `MAKERESULT` -/
def makeResult (module description : Nat) : Nat := module + description * 2 ^ 9

def resultSuccess : Nat := 0

def resultFsPathNotFound : Nat := makeResult 2 1

def resultFsNotEnoughFreeSpaceRangeStart : Nat := makeResult 2 30

def resultFsNotEnoughFreeSpaceRangeEnd : Nat := makeResult 2 45

def resultKvdbKeyCapacityInsufficient : Nat := makeResult 20 1

def resultKvdbKeyNotFound : Nat := makeResult 20 2

def resultKvdbBufferInsufficient : Nat := makeResult 20 6

/-! ## The directory -/

/-- The files, and the result of the last operation on them that failed. -/
structure Disk where
  files : List UInt8 → Option (List UInt8)
  lastResult : Nat

namespace Disk

/-- What may go wrong in writing a file: creating it, writing to it, or writing what the stream has kept
back. Some of the bytes may be in the file then. -/
inductive WriteFault
  | atOpen (result : Nat)
  | atWrite (written result : Nat)
  | atFlush (written result : Nat)

variable (d : Disk)

/-- An operation that failed. -/
def fail (result : Nat) : Disk := { d with lastResult := result }

/-- The files with one of them changed. -/
def setFile (path : List UInt8) (contents : Option (List UInt8)) : Disk :=
  { d with files := Function.update d.files path contents }

/-- `std::remove`, and whether it was successful -/
def remove (path : List UInt8) : Bool × Disk :=
  match d.files path with
  | none => (false, d.fail resultFsPathNotFound)
  | some _ => (true, d.setFile path none)

/-- Writing no bytes to a new file: `fwrite` returns zero, which is taken for a failure. -/
def writeNothing (path : List UInt8) : Nat × Disk :=
  (d.lastResult, d.setFile path (some []))

/-- Opening, writing, flushing and closing a file, as `Set` does it. -/
def write (path value : List UInt8) (fault : Option WriteFault) : Nat × Disk :=
  match fault with
  | none =>
    if value = [] then d.writeNothing path
    else (resultSuccess, d.setFile path (some value))
  | some (.atOpen result) => (result, d.fail result)
  | some (.atWrite written result) =>
    if value = [] then d.writeNothing path
    else (result, (d.setFile path (some (value.take written))).fail result)
  | some (.atFlush written result) =>
    -- The result of `fflush` is not looked at.
    if value = [] then d.writeNothing path
    else (resultSuccess, (d.setFile path (some (value.take written))).fail result)

end Disk

/-! ## Paths -/

/-- `MaxPathLength` -/
def maxPathLength : Nat := 0x300

/-- `MaxKeySize` -/
def maxKeySize : Nat := (0xFF - 4) / 2

/-- `BoundedString::Append`, of a path -/
def appendPath (path s : List UInt8) : Option (List UInt8) :=
  if maxPathLength ≤ path.length + s.length then none else some (path ++ s)

/-- A lower-case hexadecimal digit. -/
def hexChar (n : Nat) : UInt8 := .ofNat (if n < 10 then 0x30 + n else 0x57 + n)

/-- A byte in the format `%02x`. -/
def hexByte (b : UInt8) : List UInt8 := [hexChar (b.toNat / 16), hexChar (b.toNat % 16)]

/-- The loop of `GetPath` over the bytes of the key. -/
def appendKey (path : List UInt8) : List UInt8 → Option (List UInt8)
  | [] => some path
  | b :: key => do
    let path ← appendPath path (hexByte b)
    appendKey path key

/-- `FileExtension`, that is `.val` -/
def fileExtension : List UInt8 := [0x2E, 0x76, 0x61, 0x6C]

/-- `GetPath` -/
def getPath (dirPath key : List UInt8) : Option (List UInt8) := do
  let path ← appendPath dirPath [0x2F]
  let path ← appendKey path key
  appendPath path fileExtension

/-! ## The cache -/

/-- `FileKeyValueStore::Cache` -/
structure Cache where
  backingBuffer : Option Memory
  freeOffset : Nat
  entries : Option Nat
  count : Nat
  capacity : Nat

namespace Cache

/-- The size of `Entry`, with the alignment of its fields. -/
def entrySize : Nat := 0x98

/-- The offsets of the fields of `Entry`; the key is at its start. -/
def valueOffset : Nat := 0x80

def keySizeOffset : Nat := 0x88

def valueSizeOffset : Nat := 0x90

/-- `HasEntries` -/
def hasEntries (c : Cache) : Bool := c.entries.isSome && c.capacity ≠ 0

/-- The size that is asked for the array of entries. -/
def entriesSize (c : Cache) : Nat := entrySize * c.capacity % 2 ^ 64

/-- `Allocate`: an address, or nothing if there is not enough room -/
def allocate (c : Cache) (size : Nat) : Option Nat × Cache :=
  match c.backingBuffer with
  | none => (none, c)
  | some m =>
    if m.size - c.freeOffset < size then (none, c)
    else (some (m.base + c.freeOffset), { c with freeOffset := c.freeOffset + size })

/-- `Initialize`, with the result -/
def initializeCache (buffer : Option Memory) (capacity : Nat) : Nat × Cache :=
  let c : Cache := ⟨buffer, 0, none, 0, capacity⟩
  match buffer with
  | none => (resultSuccess, c)
  | some _ =>
    match c.allocate c.entriesSize with
    | (none, c) => (resultKvdbBufferInsufficient, c)
    | (some entries, c) => (resultSuccess, { c with entries := some entries })

/-- `Invalidate` -/
def invalidate (c : Cache) : Option Cache :=
  if ¬c.hasEntries then some c
  else
    let c := { c with freeOffset := 0, count := 0 }
    match c.allocate c.entriesSize with
    | (none, _) => none
    | (some entries, c) => some { c with entries := some entries }

/-- The address of an entry. -/
def entryAddress (c : Cache) (i : Nat) : Option Nat := c.entries.map (· + entrySize * i)

/-- Whether an entry is that of a key. -/
def matchesKey (c : Cache) (i : Nat) (key : List UInt8) : Option Bool := do
  let m ← c.backingBuffer
  let a ← c.entryAddress i
  let keySize ← m.loadWord (a + keySizeOffset)
  if keySize = key.length then
    let entryKey ← m.load a key.length
    some (entryKey = key)
  else some false

/-- The loop over the entries from `i` on. -/
def findEntry (c : Cache) (key : List UInt8) : Nat → Nat → Option (Option Nat)
  | 0, _ => some none
  | n + 1, i => do
    if ← c.matchesKey i key then some (some i) else findEntry c key n (i + 1)

/-- `TryGet` -/
def tryGet (c : Cache) (maxOutSize : Nat) (key : List UInt8) : Option (Option (List UInt8)) :=
  if ¬c.hasEntries then some none
  else do
    match ← c.findEntry key c.count 0 with
    | none => some none
    | some i =>
      let m ← c.backingBuffer
      let a ← c.entryAddress i
      let valueSize ← m.loadWord (a + valueSizeOffset)
      -- Without enough space the value is not read from the cache.
      if maxOutSize < valueSize then some none
      else
        let value ← m.loadWord (a + valueOffset)
        let bytes ← m.load value valueSize
        some (some bytes)

/-- `TryGetSize` -/
def tryGetSize (c : Cache) (key : List UInt8) : Option (Option Nat) :=
  if ¬c.hasEntries then some none
  else do
    match ← c.findEntry key c.count 0 with
    | none => some none
    | some i =>
      let m ← c.backingBuffer
      let a ← c.entryAddress i
      let valueSize ← m.loadWord (a + valueSizeOffset)
      some (some valueSize)

/-- `Contains` -/
def contains (c : Cache) (key : List UInt8) : Option Bool := do
  let size ← c.tryGetSize key
  some size.isSome

/-- The writes of `Set` to the next entry and its value. -/
def writeEntry (m : Memory) (a valueBuf : Nat) (key value : List UInt8) : Option Memory := do
  let m ← m.store a key
  let m ← m.storeWord (a + keySizeOffset) key.length
  let m ← m.storeWord (a + valueOffset) valueBuf
  let dst ← m.loadWord (a + valueOffset)
  let m ← m.store dst value
  m.storeWord (a + valueSizeOffset) value.length

/-- `Set`, once there is memory for the value -/
def setAt (c : Cache) (valueBuf : Nat) (key value : List UInt8) : Option Cache := do
  let m ← c.backingBuffer
  let a ← c.entryAddress c.count
  let m ← writeEntry m a valueBuf key value
  some { c with backingBuffer := some m, count := c.count + 1 }

/-- The first step of `Set`: at capacity, the cache is given up. -/
def freeEntry (c : Cache) : Option Cache :=
  if c.count = c.capacity then c.invalidate else some c

/-- `Set` -/
def set (c : Cache) (key value : List UInt8) : Option Cache :=
  if ¬c.hasEntries then some c
  else if maxKeySize < key.length then none
  else do
    let c ← c.freeEntry
    match c.allocate value.length with
    | (some valueBuf, c) => c.setAt valueBuf key value
    | (none, c) =>
      -- Giving up the other values may make enough room.
      let c ← c.invalidate
      match c.allocate value.length with
      | (some valueBuf, c) => c.setAt valueBuf key value
      | (none, c) => some c

end Cache

/-! ## The store -/

/-- `FileKeyValueStore`, with the directory it is over -/
structure FileKeyValueStore where
  dirPath : List UInt8
  cache : Cache
  disk : Disk

/-- What a call gives back: its result and, if it sets them, the size and the bytes of the value. -/
structure StoreReply where
  result : Nat
  outSize : Option Nat
  outValue : List UInt8
deriving Repr, DecidableEq

/-- A reply without data. -/
def StoreReply.plain (result : Nat) : StoreReply := ⟨result, none, []⟩

namespace FileKeyValueStore

/-- `InitializeWithCache` on a directory -/
def initializeWithCache (dirPath : List UInt8) (disk : Disk) (cacheBuffer : Option Memory)
    (cacheCapacity : Nat) : Option (Nat × FileKeyValueStore) :=
  if maxPathLength ≤ dirPath.length then none
  else
    let (result, cache) := Cache.initializeCache cacheBuffer cacheCapacity
    some (result, ⟨dirPath, cache, disk⟩)

/-- `Initialize` on a directory -/
def initializeStore (dirPath : List UInt8) (disk : Disk) : Option (Nat × FileKeyValueStore) :=
  initializeWithCache dirPath disk none 0

/-- `Get` -/
def get (s : FileKeyValueStore) (key : List UInt8) (maxOutSize : Nat) : Option (StoreReply × FileKeyValueStore) :=
  if maxKeySize < key.length then some (.plain resultKvdbKeyCapacityInsufficient, s)
  else do
    match ← s.cache.tryGet maxOutSize key with
    | some value => some (⟨resultSuccess, some value.length, value⟩, s)
    | none =>
      let path ← getPath s.dirPath key
      match s.disk.files path with
      | none =>
        some (.plain resultKvdbKeyNotFound, { s with disk := s.disk.fail resultFsPathNotFound })
      | some value =>
        if maxOutSize < value.length then some (.plain resultKvdbBufferInsufficient, s)
        -- `fread` of no bytes returns zero, and is taken for a failure.
        else if value = [] then some (.plain s.disk.lastResult, s)
        else
          let cache ← s.cache.set key value
          some (⟨resultSuccess, some value.length, value⟩, { s with cache })

/-- `GetSize` -/
def getSize (s : FileKeyValueStore) (key : List UInt8) : Option (StoreReply × FileKeyValueStore) :=
  if maxKeySize < key.length then some (.plain resultKvdbKeyCapacityInsufficient, s)
  else do
    match ← s.cache.tryGetSize key with
    | some size => some (⟨resultSuccess, some size, []⟩, s)
    | none =>
      let path ← getPath s.dirPath key
      match s.disk.files path with
      | none =>
        some (.plain resultKvdbKeyNotFound, { s with disk := s.disk.fail resultFsPathNotFound })
      | some value => some (⟨resultSuccess, some value.length, []⟩, s)

/-- Give up the cache if it has the key. -/
def invalidateKey (c : Cache) (key : List UInt8) : Option Cache := do
  let contained ← c.contains key
  if contained then c.invalidate else some c

/-- `Set`, given what goes wrong in writing the file -/
def set (s : FileKeyValueStore) (key value : List UInt8) (fault : Option Disk.WriteFault) :
    Option (StoreReply × FileKeyValueStore) :=
  if maxKeySize < key.length then some (.plain resultKvdbKeyCapacityInsufficient, s)
  else do
    let cache ← invalidateKey s.cache key
    let path ← getPath s.dirPath key
    -- The file may not exist.
    let (_, disk) := s.disk.remove path
    let (result, disk) := disk.write path value fault
    some (.plain result, { s with cache, disk })

/-- `Remove` -/
def remove (s : FileKeyValueStore) (key : List UInt8) : Option (StoreReply × FileKeyValueStore) :=
  if maxKeySize < key.length then some (.plain resultKvdbKeyCapacityInsufficient, s)
  else do
    let cache ← invalidateKey s.cache key
    let path ← getPath s.dirPath key
    let (removed, disk) := s.disk.remove path
    some (.plain (if removed then resultSuccess else resultKvdbKeyNotFound), { s with cache, disk })

end FileKeyValueStore

/-- The calls of a client. -/
inductive StoreCall
  | get (key : List UInt8) (maxOutSize : Nat)
  | getSize (key : List UInt8)
  | set (key value : List UInt8) (fault : Option Disk.WriteFault)
  | remove (key : List UInt8)

/-- One call. -/
def FileKeyValueStore.call (s : FileKeyValueStore) : StoreCall → Option (StoreReply × FileKeyValueStore)
  | .get key maxOutSize => s.get key maxOutSize
  | .getSize key => s.getSize key
  | .set key value fault => s.set key value fault
  | .remove key => s.remove key

/-- The replies to a sequence of calls; nothing stands for the end of the process. -/
def FileKeyValueStore.replies (s : FileKeyValueStore) : List StoreCall → List (Option StoreReply)
  | [] => []
  | c :: cs =>
    match s.call c with
    | none => [none]
    | some (reply, s) => some reply :: s.replies cs

end RajNX.Kvdb
