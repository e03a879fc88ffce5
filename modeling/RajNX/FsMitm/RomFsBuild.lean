import RajNX.Lib.OrderedMap
import RajNX.Lib.Forest
import RajNX.Lib.LittleEndian
import RajNX.Lib.Splice
import RajNX.FsMitm.PathUtils

/-!
# Building a RomFS

`RomFSBuildContext` of `fsmitm_romfsbuild.cpp` and `fsmitm_romfsbuild.hpp`: the directories and files of
several sources are merged, the first source to name a path wins, and `Build` lays the files out, writes
the tables of a RomFS and lists which source serves which range of the image.

A pointer to a context is the path of the context, by which its map finds it; the links between the
contexts are kept beside them. A context is made for a name in a directory, so that its path is the path
of the directory followed by the name. Nothing stands for `fatalSimple`, `std::abort` and a write that
leaves a table. Table sizes and counts, for which 64 bits always suffice, are natural numbers.
-/

namespace RajNX.FsMitm.RomFs

open Forest LittleEndian Splice

/-- The path of a context, a C string without its terminator. -/
abbrev RomPath := List UInt8

/-- The order of `strcmp`, which compares bytes as numbers. -/
def strcmpKey (path : RomPath) : List Nat := path.map UInt8.toNat

/-- The name of a directory entry, a C string. -/
structure EntryName where
  bytes : List UInt8
  noNul : 0 ∉ bytes
deriving DecidableEq

/-- The path that `VisitDirectory` gives to a child. -/
def childPath (parent : RomPath) (name : EntryName) : RomPath := parent ++ slash :: name.bytes

/-- `RomFSDataSource` -/
inductive RomFSDataSource
  | baseRomFS
  | fileRomFS
  | looseFile
  | metaData
  | memory
deriving Repr, DecidableEq

/-- `RomFSBuildDirectoryContext`, with its directory and its name; the root has neither. -/
structure RomFSBuildDirectoryContext where
  place : Option (RomPath × EntryName)
  entryOffset : Nat
deriving DecidableEq

namespace RomFSBuildDirectoryContext

def root : RomFSBuildDirectoryContext := ⟨none, 0⟩

def path (d : RomFSBuildDirectoryContext) : RomPath :=
  match d.place with
  | none => []
  | some (parent, name) => childPath parent name

/-- The path from `cur_path_ofs` on. -/
def name (d : RomFSBuildDirectoryContext) : List UInt8 :=
  match d.place with
  | none => []
  | some (_, name) => name.bytes

end RomFSBuildDirectoryContext

/-- `RomFSBuildFileContext` -/
structure RomFSBuildFileContext where
  parent : RomPath
  name : EntryName
  size : Nat
  source : RomFSDataSource
  origOffset : Nat
  offset : Nat
  entryOffset : Nat
deriving DecidableEq

def RomFSBuildFileContext.path (f : RomFSBuildFileContext) : RomPath := childPath f.parent f.name

def alignUp (n align : Nat) : Nat := (n + (align - 1)) / align * align

/-- The bytes of a directory in its table. -/
def dirEntrySize (name : List UInt8) : Nat := 0x18 + alignUp name.length 4

/-- The bytes of a file in its table. -/
def fileEntrySize (name : List UInt8) : Nat := 0x20 + alignUp name.length 4

/-- `RomFSBuildContext` -/
structure RomFSBuildContext where
  directories : OrderedMap fun d : RomFSBuildDirectoryContext => strcmpKey d.path
  files : OrderedMap fun f : RomFSBuildFileContext => strcmpKey f.path
  numDirs : Nat
  numFiles : Nat
  dirTableSize : Nat
  fileTableSize : Nat

/-- A context with the root only. -/
def newContext : RomFSBuildContext where
  directories := ⟨[.root], List.pairwise_singleton _ _⟩
  files := .empty
  numDirs := 1
  numFiles := 0
  dirTableSize := 0x18
  fileTableSize := 0

/-- `RomFSBuildContext::AddDirectory`; whether the directory was added, and the context. -/
def addDirectory (ctx : RomFSBuildContext) (parent : RomPath) (name : EntryName) : Bool × RomFSBuildContext :=
  match ctx.directories.find (strcmpKey (childPath parent name)) with
  | some _ => (false, ctx)
  | none => (true, { ctx with
      numDirs := ctx.numDirs + 1
      dirTableSize := ctx.dirTableSize + dirEntrySize name.bytes
      directories := ctx.directories.insert ⟨some (parent, name), 0⟩ })

/-- `RomFSBuildContext::AddFile` -/
def addFile (ctx : RomFSBuildContext) (file : RomFSBuildFileContext) : Bool × RomFSBuildContext :=
  match ctx.files.find (strcmpKey file.path) with
  | some _ => (false, ctx)
  | none => (true, { ctx with
      numFiles := ctx.numFiles + 1
      fileTableSize := ctx.fileTableSize + fileEntrySize file.name.bytes
      files := ctx.files.insert file })

/-- What the walk of a source comes upon. -/
inductive Visit
  | directory (parent : RomPath) (name : EntryName)
  | file (parent : RomPath) (name : EntryName) (size origOffset : Nat)
deriving DecidableEq

/-- A file as the walk of a source makes its context. -/
def visitedFile (source : RomFSDataSource) (parent : RomPath) (name : EntryName)
    (size origOffset : Nat) : RomFSBuildFileContext :=
  ⟨parent, name, size, source, origOffset, 0, 0⟩

/-- What the walk of a source does with a directory or a file. -/
def addVisit (source : RomFSDataSource) (ctx : RomFSBuildContext) : Visit → RomFSBuildContext
  | .directory parent name => (addDirectory ctx parent name).2
  | .file parent name size origOffset =>
    (addFile ctx (visitedFile source parent name size origOffset)).2

/-- Merge a source, given by what its walk comes upon in order. -/
def mergeSource (source : RomFSDataSource) (visits : List Visit) (ctx : RomFSBuildContext) : RomFSBuildContext :=
  visits.foldl (addVisit source) ctx

/-- `ROMFS_ENTRY_EMPTY` -/
def romfsEntryEmpty : Nat := 0xFFFFFFFF

/-- `ROMFS_FILEPARTITION_OFS` -/
def romfsFilePartitionOfs : Nat := 0x200

/-- `romfs_calc_path_hash` -/
def romfsCalcPathHash (parent : UInt32) (path : List UInt8) : UInt32 :=
  path.foldl (fun hash b => ((hash >>> 5) ||| (hash <<< 27)) ^^^ b.toUInt32) (parent ^^^ 123456789)

/-- The loop of `romfs_get_hash_table_count`. -/
def hashTableCountLoop : Nat → Nat → Nat
  | 0, count => count
  | fuel + 1, count =>
    if count % 2 = 0 ∨ count % 3 = 0 ∨ count % 5 = 0 ∨ count % 7 = 0 ∨ count % 11 = 0 ∨
        count % 13 = 0 ∨ count % 17 = 0 then
      hashTableCountLoop fuel (count + 1)
    else count

/-- `romfs_get_hash_table_count`. Among as many numbers as the product of the divisors there is one that
leaves the rest `1` for each of them. -/
def romfsGetHashTableCount (numEntries : Nat) : Nat :=
  if numEntries < 3 then 3
  else if numEntries < 19 then numEntries ||| 1
  else hashTableCountLoop 510510 numEntries

/-- The padding of the original RomFS in front of a file, which is preserved when the previous file has
the same RomFS for its source. -/
def preservePadding (partitionSize : Nat) (prev : Option RomFSBuildFileContext)
    (cur : RomFSBuildFileContext) : Option Nat :=
  match prev with
  | none => some partitionSize
  | some prev =>
    if prev.source = cur.source ∧ (prev.source = .baseRomFS ∨ prev.source = .fileRomFS) then
      let expected := (partitionSize + 2 ^ 64 - prev.offset + prev.origOffset) % 2 ^ 64
      if expected ≠ cur.origOffset then
        if expected > cur.origOffset then none
        else some ((partitionSize + (cur.origOffset - expected)) % 2 ^ 64)
      else some partitionSize
    else some partitionSize

/-- The loop of `Build` that determines the offsets of the files, and the size of the file partition. -/
def assignFileOffsets : Nat → Nat → Option RomFSBuildFileContext → List RomFSBuildFileContext →
    Option (List RomFSBuildFileContext × Nat)
  | partitionSize, _, _, [] => some ([], partitionSize)
  | partitionSize, entryOffset, prev, cur :: files => do
    let aligned := (partitionSize + 0xF) % 2 ^ 64 / 16 * 16
    let offset ← preservePadding aligned prev cur
    let cur := { cur with offset := offset, entryOffset := entryOffset }
    let (files, size) ← assignFileOffsets ((offset + cur.size) % 2 ^ 64)
      ((entryOffset + fileEntrySize cur.name.bytes) % 2 ^ 32) (some cur) files
    some (cur :: files, size)

/-- The loop of `Build` that determines the offsets of the directories. -/
def assignDirectoryOffsets : Nat → List RomFSBuildDirectoryContext → List RomFSBuildDirectoryContext
  | _, [] => []
  | entryOffset, cur :: directories =>
    { cur with entryOffset := entryOffset } ::
      assignDirectoryOffsets ((entryOffset + dirEntrySize cur.name) % 2 ^ 32) directories

/-- The loop of `Build` that links each file to its directory and its sibling. -/
def linkFiles (files : List RomFSBuildFileContext) : Forest.Links RomFSBuildFileContext RomPath :=
  files.reverse.foldl (fun links cur => links.link cur.parent cur) Forest.Links.none

/-- The loop of `Build` that links each directory to its parent and its sibling, down to the root. -/
def linkDirectories (directories : List RomFSBuildDirectoryContext) : Forest.Links RomFSBuildDirectoryContext RomPath :=
  (directories.reverse.takeWhile (·.place.isSome)).foldl
    (fun links cur => links.link ((cur.place.map Prod.fst).getD []) cur) Forest.Links.none

/-- `entry_offset` of the directory that a pointer points to. -/
def dirEntryOffset (directories : List RomFSBuildDirectoryContext) (path : RomPath) : Option Nat :=
  (directories.find? (·.path = path)).map (·.entryOffset)

/-- `entry_offset` of the parent of a directory, and zero for the root. -/
def parentEntryOffset (directories : List RomFSBuildDirectoryContext)
    (cur : RomFSBuildDirectoryContext) : Option Nat :=
  match cur.place with
  | none => some 0
  | some (parent, _) => dirEntryOffset directories parent

/-- The name of an entry with its padding. -/
def paddedName (name : List UInt8) : List UInt8 :=
  name ++ List.replicate (alignUp name.length 4 - name.length) 0

/-- The bytes of a `RomFSFileEntry`. -/
def fileEntryBytes (parent sibling offset size hash : Nat) (name : List UInt8) : List UInt8 :=
  leBytes 4 parent ++ leBytes 4 sibling ++ leBytes 8 offset ++ leBytes 8 size ++ leBytes 4 hash ++
    leBytes 4 name.length ++ paddedName name

/-- The bytes of a `RomFSDirectoryEntry`. -/
def dirEntryBytes (parent sibling child file hash : Nat) (name : List UInt8) : List UInt8 :=
  leBytes 4 parent ++ leBytes 4 sibling ++ leBytes 4 child ++ leBytes 4 file ++ leBytes 4 hash ++
    leBytes 4 name.length ++ paddedName name

/-- Write an entry of a table. -/
def writeEntry (table : List UInt8) (offset : Nat) (entry : List UInt8) : Option (List UInt8) :=
  if offset + entry.length ≤ table.length then some (splice table offset entry) else none

/-- A table of entries and its hash table. -/
structure HashedTable where
  hashTable : List Nat
  table : List UInt8

/-- Write an entry, with the head of its hash chain in it, and make it the head. -/
def HashedTable.addEntry (t : HashedTable) (parent entryOffset : Nat) (name : List UInt8)
    (entry : Nat → List UInt8) : Option HashedTable := do
  let bucket := (romfsCalcPathHash (UInt32.ofNat parent) name).toNat % t.hashTable.length
  let head ← t.hashTable[bucket]?
  let table ← writeEntry t.table entryOffset (entry head)
  some ⟨t.hashTable.set bucket entryOffset, table⟩

/-- The entry that a link points to, or `ROMFS_ENTRY_EMPTY`. -/
def fileLink (link : Option RomFSBuildFileContext) : Nat :=
  match link with
  | none => romfsEntryEmpty
  | some f => f.entryOffset

/-- The entry that a link points to, or `ROMFS_ENTRY_EMPTY`. -/
def dirLink (link : Option RomFSBuildDirectoryContext) : Nat :=
  match link with
  | none => romfsEntryEmpty
  | some d => d.entryOffset

section Populate

variable (directories : List RomFSBuildDirectoryContext) (fileLinks : Forest.Links RomFSBuildFileContext RomPath)
  (dirLinks : Forest.Links RomFSBuildDirectoryContext RomPath)

/-- The part of the loop of `Build` over the files that fills the file table. -/
def populateFile (t : HashedTable) (cur : RomFSBuildFileContext) : Option HashedTable := do
  let parent ← dirEntryOffset directories cur.parent
  t.addEntry parent cur.entryOffset cur.name.bytes fun hash =>
    fileEntryBytes parent (fileLink (fileLinks.next cur)) cur.offset cur.size hash cur.name.bytes

/-- The loop of `Build` over the directories, which fills the directory table. -/
def populateDirectory (t : HashedTable) (cur : RomFSBuildDirectoryContext) : Option HashedTable := do
  let parent ← parentEntryOffset directories cur
  t.addEntry parent cur.entryOffset cur.name fun hash =>
    dirEntryBytes parent (dirLink (dirLinks.next cur)) (dirLink (dirLinks.first cur.path))
      (fileLink (fileLinks.first cur.path)) hash cur.name

end Populate

/-- The data of a `RomFSSourceInfo`. -/
inductive RomFSSource
  | base (offset : Nat)
  | file (offset : Nat)
  | loose (path : RomPath)
  | metaData
  | memory (data : List UInt8)
deriving DecidableEq

def RomFSSource.type : RomFSSource → RomFSDataSource
  | .base _ => .baseRomFS
  | .file _ => .fileRomFS
  | .loose _ => .looseFile
  | .metaData => .metaData
  | .memory _ => .memory

/-- `RomFSSourceInfo` -/
structure RomFSSourceInfo where
  virtualOffset : Nat
  size : Nat
  source : RomFSSource
deriving DecidableEq

/-- Extend the last source info by a file if it has the same RomFS for its source, else add one. -/
def compactInfos (infos : List RomFSSourceInfo) (cur : RomFSBuildFileContext) (source : RomFSSource) :
    Option (List RomFSSourceInfo) := do
  let back ← infos.getLast?
  let virtualOffset := (cur.offset + romfsFilePartitionOfs) % 2 ^ 64
  if back.source.type = cur.source then
    some (infos.dropLast ++ [{ back with size := (virtualOffset + cur.size + 2 ^ 64 - back.virtualOffset) % 2 ^ 64 }])
  else some (infos ++ [⟨virtualOffset, cur.size, source⟩])

/-- The part of the loop of `Build` over the files that lists the sources. -/
def addInfo (infos : List RomFSSourceInfo) (cur : RomFSBuildFileContext) : Option (List RomFSSourceInfo) :=
  match cur.source with
  | .baseRomFS => compactInfos infos cur (.base ((cur.origOffset + romfsFilePartitionOfs) % 2 ^ 64))
  | .fileRomFS => compactInfos infos cur (.file ((cur.origOffset + romfsFilePartitionOfs) % 2 ^ 64))
  | .looseFile =>
    some (infos ++ [⟨(cur.offset + romfsFilePartitionOfs) % 2 ^ 64, cur.size, .loose cur.path⟩])
  | _ => none

/-- `RomFSHeader` -/
structure RomFSHeader where
  headerSize : Nat
  dirHashTableOfs : Nat
  dirHashTableSize : Nat
  dirTableOfs : Nat
  dirTableSize : Nat
  fileHashTableOfs : Nat
  fileHashTableSize : Nat
  fileTableOfs : Nat
  fileTableSize : Nat
  filePartitionOfs : Nat
deriving DecidableEq

def RomFSHeader.bytes (h : RomFSHeader) : List UInt8 :=
  [h.headerSize, h.dirHashTableOfs, h.dirHashTableSize, h.dirTableOfs, h.dirTableSize,
    h.fileHashTableOfs, h.fileHashTableSize, h.fileTableOfs, h.fileTableSize,
    h.filePartitionOfs].flatMap (leBytes 8)

/-- The header that `Build` writes. -/
def makeHeader (ctx : RomFSBuildContext) (partitionSize : Nat) : RomFSHeader :=
  let dirHashTableSize := 4 * romfsGetHashTableCount ctx.numDirs
  let fileHashTableSize := 4 * romfsGetHashTableCount ctx.numFiles
  let dirHashTableOfs := (romfsFilePartitionOfs + partitionSize + 3) % 2 ^ 64 / 4 * 4
  let dirTableOfs := (dirHashTableOfs + dirHashTableSize) % 2 ^ 64
  let fileHashTableOfs := (dirTableOfs + ctx.dirTableSize) % 2 ^ 64
  { headerSize := 0x50
    dirHashTableOfs := dirHashTableOfs
    dirHashTableSize := dirHashTableSize
    dirTableOfs := dirTableOfs
    dirTableSize := ctx.dirTableSize
    fileHashTableOfs := fileHashTableOfs
    fileHashTableSize := fileHashTableSize
    fileTableOfs := (fileHashTableOfs + fileHashTableSize) % 2 ^ 64
    fileTableSize := ctx.fileTableSize
    filePartitionOfs := romfsFilePartitionOfs }

/-- What `Build` leaves behind: the contexts with their offsets, the header, the tables and the list of
the sources. -/
structure BuiltRomFS where
  files : List RomFSBuildFileContext
  directories : List RomFSBuildDirectoryContext
  header : RomFSHeader
  dirs : HashedTable
  fileTables : HashedTable
  infos : List RomFSSourceInfo

/-- The tables in the order in which they stand in the metadata. -/
def metadataBytes (dirs files : HashedTable) : List UInt8 :=
  dirs.hashTable.flatMap (leBytes 4) ++ dirs.table ++ files.hashTable.flatMap (leBytes 4) ++ files.table

/-- Tables of the given sizes before they are filled, over memory that holds anything. -/
def newTable (memory : Nat → UInt8) (count size : Nat) : HashedTable :=
  ⟨List.replicate count romfsEntryEmpty, (List.range size).map memory⟩

/-- `RomFSBuildContext::Build`. The metadata is left to a file if it can be saved on the SD card. -/
def build (memory : Nat → UInt8) (saved : Bool) (ctx : RomFSBuildContext) : Option BuiltRomFS := do
  let dirCount := romfsGetHashTableCount ctx.numDirs
  let fileCount := romfsGetHashTableCount ctx.numFiles
  let (files, partitionSize) ← assignFileOffsets 0 0 none ctx.files.entries
  let fileLinks := linkFiles files
  let directories := assignDirectoryOffsets 0 ctx.directories.entries
  let dirLinks := linkDirectories directories
  let header := makeHeader ctx partitionSize
  let fileTables ← files.foldlM (populateFile directories fileLinks)
    (newTable memory fileCount ctx.fileTableSize)
  let infos ← files.foldlM addInfo [⟨0, 0x50, .memory header.bytes⟩]
  let dirs ← directories.foldlM (populateDirectory directories fileLinks dirLinks)
    (newTable memory dirCount ctx.dirTableSize)
  let metadata := metadataBytes dirs fileTables
  let metadataSize := header.dirHashTableSize + header.dirTableSize + header.fileHashTableSize + header.fileTableSize
  let last := if saved then .metaData else .memory metadata
  some ⟨files, directories, header, dirs, fileTables, infos ++ [⟨header.dirHashTableOfs, metadataSize, last⟩]⟩

end RajNX.FsMitm.RomFs
