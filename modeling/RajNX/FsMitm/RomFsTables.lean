import RajNX.Lib.RecordTable
import RajNX.FsMitm.RomFsMerge

/-!
# The tables of a built RomFS

`Build` fills the directory table and the file table from their starts on, each entry behind the one before,
and leaves no byte of them as it was. It fails only while it determines the offsets of the files.
-/

namespace RajNX.FsMitm.RomFs

open Forest LittleEndian Splice RecordTable

lemma length_paddedName (name : List UInt8) : (paddedName name).length = alignUp name.length 4 := by
  rw [paddedName, List.length_append, List.length_replicate, alignUp]
  omega

lemma length_fileEntryBytes (parent sibling offset size hash : Nat) (name : List UInt8) :
    (fileEntryBytes parent sibling offset size hash name).length = fileEntrySize name := by
  simp only [fileEntryBytes, List.length_append, length_leBytes, length_paddedName, fileEntrySize]

lemma length_dirEntryBytes (parent sibling child file hash : Nat) (name : List UInt8) :
    (dirEntryBytes parent sibling child file hash name).length = dirEntrySize name := by
  simp only [dirEntryBytes, List.length_append, length_leBytes, length_paddedName, dirEntrySize]

lemma le_hashTableCountLoop (fuel count : Nat) : count ≤ hashTableCountLoop fuel count := by
  induction fuel generalizing count with
  | zero => exact le_rfl
  | succ fuel ih =>
    rw [hashTableCountLoop]
    split
    · exact (Nat.le_succ count).trans (ih (count + 1))
    · exact le_rfl

/-- A hash table has buckets. -/
lemma romfsGetHashTableCount_pos (n : Nat) : 0 < romfsGetHashTableCount n := by
  rw [romfsGetHashTableCount]
  split_ifs with h3 h19
  · exact Nat.zero_lt_succ 2
  · exact Nat.lt_of_lt_of_le Nat.zero_lt_one Nat.right_le_or
  · exact Nat.lt_of_lt_of_le (by omega) (le_hashTableCountLoop _ n)

/-- A step that writes the entry of an element behind what is filled, and keeps the buckets. -/
def Appends {α : Type} (step : HashedTable → α → Option HashedTable) (offset size : α → Nat)
    (IsEntry : α → List UInt8 → Prop) (x : α) : Prop :=
  ∀ (t : HashedTable) filled rest, 0 < t.hashTable.length → t.table = filled ++ rest →
    offset x = filled.length → size x ≤ rest.length →
      ∃ t' entry, step t x = some t' ∧ IsEntry x entry ∧ t'.table = filled ++ entry ++ rest.drop (size x) ∧
        t'.hashTable.length = t.hashTable.length

/-- `addEntry` writes one of the entries that it is given, for some head of the chain of hashes. -/
lemma HashedTable.addEntry_eq {t : HashedTable} {filled rest : List UInt8} {n : Nat} (parent : Nat)
    (name : List UInt8) {entry : Nat → List UInt8} (hbuckets : 0 < t.hashTable.length)
    (htable : t.table = filled ++ rest) (hentry : ∀ hash, (entry hash).length = n) (hn : n ≤ rest.length) :
    ∃ t' hash, t.addEntry parent filled.length name entry = some t' ∧
      t'.table = filled ++ entry hash ++ rest.drop n ∧ t'.hashTable.length = t.hashTable.length := by
  have hbucket := Nat.mod_lt (romfsCalcPathHash (UInt32.ofNat parent) name).toNat hbuckets
  have hhead := List.getElem?_eq_getElem hbucket
  have hfits : filled.length + n ≤ t.table.length := by
    rw [htable, List.length_append]
    exact Nat.add_le_add_left hn _
  rw [HashedTable.addEntry]
  simp only [hhead, Option.bind_eq_bind, Option.bind_some]
  rw [writeEntry, hentry, if_pos hfits, htable, splice_append, hentry]
  exact ⟨_, _, rfl, rfl, List.length_set⟩

/-- Such steps fill a table. -/
lemma foldlM_fill {α : Type} {step : HashedTable → α → Option HashedTable} {offset size : α → Nat}
    {IsEntry : α → List UInt8 → Prop} {xs done : List α} (hstep : ∀ x ∈ xs, Appends step offset size IsEntry x)
    (hsize : ∀ x entry, IsEntry x entry → entry.length = size x) {t : HashedTable} {filled rest : List UInt8}
    (hbuckets : 0 < t.hashTable.length) (htable : t.table = filled ++ rest) (hfilled : Filled IsEntry done filled)
    (hxs : Consecutive offset size filled.length xs) (hrest : rest.length = (xs.map size).sum) :
    ∃ t', xs.foldlM step t = some t' ∧ Filled IsEntry (done ++ xs) t'.table ∧
      t'.hashTable.length = t.hashTable.length := by
  induction xs generalizing done t filled rest with
  | nil =>
    rw [List.eq_nil_of_length_eq_zero hrest, List.append_nil] at htable
    rw [List.append_nil]
    refine ⟨t, rfl, ?_, rfl⟩
    rw [htable]
    exact hfilled
  | cons x xs ih =>
    rw [List.map_cons, List.sum_cons] at hrest
    obtain ⟨t', entry, hadd, hentry, htable', hbuckets'⟩ :=
      hstep x List.mem_cons_self t filled rest hbuckets htable hxs.1 (by omega)
    have hconsecutive := hxs.2
    rw [← hsize x entry hentry, ← List.length_append] at hconsecutive
    obtain ⟨t'', hrun, hfilled', hbuckets''⟩ := ih (fun y hy => hstep y (List.mem_cons_of_mem x hy))
      (hbuckets' ▸ hbuckets) htable' (hfilled.snoc hentry) hconsecutive (by rw [List.length_drop]; omega)
    rw [List.append_assoc, List.singleton_append] at hfilled'
    rw [List.foldlM_cons, hadd]
    exact ⟨t'', hrun, hfilled', hbuckets''.trans hbuckets'⟩

/-- Such steps fill a new table, whatever its memory held. -/
lemma fill_newTable {α : Type} {step : HashedTable → α → Option HashedTable} {offset size : α → Nat}
    {IsEntry : α → List UInt8 → Prop} {xs : List α} (hstep : ∀ x ∈ xs, Appends step offset size IsEntry x)
    (hsize : ∀ x entry, IsEntry x entry → entry.length = size x) (hxs : Consecutive offset size 0 xs)
    (memory : Nat → UInt8) (n : Nat) {total : Nat} (htotal : total = (xs.map size).sum) :
    ∃ t, xs.foldlM step (newTable memory (romfsGetHashTableCount n) total) = some t ∧
      Filled IsEntry xs t.table ∧ t.hashTable.length = romfsGetHashTableCount n := by
  have hbuckets : (newTable memory (romfsGetHashTableCount n) total).hashTable.length =
      romfsGetHashTableCount n := List.length_replicate
  have hmemory : (newTable memory (romfsGetHashTableCount n) total).table.length = (xs.map size).sum := by
    rw [newTable, List.length_map, List.length_range, htotal]
  have hpos := romfsGetHashTableCount_pos n
  rw [← hbuckets] at hpos
  obtain ⟨t, hrun, hfilled, hlength⟩ := foldlM_fill hstep hsize hpos rfl filled_nil hxs hmemory
  exact ⟨t, hrun, hfilled, hlength.trans hbuckets⟩

/-- Only the offsets of the directories change. -/
lemma assignDirectoryOffsets_place (e : Nat) (directories : List RomFSBuildDirectoryContext) :
    (assignDirectoryOffsets e directories).map (·.place) = directories.map (·.place) := by
  induction directories generalizing e with
  | nil => rfl
  | cons d directories ih =>
    rw [assignDirectoryOffsets, List.map_cons, List.map_cons, ih]

lemma assignDirectoryOffsets_consecutive {e : Nat} {directories : List RomFSBuildDirectoryContext}
    (he : e + dirTableBytes directories < 2 ^ 32) :
    Consecutive (·.entryOffset) (fun d => dirEntrySize d.name) e (assignDirectoryOffsets e directories) := by
  induction directories generalizing e with
  | nil => trivial
  | cons d directories ih =>
    rw [dirTableBytes, List.map_cons, List.sum_cons] at he
    have hrest : e + dirEntrySize d.name + dirTableBytes directories < 2 ^ 32 := by
      rw [dirTableBytes]
      omega
    rw [assignDirectoryOffsets, Nat.mod_eq_of_lt (by omega)]
    exact ⟨rfl, ih hrest⟩

variable {s e size : Nat} {prev : Option RomFSBuildFileContext} {files files' : List RomFSBuildFileContext}

/-- What is the same for a file however it is placed. -/
lemma assignFileOffsets_cons {cur : RomFSBuildFileContext}
    (h : assignFileOffsets s e prev (cur :: files) = some (files', size)) :
    ∃ offset rest s', files' = { cur with offset := offset, entryOffset := e } :: rest ∧
      preservePadding ((s + 0xF) % 2 ^ 64 / 16 * 16) prev cur = some offset ∧
      assignFileOffsets s' ((e + fileEntrySize cur.name.bytes) % 2 ^ 32)
        (some { cur with offset := offset, entryOffset := e }) files = some (rest, size) := by
  rw [assignFileOffsets] at h
  simp only [Option.bind_eq_bind, Option.bind_eq_some_iff, Prod.exists] at h
  obtain ⟨offset, hoffset, rest, size', hrest, heq⟩ := h
  cases heq
  exact ⟨offset, rest, _, rfl, hoffset, hrest⟩

section

variable (h : assignFileOffsets s e prev files = some (files', size))

include h

/-- Only the offsets of the files change. -/
lemma assignFileOffsets_unplaced : files'.map (·.unplaced) = files.map (·.unplaced) := by
  induction files generalizing s e prev files' with
  | nil =>
    cases h
    rfl
  | cons cur files ih =>
    obtain ⟨offset, rest, s', rfl, -, hrest⟩ := assignFileOffsets_cons h
    rw [List.map_cons, List.map_cons, ih hrest]
    rfl

lemma assignFileOffsets_consecutive (he : e + fileTableBytes files < 2 ^ 32) :
    Consecutive (·.entryOffset) (fun f => fileEntrySize f.name.bytes) e files' := by
  induction files generalizing s e prev files' with
  | nil =>
    cases h
    trivial
  | cons cur files ih =>
    obtain ⟨offset, rest, s', rfl, -, hrest⟩ := assignFileOffsets_cons h
    rw [fileTableBytes, List.map_cons, List.sum_cons] at he
    rw [Nat.mod_eq_of_lt (by omega)] at hrest
    have hbytes : e + fileEntrySize cur.name.bytes + fileTableBytes files < 2 ^ 32 := by
      rw [fileTableBytes]
      omega
    exact ⟨rfl, ih hrest hbytes⟩

/-- The offsets of files are of 64 bits. -/
lemma assignFileOffsets_offset_lt : ∀ f ∈ files', f.offset < 2 ^ 64 := by
  induction files generalizing s e prev files' with
  | nil =>
    cases h
    intro f hf
    cases hf
  | cons cur files ih =>
    obtain ⟨offset, rest, s', rfl, hoffset, hrest⟩ := assignFileOffsets_cons h
    intro f hf
    cases hf with
    | tail _ hmem => exact ih hrest f hmem
    | head =>
      have haligned : (s + 0xF) % 2 ^ 64 / 16 * 16 < 2 ^ 64 := by omega
      revert hoffset haligned
      generalize (s + 0xF) % 2 ^ 64 / 16 * 16 = aligned
      intro hoffset haligned
      cases prev with
      | none =>
        cases hoffset
        exact haligned
      | some p =>
        simp only [preservePadding] at hoffset
        split_ifs at hoffset
        · cases hoffset
          exact Nat.mod_lt _ (Nat.two_pow_pos 64)
        · cases hoffset
          exact haligned
        · cases hoffset
          exact haligned

end

section Populate

variable {directories : List RomFSBuildDirectoryContext} {fileLinks : Forest.Links RomFSBuildFileContext RomPath}
  {dirLinks : Forest.Links RomFSBuildDirectoryContext RomPath}

/-- The bytes of a file in its table, but for the chain of hashes. -/
def IsFileEntry (directories : List RomFSBuildDirectoryContext)
    (fileLinks : Forest.Links RomFSBuildFileContext RomPath) (f : RomFSBuildFileContext) (entry : List UInt8) : Prop :=
  ∃ parent hash, entry = fileEntryBytes parent (fileLink (fileLinks.next f)) f.offset f.size hash f.name.bytes ∧
      dirEntryOffset directories f.parent = some parent

/-- The bytes of a directory in its table. -/
def IsDirEntry (directories : List RomFSBuildDirectoryContext)
    (fileLinks : Forest.Links RomFSBuildFileContext RomPath)
    (dirLinks : Forest.Links RomFSBuildDirectoryContext RomPath)
    (d : RomFSBuildDirectoryContext) (entry : List UInt8) : Prop :=
  ∃ parent hash, entry = dirEntryBytes parent (dirLink (dirLinks.next d)) (dirLink (dirLinks.first d.path))
    (fileLink (fileLinks.first d.path)) hash d.name ∧ parentEntryOffset directories d = some parent

lemma IsFileEntry.length_eq {f : RomFSBuildFileContext} {entry : List UInt8}
    (h : IsFileEntry directories fileLinks f entry) : entry.length = fileEntrySize f.name.bytes := by
  obtain ⟨parent, hash, rfl, -⟩ := h
  exact length_fileEntryBytes _ _ _ _ _ _

lemma IsDirEntry.length_eq {d : RomFSBuildDirectoryContext} {entry : List UInt8}
    (h : IsDirEntry directories fileLinks dirLinks d entry) : entry.length = dirEntrySize d.name := by
  obtain ⟨parent, hash, rfl, -⟩ := h
  exact length_dirEntryBytes _ _ _ _ _ _

lemma appends_populateFile {f : RomFSBuildFileContext} {parent : Nat}
    (hparent : dirEntryOffset directories f.parent = some parent) :
    Appends (populateFile directories fileLinks) (·.entryOffset) (fun f => fileEntrySize f.name.bytes)
      (IsFileEntry directories fileLinks) f := by
  intro t filled rest hbuckets htable hoffset hrest
  obtain ⟨t', hash, hadd, htable', hbuckets'⟩ := HashedTable.addEntry_eq parent f.name.bytes hbuckets htable
    (fun hash => length_fileEntryBytes parent (fileLink (fileLinks.next f)) f.offset f.size hash f.name.bytes)
    hrest
  rw [← hoffset] at hadd
  refine ⟨t', _, ?_, ⟨parent, hash, rfl, hparent⟩, htable', hbuckets'⟩
  rw [populateFile, hparent]
  exact hadd

lemma appends_populateDirectory {d : RomFSBuildDirectoryContext} {parent : Nat}
    (hparent : parentEntryOffset directories d = some parent) :
    Appends (populateDirectory directories fileLinks dirLinks) (·.entryOffset) (fun d => dirEntrySize d.name)
      (IsDirEntry directories fileLinks dirLinks) d := by
  intro t filled rest hbuckets htable hoffset hrest
  obtain ⟨t', hash, hadd, htable', hbuckets'⟩ := HashedTable.addEntry_eq parent d.name hbuckets htable
    (fun hash => length_dirEntryBytes parent (dirLink (dirLinks.next d)) (dirLink (dirLinks.first d.path))
      (fileLink (fileLinks.first d.path)) hash d.name) hrest
  rw [← hoffset] at hadd
  refine ⟨t', _, ?_, ⟨parent, hash, rfl, hparent⟩, htable', hbuckets'⟩
  rw [populateDirectory, hparent]
  exact hadd

end Populate

variable {ctx : RomFSBuildContext}

/-- A directory has an entry. -/
lemma HasDirectory.dirEntryOffset {path : RomPath} (h : HasDirectory ctx path) :
    ∃ offset, dirEntryOffset (assignDirectoryOffsets 0 ctx.directories.entries) path = some offset := by
  obtain ⟨d, hd, hpath⟩ := h
  have hplace := List.mem_map_of_mem (f := (·.place)) hd
  rw [← assignDirectoryOffsets_place 0] at hplace
  obtain ⟨d', hd', hsame⟩ := List.mem_map.mp hplace
  have hpath' : d'.path = path := by
    rw [← hpath, RomFSBuildDirectoryContext.path, RomFSBuildDirectoryContext.path, hsame]
  rw [RomFs.dirEntryOffset]
  cases hfind : (assignDirectoryOffsets 0 ctx.directories.entries).find? (·.path = path) with
  | none => exact absurd (List.find?_eq_none.mp hfind d' hd') (by simpa using hpath')
  | some found => exact ⟨found.entryOffset, rfl⟩

variable {f : RomFSBuildFileContext}

/-- A list that is not empty stays so when a file is listed. -/
lemma addInfo_isSome (h : IsMerged f) {infos : List RomFSSourceInfo}
    (hinfos : infos ≠ []) : ∃ infos', addInfo infos f = some infos' ∧ infos' ≠ [] := by
  have hcompact : ∀ source, ∃ infos', compactInfos infos f source = some infos' ∧ infos' ≠ [] := by
    intro source
    rw [compactInfos, List.getLast?_eq_some_getLast hinfos]
    simp only [Option.bind_eq_bind, Option.bind_some]
    split
    · exact ⟨_, rfl, List.concat_ne_nil _ _⟩
    · exact ⟨_, rfl, List.concat_ne_nil _ _⟩
  obtain (hbase | hfile) | hloose := h
  · simp only [addInfo, hbase]
    exact hcompact _
  · simp only [addInfo, hfile]
    exact hcompact _
  · simp only [addInfo, hloose]
    exact ⟨_, rfl, List.concat_ne_nil _ _⟩

variable {files : List RomFSBuildFileContext}

/-- Merged files are listed, whatever their offsets. -/
lemma foldlM_addInfo_isSome (h : ∀ f ∈ files, IsMerged f) (infos : List RomFSSourceInfo) (hinfos : infos ≠ []) :
    ∃ infos', files.foldlM addInfo infos = some infos' := by
  induction files generalizing infos with
  | nil => exact ⟨infos, rfl⟩
  | cons f files ih =>
    obtain ⟨infos', hadd, hne⟩ := addInfo_isSome (h f List.mem_cons_self) hinfos
    rw [List.foldlM_cons, hadd]
    exact ih (fun g hg => h g (List.mem_cons_of_mem f hg)) infos' hne

/-- A placed file is one of the files but for its offsets. -/
lemma exists_of_map_unplaced (h : files'.map (·.unplaced) = files.map (·.unplaced)) (hf : f ∈ files') :
    ∃ g ∈ files, g.unplaced = f.unplaced := by
  have hmem := List.mem_map_of_mem (f := (·.unplaced)) hf
  rw [h] at hmem
  exact List.mem_map.mp hmem

lemma isMerged_of_unplaced {f g : RomFSBuildFileContext} (h : g.unplaced = f.unplaced) (hg : IsMerged g) :
    IsMerged f := by
  have hsource : g.source = f.source := congrArg (·.source) h
  rw [IsMerged, ← hsource]
  exact hg

/-- The entries of the files have the same sizes when the files are placed. -/
lemma fileTableBytes_of_unplaced
    (h : files'.map (·.unplaced) = files.map (·.unplaced)) : fileTableBytes files' = fileTableBytes files := by
  have hbytes : ∀ l : List RomFSBuildFileContext, fileTableBytes l =
      ((l.map (·.unplaced)).map fun f => fileEntrySize f.name.bytes).sum := by
    intro l
    rw [List.map_map]
    rfl
  rw [hbytes, hbytes, h]

lemma dirTableBytes_assign (directories : List RomFSBuildDirectoryContext) :
    dirTableBytes (assignDirectoryOffsets 0 directories) = dirTableBytes directories := by
  have hbytes : ∀ l : List RomFSBuildDirectoryContext, dirTableBytes l =
      ((l.map (·.place)).map fun place => dirEntrySize (RomFSBuildDirectoryContext.mk place 0).name).sum := by
    intro l
    rw [List.map_map]
    rfl
  rw [hbytes, hbytes, assignDirectoryOffsets_place]

/-- What `Build` makes of merged sources, for the places that it gives to the files. -/
structure BuildsTo (ctx : RomFSBuildContext) (saved : Bool) (partitionSize : Nat) (built : BuiltRomFS) :
    Prop where
  placed : assignFileOffsets 0 0 none ctx.files.entries = some (built.files, partitionSize)
  directories_eq : built.directories = assignDirectoryOffsets 0 ctx.directories.entries
  header_eq : built.header = makeHeader ctx partitionSize
  fileTable : Filled (IsFileEntry built.directories (linkFiles built.files)) built.files built.fileTables.table
  dirTable : Filled (IsDirEntry built.directories (linkFiles built.files) (linkDirectories built.directories))
    built.directories built.dirs.table
  fileBuckets : built.fileTables.hashTable.length = romfsGetHashTableCount ctx.numFiles
  dirBuckets : built.dirs.hashTable.length = romfsGetHashTableCount ctx.numDirs
  infos : ∃ infos, built.files.foldlM addInfo [⟨0, 0x50, .memory built.header.bytes⟩] = some infos ∧
    built.infos = infos ++ [⟨built.header.dirHashTableOfs, built.header.dirHashTableSize +
      built.header.dirTableSize + built.header.fileHashTableSize + built.header.fileTableSize,
      if saved then .metaData else .memory (metadataBytes built.dirs built.fileTables)⟩]

/-- Every file has a directory with an entry. -/
lemma Merging.appends_populateFile (h : Merging ctx) (fileLinks : Forest.Links RomFSBuildFileContext RomPath)
    (hunplaced : files.map (·.unplaced) = ctx.files.entries.map (·.unplaced)) (hf : f ∈ files) :
    Appends (populateFile (assignDirectoryOffsets 0 ctx.directories.entries) fileLinks) (·.entryOffset)
      (fun f => fileEntrySize f.name.bytes)
      (IsFileEntry (assignDirectoryOffsets 0 ctx.directories.entries) fileLinks) f := by
  obtain ⟨g, hg, hsame⟩ := exists_of_map_unplaced hunplaced hf
  obtain ⟨parent, hparent⟩ := (h.fileParents g hg).dirEntryOffset
  have hsameParent : g.parent = f.parent := congrArg (·.parent) hsame
  rw [hsameParent] at hparent
  exact RomFs.appends_populateFile hparent

/-- Every directory but the root has a parent with an entry. -/
lemma Merging.appends_populateDirectory (h : Merging ctx) (fileLinks : Forest.Links RomFSBuildFileContext RomPath)
    (dirLinks : Forest.Links RomFSBuildDirectoryContext RomPath) {d : RomFSBuildDirectoryContext}
    (hd : d ∈ assignDirectoryOffsets 0 ctx.directories.entries) :
    Appends (populateDirectory (assignDirectoryOffsets 0 ctx.directories.entries) fileLinks dirLinks)
      (·.entryOffset) (fun d => dirEntrySize d.name)
      (IsDirEntry (assignDirectoryOffsets 0 ctx.directories.entries) fileLinks dirLinks) d := by
  have hparent : ∃ parent, parentEntryOffset (assignDirectoryOffsets 0 ctx.directories.entries) d =
      some parent := by
    have hmem := List.mem_map_of_mem (f := (·.place)) hd
    rw [assignDirectoryOffsets_place] at hmem
    obtain ⟨d', hd', hsame⟩ := List.mem_map.mp hmem
    rw [parentEntryOffset]
    cases hplace : d.place with
    | none => exact ⟨0, rfl⟩
    | some place => exact (h.parents d' hd' place.1 place.2 (hsame.trans hplace)).dirEntryOffset
  obtain ⟨parent, hparent⟩ := hparent
  exact RomFs.appends_populateDirectory hparent

/-- `Build` fails only while it determines the offsets of the files. -/
lemma Merging.build_eq (h : Merging ctx) (hmerged : ∀ f ∈ ctx.files.entries, IsMerged f)
    (hdirs : ctx.dirTableSize < 2 ^ 32) (hfiles : ctx.fileTableSize < 2 ^ 32) {partitionSize : Nat}
    (hplaced : assignFileOffsets 0 0 none ctx.files.entries = some (files, partitionSize)) (memory : Nat → UInt8)
    (saved : Bool) : ∃ built, build memory saved ctx = some built ∧ BuildsTo ctx saved partitionSize built := by
  have hunplaced := assignFileOffsets_unplaced hplaced
  have hfileBytes : ctx.fileTableSize = fileTableBytes files :=
    h.fileTableSize.trans (fileTableBytes_of_unplaced hunplaced).symm
  have hdirBytes : ctx.dirTableSize = dirTableBytes (assignDirectoryOffsets 0 ctx.directories.entries) :=
    h.dirTableSize.trans (dirTableBytes_assign _).symm
  have hfileOffsets := assignFileOffsets_consecutive hplaced (by rwa [Nat.zero_add, ← h.fileTableSize])
  have hdirOffsets : Consecutive (·.entryOffset) (fun d => dirEntrySize d.name) 0
      (assignDirectoryOffsets 0 ctx.directories.entries) :=
    assignDirectoryOffsets_consecutive (by rwa [Nat.zero_add, ← h.dirTableSize])
  have hplacedMerged : ∀ f ∈ files, IsMerged f := by
    intro f hf
    obtain ⟨g, hg, hsame⟩ := exists_of_map_unplaced hunplaced hf
    exact isMerged_of_unplaced hsame (hmerged g hg)
  obtain ⟨fileTables, hfileRun, hfileFilled, hfileBuckets⟩ := fill_newTable
    (fun f hf => h.appends_populateFile (linkFiles files) hunplaced hf)
    (fun f entry => IsFileEntry.length_eq) hfileOffsets memory ctx.numFiles hfileBytes
  obtain ⟨dirs, hdirRun, hdirFilled, hdirBuckets⟩ := fill_newTable
    (fun d hd => h.appends_populateDirectory (linkFiles files)
      (linkDirectories (assignDirectoryOffsets 0 ctx.directories.entries)) hd)
    (fun d entry => IsDirEntry.length_eq) hdirOffsets memory ctx.numDirs hdirBytes
  obtain ⟨infos, hinfos⟩ := foldlM_addInfo_isSome hplacedMerged
    [⟨0, 0x50, .memory (makeHeader ctx partitionSize).bytes⟩] (List.cons_ne_nil _ _)
  rw [build]
  simp only [hplaced, hfileRun, hdirRun, hinfos, Option.bind_eq_bind, Option.bind_some]
  exact ⟨_, rfl, hplaced, rfl, rfl, hfileFilled, hdirFilled, hfileBuckets, hdirBuckets, infos, hinfos, rfl⟩

end RajNX.FsMitm.RomFs
