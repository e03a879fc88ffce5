import RajNX.FsMitm.LayeredRomFs

/-!
# Reading the tables of a RomFS

`RomFSBuildContext::VisitDirectory` over the tables of a RomFS storage: it comes upon the files of a directory
along their sibling links, and then upon the directories in it, each with what is in it. Over the tables that
`Build` wrote it comes upon every directory and file that was merged, once.

Nothing stands for a read that leaves a table, for a name that goes on behind a NUL, and for a path that is too
long, which is fatal.
-/

namespace RajNX.FsMitm.RomFs

open Forest LittleEndian Splice RecordTable

/-- What is read of a `RomFSFileEntry`. -/
structure RomFSFileEntry where
  sibling : Nat
  offset : Nat
  size : Nat
  name : List UInt8
deriving DecidableEq

/-- What is read of a `RomFSDirectoryEntry`. -/
structure RomFSDirectoryEntry where
  sibling : Nat
  child : Nat
  file : Nat
  name : List UInt8
deriving DecidableEq

/-- A field of an entry. -/
def readField (table : List UInt8) (offset width : Nat) : Option Nat :=
  (readExactly width offset table).map leValue

/-- `romfs_get_fentry` -/
def readFileEntry (table : List UInt8) (offset : Nat) : Option RomFSFileEntry := do
  let sibling ← readField table (offset + 0x4) 4
  let fileOffset ← readField table (offset + 0x8) 8
  let size ← readField table (offset + 0x10) 8
  let nameSize ← readField table (offset + 0x1C) 4
  let name ← readExactly nameSize (offset + 0x20) table
  some ⟨sibling, fileOffset, size, name⟩

/-- `romfs_get_direntry` -/
def readDirEntry (table : List UInt8) (offset : Nat) : Option RomFSDirectoryEntry := do
  let sibling ← readField table (offset + 0x4) 4
  let child ← readField table (offset + 0x8) 4
  let file ← readField table (offset + 0xC) 4
  let nameSize ← readField table (offset + 0x14) 4
  let name ← readExactly nameSize (offset + 0x18) table
  some ⟨sibling, child, file, name⟩

/-- The name of a child, if its path is not too long. -/
def childName (parent : RomPath) (name : List UInt8) : Option EntryName :=
  if parent.length + 1 + name.length > fsMaxPath - 1 then none
  else if h : 0 ∉ name then some ⟨name, h⟩ else none

/-- Follow a link, unless it is `ROMFS_ENTRY_EMPTY`. -/
def followLink (link : Nat) (visit : Nat → Option (List Visit)) : Option (List Visit) :=
  if link = romfsEntryEmpty then some [] else visit link

/-- The loop of `VisitDirectory` over the files of a directory. -/
def visitFileChain (fileTable : List UInt8) (parent : RomPath) : Nat → Nat → Option (List Visit)
  | 0, _ => none
  | fuel + 1, offset => do
    let curFile ← readFileEntry fileTable offset
    let name ← childName parent curFile.name
    let rest ← followLink curFile.sibling (visitFileChain fileTable parent fuel)
    some (.file parent name curFile.size curFile.offset :: rest)

/-- The loop of `VisitDirectory` over the directories in a directory. -/
def visitChildren (visitDirectory : RomPath → Nat → Option (List Visit)) (dirTable : List UInt8)
    (parent : RomPath) : Nat → Nat → Option (List Visit)
  | 0, _ => none
  | fuel + 1, offset => do
    let curChild ← readDirEntry dirTable offset
    let name ← childName parent curChild.name
    let inner ← visitDirectory (childPath parent name) offset
    let rest ← followLink curChild.sibling (visitChildren visitDirectory dirTable parent fuel)
    some (.directory parent name :: inner ++ rest)

/-- `VisitDirectory` over the tables of a RomFS, by what it comes upon -/
def visitDirectory (dirTable fileTable : List UInt8) : Nat → RomPath → Nat → Option (List Visit)
  | 0, _, _ => none
  | fuel + 1, parent, offset => do
    let parentEntry ← readDirEntry dirTable offset
    let files ← followLink parentEntry.file (visitFileChain fileTable parent fuel)
    let directories ← followLink parentEntry.child
      (visitChildren (visitDirectory dirTable fileTable fuel) dirTable parent fuel)
    some (files ++ directories)

section Read

/-- A part of a table, behind what is in front of it. -/
lemma readExactly_append (before part behind : List UInt8) :
    readExactly part.length before.length (before ++ part ++ behind) = some part := by
  have hslice : slice (before ++ part ++ behind) before.length part.length = part := by
    rw [slice, List.append_assoc, List.drop_left, List.take_left]
  rw [readExactly_isSome (by simp only [List.length_append]; omega), hslice]

/-- A field of an entry is read back. -/
lemma readField_append (before behind : List UInt8) {value : Nat} (width : Nat) (hvalue : value < 256 ^ width) :
    readField (before ++ leBytes width value ++ behind) before.length width = some value := by
  have hread := readExactly_append before (leBytes width value) behind
  rw [length_leBytes] at hread
  rw [readField, hread, Option.map_some, leValue_leBytes, Nat.mod_eq_of_lt hvalue]

/-- A file entry is read back. -/
lemma readFileEntry_append (before behind : List UInt8) (parent hash : Nat) {sibling offset size : Nat}
    {name : List UInt8} (hsibling : sibling < 2 ^ 32) (hoffset : offset < 2 ^ 64) (hsize : size < 2 ^ 64)
    (hname : name.length < 2 ^ 32) :
    readFileEntry (before ++ fileEntryBytes parent sibling offset size hash name ++ behind) before.length =
      some ⟨sibling, offset, size, name⟩ := by
  -- Each field behind those in front of it
  have h4 := readField_append (before ++ leBytes 4 parent) (leBytes 8 offset ++ (leBytes 8 size ++
    (leBytes 4 hash ++ (leBytes 4 name.length ++ (paddedName name ++ behind))))) 4 hsibling
  have h8 := readField_append (before ++ (leBytes 4 parent ++ leBytes 4 sibling)) (leBytes 8 size ++
    (leBytes 4 hash ++ (leBytes 4 name.length ++ (paddedName name ++ behind)))) 8 hoffset
  have h16 := readField_append (before ++ (leBytes 4 parent ++ (leBytes 4 sibling ++ leBytes 8 offset)))
    (leBytes 4 hash ++ (leBytes 4 name.length ++ (paddedName name ++ behind))) 8 hsize
  have h28 := readField_append (before ++ (leBytes 4 parent ++ (leBytes 4 sibling ++ (leBytes 8 offset ++
    (leBytes 8 size ++ leBytes 4 hash))))) (paddedName name ++ behind) 4 hname
  have h32 := readExactly_append (before ++ (leBytes 4 parent ++ (leBytes 4 sibling ++ (leBytes 8 offset ++
    (leBytes 8 size ++ (leBytes 4 hash ++ leBytes 4 name.length)))))) name
    (List.replicate (alignUp name.length 4 - name.length) 0 ++ behind)
  simp only [List.length_append, length_leBytes, List.append_assoc, Nat.reduceAdd] at h4 h8 h16 h28 h32
  rw [readFileEntry, fileEntryBytes]
  simp only [List.append_assoc, h4, h8, h16, h28, Option.bind_eq_bind, Option.bind_some]
  rw [paddedName, List.append_assoc, h32]
  rfl

/-- A directory entry is read back. -/
lemma readDirEntry_append (before behind : List UInt8) (parent hash : Nat) {sibling child file : Nat}
    {name : List UInt8} (hsibling : sibling < 2 ^ 32) (hchild : child < 2 ^ 32) (hfile : file < 2 ^ 32)
    (hname : name.length < 2 ^ 32) :
    readDirEntry (before ++ dirEntryBytes parent sibling child file hash name ++ behind) before.length =
      some ⟨sibling, child, file, name⟩ := by
  have h4 := readField_append (before ++ leBytes 4 parent) (leBytes 4 child ++ (leBytes 4 file ++
    (leBytes 4 hash ++ (leBytes 4 name.length ++ (paddedName name ++ behind))))) 4 hsibling
  have h8 := readField_append (before ++ (leBytes 4 parent ++ leBytes 4 sibling)) (leBytes 4 file ++
    (leBytes 4 hash ++ (leBytes 4 name.length ++ (paddedName name ++ behind)))) 4 hchild
  have h12 := readField_append (before ++ (leBytes 4 parent ++ (leBytes 4 sibling ++ leBytes 4 child)))
    (leBytes 4 hash ++ (leBytes 4 name.length ++ (paddedName name ++ behind))) 4 hfile
  have h20 := readField_append (before ++ (leBytes 4 parent ++ (leBytes 4 sibling ++ (leBytes 4 child ++
    (leBytes 4 file ++ leBytes 4 hash))))) (paddedName name ++ behind) 4 hname
  have h24 := readExactly_append (before ++ (leBytes 4 parent ++ (leBytes 4 sibling ++ (leBytes 4 child ++
    (leBytes 4 file ++ (leBytes 4 hash ++ leBytes 4 name.length)))))) name
    (List.replicate (alignUp name.length 4 - name.length) 0 ++ behind)
  simp only [List.length_append, length_leBytes, List.append_assoc, Nat.reduceAdd] at h4 h8 h12 h20 h24
  rw [readDirEntry, dirEntryBytes]
  simp only [List.append_assoc, h4, h8, h12, h20, Option.bind_eq_bind, Option.bind_some]
  rw [paddedName, List.append_assoc, h24]
  rfl

end Read

/-- A file as the walk comes upon it. -/
def fileVisit (f : RomFSBuildFileContext) : Visit := .file f.parent f.name f.size f.offset

/-- A directory as the walk comes upon it; it does not come upon the root. -/
def dirVisit (d : RomFSBuildDirectoryContext) : List Visit :=
  match d.place with
  | none => []
  | some (parent, name) => [.directory parent name]

/-- The paths that the walk can go. -/
def Short (path : RomPath) : Prop := path.length ≤ fsMaxPath - 1

lemma childName_eq {parent : RomPath} {name : EntryName} (h : Short (childPath parent name)) :
    childName parent name.bytes = some name := by
  rw [Short, childPath, List.length_append, List.length_cons] at h
  rw [childName, if_neg (by omega), dif_pos name.noNul]

/-- A link to nowhere -/
lemma followLink_empty (visit : Nat → Option (List Visit)) : followLink romfsEntryEmpty visit = some [] :=
  if_pos rfl

lemma followLink_of_ne {link : Nat} (h : link ≠ romfsEntryEmpty) (visit : Nat → Option (List Visit)) :
    followLink link visit = visit link := if_neg h

section Chains

variable {table : List UInt8} {p : RomPath}

/-- The files along a chain of links -/
lemma followLink_fileChain {next : RomFSBuildFileContext → Option RomFSBuildFileContext}
    {o : Option RomFSBuildFileContext} {files : List RomFSBuildFileContext} (hchain : Chain next o files)
    (hread : ∀ f ∈ files, f.entryOffset ≠ romfsEntryEmpty ∧
      readFileEntry table f.entryOffset = some ⟨fileLink (next f), f.offset, f.size, f.name.bytes⟩)
    (hparent : ∀ f ∈ files, f.parent = p) (hshort : ∀ f ∈ files, Short f.path) {fuel : Nat}
    (hfuel : files.length ≤ fuel) :
    followLink (fileLink o) (visitFileChain table p fuel) = some (files.map fileVisit) := by
  induction hchain generalizing fuel with
  | nil => exact followLink_empty _
  | @cons f files _ ih =>
    cases fuel with
    | zero => cases hfuel
    | succ fuel =>
      obtain ⟨hne, hentry⟩ := hread f List.mem_cons_self
      have hname := childName_eq (hshort f List.mem_cons_self)
      have hrest := ih (fun g hg => hread g (List.mem_cons_of_mem f hg))
        (fun g hg => hparent g (List.mem_cons_of_mem f hg)) (fun g hg => hshort g (List.mem_cons_of_mem f hg))
        (Nat.le_of_succ_le_succ hfuel)
      have hp := hparent f List.mem_cons_self
      rw [hp] at hname
      change followLink f.entryOffset _ = _
      rw [followLink_of_ne hne, visitFileChain, hentry]
      simp only [Option.bind_eq_bind, Option.bind_some, hname, hrest]
      rw [List.map_cons, fileVisit, hp]

/-- The directories along a chain of links, each with what is in it -/
lemma followLink_children {visit : RomPath → Nat → Option (List Visit)}
    {inner : RomFSBuildDirectoryContext → List Visit}
    {next : RomFSBuildDirectoryContext → Option RomFSBuildDirectoryContext}
    {o : Option RomFSBuildDirectoryContext} {directories : List RomFSBuildDirectoryContext}
    (hchain : Chain next o directories)
    (hread : ∀ d ∈ directories, d.entryOffset ≠ romfsEntryEmpty ∧
      ∃ child file, readDirEntry table d.entryOffset = some ⟨dirLink (next d), child, file, d.name⟩)
    (hplace : ∀ d ∈ directories, ∃ name, d.place = some (p, name))
    (hshort : ∀ d ∈ directories, Short d.path)
    (hvisit : ∀ d ∈ directories, visit d.path d.entryOffset = some (inner d)) {fuel : Nat}
    (hfuel : directories.length ≤ fuel) :
    followLink (dirLink o) (visitChildren visit table p fuel) =
      some (directories.flatMap fun d => dirVisit d ++ inner d) := by
  induction hchain generalizing fuel with
  | nil => exact followLink_empty _
  | @cons d directories _ ih =>
    cases fuel with
    | zero => cases hfuel
    | succ fuel =>
      obtain ⟨hne, child, file, hentry⟩ := hread d List.mem_cons_self
      obtain ⟨name, hd⟩ := hplace d List.mem_cons_self
      have hpath : d.path = childPath p name := by
        rw [RomFSBuildDirectoryContext.path, hd]
      have hbytes : d.name = name.bytes := by
        rw [RomFSBuildDirectoryContext.name, hd]
      have hdShort := hshort d List.mem_cons_self
      have hinner := hvisit d List.mem_cons_self
      rw [hpath] at hdShort hinner
      rw [hbytes] at hentry
      have hrest := ih (fun e he => hread e (List.mem_cons_of_mem d he))
        (fun e he => hplace e (List.mem_cons_of_mem d he)) (fun e he => hshort e (List.mem_cons_of_mem d he))
        (fun e he => hvisit e (List.mem_cons_of_mem d he)) (Nat.le_of_succ_le_succ hfuel)
      change followLink d.entryOffset _ = _
      rw [followLink_of_ne hne, visitChildren, hentry]
      simp only [Option.bind_eq_bind, Option.bind_some, childName_eq hdShort, hinner, hrest]
      rw [List.flatMap_cons, dirVisit, hd]
      rfl

end Chains

/-- The parent of a directory other than the root -/
def dirParent (d : RomFSBuildDirectoryContext) : RomPath := (d.place.map Prod.fst).getD []

/-- The links of the directories leave out the root, which comes first. -/
lemma linkDirectories_cons {r : RomFSBuildDirectoryContext} {tail : List RomFSBuildDirectoryContext}
    (hr : r.place = none) (htail : ∀ d ∈ tail, d.place.isSome) :
    linkDirectories (r :: tail) = thread dirParent tail := by
  have hwhile : (r :: tail).reverse.takeWhile (·.place.isSome) = tail.reverse := by
    rw [List.reverse_cons, List.takeWhile_append_of_pos fun d hd => htail d (List.mem_reverse.mp hd),
      List.takeWhile_cons_of_neg (by rw [hr]; exact Bool.false_ne_true), List.append_nil]
  rw [linkDirectories, hwhile]
  rfl

/-- The root comes first, since its path is the shortest. -/
lemma Merging.root_first {ctx : RomFSBuildContext} (h : Merging ctx) :
    ∃ tail, ctx.directories.entries = .root :: tail ∧ ∀ d ∈ tail, d.place.isSome := by
  have hroot := h.root
  have hsorted := ctx.directories.sorted
  have hkey : strcmpKey (RomFSBuildDirectoryContext.root).path = [] := rfl
  cases hentries : ctx.directories.entries with
  | nil =>
    rw [hentries] at hroot
    cases hroot
  | cons a tail =>
    rw [hentries] at hroot hsorted
    obtain ⟨hlt, -⟩ := List.pairwise_cons.mp hsorted
    have ha : a = .root := by
      cases List.mem_cons.mp hroot with
      | inl heq => exact heq.symm
      | inr hmem =>
        have hbefore := hlt .root hmem
        rw [hkey] at hbefore
        exact absurd hbefore (List.not_lt_nil _)
    refine ⟨tail, by rw [ha], fun d hd => ?_⟩
    have hbehind := hlt d hd
    cases hplace : d.place with
    | some place => rfl
    | none =>
      have hpath : strcmpKey d.path = [] := by
        rw [RomFSBuildDirectoryContext.path, hplace]
        rfl
      rw [hpath] at hbehind
      exact absurd hbehind (List.not_lt_nil _)

section Tables

variable {ctx : RomFSBuildContext} {saved : Bool} {partitionSize : Nat} {built : BuiltRomFS}

/-- The root of what is built -/
lemma BuildsTo.root_first (h : Merging ctx) (hbuilt : BuildsTo ctx saved partitionSize built) :
    ∃ r tail, built.directories = r :: tail ∧ r.place = none ∧ r.entryOffset = 0 ∧
      ∀ d ∈ tail, d.place.isSome := by
  obtain ⟨tail, hentries, htail⟩ := h.root_first
  have hdirectories := hbuilt.directories_eq
  rw [hentries, assignDirectoryOffsets] at hdirectories
  refine ⟨_, _, hdirectories, rfl, rfl, fun d hd => ?_⟩
  have hmem := List.mem_map_of_mem (f := (·.place)) hd
  rw [assignDirectoryOffsets_place] at hmem
  obtain ⟨d', hd', hsame⟩ := List.mem_map.mp hmem
  rw [← hsame]
  exact htail d' hd'

variable {f : RomFSBuildFileContext}

lemma BuildsTo.fileOffset_le (h : Merging ctx) (hbuilt : BuildsTo ctx saved partitionSize built)
    (hfiles : ctx.fileTableSize < 2 ^ 32) (hf : f ∈ built.files) :
    f.entryOffset + fileEntrySize f.name.bytes < 2 ^ 32 := by
  rw [h.fileTableSize] at hfiles
  have hle := (assignFileOffsets_consecutive hbuilt.placed (by omega)).le_sum hf
  have hbytes := fileTableBytes_of_unplaced (assignFileOffsets_unplaced hbuilt.placed)
  rw [fileTableBytes] at hbytes
  omega

variable {d : RomFSBuildDirectoryContext}

section

variable (h : Merging ctx) (hbuilt : BuildsTo ctx saved partitionSize built)

include h hbuilt

lemma BuildsTo.dirOffset_le (hdirs : ctx.dirTableSize < 2 ^ 32) (hd : d ∈ built.directories) :
    d.entryOffset + dirEntrySize d.name < 2 ^ 32 := by
  rw [h.dirTableSize] at hdirs
  rw [hbuilt.directories_eq] at hd
  have hle := (assignDirectoryOffsets_consecutive (by omega)).le_sum hd
  have hbytes := dirTableBytes_assign ctx.directories.entries
  rw [dirTableBytes] at hbytes
  omega

/-- A link to a file is to an entry, or empty. -/
lemma BuildsTo.fileLink_lt
    (hfiles : ctx.fileTableSize < 2 ^ 32) {o : Option RomFSBuildFileContext} (ho : ∀ f ∈ o, f ∈ built.files) :
    fileLink o < 2 ^ 32 := by
  cases o with
  | none =>
    rw [fileLink, romfsEntryEmpty]
    omega
  | some f =>
    have hle := hbuilt.fileOffset_le h hfiles (ho f rfl)
    rw [fileLink]
    omega

lemma BuildsTo.dirLink_lt (hdirs : ctx.dirTableSize < 2 ^ 32) {o : Option RomFSBuildDirectoryContext}
    (ho : ∀ d ∈ o, d ∈ built.directories) : dirLink o < 2 ^ 32 := by
  cases o with
  | none =>
    rw [dirLink, romfsEntryEmpty]
    omega
  | some d =>
    have hle := hbuilt.dirOffset_le h hdirs (ho d rfl)
    rw [dirLink]
    omega

/-- The entry of a file is read back. -/
lemma BuildsTo.readFileEntry_eq (hfiles : ctx.fileTableSize < 2 ^ 32)
    (hsizes : ∀ f ∈ ctx.files.entries, f.size < 2 ^ 64) (hf : f ∈ built.files) :
    f.entryOffset ≠ romfsEntryEmpty ∧ readFileEntry built.fileTables.table f.entryOffset =
      some ⟨fileLink ((linkFiles built.files).next f), f.offset, f.size, f.name.bytes⟩ := by
  have hend := hbuilt.fileOffset_le h hfiles hf
  have hname : f.name.bytes.length ≤ fileEntrySize f.name.bytes ∧ 32 ≤ fileEntrySize f.name.bytes := by
    rw [fileEntrySize, alignUp]
    omega
  have hbytes := h.fileTableSize
  obtain ⟨before, entry, behind, htable, ⟨parent, hash, hentry, -⟩, hoffset⟩ :=
    hbuilt.fileTable.at_offset (fun f entry => IsFileEntry.length_eq)
      (assignFileOffsets_consecutive hbuilt.placed (by omega)) hf
  obtain ⟨g, hg, hsame⟩ := exists_of_map_unplaced (assignFileOffsets_unplaced hbuilt.placed) hf
  have hsize : g.size = f.size := congrArg (·.size) hsame
  have hlt := hsizes g hg
  rw [Nat.zero_add] at hoffset
  constructor
  · rw [romfsEntryEmpty]
    omega
  · rw [hoffset, htable, hentry]
    apply readFileEntry_append
    · exact hbuilt.fileLink_lt h hfiles fun y hy => (mem_of_thread built.files).2 f hy
    · exact assignFileOffsets_offset_lt hbuilt.placed f hf
    · rw [← hsize]
      exact hlt
    · omega

/-- The entry of a directory is read back. -/
lemma BuildsTo.readDirEntry_eq (hdirs : ctx.dirTableSize < 2 ^ 32) (hfiles : ctx.fileTableSize < 2 ^ 32)
    (hd : d ∈ built.directories) :
    d.entryOffset ≠ romfsEntryEmpty ∧ readDirEntry built.dirs.table d.entryOffset =
      some ⟨dirLink ((linkDirectories built.directories).next d),
        dirLink ((linkDirectories built.directories).first d.path),
        fileLink ((linkFiles built.files).first d.path), d.name⟩ := by
  have hend := hbuilt.dirOffset_le h hdirs hd
  have hname : d.name.length ≤ dirEntrySize d.name ∧ 24 ≤ dirEntrySize d.name := by
    rw [dirEntrySize, alignUp]
    omega
  have hbytes := h.dirTableSize
  obtain ⟨r, tail, hroot, hr, -, htail⟩ := hbuilt.root_first h
  have hlinks : ∀ y ∈ tail, y ∈ built.directories := by
    intro y hy
    rw [hroot]
    exact List.mem_cons_of_mem r hy
  have hconsecutive : Consecutive (·.entryOffset) (fun d => dirEntrySize d.name) 0 built.directories := by
    rw [hbuilt.directories_eq]
    exact assignDirectoryOffsets_consecutive (by omega)
  obtain ⟨before, entry, behind, htable, ⟨parent, hash, hentry, -⟩, hoffset⟩ :=
    hbuilt.dirTable.at_offset (fun d entry => IsDirEntry.length_eq) hconsecutive hd
  rw [Nat.zero_add] at hoffset
  constructor
  · rw [romfsEntryEmpty]
    omega
  · rw [hoffset, htable, hentry]
    apply readDirEntry_append
    · apply hbuilt.dirLink_lt h hdirs
      intro y hy
      rw [hroot, linkDirectories_cons hr htail] at hy
      exact hlinks y ((mem_of_thread tail).2 d hy)
    · apply hbuilt.dirLink_lt h hdirs
      intro y hy
      rw [hroot, linkDirectories_cons hr htail] at hy
      exact hlinks y ((mem_of_thread tail).1 _ hy)
    · exact hbuilt.fileLink_lt h hfiles fun y hy => (mem_of_thread built.files).1 _ hy
    · omega

end

section

variable (hbuilt : BuildsTo ctx saved partitionSize built)

include hbuilt

/-- The directories that are built have the paths of the merged ones. -/
lemma BuildsTo.map_path :
    built.directories.map (·.path) = ctx.directories.entries.map (·.path) := by
  have hpath : ∀ l : List RomFSBuildDirectoryContext, l.map (·.path) =
      (l.map (·.place)).map fun place => (RomFSBuildDirectoryContext.mk place 0).path := by
    intro l
    rw [List.map_map]
    rfl
  rw [hpath, hpath, hbuilt.directories_eq, assignDirectoryOffsets_place]

lemma BuildsTo.nodup_path :
    (built.directories.map (·.path)).Nodup := by
  rw [hbuilt.map_path, List.Nodup, List.pairwise_map]
  apply ctx.directories.sorted.imp
  intro a b hlt heq
  rw [heq] at hlt
  exact absurd hlt (lt_irrefl _)

/-- A directory that is merged is built. -/
lemma BuildsTo.exists_directory {path : RomPath}
    (h : HasDirectory ctx path) : ∃ d ∈ built.directories, d.path = path := by
  obtain ⟨d, hd, hpath⟩ := h
  have hmem := List.mem_map_of_mem (f := (·.path)) hd
  rw [← hbuilt.map_path] at hmem
  obtain ⟨d', hd', hsame⟩ := List.mem_map.mp hmem
  exact ⟨d', hd', hsame.trans hpath⟩

/-- The length of its path ranks a directory behind its parent. -/
lemma BuildsTo.ranked {r : RomFSBuildDirectoryContext}
    {tail : List RomFSBuildDirectoryContext} (hroot : built.directories = r :: tail)
    (htail : ∀ d ∈ tail, d.place.isSome) : Ranked dirParent RomFSBuildDirectoryContext.path tail List.length := by
  have hnodup := hbuilt.nodup_path
  rw [hroot, List.map_cons, List.nodup_cons] at hnodup
  refine ⟨hnodup.2.of_map _, fun x hx y hy => List.inj_on_of_nodup_map hnodup.2 hx hy, fun d hd => ?_⟩
  obtain ⟨⟨parent, name⟩, hplace⟩ := Option.isSome_iff_exists.mp (htail d hd)
  rw [dirParent, RomFSBuildDirectoryContext.path, hplace, Option.map_some, Option.getD_some]
  dsimp only
  rw [childPath, List.length_append, List.length_cons]
  omega

end

/-- The parent of a directory is there. -/
lemma BuildsTo.exists_parent (h : Merging ctx) (hbuilt : BuildsTo ctx saved partitionSize built)
    (hd : d ∈ built.directories) {parent : RomPath} {name : EntryName}
    (hplace : d.place = some (parent, name)) : ∃ e ∈ built.directories, e.path = parent := by
  have hmem := List.mem_map_of_mem (f := (·.place)) hd
  rw [hbuilt.directories_eq, assignDirectoryOffsets_place] at hmem
  obtain ⟨d', hd', hsame⟩ := List.mem_map.mp hmem
  exact hbuilt.exists_directory (h.parents d' hd' parent name (hsame.trans hplace))

lemma BuildsTo.exists_fileParent (h : Merging ctx) (hbuilt : BuildsTo ctx saved partitionSize built)
    (hf : f ∈ built.files) : ∃ e ∈ built.directories, e.path = f.parent := by
  obtain ⟨g, hg, hsame⟩ := exists_of_map_unplaced (assignFileOffsets_unplaced hbuilt.placed) hf
  have hparent : g.parent = f.parent := congrArg (·.parent) hsame
  rw [← hparent]
  exact hbuilt.exists_directory (h.fileParents g hg)

section

variable (h : Merging ctx) (hbuilt : BuildsTo ctx saved partitionSize built)

include h hbuilt

/-- Every directory is below the root. -/
lemma BuildsTo.below_root {r : RomFSBuildDirectoryContext} {tail : List RomFSBuildDirectoryContext}
    (hroot : built.directories = r :: tail) (hr : r.place = none) (htail : ∀ d ∈ tail, d.place.isSome) (hd : d ∈ tail) :
    Below dirParent RomFSBuildDirectoryContext.path tail [] d := by
  induction hlength : d.path.length using Nat.strong_induction_on generalizing d with
  | _ n ih =>
    obtain ⟨⟨parent, name⟩, hplace⟩ := Option.isSome_iff_exists.mp (htail d hd)
    have hparent : dirParent d = parent := by
      rw [dirParent, hplace]
      rfl
    have hrank := (hbuilt.ranked hroot htail).rank_lt d hd
    obtain ⟨e, he, hpath⟩ := hbuilt.exists_parent h (hroot ▸ List.mem_cons_of_mem r hd) hplace
    rw [hroot] at he
    cases List.mem_cons.mp he with
    | inl heq =>
      have hnil : parent = [] := by
        rw [← hpath, heq, RomFSBuildDirectoryContext.path, hr]
      exact .child hd (hparent.trans hnil)
    | inr hmem =>
      have hlt : e.path.length < n := by
        rw [← hlength, hpath, ← hparent]
        exact hrank
      exact .deeper (ih _ hlt hmem rfl) hd (hparent.trans hpath.symm)

/-- Before they are placed, the files are those that were merged. -/
lemma BuildsTo.map_unplaced : built.files.map (·.unplaced) = ctx.files.entries := by
  rw [assignFileOffsets_unplaced hbuilt.placed, List.map_congr_left h.unplaced, List.map_id']

lemma BuildsTo.nodup_files : built.files.Nodup := by
  have hnodup := ctx.files.nodup
  rw [← hbuilt.map_unplaced h] at hnodup
  exact hnodup.of_map _

end

/-- The visits of the files in a directory -/
def fileVisits (files : List RomFSBuildFileContext) (p : RomPath) : List Visit :=
  (files.filter (·.parent = p)).map fileVisit

/-- The visits below a directory, in the order of the walk. -/
def visitsBelow (files : List RomFSBuildFileContext) (tail : List RomFSBuildDirectoryContext) (n : Nat)
    (p : RomPath) : List Visit :=
  fileVisits files p ++
    (preorder dirParent RomFSBuildDirectoryContext.path tail n p).flatMap fun d =>
      dirVisit d ++ fileVisits files d.path

/-- The visits below a directory, by its children. -/
lemma visitsBelow_succ (files : List RomFSBuildFileContext) (tail : List RomFSBuildDirectoryContext) (n : Nat)
    (p : RomPath) : visitsBelow files tail (n + 1) p = fileVisits files p ++
      (tail.filter (dirParent · = p)).flatMap fun d => dirVisit d ++ visitsBelow files tail n d.path := by
  rw [visitsBelow, preorder, List.flatMap_assoc]
  apply congrArg (fileVisits files p ++ ·)
  apply congrArg (List.flatMap · _)
  funext d
  rw [List.flatMap_cons, visitsBelow, List.append_assoc]

/-- The walk of the files of a directory -/
lemma BuildsTo.followLink_files (h : Merging ctx) (hbuilt : BuildsTo ctx saved partitionSize built)
    (hfiles : ctx.fileTableSize < 2 ^ 32) (hsizes : ∀ f ∈ ctx.files.entries, f.size < 2 ^ 64)
    (hshort : ∀ f ∈ built.files, Short f.path) (p : RomPath) {fuel : Nat} (hfuel : built.files.length ≤ fuel) :
    followLink (fileLink ((linkFiles built.files).first p))
      (visitFileChain built.fileTables.table p fuel) = some (fileVisits built.files p) := by
  have hchain : Chain (linkFiles built.files).next ((linkFiles built.files).first p)
      (built.files.filter (·.parent = p)) := chain_thread (hbuilt.nodup_files h) p
  apply followLink_fileChain hchain
  · intro f hf
    exact hbuilt.readFileEntry_eq h hfiles hsizes (List.mem_of_mem_filter hf)
  · intro f hf
    exact of_decide_eq_true (List.mem_filter.mp hf).2
  · intro f hf
    exact hshort f (List.mem_of_mem_filter hf)
  · exact (List.length_filter_le _ _).trans hfuel

section Tail

variable {r : RomFSBuildDirectoryContext} {tail : List RomFSBuildDirectoryContext}

/-- The walk of the directories in a directory, by the walk of each of them -/
lemma BuildsTo.followLink_directories (h : Merging ctx) (hbuilt : BuildsTo ctx saved partitionSize built)
    (hdirs : ctx.dirTableSize < 2 ^ 32) (hfiles : ctx.fileTableSize < 2 ^ 32)
    (hshortDirs : ∀ d ∈ built.directories, Short d.path) (hroot : built.directories = r :: tail)
    (hr : r.place = none) (htail : ∀ d ∈ tail, d.place.isSome) {p : RomPath}
    {visit : RomPath → Nat → Option (List Visit)} {inner : RomFSBuildDirectoryContext → List Visit}
    (hvisit : ∀ e ∈ tail, dirParent e = p → visit e.path e.entryOffset = some (inner e)) {fuel : Nat}
    (hfuel : tail.length ≤ fuel) :
    followLink (dirLink ((linkDirectories built.directories).first p))
      (visitChildren visit built.dirs.table p fuel) =
        some ((tail.filter (dirParent · = p)).flatMap fun d => dirVisit d ++ inner d) := by
  have hmem : ∀ e ∈ tail.filter (dirParent · = p), e ∈ tail ∧ dirParent e = p := by
    intro e he
    obtain ⟨hmem, hparent⟩ := List.mem_filter.mp he
    exact ⟨hmem, of_decide_eq_true hparent⟩
  have hbuiltMem : ∀ e ∈ tail.filter (dirParent · = p), e ∈ built.directories := by
    intro e he
    rw [hroot]
    exact List.mem_cons_of_mem r (hmem e he).1
  have hchain : Chain (linkDirectories built.directories).next ((linkDirectories built.directories).first p)
      (tail.filter (dirParent · = p)) := by
    rw [hroot, linkDirectories_cons hr htail]
    exact chain_thread (hbuilt.ranked hroot htail).nodup p
  apply followLink_children hchain
  · intro e he
    obtain ⟨hne, hread⟩ := hbuilt.readDirEntry_eq h hdirs hfiles (hbuiltMem e he)
    exact ⟨hne, _, _, hread⟩
  · intro e he
    obtain ⟨hmem, hparent⟩ := hmem e he
    obtain ⟨⟨parent, name⟩, hplace⟩ := Option.isSome_iff_exists.mp (htail e hmem)
    rw [dirParent, hplace] at hparent
    exact ⟨name, by rw [hplace, ← hparent]; rfl⟩
  · intro e he
    exact hshortDirs e (hbuiltMem e he)
  · intro e he
    exact hvisit e (hmem e he).1 (hmem e he).2
  · exact (List.length_filter_le _ _).trans hfuel

/-- The walk from a directory comes upon what is below it. -/
lemma BuildsTo.visitDirectory_eq (h : Merging ctx) (hbuilt : BuildsTo ctx saved partitionSize built)
    (hdirs : ctx.dirTableSize < 2 ^ 32) (hfiles : ctx.fileTableSize < 2 ^ 32)
    (hsizes : ∀ f ∈ ctx.files.entries, f.size < 2 ^ 64) (hshort : ∀ f ∈ built.files, Short f.path)
    (hshortDirs : ∀ d ∈ built.directories, Short d.path) (hroot : built.directories = r :: tail) (hr : r.place = none)
    (htail : ∀ d ∈ tail, d.place.isSome) {d : RomFSBuildDirectoryContext} (hd : d ∈ built.directories) {n fuel : Nat}
    (hn : fsMaxPath - 1 < d.path.length + n) (hfuel : n + tail.length + built.files.length ≤ fuel) :
    visitDirectory built.dirs.table built.fileTables.table fuel d.path d.entryOffset =
      some (visitsBelow built.files tail n d.path) := by
  induction n generalizing d fuel with
  | zero =>
    have hle := hshortDirs d hd
    rw [Short] at hle
    omega
  | succ n ih =>
    cases fuel with
    | zero => omega
    | succ fuel =>
      obtain ⟨-, hentry⟩ := hbuilt.readDirEntry_eq h hdirs hfiles hd
      have hvisit : ∀ e ∈ tail, dirParent e = d.path →
          visitDirectory built.dirs.table built.fileTables.table fuel e.path e.entryOffset =
            some (visitsBelow built.files tail n e.path) := by
        intro e he hparent
        have hrank := (hbuilt.ranked hroot htail).rank_lt e he
        rw [hparent] at hrank
        have hmem : e ∈ built.directories := by
          rw [hroot]
          exact List.mem_cons_of_mem r he
        exact ih hmem (by omega) (by omega)
      have hfileRun := hbuilt.followLink_files h hfiles hsizes hshort d.path
        (show built.files.length ≤ fuel by omega)
      have hdirRun := hbuilt.followLink_directories h hdirs hfiles hshortDirs hroot hr htail hvisit
        (show tail.length ≤ fuel by omega)
      rw [visitDirectory, hentry]
      simp only [Option.bind_eq_bind, Option.bind_some, hfileRun, hdirRun]
      rw [visitsBelow_succ]

/-- The directories that are built are visited as the merged ones. -/
lemma BuildsTo.flatMap_dirVisit (hbuilt : BuildsTo ctx saved partitionSize built) :
    built.directories.flatMap dirVisit = ctx.directories.entries.flatMap dirVisit := by
  have hvisit : ∀ l : List RomFSBuildDirectoryContext, l.flatMap dirVisit =
      (l.map (·.place)).flatMap fun place => dirVisit ⟨place, 0⟩ := by
    intro l
    rw [List.flatMap_map]
    rfl
  rw [hvisit, hvisit, hbuilt.directories_eq, assignDirectoryOffsets_place]

/-- The walk from the root comes upon everything, once. -/
lemma BuildsTo.visitsBelow_perm (h : Merging ctx) (hbuilt : BuildsTo ctx saved partitionSize built)
    (hshortDirs : ∀ d ∈ built.directories, Short d.path) (hroot : built.directories = r :: tail)
    (hr : r.place = none) (htail : ∀ d ∈ tail, d.place.isSome) {n : Nat} (hn : fsMaxPath - 1 < n) :
    (visitsBelow built.files tail n []).Perm
      (ctx.directories.entries.flatMap dirVisit ++ built.files.map fileVisit) := by
  have hpath : r.path = [] := by
    rw [RomFSBuildDirectoryContext.path, hr]
  have hpreorder := preorder_perm (hbuilt.ranked hroot htail)
    (fun d hd => hshortDirs d (hroot ▸ List.mem_cons_of_mem r hd)) (by rw [List.length_nil]; omega)
    (fun d hd => hbuilt.below_root h hroot hr htail hd) (n := n)
  have hfiles : (built.directories.flatMap fun d => fileVisits built.files d.path).Perm
      (built.files.map fileVisit) := by
    have hfilter := flatMap_filter_perm (f := fun f : RomFSBuildFileContext => f.parent) hbuilt.nodup_path
      (l := built.files) (fun f hf => by
        obtain ⟨e, he, heq⟩ := hbuilt.exists_fileParent h hf
        exact List.mem_map.mpr ⟨e, he, heq⟩)
    have hmap := hfilter.map fileVisit
    rw [List.map_flatMap, List.flatMap_map] at hmap
    exact hmap
  have hdirs : tail.flatMap dirVisit = ctx.directories.entries.flatMap dirVisit := by
    rw [← hbuilt.flatMap_dirVisit, hroot, List.flatMap_cons, dirVisit, hr]
    rfl
  rw [← hdirs]
  calc visitsBelow built.files tail n []
      _ = fileVisits built.files [] ++
          (preorder dirParent RomFSBuildDirectoryContext.path tail n []).flatMap fun d =>
            dirVisit d ++ fileVisits built.files d.path := rfl
      List.Perm _ (fileVisits built.files [] ++ tail.flatMap fun d => dirVisit d ++ fileVisits built.files d.path) :=
        (hpreorder.flatMap_right _).append_left _
      List.Perm _ (fileVisits built.files [] ++ (tail.flatMap dirVisit ++
          tail.flatMap fun d => fileVisits built.files d.path)) :=
        (List.flatMap_append_perm tail _ _).symm.append_left _
      List.Perm _ (tail.flatMap dirVisit ++ (fileVisits built.files [] ++
          tail.flatMap fun d => fileVisits built.files d.path)) := List.perm_append_comm_assoc _ _ _
      _ = tail.flatMap dirVisit ++ built.directories.flatMap fun d => fileVisits built.files d.path := by
        rw [hroot, List.flatMap_cons, hpath]
      List.Perm _ (tail.flatMap dirVisit ++ built.files.map fileVisit) := hfiles.append_left _

end Tail

end Tables

/-- `Build` succeeds if the offsets of the files can be determined. It fills both tables with the entries of the
directories and the files and with nothing else, to the sizes that the header says. The walk of the tables from
the root ends, and comes upon every directory and every file that was merged, each once, and with the size and
the offset that `Build` has given to the file. -/
theorem build_tables_read_back {sources : LayeredSources} (hwalks : sources.Walks)
    (hdirs : sources.merged.dirTableSize < 2 ^ 32) (hfiles : sources.merged.fileTableSize < 2 ^ 32)
    (hsizes : ∀ f ∈ sources.merged.files.entries, f.size < 2 ^ 64)
    (hshort : ∀ f ∈ sources.merged.files.entries, Short f.path)
    (hshortDirs : ∀ d ∈ sources.merged.directories.entries, Short d.path)
    {files : List RomFSBuildFileContext} {partitionSize : Nat}
    (hplaced : assignFileOffsets 0 0 none sources.merged.files.entries = some (files, partitionSize))
    (memory : Nat → UInt8) (saved : Bool) :
    ∃ built, build memory saved sources.merged = some built ∧
      built.files = files ∧ files.map (·.unplaced) = sources.merged.files.entries ∧
      (Filled (IsDirEntry built.directories (linkFiles files) (linkDirectories built.directories))
          built.directories built.dirs.table ∧
        built.dirs.table.length = built.header.dirTableSize ∧
        4 * built.dirs.hashTable.length = built.header.dirHashTableSize) ∧
      (Filled (IsFileEntry built.directories (linkFiles files)) files built.fileTables.table ∧
        built.fileTables.table.length = built.header.fileTableSize ∧
        4 * built.fileTables.hashTable.length = built.header.fileHashTableSize) ∧
      ∃ visits, (∀ fuel, fsMaxPath + sources.merged.numDirs + sources.merged.numFiles ≤ fuel →
          visitDirectory built.dirs.table built.fileTables.table fuel [] 0 = some visits) ∧
        visits.Perm (sources.merged.directories.entries.flatMap dirVisit ++ files.map fileVisit) := by
  have h := hwalks.merging
  obtain ⟨built, hbuild, hbuilt⟩ := h.build_eq
    (fun f hf => (LayeredSources.isFrom_of_mem hf).isMerged) hdirs hfiles hplaced memory saved
  have hsame := hplaced.symm.trans hbuilt.placed
  obtain ⟨rfl, -⟩ := Prod.mk.inj (Option.some_inj.mp hsame)
  obtain ⟨hdirLength, hfileLength⟩ := hbuilt.length_tables h
  -- what is built has the paths of what was merged
  have hbuiltShort : ∀ f ∈ built.files, Short f.path := by
    intro f hf
    obtain ⟨g, hg, hunplaced⟩ := exists_of_map_unplaced (assignFileOffsets_unplaced hbuilt.placed) hf
    have hpath : g.path = f.path := congrArg (·.path) hunplaced
    rw [← hpath]
    exact hshort g hg
  have hbuiltShortDirs : ∀ d ∈ built.directories, Short d.path := by
    intro d hd
    have hmem := List.mem_map_of_mem (f := (·.path)) hd
    rw [hbuilt.map_path] at hmem
    obtain ⟨d', hd', hpath⟩ := List.mem_map.mp hmem
    rw [← hpath]
    exact hshortDirs d' hd'
  refine ⟨built, hbuild, rfl, hbuilt.map_unplaced h, ⟨hbuilt.dirTable, hdirLength, ?_⟩,
    ⟨hbuilt.fileTable, hfileLength, ?_⟩, ?_⟩
  · rw [hbuilt.dirBuckets, hbuilt.header_eq]
    rfl
  · rw [hbuilt.fileBuckets, hbuilt.header_eq]
    rfl
  · obtain ⟨r, tail, hroot, hr, hoffset, htail⟩ := hbuilt.root_first h
    have hpath : r.path = [] := by
      rw [RomFSBuildDirectoryContext.path, hr]
    refine ⟨visitsBelow built.files tail fsMaxPath [], fun fuel hfuel => ?_,
      hbuilt.visitsBelow_perm h hbuiltShortDirs hroot hr htail (by decide)⟩
    -- the walk starts at the root, which is built first
    have hdirCount := congrArg List.length hbuilt.map_path
    have hfileCount := congrArg List.length (hbuilt.map_unplaced h)
    rw [List.length_map, List.length_map, hroot, List.length_cons, ← h.numDirs] at hdirCount
    rw [List.length_map, ← h.numFiles] at hfileCount
    have hvisit := hbuilt.visitDirectory_eq h hdirs hfiles hsizes hbuiltShort hbuiltShortDirs hroot hr htail
      (hroot ▸ List.mem_cons_self : r ∈ built.directories) (n := fsMaxPath) (by rw [fsMaxPath]; omega)
      (by omega : fsMaxPath + tail.length + built.files.length ≤ fuel)
    rw [hpath, hoffset] at hvisit
    exact hvisit

/-- A directory `/d` on the SD card with a file `/d/f` of three bytes, and nothing else -/
def exampleTree : LayeredSources where
  sdVisits :=
    [.directory [] (letterName 0x64 (by decide)), .file [0x2F, 0x64] (letterName 0x66 (by decide)) 3 0]
  looseFiles := fun _ => some [1, 2, 3]
  fileRomfs := none
  storageRomfs := none

/-- Its tables are read back. -/
theorem build_tables_read_back_tree :
    ∃ built visits, build (fun _ => 0xFF) true exampleTree.merged = some built ∧
      (∀ fuel, fsMaxPath + 2 + 1 ≤ fuel →
        visitDirectory built.dirs.table built.fileTables.table fuel [] 0 = some visits) ∧
      visits.Perm [.directory [] (letterName 0x64 (by decide)),
        .file [0x2F, 0x64] (letterName 0x66 (by decide)) 3 0] := by
  have hwalks : exampleTree.Walks := by
    refine ⟨⟨List.mem_singleton_self _, List.mem_cons_self, trivial⟩, ?_, ?_⟩
    · intro storage hstorage
      cases hstorage
    · intro storage hstorage
      cases hstorage
  have hplaced : assignFileOffsets 0 0 none exampleTree.merged.files.entries =
      some ([visitedFile .looseFile [0x2F, 0x64] (letterName 0x66 (by decide)) 3 0], 3) := by decide +kernel
  obtain ⟨built, hbuild, -, -, -, -, visits, hvisits, hperm⟩ := build_tables_read_back hwalks (by decide +kernel)
    (by decide +kernel) (by decide +kernel) (by unfold Short; decide +kernel)
    (by unfold Short; decide +kernel) hplaced (fun _ => 0xFF) true
  exact ⟨built, visits, hbuild, hvisits, hperm⟩

end RajNX.FsMitm.RomFs
