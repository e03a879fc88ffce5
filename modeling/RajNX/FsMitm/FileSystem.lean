import RajNX.Lib.FileTree
import RajNX.Lib.Interruptible

/-!
# The underlying file system

The operations of `IFileSystem` and `IFile` on the file system below a save, each one atomic and
failing only when what it needs is not there. A path is the list of its names, that is the path string
after normalisation, and the file system is the tree below its root.
-/

namespace RajNX.FsMitm

open FileTree Interruptible

/-- A name in a directory. -/
abbrev Name := List UInt8

/-- A normalised path. -/
abbrev Path := List Name

/-- The contents of a file system. -/
abbrev Tree := Node Name (List UInt8)

/-- The errors of the file system operations, and `aborted` for a process that ended in
`std::abort`. -/
inductive FsError
  | pathNotFound
  | pathAlreadyExists
  | targetLocked
  | directoryNotEmpty
  | tooLongPath
  | invalidPathFormat
  | preconditionViolation
  | aborted
deriving Repr, DecidableEq

/-- A procedure on the file system. -/
abbrev FsProc := Proc Tree FsError

/-- `FsDirectoryEntry`: a name with, for a file, its size. -/
structure DirectoryEntry where
  name : Name
  kind : Entry Nat
deriving Repr, DecidableEq

/-- Put a new node at a path whose directory exists and which is free. -/
def createNode (path : Path) (n : Tree) (s : Tree) : Except FsError Unit × Tree :=
  if s.entryAt path ≠ none then (.error .pathAlreadyExists, s)
  else if s.entryAt path.dropLast ≠ some .dir then (.error .pathNotFound, s)
  else (.ok (), s.setAt path (some n))

/-- `CreateDirectory` -/
def createDirectory (path : Path) : FsProc Unit := .atomic (createNode path (.dir []))

/-- `CreateFile` -/
def createFile (path : Path) (size : Nat) : FsProc Unit :=
  .atomic (createNode path (.file (List.replicate size 0)))

/-- `DeleteDirectoryRecursively` -/
def deleteDirectoryRecursively (path : Path) : FsProc Unit := .atomic fun s =>
  if s.entryAt path = some .dir then (.ok (), s.setAt path none) else (.error .pathNotFound, s)

/-- Move a node to a path whose directory exists, which is free and not inside of the node. -/
def moveNode (old new : Path) (n : Tree) (s : Tree) : Except FsError Unit × Tree :=
  if s.entryAt new ≠ none then (.error .pathAlreadyExists, s)
  else if s.entryAt new.dropLast ≠ some .dir ∨ old <+: new then (.error .pathNotFound, s)
  else (.ok (), (s.setAt old none).setAt new (some n))

/-- `RenameDirectory` -/
def renameDirectory (old new : Path) : FsProc Unit := .atomic fun s =>
  match s.find old with
  | some (.dir es) => moveNode old new (.dir es) s
  | _ => (.error .pathNotFound, s)

/-- `RenameFile` -/
def renameFile (old new : Path) : FsProc Unit := .atomic fun s =>
  match s.find old with
  | some (.file data) => moveNode old new (.file data) s
  | _ => (.error .pathNotFound, s)

/-- `DeleteFile` -/
def deleteFile (path : Path) : FsProc Unit := .atomic fun s =>
  match s.entryAt path with
  | some (.file _) => (.ok (), s.setAt path none)
  | _ => (.error .pathNotFound, s)

/-- `DeleteDirectory` -/
def deleteDirectory (path : Path) : FsProc Unit := .atomic fun s =>
  match s.find path with
  | some (.dir []) => (.ok (), s.setAt path none)
  | some (.dir _) => (.error .directoryNotEmpty, s)
  | _ => (.error .pathNotFound, s)

/-- `CleanDirectoryRecursively` -/
def cleanDirectoryRecursively (path : Path) : FsProc Unit := .atomic fun s =>
  if s.entryAt path = some .dir then (.ok (), s.setAt path (some (.dir [])))
  else (.error .pathNotFound, s)

/-- `GetEntryType` -/
def getEntryType (path : Path) : FsProc (Entry (List UInt8)) := .atomic fun s =>
  match s.entryAt path with
  | some e => (.ok e, s)
  | none => (.error .pathNotFound, s)

/-- The size of a file, as a directory lists it. -/
def listedKind : Entry (List UInt8) → Entry Nat
  | .dir => .dir
  | .file data => .file data.length

/-- `OpenDirectory` and `IDirectory::Read` to the end, in the order the file system has for the
names. -/
def listDirectory (readOrder : List Name → List Name) (path : Path) :
    FsProc (List DirectoryEntry) := .atomic fun s =>
  match s.find path with
  | some (.dir es) =>
    (.ok ((readOrder (Node.names (.dir es))).filterMap fun name =>
      (s.entryAt (path ++ [name])).map fun e => ⟨name, listedKind e⟩), s)
  | _ => (.error .pathNotFound, s)

/-- `OpenFile` -/
def openFile (path : Path) : FsProc Unit := .atomic fun s =>
  match s.entryAt path with
  | some (.file _) => (.ok (), s)
  | _ => (.error .pathNotFound, s)

/-- `IFile::Read` -/
def readFile (path : Path) (offset size : Nat) : FsProc (List UInt8) := .atomic fun s =>
  match s.entryAt path with
  | some (.file data) => (.ok ((data.drop offset).take size), s)
  | _ => (.error .pathNotFound, s)

/-- The contents of a file after a write. -/
def overwrite (data : List UInt8) (offset : Nat) (bytes : List UInt8) : List UInt8 :=
  data.take offset ++ bytes ++ data.drop (offset + bytes.length)

/-- `IFile::Write` -/
def writeFile (path : Path) (offset : Nat) (bytes : List UInt8) : FsProc Unit := .atomic fun s =>
  match s.entryAt path with
  | some (.file data) => (.ok (), s.setAt path (some (.file (overwrite data offset bytes))))
  | _ => (.error .pathNotFound, s)

/-- `IFile::SetSize` -/
def setFileSize (path : Path) (size : Nat) : FsProc Unit := .atomic fun s =>
  match s.entryAt path with
  | some (.file data) =>
    (.ok (), s.setAt path (some (.file ((data ++ List.replicate size 0).take size))))
  | _ => (.error .pathNotFound, s)

/-! ## What the operations do to the entries -/

section Entries

variable {F : FsError → Prop} {s : Tree} {R : Tree → Prop}

/-- The path has a new entry with nothing below it, and nothing else changed. -/
def Created (path : Path) (e : Entry (List UInt8)) (s t : Tree) : Prop :=
  s.entryAt path = none ∧ t.entryAt path = some e ∧
    (∀ q, q ≠ [] → t.entryAt (path ++ q) = none) ∧ ∀ q, ¬path <+: q → t.entryAt q = s.entryAt q

/-- Everything at and below the path is gone, and nothing else changed. -/
def Erased (path : Path) (s t : Tree) : Prop :=
  (∀ q, t.entryAt (path ++ q) = none) ∧ ∀ q, ¬path <+: q → t.entryAt q = s.entryAt q

/-- What was at and below the old path is at the new one, and nothing else changed. -/
def Moved (old new : Path) (s t : Tree) : Prop :=
  (∀ q, t.entryAt (new ++ q) = s.entryAt (old ++ q)) ∧ (∀ q, t.entryAt (old ++ q) = none) ∧
    ∀ q, ¬old <+: q → ¬new <+: q → t.entryAt q = s.entryAt q

variable {path : Path}

/-- A path with an entry other than the root's has a directory above it. -/
lemma entryAt_dropLast (hne : path ≠ []) (h : s.entryAt path ≠ none) : s.entryAt path.dropLast = some .dir := by
  refine Node.entryAt_of_below (q := [path.getLast hne]) (by simp) ?_
  rwa [List.dropLast_append_getLast hne]

/-- What is seen at and below a path after a node was put there. -/
lemma entryAt_setAt (hne : path ≠ []) (h : s.entryAt path.dropLast = some .dir)
    (m : Option Tree) (q : Path) : (s.setAt path m).entryAt (path ++ q) = m.bind (·.entryAt q) := by
  have hset := Node.entryAt_setAt_append (x := path.getLast hne) m h q
  rwa [List.dropLast_append_getLast hne] at hset

lemma createNode_cases (path : Path) (n : Tree) (s : Tree) (hn : ∀ q, q ≠ [] → n.entryAt q = none) :
    (∃ e, e ≠ .targetLocked ∧ (s.entryAt path ≠ none ∨ s.entryAt path.dropLast ≠ some .dir) ∧
      createNode path n s = (.error e, s)) ∨
    ∃ t, createNode path n s = (.ok (), t) ∧ Created path n.entry s t := by
  unfold createNode
  by_cases hfree : s.entryAt path ≠ none
  · exact .inl ⟨.pathAlreadyExists, by decide, .inl hfree, by rw [if_pos hfree]⟩
  rw [if_neg hfree]
  by_cases hdir : s.entryAt path.dropLast ≠ some .dir
  · exact .inl ⟨.pathNotFound, by decide, .inr hdir, by rw [if_pos hdir]⟩
  rw [if_neg hdir]
  rw [not_not] at hfree hdir
  have hne : path ≠ [] := by
    rintro rfl
    simp at hfree
  refine .inr ⟨_, rfl, hfree, ?_, ?_, ?_⟩
  · have hset := entryAt_setAt hne hdir (some n) []
    simpa using hset
  · intro q hq
    rw [entryAt_setAt hne hdir]
    exact hn q hq
  · exact fun q hq => Node.entryAt_setAt_of_not_prefix _ hq

variable {Q : Except FsError Unit → Tree → Prop}

/-- Creating a node with nothing below it. Without a fault the only errors are that the path is taken
and that its directory is missing. -/
lemma sat_createNode {n : Tree}
    (hn : ∀ q, q ≠ [] → n.entryAt q = none) (hR : R s)
    (herror : ∀ e, F e ∨ e ≠ .targetLocked ∧
      (s.entryAt path ≠ none ∨ s.entryAt path.dropLast ≠ some .dir) → Q (.error e) s)
    (hok : ∀ t, Created path n.entry s t → R t ∧ Q (.ok ()) t) : (Proc.atomic (createNode path n)).Sat F s R Q := by
  have hfault : ∀ e, F e → R s ∧ Q (.error e) s := fun e he => ⟨hR, herror e (.inl he)⟩
  obtain ⟨e, he, hwhy, h⟩ | ⟨t, h, hcreated⟩ := createNode_cases path n s hn
  · refine Proc.sat_atomic (by rwa [h]) ?_ hfault
    rw [h]
    exact herror e (.inr ⟨he, hwhy⟩)
  · obtain ⟨hRt, hQt⟩ := hok t hcreated
    exact Proc.sat_atomic (by rwa [h]) (by rwa [h]) hfault

/-- Creating a directory. -/
lemma sat_createDirectory (hR : R s)
    (herror : ∀ e, F e ∨ e ≠ .targetLocked ∧
      (s.entryAt path ≠ none ∨ s.entryAt path.dropLast ≠ some .dir) → Q (.error e) s)
    (hok : ∀ t, Created path .dir s t → R t ∧ Q (.ok ()) t) : (createDirectory path).Sat F s R Q := by
  refine sat_createNode ?_ hR herror hok
  intro q hq
  cases q with
  | nil => exact (hq rfl).elim
  | cons => rfl

/-- Creating a file. -/
lemma sat_createFile {size : Nat} (hR : R s)
    (herror : ∀ e, F e ∨ e ≠ .targetLocked ∧
      (s.entryAt path ≠ none ∨ s.entryAt path.dropLast ≠ some .dir) → Q (.error e) s)
    (hok : ∀ t, Created path (.file (List.replicate size 0)) s t → R t ∧ Q (.ok ()) t) :
    (createFile path size).Sat F s R Q := by
  refine sat_createNode ?_ hR herror hok
  intro q hq
  cases q with
  | nil => exact (hq rfl).elim
  | cons => rfl

/-- Deleting a directory with all below it. -/
lemma sat_deleteDirectoryRecursively (hne : path ≠ []) (hR : R s)
    (herror : ∀ e, F e ∨ e = .pathNotFound ∧ s.entryAt path ≠ some .dir → Q (.error e) s)
    (hok : ∀ t, s.entryAt path = some .dir → Erased path s t → R t ∧ Q (.ok ()) t) :
    (deleteDirectoryRecursively path).Sat F s R Q := by
  have hfault : ∀ e, F e → R s ∧ Q (.error e) s := fun e he => ⟨hR, herror e (.inl he)⟩
  by_cases hdir : s.entryAt path = some .dir
  · have herased : Erased path s (s.setAt path none) := by
      refine ⟨?_, fun q hq => Node.entryAt_setAt_of_not_prefix _ hq⟩
      intro q
      rw [entryAt_setAt hne (entryAt_dropLast hne (by simp [hdir]))]
      rfl
    obtain ⟨hRt, hQt⟩ := hok _ hdir herased
    exact Proc.sat_atomic (by simpa [hdir] using hRt) (by simpa [hdir] using hQt) hfault
  · refine Proc.sat_atomic (by simpa [hdir] using hR) ?_ hfault
    simpa [hdir] using herror .pathNotFound (.inr ⟨rfl, hdir⟩)

/-- What moving a directory to a free path does. -/
lemma moved_moveNode {old new : Path} {es : List (Name × Tree)} (hne : new ≠ []) (hold : old ≠ [])
    (hfind : s.find old = some (.dir es)) (hfree : s.entryAt new = none)
    (hdir : s.entryAt new.dropLast = some .dir) (hinside : ¬old <+: new) :
    Moved old new s ((s.setAt old none).setAt new (some (.dir es))) := by
  have hentry : s.entryAt old = some .dir := by
    simp [Node.entryAt, hfind, Node.entry]
  have hparent : (s.setAt old none).entryAt new.dropLast = some .dir := by
    rw [Node.entryAt_setAt_of_not_prefix, hdir]
    exact fun hp => hinside (hp.trans (List.dropLast_prefix new))
  refine ⟨?_, ?_, ?_⟩
  · intro q
    rw [entryAt_setAt hne hparent, Node.entryAt_append, hfind]
  · intro q
    by_cases hp : new <+: old ++ q
    · -- the two paths are on one line: neither can be above the other
      rcases List.prefix_or_prefix_of_prefix hp (List.prefix_append old q) with h | h
      · obtain ⟨r, rfl⟩ := h
        rw [Node.entryAt_append_eq_none hfree] at hentry
        cases hentry
      · exact (hinside h).elim
    · rw [Node.entryAt_setAt_of_not_prefix _ hp,
        entryAt_setAt hold (entryAt_dropLast hold (by simp [hentry]))]
      rfl
  · intro q hq hq'
    rw [Node.entryAt_setAt_of_not_prefix _ hq', Node.entryAt_setAt_of_not_prefix _ hq]

/-- Renaming a directory. Without a fault it fails only if the old path is no directory, the new one is
taken, its directory is missing or it is inside of the old one. -/
lemma sat_renameDirectory {old new : Path}
    (hne : new ≠ []) (hold : old ≠ []) (hR : R s)
    (herror : ∀ e, F e ∨ e ≠ .targetLocked ∧
      (s.entryAt old = some .dir → s.entryAt new = none → s.entryAt new.dropLast = some .dir →
        old <+: new) → Q (.error e) s)
    (hok : ∀ t, s.entryAt old = some .dir → s.entryAt new = none → Moved old new s t → R t ∧ Q (.ok ()) t) :
    (renameDirectory old new).Sat F s R Q := by
  have hfault : ∀ e, F e → R s ∧ Q (.error e) s := fun e he => ⟨hR, herror e (.inl he)⟩
  have hmissing : s.entryAt old ≠ some .dir → Q (.error .pathNotFound) s := fun hentry =>
    herror .pathNotFound (.inr ⟨by decide, fun h => (hentry h).elim⟩)
  cases hfind : s.find old with
  | none =>
    refine Proc.sat_atomic (by simpa [hfind] using hR) ?_ hfault
    simpa [hfind] using hmissing (by simp [Node.entryAt, hfind])
  | some n =>
    cases n with
    | file data =>
      refine Proc.sat_atomic (by simpa [hfind] using hR) ?_ hfault
      simpa [hfind] using hmissing (by simp [Node.entryAt, hfind, Node.entry])
    | dir es =>
      by_cases hfree : s.entryAt new ≠ none
      · refine Proc.sat_atomic (by simpa [hfind, moveNode, if_pos hfree] using hR) ?_ hfault
        simpa [hfind, moveNode, if_pos hfree] using
          herror .pathAlreadyExists (.inr ⟨by decide, fun _ h => (hfree h).elim⟩)
      by_cases hdir : s.entryAt new.dropLast ≠ some .dir ∨ old <+: new
      · refine Proc.sat_atomic (by simpa [hfind, moveNode, if_neg hfree, if_pos hdir] using hR) ?_
          hfault
        simpa [hfind, moveNode, if_neg hfree, if_pos hdir] using
          herror .pathNotFound
            (.inr ⟨by decide, fun _ _ h => hdir.resolve_left (not_not.mpr h)⟩)
      have hmove : moveNode old new (.dir es) s =
          (.ok (), (s.setAt old none).setAt new (some (.dir es))) := by
        rw [moveNode, if_neg hfree, if_neg hdir]
      rw [not_not] at hfree
      rw [not_or, not_not] at hdir
      obtain ⟨hRt, hQt⟩ := hok _ (by simp [Node.entryAt, hfind, Node.entry]) hfree
        (moved_moveNode hne hold hfind hfree hdir.1 hdir.2)
      exact Proc.sat_atomic (by simpa [hfind, hmove] using hRt) (by simpa [hfind, hmove] using hQt)
        hfault

/-- A reading operation leaves the file system as it is. -/
lemma sat_getEntryType {Q : Except FsError (Entry (List UInt8)) → Tree → Prop} (hR : R s)
    (herror : ∀ e, F e ∨ e = .pathNotFound ∧ s.entryAt path = none → Q (.error e) s)
    (hok : ∀ e, s.entryAt path = some e → Q (.ok e) s) : (getEntryType path).Sat F s R Q := by
  have hfault : ∀ e, F e → R s ∧ Q (.error e) s := fun e he => ⟨hR, herror e (.inl he)⟩
  cases h : s.entryAt path with
  | none =>
    refine Proc.sat_atomic (by simpa [h] using hR) ?_ hfault
    simpa [h] using herror .pathNotFound (.inr ⟨rfl, h⟩)
  | some e => exact Proc.sat_atomic (by simpa [h] using hR) (by simpa [h] using hok e h) hfault

/-- Opening a file that is there. -/
lemma sat_openFile {data : List UInt8} (h : s.entryAt path = some (.file data)) (hR : R s)
    (herror : ∀ e, F e → Q (.error e) s) (hok : Q (.ok ()) s) : (openFile path).Sat F s R Q :=
  Proc.sat_atomic (by simpa [h] using hR) (by simpa [h] using hok) fun e he => ⟨hR, herror e he⟩

/-- Reading a file that is there. -/
lemma sat_readFile {offset size : Nat} {data : List UInt8} {Q : Except FsError (List UInt8) → Tree → Prop}
    (h : s.entryAt path = some (.file data)) (hR : R s) (herror : ∀ e, F e → Q (.error e) s)
    (hok : Q (.ok ((data.drop offset).take size)) s) : (readFile path offset size).Sat F s R Q :=
  Proc.sat_atomic (by simpa [h] using hR) (by simpa [h] using hok) fun e he => ⟨hR, herror e he⟩

/-- Writing to a file replaces its contents and nothing else. -/
lemma sat_writeFile {offset : Nat} {data bytes : List UInt8}
    (hne : path ≠ [])
    (h : s.entryAt path = some (.file data)) (hR : R s)
    (herror : ∀ e, F e → Q (.error e) s)
    (hok : ∀ t, t.entryAt path = some (.file (overwrite data offset bytes)) →
      (∀ q, ¬path <+: q → t.entryAt q = s.entryAt q) → R t ∧ Q (.ok ()) t) :
    (writeFile path offset bytes).Sat F s R Q := by
  have hparent := entryAt_dropLast hne (by simp [h] : s.entryAt path ≠ none)
  obtain ⟨hRt, hQt⟩ := hok (s.setAt path (some (.file (overwrite data offset bytes))))
    (by simpa [Node.entry] using
      entryAt_setAt hne hparent (some (.file (overwrite data offset bytes))) [])
    (fun q hq => Node.entryAt_setAt_of_not_prefix _ hq)
  exact Proc.sat_atomic (by simpa [h] using hRt) (by simpa [h] using hQt) fun e he => ⟨hR, herror e he⟩

/-- What a listing of a directory holds: each name with an entry once, with its kind. -/
structure Listing (path : Path) (s : Tree) (entries : List DirectoryEntry) : Prop where
  nodup : (entries.map (·.name)).Nodup
  mem_iff : ∀ name, name ∈ entries.map (·.name) ↔ s.entryAt (path ++ [name]) ≠ none
  kind : ∀ ent ∈ entries, ∃ e, s.entryAt (path ++ [ent.name]) = some e ∧ ent.kind = listedKind e

/-- Names that have an entry are all listed. -/
lemma map_name_filterMap {l : List Name} (h : ∀ name ∈ l, s.entryAt (path ++ [name]) ≠ none) :
    ((l.filterMap fun name => (s.entryAt (path ++ [name])).map fun e =>
      (⟨name, listedKind e⟩ : DirectoryEntry)).map (·.name)) = l := by
  induction l with
  | nil => rfl
  | cons name l ih =>
    obtain ⟨e, he⟩ := Option.ne_none_iff_exists'.mp (h name (by simp))
    rw [List.filterMap_cons, he, Option.map_some, List.map_cons,
      ih fun name' hname' => h name' (List.mem_cons_of_mem _ hname')]

/-- The listing of a directory in any order of its names. -/
lemma listing_filterMap {es : List (Name × Tree)} {l : List Name}
    (hfind : s.find path = some (.dir es)) (hl : l.Perm (Node.names (.dir es))) :
    Listing path s (l.filterMap fun name =>
      (s.entryAt (path ++ [name])).map fun e => ⟨name, listedKind e⟩) := by
  have hmem : ∀ name, name ∈ l ↔ s.entryAt (path ++ [name]) ≠ none := by
    intro name
    rw [hl.mem_iff, Node.mem_names_iff hfind]
  have hnames := map_name_filterMap fun name hname => (hmem name).mp hname
  refine ⟨?_, ?_, ?_⟩
  · rw [hnames]
    exact hl.nodup_iff.mpr (Node.nodup_names _)
  · intro name
    rw [hnames, hmem]
  · intro ent hent
    obtain ⟨name, -, hname⟩ := List.mem_filterMap.mp hent
    obtain ⟨e, he, rfl⟩ := Option.map_eq_some_iff.mp hname
    exact ⟨e, he, rfl⟩

/-- Listing a directory. -/
lemma sat_listDirectory {readOrder : List Name → List Name} {Q : Except FsError (List DirectoryEntry) → Tree → Prop}
    (horder : ∀ l, (readOrder l).Perm l) (hR : R s)
    (herror : ∀ e, F e ∨ e = .pathNotFound ∧ s.entryAt path ≠ some .dir → Q (.error e) s)
    (hok : ∀ entries, s.entryAt path = some .dir → Listing path s entries → Q (.ok entries) s) :
    (listDirectory readOrder path).Sat F s R Q := by
  have hfault : ∀ e, F e → R s ∧ Q (.error e) s := fun e he => ⟨hR, herror e (.inl he)⟩
  have hmissing : s.entryAt path ≠ some .dir → Q (.error .pathNotFound) s := fun hentry =>
    herror .pathNotFound (.inr ⟨rfl, hentry⟩)
  cases hfind : s.find path with
  | none =>
    refine Proc.sat_atomic (by simpa [hfind] using hR) ?_ hfault
    simpa [hfind] using hmissing (by simp [Node.entryAt, hfind])
  | some n =>
    cases n with
    | file data =>
      refine Proc.sat_atomic (by simpa [hfind] using hR) ?_ hfault
      simpa [hfind] using hmissing (by simp [Node.entryAt, hfind, Node.entry])
    | dir es =>
      refine Proc.sat_atomic (by simpa [hfind] using hR) ?_ hfault
      simp only [hfind]
      exact hok _ (by simp [Node.entryAt, hfind, Node.entry])
        (listing_filterMap hfind (horder _))

end Entries

end RajNX.FsMitm
