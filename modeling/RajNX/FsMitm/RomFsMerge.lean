import RajNX.FsMitm.RomFsInfos

/-!
# Merging the sources of a RomFS

What the context holds after the sources are merged: for each path the file that the first source has which
names it. Every directory is there before what is in it, and the counts and table sizes are those of the
entries.
-/

namespace RajNX.FsMitm.RomFs

lemma strcmpKey_inj {a b : RomPath} : strcmpKey a = strcmpKey b ↔ a = b :=
  (List.map_injective_iff.mpr fun _ _ => UInt8.toNat_inj.mp).eq_iff

/-- A visit of a file, as the context that it is given. -/
def visitFile (source : RomFSDataSource) : Visit → Option RomFSBuildFileContext
  | .directory _ _ => none
  | .file parent name size origOffset => some (visitedFile source parent name size origOffset)

/-- The files that a walk comes upon. -/
def visitFiles (source : RomFSDataSource) (visits : List Visit) : List RomFSBuildFileContext :=
  visits.filterMap (visitFile source)

/-- The first file with a path. -/
def firstFile (files : List RomFSBuildFileContext) (path : RomPath) : Option RomFSBuildFileContext :=
  files.find? (·.path = path)

/-- A walk comes upon a directory before it comes upon what is in it. -/
def WalkFrom (known : List RomPath) : List Visit → Prop
  | [] => True
  | .directory parent name :: visits => parent ∈ known ∧ WalkFrom (childPath parent name :: known) visits
  | .file parent _ _ _ :: visits => parent ∈ known ∧ WalkFrom known visits

/-- The bytes of the directories in their table. -/
def dirTableBytes (directories : List RomFSBuildDirectoryContext) : Nat :=
  (directories.map fun d => dirEntrySize d.name).sum

/-- A path is the one of a directory. -/
def HasDirectory (ctx : RomFSBuildContext) (path : RomPath) : Prop :=
  ∃ d ∈ ctx.directories.entries, d.path = path

/-- What holds of a context while sources are merged. -/
structure Merging (ctx : RomFSBuildContext) : Prop where
  numDirs : ctx.numDirs = ctx.directories.entries.length
  numFiles : ctx.numFiles = ctx.files.entries.length
  dirTableSize : ctx.dirTableSize = dirTableBytes ctx.directories.entries
  fileTableSize : ctx.fileTableSize = fileTableBytes ctx.files.entries
  root : .root ∈ ctx.directories.entries
  parents : ∀ d ∈ ctx.directories.entries, ∀ parent name, d.place = some (parent, name) → HasDirectory ctx parent
  fileParents : ∀ f ∈ ctx.files.entries, HasDirectory ctx f.parent
  unplaced : ∀ f ∈ ctx.files.entries, f.unplaced = f
  unplacedDirs : ∀ d ∈ ctx.directories.entries, d.entryOffset = 0

section Merge

variable {ctx : RomFSBuildContext} {source : RomFSDataSource} {parent : RomPath} {name : EntryName}

/-- A directory that is there, or becomes it. -/
lemma addDirectory_cases (ctx : RomFSBuildContext) (parent : RomPath) (name : EntryName) :
    (∃ d ∈ ctx.directories.entries, d.path = childPath parent name ∧ (addDirectory ctx parent name).2 = ctx) ∨
      ctx.directories.find (strcmpKey (childPath parent name)) = none ∧
        (addDirectory ctx parent name).2 = { ctx with
          numDirs := ctx.numDirs + 1
          dirTableSize := ctx.dirTableSize + dirEntrySize name.bytes
          directories := ctx.directories.insert ⟨some (parent, name), 0⟩ } := by
  cases hfind : ctx.directories.find (strcmpKey (childPath parent name)) with
  | some d =>
    obtain ⟨hd, hkey⟩ := OrderedMap.find_eq_some.mp hfind
    refine Or.inl ⟨d, hd, strcmpKey_inj.mp hkey, ?_⟩
    rw [addDirectory, hfind]
  | none =>
    refine Or.inr ⟨rfl, ?_⟩
    rw [addDirectory, hfind]

lemma addFile_cases (ctx : RomFSBuildContext) (file : RomFSBuildFileContext) :
    (∃ f ∈ ctx.files.entries, f.path = file.path ∧ (addFile ctx file).2 = ctx) ∨
      ctx.files.find (strcmpKey file.path) = none ∧
        (addFile ctx file).2 = { ctx with
          numFiles := ctx.numFiles + 1
          fileTableSize := ctx.fileTableSize + fileEntrySize file.name.bytes
          files := ctx.files.insert file } := by
  cases hfind : ctx.files.find (strcmpKey file.path) with
  | some f =>
    obtain ⟨hf, hkey⟩ := OrderedMap.find_eq_some.mp hfind
    refine Or.inl ⟨f, hf, strcmpKey_inj.mp hkey, ?_⟩
    rw [addFile, hfind]
  | none =>
    refine Or.inr ⟨rfl, ?_⟩
    rw [addFile, hfind]

lemma HasDirectory.mono {ctx' : RomFSBuildContext} {path : RomPath} (h : HasDirectory ctx path)
    (hsub : ∀ d ∈ ctx.directories.entries, d ∈ ctx'.directories.entries) : HasDirectory ctx' path := by
  obtain ⟨d, hd, hpath⟩ := h
  exact ⟨d, hsub d hd, hpath⟩

/-- The context with the root only. -/
lemma merging_newContext : Merging newContext := by
  have hroot : ∀ d ∈ newContext.directories.entries, d = .root := fun d hd => List.mem_singleton.mp hd
  refine ⟨rfl, rfl, rfl, rfl, List.mem_singleton_self _, ?_, ?_, ?_, ?_⟩
  · intro d hd parent name hplace
    rw [hroot d hd] at hplace
    cases hplace
  · intro f hf
    cases hf
  · intro f hf
    cases hf
  · intro d hd
    rw [hroot d hd]
    rfl

/-- A directory is there after it is added, and what was there before. -/
lemma addDirectory_mem (ctx : RomFSBuildContext) (parent : RomPath) (name : EntryName) :
    HasDirectory (addDirectory ctx parent name).2 (childPath parent name) ∧
      ∀ d ∈ ctx.directories.entries, d ∈ (addDirectory ctx parent name).2.directories.entries := by
  obtain ⟨d, hd, hpath, heq⟩ | ⟨hfind, heq⟩ := addDirectory_cases ctx parent name
  · rw [heq]
    exact ⟨⟨d, hd, hpath⟩, fun d hd => hd⟩
  · rw [heq]
    have hperm := OrderedMap.insert_perm (v := RomFSBuildDirectoryContext.mk (some (parent, name)) 0) hfind
    constructor
    · exact ⟨_, hperm.mem_iff.mpr List.mem_cons_self, rfl⟩
    · intro d hd
      exact hperm.mem_iff.mpr (List.mem_cons_of_mem _ hd)

/-- What is added to a context whose directories contain its parent. -/
lemma Merging.addDirectory (h : Merging ctx) (hparent : HasDirectory ctx parent) (name : EntryName) :
    Merging (addDirectory ctx parent name).2 := by
  obtain ⟨-, hmem⟩ := addDirectory_mem ctx parent name
  obtain ⟨d, hd, hpath, heq⟩ | ⟨hfind, heq⟩ := addDirectory_cases ctx parent name
  · rw [heq]
    exact h
  · rw [heq] at hmem ⊢
    have hperm := OrderedMap.insert_perm (v := RomFSBuildDirectoryContext.mk (some (parent, name)) 0) hfind
    refine ⟨?_, h.numFiles, ?_, h.fileTableSize, hmem _ h.root, ?_, ?_, h.unplaced, ?_⟩
    · dsimp only
      rw [hperm.length_eq, List.length_cons, h.numDirs]
    · dsimp only
      rw [dirTableBytes, (hperm.map _).sum_eq, List.map_cons, List.sum_cons, h.dirTableSize, Nat.add_comm]
      rfl
    · intro d hd parent' name' hplace
      cases List.mem_cons.mp (hperm.mem_iff.mp hd) with
      | inl hnew =>
        rw [hnew] at hplace
        cases hplace
        exact hparent.mono hmem
      | inr hold => exact (h.parents d hold parent' name' hplace).mono hmem
    · intro f hf
      exact (h.fileParents f hf).mono hmem
    · intro d hd
      cases List.mem_cons.mp (hperm.mem_iff.mp hd) with
      | inl hnew => rw [hnew]
      | inr hold => exact h.unplacedDirs d hold

lemma Merging.addFile {file : RomFSBuildFileContext} (h : Merging ctx) (hparent : HasDirectory ctx file.parent)
    (hunplaced : file.unplaced = file) : Merging (addFile ctx file).2 := by
  obtain ⟨f, hf, hpath, heq⟩ | ⟨hfind, heq⟩ := addFile_cases ctx file
  · rw [heq]
    exact h
  · rw [heq]
    have hperm := OrderedMap.insert_perm (v := file) hfind
    refine ⟨h.numDirs, ?_, h.dirTableSize, ?_, h.root, h.parents, ?_, ?_, h.unplacedDirs⟩
    · dsimp only
      rw [hperm.length_eq, List.length_cons, h.numFiles]
    · dsimp only
      rw [fileTableBytes, (hperm.map _).sum_eq, List.map_cons, List.sum_cons, h.fileTableSize, Nat.add_comm]
      rfl
    · intro f hf
      cases List.mem_cons.mp (hperm.mem_iff.mp hf) with
      | inl hnew =>
        rw [hnew]
        exact hparent
      | inr hold => exact h.fileParents f hold
    · intro f hf
      cases List.mem_cons.mp (hperm.mem_iff.mp hf) with
      | inl hnew =>
        rw [hnew]
        exact hunplaced
      | inr hold => exact h.unplaced f hold

/-- A file does not change the directories. -/
lemma addFile_directories (ctx : RomFSBuildContext) (file : RomFSBuildFileContext) :
    (addFile ctx file).2.directories = ctx.directories := by
  obtain ⟨f, hf, hpath, heq⟩ | ⟨hfind, heq⟩ := addFile_cases ctx file
  · rw [heq]
  · rw [heq]

/-- A walk merges a source. -/
lemma Merging.mergeSource {visits : List Visit} {known : List RomPath} (h : Merging ctx)
    (hknown : ∀ path ∈ known, HasDirectory ctx path) (hwalk : WalkFrom known visits)
    (source : RomFSDataSource) : Merging (mergeSource source visits ctx) := by
  induction visits generalizing ctx known with
  | nil => exact h
  | cons visit visits ih =>
    cases visit with
    | directory parent name =>
      obtain ⟨hparent, hrest⟩ := hwalk
      obtain ⟨hnew, hmem⟩ := addDirectory_mem ctx parent name
      apply ih (h.addDirectory (hknown parent hparent) name) _ hrest
      intro path hpath
      cases List.mem_cons.mp hpath with
      | inl heq =>
        rw [heq]
        exact hnew
      | inr hold => exact (hknown path hold).mono hmem
    | file parent name size origOffset =>
      obtain ⟨hparent, hrest⟩ := hwalk
      have hadded : Merging (RomFs.addFile ctx (visitedFile source parent name size origOffset)).2 :=
        h.addFile (hknown parent hparent) rfl
      apply ih hadded _ hrest
      intro path hpath
      apply (hknown path hpath).mono
      intro d hd
      rw [addFile_directories]
      exact hd

/-- The file of a path: the one that is there, or a new one of that path. -/
lemma find_addFile (ctx : RomFSBuildContext) (file : RomFSBuildFileContext) (path : RomPath) :
    (addFile ctx file).2.files.find (strcmpKey path) =
      (ctx.files.find (strcmpKey path)).or (firstFile [file] path) := by
  have hfirst : firstFile [file] path = if file.path = path then some file else none := by
    simp [firstFile, List.find?_singleton]
  obtain ⟨f, hf, hpath, heq⟩ | ⟨hfind, heq⟩ := addFile_cases ctx file
  · rw [heq]
    by_cases hsame : file.path = path
    · rw [OrderedMap.find_eq_some.mpr ⟨hf, congrArg strcmpKey (hpath.trans hsame)⟩, Option.some_or]
    · rw [hfirst, if_neg hsame, Option.or_none]
  · rw [heq]
    dsimp only
    rw [OrderedMap.find_insert hfind, hfirst]
    by_cases hsame : file.path = path
    · rw [if_pos (congrArg strcmpKey hsame.symm), if_pos hsame, ← hsame, hfind, Option.none_or]
    · rw [if_neg fun hkey => hsame (strcmpKey_inj.mp hkey).symm, if_neg hsame, Option.or_none]

lemma firstFile_cons (f : RomFSBuildFileContext) (files : List RomFSBuildFileContext) (path : RomPath) :
    firstFile (f :: files) path = (firstFile [f] path).or (firstFile files path) := by
  rw [firstFile, firstFile, firstFile, ← List.singleton_append, List.find?_append]

/-- The files of a context keep their paths when a source is merged, which only adds those it names first. -/
lemma find_mergeSource (source : RomFSDataSource) (visits : List Visit) (ctx : RomFSBuildContext) (path : RomPath) :
    (mergeSource source visits ctx).files.find (strcmpKey path) =
      (ctx.files.find (strcmpKey path)).or (firstFile (visitFiles source visits) path) := by
  induction visits generalizing ctx with
  | nil => exact (Option.or_none).symm
  | cons visit visits ih =>
    rw [RomFs.mergeSource, List.foldl_cons]
    refine (ih _).trans ?_
    cases visit with
    | directory parent name =>
      obtain ⟨d, hd, hpath, heq⟩ | ⟨hfind, heq⟩ := addDirectory_cases ctx parent name
      · rw [addVisit, heq]
        rfl
      · rw [addVisit, heq]
        rfl
    | file parent name size origOffset =>
      have hvisit : visitFiles source (.file parent name size origOffset :: visits) =
          visitedFile source parent name size origOffset :: visitFiles source visits := rfl
      rw [addVisit, find_addFile, hvisit, Option.or_assoc, ← firstFile_cons]

end Merge

/-- A RomFS storage: its bytes, and what the walk of its tables comes upon. -/
structure RomStorage where
  bytes : List UInt8
  visits : List Visit

/-- What `LayeredRomFS` is made from: the walk of the SD card and its files, and the two storages. -/
structure LayeredSources where
  sdVisits : List Visit
  looseFiles : RomPath → Option (List UInt8)
  fileRomfs : Option RomStorage
  storageRomfs : Option RomStorage

/-- `MergeRomStorage` for a storage that may be absent -/
def mergeRomStorage (source : RomFSDataSource) (storage : Option RomStorage) (ctx : RomFSBuildContext) :
    RomFSBuildContext :=
  match storage with
  | none => ctx
  | some storage => mergeSource source storage.visits ctx

namespace LayeredSources

/-- The context that `LayeredRomFS` builds from. -/
def merged (sources : LayeredSources) : RomFSBuildContext :=
  mergeRomStorage .baseRomFS sources.storageRomfs
    (mergeRomStorage .fileRomFS sources.fileRomfs (mergeSource .looseFile sources.sdVisits newContext))

/-- The files of a storage -/
def romFiles (source : RomFSDataSource) (storage : Option RomStorage) : List RomFSBuildFileContext :=
  visitFiles source (storage.elim [] (·.visits))

/-- The file that a path has in the first source to name it. -/
def winner (sources : LayeredSources) (path : RomPath) : Option RomFSBuildFileContext :=
  ((firstFile (visitFiles .looseFile sources.sdVisits) path).or
    (firstFile (romFiles .fileRomFS sources.fileRomfs) path)).or
    (firstFile (romFiles .baseRomFS sources.storageRomfs) path)

end LayeredSources

lemma mergeRomStorage_eq (source : RomFSDataSource) (storage : Option RomStorage) (ctx : RomFSBuildContext) :
    mergeRomStorage source storage ctx = mergeSource source (storage.elim [] (·.visits)) ctx := by
  cases storage with
  | none => rfl
  | some storage => rfl

/-- What is asked of a RomFS storage: its walk, and that its files are inside of it, aligned and in the order
of their paths. -/
structure RomStorage.WellFormed (source : RomFSDataSource) (storage : RomStorage) : Prop where
  walk : WalkFrom [[]] storage.visits
  inside : ∀ f ∈ visitFiles source storage.visits, romfsFilePartitionOfs + f.origOffset + f.size ≤ storage.bytes.length
  aligned : ∀ f ∈ visitFiles source storage.visits, f.origOffset % 16 = 0
  ordered : ∀ f ∈ visitFiles source storage.visits, ∀ g ∈ visitFiles source storage.visits,
    strcmpKey f.path < strcmpKey g.path → alignUp (f.origOffset + f.size) 16 ≤ g.origOffset

/-- Every source is walked from the root. -/
structure LayeredSources.Walks (sources : LayeredSources) : Prop where
  sd : WalkFrom [[]] sources.sdVisits
  fileRomfs : ∀ storage ∈ sources.fileRomfs, WalkFrom [[]] storage.visits
  storageRomfs : ∀ storage ∈ sources.storageRomfs, WalkFrom [[]] storage.visits

/-- The bytes of all sources, with those of loose files that lose against an earlier one of the same path. -/
def LayeredSources.totalBytes (sources : LayeredSources) : Nat :=
  ((visitFiles .looseFile sources.sdVisits).map (·.size)).sum +
    sources.fileRomfs.elim 0 (·.bytes.length) + sources.storageRomfs.elim 0 (·.bytes.length)

/-- Sources as they are on a console: the sizes of files and storages are signed numbers of 64 bits, and so is
their sum; the tables of the merged RomFS have offsets of 32 bits. -/
structure LayeredSources.WellFormed (sources : LayeredSources) : Prop where
  sdWalk : WalkFrom [[]] sources.sdVisits
  loose : ∀ f ∈ visitFiles .looseFile sources.sdVisits,
    ∃ bytes, sources.looseFiles f.path = some bytes ∧ bytes.length = f.size
  fileRomfs : ∀ storage ∈ sources.fileRomfs, storage.WellFormed .fileRomFS
  storageRomfs : ∀ storage ∈ sources.storageRomfs, storage.WellFormed .baseRomFS
  total : sources.totalBytes < 2 ^ 63
  dirTable : sources.merged.dirTableSize < 2 ^ 32
  fileTable : sources.merged.fileTableSize < 2 ^ 32

section Merged

variable {sources : LayeredSources}

/-- For each path, the context holds the file of the first source to name it. -/
lemma LayeredSources.find_merged (sources : LayeredSources) (path : RomPath) :
    sources.merged.files.find (strcmpKey path) = sources.winner path := by
  have hempty : newContext.files.find (strcmpKey path) = none := rfl
  rw [LayeredSources.merged, mergeRomStorage_eq, mergeRomStorage_eq, find_mergeSource, find_mergeSource,
    find_mergeSource, hempty, Option.none_or]
  rfl

variable {f : RomFSBuildFileContext}

lemma LayeredSources.mem_merged : f ∈ sources.merged.files.entries ↔ sources.winner f.path = some f := by
  rw [← sources.find_merged, OrderedMap.find_eq_some]
  exact (and_iff_left rfl).symm

lemma mem_of_firstFile {files : List RomFSBuildFileContext} {path : RomPath}
    (h : firstFile files path = some f) : f ∈ files := List.mem_of_find?_eq_some h

variable {source : RomFSDataSource}

/-- The files of a walk are from its source. -/
lemma source_of_visitFiles {visits : List Visit} (h : f ∈ visitFiles source visits) : f.source = source := by
  obtain ⟨visit, -, hvisit⟩ := List.mem_filterMap.mp h
  cases visit with
  | directory parent name => cases hvisit
  | file parent name size origOffset =>
    cases hvisit
    rfl

/-- The files of a storage that is there. -/
lemma mem_romFiles {storage : Option RomStorage}
    (h : f ∈ LayeredSources.romFiles source storage) : ∃ s ∈ storage, f ∈ visitFiles source s.visits := by
  cases storage with
  | none => cases h
  | some s => exact ⟨s, rfl, h⟩

/-- Where a merged file is from. -/
inductive LayeredSources.IsFrom (sources : LayeredSources) (f : RomFSBuildFileContext) : Prop
  | loose : f.source = .looseFile → f ∈ visitFiles .looseFile sources.sdVisits → IsFrom sources f
  | file {storage} : f.source = .fileRomFS → storage ∈ sources.fileRomfs →
      f ∈ visitFiles .fileRomFS storage.visits → IsFrom sources f
  | base {storage} : f.source = .baseRomFS → storage ∈ sources.storageRomfs →
      f ∈ visitFiles .baseRomFS storage.visits → IsFrom sources f

lemma LayeredSources.isFrom_of_winner {path : RomPath} (h : sources.winner path = some f) : sources.IsFrom f := by
  cases Option.or_eq_some_iff.mp h with
  | inl hfirst =>
    cases Option.or_eq_some_iff.mp hfirst with
    | inl hloose =>
      have hmem := mem_of_firstFile hloose
      exact .loose (source_of_visitFiles hmem) hmem
    | inr hfile =>
      obtain ⟨storage, hstorage, hmem⟩ := mem_romFiles (mem_of_firstFile hfile.2)
      exact .file (source_of_visitFiles hmem) hstorage hmem
  | inr hbase =>
    obtain ⟨storage, hstorage, hmem⟩ := mem_romFiles (mem_of_firstFile hbase.2)
    exact .base (source_of_visitFiles hmem) hstorage hmem

lemma LayeredSources.isFrom_of_mem (h : f ∈ sources.merged.files.entries) :
    sources.IsFrom f := isFrom_of_winner (mem_merged.mp h)

/-- A storage that is merged may be absent. -/
lemma Merging.mergeRomStorage {ctx : RomFSBuildContext} (h : Merging ctx)
    {storage : Option RomStorage} (hwalk : ∀ s ∈ storage, WalkFrom [[]] s.visits) :
    Merging (mergeRomStorage source storage ctx) := by
  cases storage with
  | none => exact h
  | some s =>
    apply h.mergeSource _ (hwalk s rfl)
    intro path hpath
    rw [List.mem_singleton.mp hpath]
    exact ⟨.root, h.root, rfl⟩

lemma LayeredSources.Walks.merging (h : sources.Walks) : Merging sources.merged := by
  apply Merging.mergeRomStorage _ h.storageRomfs
  apply Merging.mergeRomStorage _ h.fileRomfs
  apply merging_newContext.mergeSource _ h.sd
  intro path hpath
  rw [List.mem_singleton.mp hpath]
  exact ⟨.root, merging_newContext.root, rfl⟩

lemma LayeredSources.IsFrom.isMerged (h : sources.IsFrom f) : IsMerged f := by
  cases h with
  | loose hsource => exact Or.inr hsource
  | file hsource => exact Or.inl (Or.inr hsource)
  | base hsource => exact Or.inl (Or.inl hsource)

/-- A loose file is in no RomFS. -/
lemma not_isRom_looseFile : ¬IsRom .looseFile := by
  intro h
  cases h with
  | inl h => cases h
  | inr h => cases h

/-- The lengths of the storages -/
def LayeredSources.romLength (sources : LayeredSources) : RomFSDataSource → Nat
  | .baseRomFS => sources.storageRomfs.elim 0 (·.bytes.length)
  | .fileRomFS => sources.fileRomfs.elim 0 (·.bytes.length)
  | _ => 0

/-- The merged loose files are among those on the SD card. -/
lemma LayeredSources.looseBytes_le (sources : LayeredSources) :
    looseBytes sources.merged.files.entries ≤
      ((visitFiles .looseFile sources.sdVisits).map (·.size)).sum := by
  have hsub : sources.merged.files.entries.filter (fun f => ¬IsRom f.source) ⊆
      visitFiles .looseFile sources.sdVisits := by
    intro f hf
    obtain ⟨hmem, hrom⟩ := List.mem_filter.mp hf
    rw [decide_eq_true_eq] at hrom
    cases isFrom_of_mem hmem with
    | loose hsource hloose => exact hloose
    | file hsource => exact absurd (Or.inr hsource) hrom
    | base hsource => exact absurd (Or.inl hsource) hrom
  obtain ⟨l, hperm, hsublist⟩ := (sources.merged.files.nodup.filter _).subperm hsub
  rw [looseBytes, ← (hperm.map _).sum_eq]
  exact (hsublist.map _).sum_le_sum fun _ _ => Nat.zero_le _

/-- There are fewer files than bytes in their table. -/
lemma length_le_fileTableBytes (files : List RomFSBuildFileContext) : 32 * files.length ≤ fileTableBytes files := by
  induction files with
  | nil => exact le_rfl
  | cons f files ih =>
    rw [fileTableBytes, List.map_cons, List.sum_cons, List.length_cons, fileEntrySize]
    rw [fileTableBytes] at ih
    omega

variable (h : sources.WellFormed)

include h

lemma LayeredSources.WellFormed.merging : Merging sources.merged := by
  apply Walks.merging
  exact ⟨h.sdWalk, fun s hs => (h.fileRomfs s hs).walk, fun s hs => (h.storageRomfs s hs).walk⟩

/-- The merged files of one RomFS are in the order in which they lie there. -/
lemma LayeredSources.WellFormed.romOrdered : RomOrdered sources.merged.files.entries := by
  constructor
  · apply sources.merged.files.sorted.imp_of_mem
    intro f g hf hg hlt hsame hrom
    cases isFrom_of_mem hf with
    | loose hsource =>
      rw [hsource] at hrom
      exact absurd hrom not_isRom_looseFile
    | file hsource hstorage hmem =>
      cases isFrom_of_mem hg with
      | loose hsource' => cases hsource.symm.trans (hsame.trans hsource')
      | file hsource' hstorage' hmem' =>
        cases Option.mem_unique hstorage hstorage'
        exact (h.fileRomfs _ hstorage).ordered f hmem g hmem' hlt
      | base hsource' => cases hsource.symm.trans (hsame.trans hsource')
    | base hsource hstorage hmem =>
      cases isFrom_of_mem hg with
      | loose hsource' | file hsource' => cases hsource.symm.trans (hsame.trans hsource')
      | base hsource' hstorage' hmem' =>
        cases Option.mem_unique hstorage hstorage'
        exact (h.storageRomfs _ hstorage).ordered f hmem g hmem' hlt
  · intro f hf hrom
    cases isFrom_of_mem hf with
    | loose hsource =>
      rw [hsource] at hrom
      exact absurd hrom not_isRom_looseFile
    | file hsource hstorage hmem => exact (h.fileRomfs _ hstorage).aligned f hmem
    | base hsource hstorage hmem => exact (h.storageRomfs _ hstorage).aligned f hmem

/-- The merged files of a RomFS are inside of their storage. -/
lemma LayeredSources.WellFormed.inside {f : RomFSBuildFileContext}
    (hf : sources.IsFrom f) (hrom : IsRom f.source) :
    romfsFilePartitionOfs + f.origOffset + f.size ≤ sources.romLength f.source := by
  cases hf with
  | loose hsource =>
    rw [hsource] at hrom
    exact absurd hrom not_isRom_looseFile
  | file hsource hstorage hmem =>
    rw [hsource, romLength, Option.mem_def.mp hstorage, Option.elim_some]
    exact (h.fileRomfs _ hstorage).inside f hmem
  | base hsource hstorage hmem =>
    rw [hsource, romLength, Option.mem_def.mp hstorage, Option.elim_some]
    exact (h.storageRomfs _ hstorage).inside f hmem

lemma LayeredSources.WellFormed.romLeft :
    RomLeft (fun _ => 0) sources.romLength none sources.merged.files.entries := by
  refine ⟨fun f _ _ => Nat.zero_le _, fun f hf hrom => ?_, fun source => Nat.zero_le _, fun p hp => ?_⟩
  · have hinside := h.inside (isFrom_of_mem hf) hrom
    omega
  · cases hp

lemma LayeredSources.WellFormed.placing : Placing 0 none sources.merged.files.entries := by
  refine ⟨h.romOrdered, fun p hp => ?_, fun p hp => ?_⟩
  · cases hp
  · cases hp

/-- The file partition fits in 64 bits, with room for the tables. -/
lemma LayeredSources.WellFormed.partitionEnd_lt :
    partitionEnd 0 (placeFiles 0 0 none sources.merged.files.entries) < 2 ^ 63 + 2 ^ 32 := by
  have hle := h.placing.partitionEnd_le (e := 0) h.romLeft
  have hloose := sources.looseBytes_le
  have htotal := h.total
  have htable := h.fileTable
  have hlength := length_le_fileTableBytes sources.merged.files.entries
  rw [h.merging.fileTableSize] at htable
  have hsum : romSum sources.romLength =
    sources.storageRomfs.elim 0 (·.bytes.length) + sources.fileRomfs.elim 0 (·.bytes.length) := rfl
  rw [LayeredSources.totalBytes] at htotal
  omega

end Merged

end RajNX.FsMitm.RomFs
