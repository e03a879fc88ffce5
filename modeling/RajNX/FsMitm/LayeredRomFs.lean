import RajNX.FsMitm.RomFsTables

/-!
# The files of a layered RomFS

`LayeredRomFS` over the image that `Build` lays out from the SD card and the two storages: for each path the
reads of the image give the bytes of the first source that names it.
-/

namespace RajNX.FsMitm.RomFs

open Splice LittleEndian RecordTable

/-- What a read of the image comes upon. The metadata is what `Build` has saved. -/
def LayeredSources.stores (sources : LayeredSources) (built : BuiltRomFS) : RomFSStores where
  looseFiles := sources.looseFiles
  metadataFile := some (metadataBytes built.dirs built.fileTables)
  storageRomfs := sources.storageRomfs.map (·.bytes)
  fileRomfs := sources.fileRomfs.map (·.bytes)

/-- A byte of a file in the source that it is from. -/
def LayeredSources.fileByte (sources : LayeredSources) (f : RomFSBuildFileContext) (i : Nat) : Option UInt8 :=
  match f.source with
  | .looseFile => (sources.looseFiles f.path).bind fun bytes => bytes[i]?
  | .fileRomFS => sources.fileRomfs.bind fun s => s.bytes[romfsFilePartitionOfs + f.origOffset + i]?
  | .baseRomFS => sources.storageRomfs.bind fun s => s.bytes[romfsFilePartitionOfs + f.origOffset + i]?
  | _ => none

/-- No file ends behind the partition. -/
lemma le_partitionEnd_of_mem {s : Nat} {files : List RomFSBuildFileContext} (h : List.IsChain Follows files)
    {f : RomFSBuildFileContext} (hf : f ∈ files) : f.offset + f.size ≤ partitionEnd s files := by
  induction files generalizing s f with
  | nil => cases hf
  | cons a files ih =>
    rw [partitionEnd_cons]
    cases files with
    | nil =>
      rw [List.mem_singleton.mp hf]
      exact le_rfl
    | cons b files =>
      obtain ⟨hfollows, hrest⟩ := List.isChain_cons_cons.mp h
      cases List.mem_cons.mp hf with
      | inr hmem => exact ih hrest hmem
      | inl heq =>
        have hb := ih (s := a.offset + a.size) hrest List.mem_cons_self
        have hle := hfollows.le
        rw [heq]
        omega

lemma readExactly_isSome {size offset : Nat} {bytes : List UInt8} (h : offset + size ≤ bytes.length) :
    readExactly size offset bytes = some (slice bytes offset size) := if_pos h

lemma RomFSHeader.length_bytes (h : RomFSHeader) : h.bytes.length = 0x50 := by
  simp [RomFSHeader.bytes]

lemma length_flatMap_leBytes (l : List Nat) : (l.flatMap (leBytes 4)).length = 4 * l.length := by
  induction l with
  | nil => rfl
  | cons v l ih =>
    rw [List.flatMap_cons, List.length_append, ih, length_leBytes, List.length_cons]
    omega

lemma hashTableCountLoop_le (fuel count : Nat) : hashTableCountLoop fuel count ≤ count + fuel := by
  induction fuel generalizing count with
  | zero => exact le_rfl
  | succ fuel ih =>
    have hrest := ih (count + 1)
    rw [hashTableCountLoop]
    split <;> omega

/-- A hash table has not many more buckets than entries. -/
lemma romfsGetHashTableCount_le (n : Nat) : romfsGetHashTableCount n ≤ n + 2 ^ 20 := by
  rw [romfsGetHashTableCount]
  split_ifs with h3 h19
  · omega
  · have hor : n ||| 1 < 2 ^ 5 := Nat.or_lt_two_pow (by omega) (by norm_num)
    omega
  · have hloop := hashTableCountLoop_le 510510 n
    omega

lemma getElem?_of_readExactly {size start k : Nat} {bytes all : List UInt8}
    (h : readExactly size start bytes = some all) (hk : k < size) : all[k]? = bytes[start + k]? := by
  rw [readExactly] at h
  split at h
  · cases h
    rw [getElem?_slice, if_pos hk]
  · cases h

section Served

variable {sources : LayeredSources} {built : BuiltRomFS} {info : RomFSSourceInfo} {f : RomFSBuildFileContext}
  {storage : RomStorage} {o : Nat}

lemma contents_base (hstorage : storage ∈ sources.storageRomfs) (hsource : info.source = .base o)
    (hbounds : o < 2 ^ 64) : info.contents (sources.stores built) = readExactly info.size o storage.bytes := by
  have hbytes : (sources.stores built).storageRomfs = some storage.bytes := by
    rw [LayeredSources.stores, Option.mem_def.mp hstorage]
    rfl
  rw [RomFSSourceInfo.contents, hsource, readSource, hbytes, Option.bind_some, Nat.add_zero, Nat.mod_eq_of_lt hbounds]

lemma contents_file (hstorage : storage ∈ sources.fileRomfs) (hsource : info.source = .file o) (hbounds : o < 2 ^ 64) :
    info.contents (sources.stores built) = readExactly info.size o storage.bytes := by
  have hbytes : (sources.stores built).fileRomfs = some storage.bytes := by
    rw [LayeredSources.stores, Option.mem_def.mp hstorage]
    rfl
  rw [RomFSSourceInfo.contents, hsource, readSource, hbytes, Option.bind_some, Nat.add_zero, Nat.mod_eq_of_lt hbounds]

/-- A storage is of less than 64 bits. -/
lemma LayeredSources.WellFormed.romLength_lt (h : sources.WellFormed) (source : RomFSDataSource) :
    sources.romLength source < 2 ^ 63 := by
  have htotal := h.total
  rw [totalBytes] at htotal
  cases source with
  | baseRomFS =>
    rw [romLength]
    omega
  | fileRomFS =>
    rw [romLength]
    omega
  | looseFile => exact Nat.two_pow_pos 63
  | metaData => exact Nat.two_pow_pos 63
  | memory => exact Nat.two_pow_pos 63

/-- What serves a file reads bytes of its source, in which the file starts at some place. -/
lemma LayeredSources.WellFormed.exists_source (h : sources.WellFormed) (hf : sources.IsFrom f.unplaced)
    (hserves : ServesFile info f) (built : BuiltRomFS) :
    ∃ bytes first start, info.contents (sources.stores built) = readExactly info.size first bytes ∧
      start = first + (romfsFilePartitionOfs + f.offset - info.virtualOffset) ∧ start + f.size ≤ bytes.length ∧
      (first + info.size ≤ bytes.length → info.InBounds) ∧
      ∀ i, sources.fileByte f i = bytes[start + i]? := by
  have hserved := hserves.source
  revert hserved
  generalize romfsFilePartitionOfs + f.offset - info.virtualOffset = distance
  generalize hsource : info.source = source
  intro hserved
  -- a file has the kind of source that the info has: the other kinds of files contradict it
  cases hserved with
  | loose hloose hzero =>
    cases hf with
    | file hother => cases hloose.symm.trans hother
    | base hother => cases hloose.symm.trans hother
    | loose _ hmem =>
      obtain ⟨bytes, hbytes, hlength⟩ := h.loose f.unplaced hmem
      have hstore : (sources.stores built).looseFiles f.path = some bytes := hbytes
      have hfile : sources.looseFiles f.path = some bytes := hbytes
      have hsize : bytes.length = f.size := hlength
      refine ⟨bytes, 0, 0, ?_, by omega, by omega, fun _ => ?_, fun i => ?_⟩
      · rw [RomFSSourceInfo.contents, hsource, readSource, hstore, Option.bind_some]
      · rw [RomFSSourceInfo.InBounds, hsource]
        trivial
      · rw [fileByte, hloose, hfile, Nat.zero_add]
        rfl
  | base hbase heq =>
    have hinside : romfsFilePartitionOfs + f.origOffset + f.size ≤ sources.romLength f.source :=
      h.inside (f := f.unplaced) hf (Or.inl hbase)
    have hlength := h.romLength_lt f.source
    cases hf with
    | loose hother => cases hbase.symm.trans hother
    | file hother => cases hbase.symm.trans hother
    | @base storage _ hstorage _ =>
      rw [hbase, romLength, Option.mem_def.mp hstorage, Option.elim_some] at hinside hlength
      refine ⟨storage.bytes, _, romfsFilePartitionOfs + f.origOffset, contents_base hstorage hsource (by omega),
        by omega, hinside, fun hfits => ?_, fun i => ?_⟩
      · rw [RomFSSourceInfo.InBounds, hsource]
        dsimp only
        omega
      · rw [fileByte, hbase]
        dsimp only
        rw [Option.mem_def.mp hstorage, Option.bind_some]
  | file hfile heq =>
    have hinside : romfsFilePartitionOfs + f.origOffset + f.size ≤ sources.romLength f.source :=
      h.inside (f := f.unplaced) hf (Or.inr hfile)
    have hlength := h.romLength_lt f.source
    cases hf with
    | loose hother => cases hfile.symm.trans hother
    | base hother => cases hfile.symm.trans hother
    | @file storage _ hstorage _ =>
      rw [hfile, romLength, Option.mem_def.mp hstorage, Option.elim_some] at hinside hlength
      refine ⟨storage.bytes, _, romfsFilePartitionOfs + f.origOffset, contents_file hstorage hsource (by omega),
        by omega, hinside, fun hfits => ?_, fun i => ?_⟩
      · rw [RomFSSourceInfo.InBounds, hsource]
        dsimp only
        omega
      · rw [fileByte, hfile]
        dsimp only
        rw [Option.mem_def.mp hstorage, Option.bind_some]

/-- The bytes that an info reads for a file that it serves are those of the file in its source. -/
lemma LayeredSources.WellFormed.contents_of_serves (h : sources.WellFormed) (hf : sources.IsFrom f.unplaced)
    (hserves : ServesFile info f) (built : BuiltRomFS) {all : List UInt8}
    (hall : info.contents (sources.stores built) = some all) {i : Nat} (hi : i < f.size) :
    ∃ b, all[romfsFilePartitionOfs + f.offset + i - info.virtualOffset]? = some b ∧
      sources.fileByte f i = some b := by
  have hoffset := hserves.start_le
  have hend := hserves.end_le
  obtain ⟨bytes, first, start, hcontents, hstart, hlength, -, hbyte⟩ := h.exists_source hf hserves built
  have hread := getElem?_of_readExactly (hcontents.symm.trans hall)
    (show romfsFilePartitionOfs + f.offset + i - info.virtualOffset < info.size by omega)
  have hindex : first + (romfsFilePartitionOfs + f.offset + i - info.virtualOffset) = start + i := by omega
  rw [hread, hbyte, hindex]
  exact ⟨_, List.getElem?_eq_getElem (by omega), List.getElem?_eq_getElem (by omega)⟩

/-- An info that ends with a file has all of its bytes. -/
lemma LayeredSources.WellFormed.served_of_endsWith (h : sources.WellFormed) (hf : sources.IsFrom f.unplaced)
    (hends : EndsWith info f) (built : BuiltRomFS) :
    info.InBounds ∧ ∃ all, info.contents (sources.stores built) = some all := by
  have hoffset := hends.start_le
  have hend := hends.end_eq
  obtain ⟨bytes, first, start, hcontents, hstart, hlength, hbounds, -⟩ :=
    h.exists_source hf hends.toServesFile built
  have hfits : first + info.size ≤ bytes.length := by omega
  rw [hcontents]
  exact ⟨hbounds hfits, _, readExactly_isSome hfits⟩

end Served

/-- The first of the infos, which serves the header. -/
def headerInfo (header : RomFSHeader) : RomFSSourceInfo := ⟨0, 0x50, .memory header.bytes⟩

lemma headerInfo_end (header : RomFSHeader) :
    (headerInfo header).virtualOffset + (headerInfo header).size ≤ romfsFilePartitionOfs := by
  change 0 + 0x50 ≤ 0x200
  decide

section Built

variable {ctx : RomFSBuildContext} {saved : Bool} {partitionSize : Nat} {built : BuiltRomFS}

/-- The tables have the sizes that the header says. -/
lemma BuildsTo.length_tables (h : Merging ctx) (hbuilt : BuildsTo ctx saved partitionSize built) :
    built.dirs.table.length = built.header.dirTableSize ∧
      built.fileTables.table.length = built.header.fileTableSize := by
  have hfiles := hbuilt.fileTable.length_eq fun f entry => IsFileEntry.length_eq
  have hdirs := hbuilt.dirTable.length_eq fun d entry => IsDirEntry.length_eq
  have hfileBytes := fileTableBytes_of_unplaced (assignFileOffsets_unplaced hbuilt.placed)
  have hdirBytes := dirTableBytes_assign ctx.directories.entries
  rw [← hbuilt.directories_eq] at hdirBytes
  rw [hbuilt.header_eq]
  exact ⟨hdirs.trans (hdirBytes.trans h.dirTableSize.symm), hfiles.trans (hfileBytes.trans h.fileTableSize.symm)⟩

lemma BuildsTo.length_metadata (h : Merging ctx) (hbuilt : BuildsTo ctx saved partitionSize built) :
    (metadataBytes built.dirs built.fileTables).length = built.header.dirHashTableSize +
      built.header.dirTableSize + built.header.fileHashTableSize + built.header.fileTableSize := by
  obtain ⟨hdirs, hfiles⟩ := hbuilt.length_tables h
  have hdirHash : built.header.dirHashTableSize = 4 * built.dirs.hashTable.length := by
    rw [hbuilt.header_eq, hbuilt.dirBuckets]
    rfl
  have hfileHash : built.header.fileHashTableSize = 4 * built.fileTables.hashTable.length := by
    rw [hbuilt.header_eq, hbuilt.fileBuckets]
    rfl
  simp only [metadataBytes, List.length_append, length_flatMap_leBytes]
  rw [hdirs, hfiles, hdirHash, hfileHash]

/-- There are fewer directories than bytes in their table. -/
lemma length_le_dirTableBytes (directories : List RomFSBuildDirectoryContext) :
    24 * directories.length ≤ dirTableBytes directories := by
  induction directories with
  | nil => exact le_rfl
  | cons d directories ih =>
    rw [dirTableBytes, List.map_cons, List.sum_cons, List.length_cons, dirEntrySize]
    rw [dirTableBytes] at ih
    omega

/-- The metadata is not empty, and its end is not far behind the file partition. -/
lemma makeHeader_bounds (h : Merging ctx) (hdirs : ctx.dirTableSize < 2 ^ 32)
    (hfiles : ctx.fileTableSize < 2 ^ 32) (hpartition : partitionSize < 2 ^ 63 + 2 ^ 32) :
    romfsFilePartitionOfs + partitionSize ≤ (makeHeader ctx partitionSize).dirHashTableOfs ∧
      0 < (makeHeader ctx partitionSize).dirHashTableSize ∧
      (makeHeader ctx partitionSize).dirHashTableOfs + ((makeHeader ctx partitionSize).dirHashTableSize +
        (makeHeader ctx partitionSize).dirTableSize + (makeHeader ctx partitionSize).fileHashTableSize +
        (makeHeader ctx partitionSize).fileTableSize) < 2 ^ 64 := by
  have hdirCount := romfsGetHashTableCount_le ctx.numDirs
  have hfileCount := romfsGetHashTableCount_le ctx.numFiles
  have hpos := romfsGetHashTableCount_pos ctx.numDirs
  have hdirLength := length_le_dirTableBytes ctx.directories.entries
  have hfileLength := length_le_fileTableBytes ctx.files.entries
  rw [← h.dirTableSize, ← h.numDirs] at hdirLength
  rw [← h.fileTableSize, ← h.numFiles] at hfileLength
  simp only [makeHeader, romfsFilePartitionOfs]
  omega

variable {sources : LayeredSources}

/-- `Build` never comes upon a file that starts before the end of the previous one of the same RomFS. -/
lemma LayeredSources.WellFormed.assignFileOffsets_eq (h : sources.WellFormed) :
    assignFileOffsets 0 0 none sources.merged.files.entries = some (placeFiles 0 0 none sources.merged.files.entries,
        partitionEnd 0 (placeFiles 0 0 none sources.merged.files.entries)) := by
  have hpartition := h.partitionEnd_lt
  have hfiles := h.fileTable
  rw [h.merging.fileTableSize] at hfiles
  apply h.placing.assignFileOffsets_eq
  · omega
  · intro f hf hrom
    have hinside := h.inside (isFrom_of_mem hf) hrom
    have hlength := h.romLength_lt f.source
    omega
  · omega

/-- A placed file is from where the merged file is from. -/
lemma LayeredSources.WellFormed.isFrom_of_placed (h : sources.WellFormed)
    (hbuilt : BuildsTo sources.merged saved partitionSize built) {f : RomFSBuildFileContext}
    (hf : f ∈ built.files) : sources.IsFrom f.unplaced := by
  obtain ⟨g, hg, hsame⟩ := exists_of_map_unplaced (assignFileOffsets_unplaced hbuilt.placed) hf
  rw [← hsame, h.merging.unplaced g hg]
  exact isFrom_of_mem hg

/-- The infos of the files, with the header in front of them. -/
lemma LayeredSources.WellFormed.listed (h : sources.WellFormed)
    (hbuilt : BuildsTo sources.merged saved partitionSize built) :
    ∃ prev init back, built.files.foldlM addInfo [headerInfo built.header] = some (init ++ [back]) ∧
      Listed (headerInfo built.header) built.files prev init back ∧
      ∀ f ∈ built.files, f.offset + f.size ≤ partitionSize := by
  have hplaced := h.assignFileOffsets_eq.symm.trans hbuilt.placed
  obtain ⟨hfiles, hsize⟩ := Prod.mk.inj (Option.some_inj.mp hplaced)
  have hchain := h.placing.isChain 0
  rw [Option.toList_none, List.nil_append, hfiles] at hchain
  have hpartition := h.partitionEnd_lt
  rw [hsize] at hpartition
  have hend : ∀ f ∈ built.files, f.offset + f.size ≤ partitionSize := by
    intro f hf
    rw [← hsize, hfiles]
    exact le_partitionEnd_of_mem hchain hf
  obtain ⟨prev, init, back, hrun, hlisted⟩ := (listed_nil (headerInfo built.header)).foldlM
    (headerInfo_end built.header) rfl hchain (fun f hf => (h.isFrom_of_placed hbuilt hf).isMerged)
    (fun f hf => by
      have hle := hend f hf
      rw [romfsFilePartitionOfs]
      omega)
    (fun f hf hrom => by
      have hinside := h.inside (h.isFrom_of_placed hbuilt hf) hrom
      have hlength := h.romLength_lt f.unplaced.source
      rw [OrigInBounds]
      change romfsFilePartitionOfs + f.origOffset + f.size ≤ _ at hinside
      omega)
  rw [List.nil_append] at hlisted
  exact ⟨prev, init, back, hrun, hlisted, hend⟩

/-- The last of the infos, which serves the metadata. -/
def metadataInfo (saved : Bool) (built : BuiltRomFS) : RomFSSourceInfo where
  virtualOffset := built.header.dirHashTableOfs
  size := built.header.dirHashTableSize + built.header.dirTableSize + built.header.fileHashTableSize +
    built.header.fileTableSize
  source := if saved then .metaData else .memory (metadataBytes built.dirs built.fileTables)

lemma served_metadataInfo (h : Merging ctx) (hbuilt : BuildsTo ctx saved partitionSize built)
    (sources : LayeredSources) :
    (metadataInfo saved built).InBounds ∧
      ∃ all, (metadataInfo saved built).contents (sources.stores built) = some all := by
  have hlength := hbuilt.length_metadata h
  have hread : readExactly (metadataInfo saved built).size 0 (metadataBytes built.dirs built.fileTables) =
      some _ := readExactly_isSome (Nat.le_of_eq ((Nat.zero_add _).trans hlength.symm))
  cases saved with
  | true => exact ⟨trivial, _, hread⟩
  | false => exact ⟨trivial, _, hread⟩

lemma served_headerInfo (header : RomFSHeader) (stores : RomFSStores) :
    (headerInfo header).InBounds ∧ ∃ all, (headerInfo header).contents stores = some all :=
  ⟨trivial, _, readExactly_isSome (Nat.le_of_eq ((Nat.zero_add _).trans header.length_bytes.symm))⟩

/-- No info of the files ends behind the file partition. -/
lemma Listed.le_partition {header : RomFSHeader} {files : List RomFSBuildFileContext}
    {prev : Option RomFSBuildFileContext} {init : List RomFSSourceInfo} {back : RomFSSourceInfo}
    (h : Listed (headerInfo header) files prev init back) (hend : ∀ f ∈ files, f.offset + f.size ≤ partitionSize)
    {info : RomFSSourceInfo} (hinfo : info ∈ init ++ [back]) :
    info.virtualOffset + info.size ≤ romfsFilePartitionOfs + partitionSize := by
  cases h.ends info hinfo with
  | inl heq =>
    rw [heq]
    exact (headerInfo_end header).trans (Nat.le_add_right _ _)
  | inr hfile =>
    obtain ⟨f, hf, hends⟩ := hfile
    have hle := hend f hf
    rw [hends.end_eq]
    omega

/-- The infos of `Build`: those of the files, and the metadata behind them. -/
lemma LayeredSources.WellFormed.infos (h : sources.WellFormed)
    (hbuilt : BuildsTo sources.merged saved partitionSize built) :
    OrderedInfos built.infos ∧ Served (sources.stores built) built.infos ∧
      ∀ f ∈ built.files, ∃ info ∈ built.infos, ServesFile info f := by
  obtain ⟨prev, init, back, hrun, hlisted, hend⟩ := h.listed hbuilt
  obtain ⟨infos, hrun', hinfos⟩ := hbuilt.infos
  rw [headerInfo, hrun', Option.some_inj] at hrun
  rw [hrun] at hinfos
  change built.infos = init ++ [back] ++ [metadataInfo saved built] at hinfos
  have hplaced := h.assignFileOffsets_eq.symm.trans hbuilt.placed
  obtain ⟨hfiles, hsize⟩ := Prod.mk.inj (Option.some_inj.mp hplaced)
  have hpartition := h.partitionEnd_lt
  rw [hsize] at hpartition
  obtain ⟨hbehind, hpos, hlast⟩ := makeHeader_bounds h.merging h.dirTable h.fileTable hpartition
  rw [← hbuilt.header_eq] at hbehind hpos hlast
  refine ⟨⟨?_, ?_, ?_, ?_⟩, ?_, ?_⟩
  · rw [hinfos]
    refine List.pairwise_append.mpr ⟨hlisted.sorted, List.pairwise_singleton _ _, fun a ha b hb => ?_⟩
    rw [List.mem_singleton.mp hb]
    exact (hlisted.le_partition hend ha).trans hbehind
  · refine ⟨headerInfo built.header, ?_, rfl⟩
    rw [hinfos, ← List.head?_eq_getElem?, List.head?_append, hlisted.head, Option.some_or]
    rfl
  · refine ⟨metadataInfo saved built, ?_, ?_, hlast⟩
    · rw [hinfos, List.getLast?_append, List.getLast?_singleton, Option.some_or]
      rfl
    · exact Nat.lt_of_lt_of_le hpos (by rw [metadataInfo]; dsimp only; omega)
  · have hcount := hlisted.count
    have hlength := length_le_fileTableBytes sources.merged.files.entries
    have hbytes := h.fileTable
    have hsame := congrArg List.length (assignFileOffsets_unplaced hbuilt.placed)
    rw [List.length_map, List.length_map] at hsame
    rw [h.merging.fileTableSize] at hbytes
    rw [hinfos, List.length_append, List.length_singleton]
    omega
  · intro info hinfo
    rw [hinfos] at hinfo
    cases List.mem_append.mp hinfo with
    | inr hmeta =>
      rw [List.mem_singleton.mp hmeta]
      exact served_metadataInfo h.merging hbuilt sources
    | inl hfile =>
      cases hlisted.ends info hfile with
      | inl heq =>
        rw [heq]
        exact served_headerInfo built.header _
      | inr hends =>
        obtain ⟨f, hf, hends⟩ := hends
        exact h.served_of_endsWith (h.isFrom_of_placed hbuilt hf) hends built
  · intro f hf
    obtain ⟨info, hinfo, hserves⟩ := hlisted.serves f hf
    rw [hinfos]
    exact ⟨info, List.mem_append_left _ hinfo, hserves⟩

end Built

/-- `Build` succeeds for every set of sources, and lists ranges that are in order and do not meet. Every read of
the image that reaches a byte of a file returns there the byte of the first source to name the path of the
file. -/
theorem layeredRomFs_serves_files {sources : LayeredSources} (h : sources.WellFormed) (memory : Nat → UInt8)
    (saved : Bool) :
    ∃ built, build memory saved sources.merged = some built ∧
      built.infos.Pairwise (fun a b => a.virtualOffset + a.size ≤ b.virtualOffset) ∧
      ∀ path f, sources.winner path = some f → f.path = path ∧
        ∃ g ∈ built.files, g.unplaced = f ∧ ∀ i < f.size, ∀ size offset,
          offset ≤ romfsFilePartitionOfs + g.offset + i → romfsFilePartitionOfs + g.offset + i < offset + size →
          ∃ written b, layeredRead (sources.stores built) built.infos size offset = some (.success, written) ∧
            written[romfsFilePartitionOfs + g.offset + i - offset]? = some b ∧
            sources.fileByte f i = some b := by
  obtain ⟨built, hbuild, hbuilt⟩ := h.merging.build_eq (fun f hf => (LayeredSources.isFrom_of_mem hf).isMerged)
    h.dirTable h.fileTable h.assignFileOffsets_eq memory saved
  obtain ⟨hordered, hserved, hserves⟩ := h.infos hbuilt
  refine ⟨built, hbuild, hordered.sorted, fun path f hwinner => ?_⟩
  rw [← sources.find_merged] at hwinner
  obtain ⟨hf, hkey⟩ := OrderedMap.find_eq_some.mp hwinner
  refine ⟨strcmpKey_inj.mp hkey, ?_⟩
  have hmem := List.mem_map_of_mem (f := (·.unplaced)) hf
  rw [← assignFileOffsets_unplaced hbuilt.placed] at hmem
  obtain ⟨g, hg, hsame⟩ := List.mem_map.mp hmem
  rw [h.merging.unplaced f hf] at hsame
  have hfrom : sources.IsFrom g.unplaced := hsame ▸ LayeredSources.isFrom_of_mem hf
  refine ⟨g, hg, hsame, fun i hi size offset hoffset hsize => ?_⟩
  subst hsame
  obtain ⟨info, hinfo, hserve⟩ := hserves g hg
  obtain ⟨-, all, hall⟩ := hserved info hinfo
  have hstart := hserve.start_le
  have hend := hserve.end_le
  have hsizes : i < g.size := hi
  have himage := hordered.le_imageEnd hinfo
  have hcovers : info.Covers (romfsFilePartitionOfs + g.offset + i) := by
    constructor <;> omega
  obtain ⟨written, hread, hlength, -, hbytes⟩ := layeredRead_spec hordered hserved (show 0 < size by omega)
    (show offset < imageEnd built.infos by omega)
  obtain ⟨b, hbyte, hb⟩ := h.contents_of_serves hfrom hserve built hall hi
  refine ⟨written, b, hread, ?_, hb⟩
  rw [hbytes _ (by omega), Nat.add_sub_cancel' hoffset, imageByte_of_covers hordered hinfo hcovers hall,
    List.getD_eq_getElem?_getD, hbyte, Option.getD_some]

/-- The name of a file that is one letter long -/
def letterName (b : UInt8) (h : 0 ∉ [b]) : EntryName := ⟨[b], h⟩

/-- Two files of a byte each in the storage, `/a` and `/b`, and another `/b` on the SD card -/
def exampleSources : LayeredSources where
  sdVisits := [.file [] (letterName 0x62 (by decide)) 1 0]
  looseFiles := fun path => if path = [0x2F, 0x62] then some [7] else none
  fileRomfs := none
  storageRomfs := some
    { bytes := List.replicate 0x200 0 ++ 1 :: List.replicate 15 0 ++ [2]
      visits := [.file [] (letterName 0x61 (by decide)) 1 0, .file [] (letterName 0x62 (by decide)) 1 16] }

lemma exampleSources_wellFormed : exampleSources.WellFormed := by
  refine ⟨⟨List.mem_singleton_self _, trivial⟩, ?_, ?_, ?_, by decide +kernel, by decide +kernel, by decide +kernel⟩
  · intro f hf
    cases List.mem_singleton.mp hf
    exact ⟨[7], rfl, rfl⟩
  · intro storage hstorage
    cases hstorage
  · intro storage hstorage
    cases hstorage
    exact ⟨⟨List.mem_singleton_self _, List.mem_singleton_self _, trivial⟩, by decide +kernel, by decide +kernel,
      by decide +kernel⟩

/-- `/b` has the byte from the SD card. -/
theorem layeredRomFs_serves_loose_file :
    ∃ built, build (fun _ => 0) false exampleSources.merged = some built ∧ ∃ g ∈ built.files,
      g.path = [0x2F, 0x62] ∧ ∃ written,
        layeredRead (exampleSources.stores built) built.infos 1 (romfsFilePartitionOfs + g.offset) =
            some (.success, written) ∧
          written[0]? = some 7 := by
  obtain ⟨built, hbuild, -, hserves⟩ := layeredRomFs_serves_files exampleSources_wellFormed (fun _ => 0) false
  have hwinner : exampleSources.winner [0x2F, 0x62] =
      some (visitedFile .looseFile [] (letterName 0x62 (by decide)) 1 0) := by decide +kernel
  obtain ⟨-, g, hg, hsame, hread⟩ := hserves _ _ hwinner
  have hpath : g.unplaced.path = [0x2F, 0x62] := by
    rw [hsame]
    rfl
  obtain ⟨written, b, hwritten, hb, hbyte⟩ := hread 0 Nat.zero_lt_one 1 (romfsFilePartitionOfs + g.offset)
    le_rfl (Nat.lt_succ_self _)
  rw [Nat.add_zero, Nat.sub_self] at hb
  refine ⟨built, hbuild, g, hg, hpath, written, hwritten, ?_⟩
  rw [hb, ← hbyte]
  rfl

/-- The header can be read with its padding, into a buffer for both. -/
theorem layeredRead_readsRange_header :
    ∃ built, build (fun _ => 0) false exampleSources.merged = some built ∧
      ReadsRange (exampleSources.stores built) built.infos 0x200 0 := by
  have hsome : (build (fun _ => 0) false exampleSources.merged).isSome = true := by decide +kernel
  obtain ⟨built, hbuild⟩ := Option.isSome_iff_exists.mp hsome
  have hends : ∀ b ∈ build (fun _ => 0) false exampleSources.merged,
      0 < imageEnd b.infos ∧ EndsInPlace b.infos (0 + min 0x200 (imageEnd b.infos - 0)) := by decide +kernel
  obtain ⟨hend, hplace⟩ := hends built hbuild
  obtain ⟨built', hbuild', hbuilt⟩ := exampleSources_wellFormed.merging.build_eq
    (fun f hf => (LayeredSources.isFrom_of_mem hf).isMerged) exampleSources_wellFormed.dirTable
    exampleSources_wellFormed.fileTable exampleSources_wellFormed.assignFileOffsets_eq (fun _ => 0) false
  cases Option.some_inj.mp (hbuild.symm.trans hbuild')
  obtain ⟨hordered, hserved, -⟩ := exampleSources_wellFormed.infos hbuilt
  exact ⟨built, hbuild, (layeredRead_readsRange_iff hordered hserved (by decide) hend).mpr hplace⟩

/-- A read of the header and of a part of its padding writes the whole padding, behind the end of its buffer. -/
theorem not_layeredRead_readsRange :
    ∃ built, build (fun _ => 0) false exampleSources.merged = some built ∧ 0x60 < imageEnd built.infos ∧
      ¬ReadsRange (exampleSources.stores built) built.infos 0x60 0 ∧
      ∃ written, layeredRead (exampleSources.stores built) built.infos 0x60 0 = some (.success, written) ∧
        written.length = 0x200 := by
  have hsome : (build (fun _ => 0) false exampleSources.merged).isSome = true := by decide +kernel
  obtain ⟨built, hbuild⟩ := Option.isSome_iff_exists.mp hsome
  have hread : ∀ b ∈ build (fun _ => 0) false exampleSources.merged, 0x60 < imageEnd b.infos ∧
      ∃ out ∈ layeredRead (exampleSources.stores b) b.infos 0x60 0, out.1 = .success ∧ out.2.length = 0x200 := by
    decide +kernel
  obtain ⟨hend, ⟨result, written⟩, hout, hresult, hlength⟩ := hread built hbuild
  dsimp only at hresult hlength
  rw [hresult] at hout
  refine ⟨built, hbuild, hend, fun hrange => ?_, written, hout, hlength⟩
  cases hrange.symm.trans hout
  rw [List.length_map, List.length_range] at hlength
  omega

end RajNX.FsMitm.RomFs
