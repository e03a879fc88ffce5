import RajNX.FsMitm.RomFsLayout
import RajNX.FsMitm.LayeredRom

/-!
# The sources of a built RomFS

Which source infos `Build` lists: one for each loose file, and one for each run of files of the same RomFS,
with the padding between them. The run is served from the place of its first file in the RomFS on, and every
file keeps its distance from that one.
-/

namespace RajNX.FsMitm.RomFs

/-- A source that serves a file which lies in it `distance` bytes behind its start. -/
inductive ServesFrom (f : RomFSBuildFileContext) (distance : Nat) : RomFSSource → Prop
  | loose : f.source = .looseFile → distance = 0 → ServesFrom f distance (.loose f.path)
  | base {o} : f.source = .baseRomFS → f.origOffset + romfsFilePartitionOfs = o + distance →
      ServesFrom f distance (.base o)
  | file {o} : f.source = .fileRomFS → f.origOffset + romfsFilePartitionOfs = o + distance →
      ServesFrom f distance (.file o)

/-- A source info that serves all bytes of a file. -/
structure ServesFile (info : RomFSSourceInfo) (f : RomFSBuildFileContext) : Prop where
  start_le : info.virtualOffset ≤ romfsFilePartitionOfs + f.offset
  end_le : romfsFilePartitionOfs + f.offset + f.size ≤ info.virtualOffset + info.size
  source : ServesFrom f (romfsFilePartitionOfs + f.offset - info.virtualOffset) info.source

/-- A source info that ends with a file that it serves. -/
structure EndsWith (info : RomFSSourceInfo) (f : RomFSBuildFileContext) : Prop extends ServesFile info f where
  end_eq : info.virtualOffset + info.size = romfsFilePartitionOfs + f.offset + f.size

/-- The infos that are listed after some files, with the first and the last of the infos and the last of the
files. -/
structure Listed (top : RomFSSourceInfo) (done : List RomFSBuildFileContext)
    (prev : Option RomFSBuildFileContext) (init : List RomFSSourceInfo) (back : RomFSSourceInfo) : Prop where
  head : (init ++ [back]).head? = some top
  sorted : (init ++ [back]).Pairwise fun a b => a.virtualOffset + a.size ≤ b.virtualOffset
  serves : ∀ f ∈ done, ∃ info ∈ init ++ [back], ServesFile info f
  ends : ∀ info ∈ init ++ [back], info = top ∨ ∃ f ∈ done, EndsWith info f
  back_eq : ∀ p ∈ prev, EndsWith back p
  first : prev = none → back = top
  count : (init ++ [back]).length ≤ done.length + 1

section Listed

variable {top back : RomFSSourceInfo} {done files : List RomFSBuildFileContext}
  {prev : Option RomFSBuildFileContext} {cur : RomFSBuildFileContext} {init : List RomFSSourceInfo}
  {source : RomFSSource}

/-- The source has the type of the file. -/
lemma ServesFrom.type_eq {f : RomFSBuildFileContext} {distance : Nat}
    (h : ServesFrom f distance source) : source.type = f.source := by
  cases h with
  | loose hsource => exact hsource.symm
  | base hsource => exact hsource.symm
  | file hsource => exact hsource.symm

/-- An info with one file. -/
lemma EndsWith.single (h : ServesFrom cur 0 source) :
    EndsWith ⟨cur.offset + romfsFilePartitionOfs, cur.size, source⟩ cur := by
  have hcomm : cur.offset + romfsFilePartitionOfs = romfsFilePartitionOfs + cur.offset := Nat.add_comm _ _
  refine ⟨⟨hcomm.le, ?_, ?_⟩, ?_⟩
  · rw [hcomm]
  · rw [hcomm, Nat.sub_self]
    exact h
  · rw [hcomm]

variable {info : RomFSSourceInfo}

/-- All infos end where the last one does, or before. -/
lemma Listed.end_le (h : Listed top done prev init back)
    (hinfo : info ∈ init ++ [back]) : info.virtualOffset + info.size ≤ back.virtualOffset + back.size := by
  cases List.mem_append.mp hinfo with
  | inl hinit =>
    have hle := (List.pairwise_append.mp h.sorted).2.2 info hinit back (List.mem_singleton_self back)
    exact hle.trans (Nat.le_add_right _ _)
  | inr hback =>
    rw [List.mem_singleton.mp hback]

/-- One more info, behind the others. -/
lemma Listed.append (h : Listed top done prev init back) (hinfo : EndsWith info cur)
    (hle : back.virtualOffset + back.size ≤ info.virtualOffset) :
    Listed top (done ++ [cur]) (some cur) (init ++ [back]) info := by
  refine ⟨?_, ?_, ?_, ?_, ?_, ?_, ?_⟩
  · rw [List.head?_append, h.head, Option.some_or]
  · refine List.pairwise_append.mpr ⟨h.sorted, List.pairwise_singleton _ _, fun a ha b hb => ?_⟩
    rw [List.mem_singleton.mp hb]
    exact (h.end_le ha).trans hle
  · intro f hf
    cases List.mem_append.mp hf with
    | inl hdone =>
      obtain ⟨a, ha, hserves⟩ := h.serves f hdone
      exact ⟨a, List.mem_append_left _ ha, hserves⟩
    | inr hcur =>
      rw [List.mem_singleton.mp hcur]
      exact ⟨info, List.mem_append_right _ (List.mem_singleton_self info), hinfo.toServesFile⟩
  · intro a ha
    cases List.mem_append.mp ha with
    | inl hold =>
      apply (h.ends a hold).imp id
      intro ⟨f, hf, hends⟩
      exact ⟨f, List.mem_append_left _ hf, hends⟩
    | inr hnew =>
      rw [List.mem_singleton.mp hnew]
      exact Or.inr ⟨cur, List.mem_append_right _ (List.mem_singleton_self cur), hinfo⟩
  · intro p hp
    cases hp
    exact hinfo
  · intro hnone
    cases hnone
  · have hcount := h.count
    simp only [List.length_append, List.length_singleton] at hcount ⊢
    omega

/-- The last info, extended by a file of the same RomFS. -/
lemma Listed.extend (h : Listed top done prev init back) (hoffset : info.virtualOffset = back.virtualOffset)
    (hsource : info.source = back.source) (hinfo : EndsWith info cur)
    (hle : back.virtualOffset + back.size ≤ info.virtualOffset + info.size) (hne : back ≠ top) :
    Listed top (done ++ [cur]) (some cur) init info := by
  refine ⟨?_, ?_, ?_, ?_, ?_, ?_, ?_⟩
  · have hhead := h.head
    cases init with
    | nil => exact absurd (Option.some_inj.mp hhead) hne
    | cons a init => exact hhead
  · have hsorted := List.pairwise_append.mp h.sorted
    refine List.pairwise_append.mpr ⟨hsorted.1, List.pairwise_singleton _ _, fun a ha b hb => ?_⟩
    rw [List.mem_singleton.mp hb, hoffset]
    exact hsorted.2.2 a ha back (List.mem_singleton_self back)
  · intro f hf
    cases List.mem_append.mp hf with
    | inl hdone =>
      obtain ⟨a, ha, hserves⟩ := h.serves f hdone
      cases List.mem_append.mp ha with
      | inl hinit => exact ⟨a, List.mem_append_left _ hinit, hserves⟩
      | inr hback =>
        rw [List.mem_singleton.mp hback] at hserves
        refine ⟨info, List.mem_append_right _ (List.mem_singleton_self info), ?_, ?_, ?_⟩
        · rw [hoffset]
          exact hserves.start_le
        · exact hserves.end_le.trans hle
        · rw [hoffset, hsource]
          exact hserves.source
    | inr hcur =>
      rw [List.mem_singleton.mp hcur]
      exact ⟨info, List.mem_append_right _ (List.mem_singleton_self info), hinfo.toServesFile⟩
  · intro a ha
    cases List.mem_append.mp ha with
    | inl hold =>
      apply (h.ends a (List.mem_append_left _ hold)).imp id
      intro ⟨f, hf, hends⟩
      exact ⟨f, List.mem_append_left _ hf, hends⟩
    | inr hnew =>
      rw [List.mem_singleton.mp hnew]
      exact Or.inr ⟨cur, List.mem_append_right _ (List.mem_singleton_self cur), hinfo⟩
  · intro q hq
    cases hq
    exact hinfo
  · intro hnone
    cases hnone
  · have hcount := h.count
    simp only [List.length_append, List.length_singleton] at hcount ⊢
    omega

/-- A file is behind everything that is listed. -/
lemma Listed.back_le (h : Listed top done prev init back)
    (htop : top.virtualOffset + top.size ≤ romfsFilePartitionOfs) (hfollows : ∀ p ∈ prev, Follows p cur) :
    back.virtualOffset + back.size ≤ romfsFilePartitionOfs + cur.offset := by
  cases prev with
  | none =>
    rw [h.first rfl]
    exact htop.trans (Nat.le_add_right _ _)
  | some p =>
    have hend := (h.back_eq p rfl).end_eq
    have hle := (hfollows p rfl).le
    omega

/-- A file of a RomFS whose predecessor is in the same RomFS is served from where that one is served from. -/
lemma ServesFrom.follow {p : RomFSBuildFileContext} {distance more : Nat}
    (h : ServesFrom p distance source) (hsource : p.source = cur.source) (hrom : IsRom cur.source)
    (horig : cur.origOffset = p.origOffset + more) : ServesFrom cur (distance + more) source := by
  cases h with
  | loose hloose =>
    rw [← hsource, hloose] at hrom
    cases hrom with
    | inl hbase => cases hbase
    | inr hfile => cases hfile
  | base hbase heq =>
    apply ServesFrom.base (hsource ▸ hbase)
    omega
  | file hfile heq =>
    apply ServesFrom.file (hsource ▸ hfile)
    omega

/-- The last info, if it has the same RomFS, serves a file of it too once it is extended. -/
lemma EndsWith.extend {p : RomFSBuildFileContext} (h : EndsWith back p) (hfollows : Follows p cur)
    (htype : back.source.type = cur.source) (hrom : IsRom cur.source) :
    EndsWith { back with size := cur.offset + romfsFilePartitionOfs + cur.size - back.virtualOffset } cur := by
  have hsource : p.source = cur.source := h.source.type_eq.symm.trans htype
  have hkeep := hfollows.keep hsource (hsource ▸ hrom)
  have hle := hfollows.le
  have hstart := h.start_le
  have horig : cur.origOffset = p.origOffset + (cur.offset - p.offset) := by omega
  have hserves := h.source.follow hsource hrom horig
  have hdistance : romfsFilePartitionOfs + p.offset - back.virtualOffset + (cur.offset - p.offset) =
      romfsFilePartitionOfs + cur.offset - back.virtualOffset := by omega
  rw [hdistance] at hserves
  refine ⟨⟨?_, ?_, hserves⟩, ?_⟩
  · dsimp only
    omega
  · dsimp only
    omega
  · dsimp only
    omega

/-- A file of a RomFS is compacted or gets an info of its own. -/
lemma Listed.compactInfos (h : Listed top done prev init back)
    (htop : top.virtualOffset + top.size ≤ romfsFilePartitionOfs) (htype : top.source.type = .memory)
    (hfollows : ∀ p ∈ prev, Follows p cur) (hrom : IsRom cur.source)
    (hend : cur.offset + romfsFilePartitionOfs + cur.size < 2 ^ 64) (hserves : ServesFrom cur 0 source) :
    ∃ init' back', compactInfos (init ++ [back]) cur source = some (init' ++ [back']) ∧
      Listed top (done ++ [cur]) (some cur) init' back' := by
  have hback := h.back_le htop hfollows
  have hmod : (cur.offset + romfsFilePartitionOfs) % 2 ^ 64 = cur.offset + romfsFilePartitionOfs :=
    Nat.mod_eq_of_lt (by omega)
  rw [RomFs.compactInfos, List.getLast?_append, List.getLast?_singleton, Option.some_or]
  simp only [Option.bind_eq_bind, Option.bind_some, hmod, List.dropLast_concat]
  by_cases hsame : back.source.type = cur.source
  · rw [if_pos hsame]
    cases prev with
    | none =>
      rw [h.first rfl, htype] at hsame
      rw [← hsame] at hrom
      cases hrom with
      | inl hbase => cases hbase
      | inr hfile => cases hfile
    | some p =>
      have hnew := (h.back_eq p rfl).extend (hfollows p rfl) hsame hrom
      have hsize : (cur.offset + romfsFilePartitionOfs + cur.size + 2 ^ 64 - back.virtualOffset) % 2 ^ 64 =
          cur.offset + romfsFilePartitionOfs + cur.size - back.virtualOffset := by omega
      rw [hsize]
      refine ⟨init, _, rfl, h.extend rfl rfl hnew ?_ ?_⟩
      · dsimp only
        omega
      · intro heq
        rw [heq, htype] at hsame
        rw [← hsame] at hrom
        cases hrom with
        | inl hbase => cases hbase
        | inr hfile => cases hfile
  · rw [if_neg hsame]
    refine ⟨init ++ [back], _, rfl, h.append (EndsWith.single hserves) ?_⟩
    rw [Nat.add_comm cur.offset]
    exact hback

/-- A file that lies in a storage of less than 64 bits. -/
def OrigInBounds (f : RomFSBuildFileContext) : Prop := f.origOffset + romfsFilePartitionOfs + f.size < 2 ^ 64

/-- Where a file of a RomFS is served from, at the start of its own info. -/
lemma origOffset_mod (h : OrigInBounds cur) :
    (cur.origOffset + romfsFilePartitionOfs) % 2 ^ 64 = cur.origOffset + romfsFilePartitionOfs := by
  apply Nat.mod_eq_of_lt
  unfold OrigInBounds at h
  omega

/-- A file comes from a RomFS or from the SD card. -/
def IsMerged (f : RomFSBuildFileContext) : Prop := IsRom f.source ∨ f.source = .looseFile

/-- `Build` lists one file after those before. -/
lemma Listed.addInfo (h : Listed top done prev init back)
    (htop : top.virtualOffset + top.size ≤ romfsFilePartitionOfs) (htype : top.source.type = .memory)
    (hfollows : ∀ p ∈ prev, Follows p cur) (hmerged : IsMerged cur)
    (hend : cur.offset + romfsFilePartitionOfs + cur.size < 2 ^ 64) (horig : IsRom cur.source → OrigInBounds cur) :
    ∃ init' back', addInfo (init ++ [back]) cur = some (init' ++ [back']) ∧
      Listed top (done ++ [cur]) (some cur) init' back' := by
  obtain (hbase | hfile) | hloose := hmerged
  · simp only [RomFs.addInfo, hbase]
    rw [origOffset_mod (horig (Or.inl hbase))]
    exact h.compactInfos htop htype hfollows (Or.inl hbase) hend (ServesFrom.base hbase rfl)
  · simp only [RomFs.addInfo, hfile]
    rw [origOffset_mod (horig (Or.inr hfile))]
    exact h.compactInfos htop htype hfollows (Or.inr hfile) hend (ServesFrom.file hfile rfl)
  · have hback := h.back_le htop hfollows
    simp only [RomFs.addInfo, hloose]
    rw [Nat.mod_eq_of_lt (by omega)]
    refine ⟨init ++ [back], _, rfl, h.append (EndsWith.single (ServesFrom.loose hloose rfl)) ?_⟩
    rw [Nat.add_comm cur.offset]
    exact hback

/-- `Build` lists all files. -/
lemma Listed.foldlM (h : Listed top done prev init back) (htop : top.virtualOffset + top.size ≤ romfsFilePartitionOfs)
    (htype : top.source.type = .memory) (hchain : List.IsChain Follows (prev.toList ++ files))
    (hmerged : ∀ f ∈ files, IsMerged f) (hend : ∀ f ∈ files, f.offset + romfsFilePartitionOfs + f.size < 2 ^ 64)
    (horig : ∀ f ∈ files, IsRom f.source → OrigInBounds f) :
    ∃ prev' init' back', files.foldlM RomFs.addInfo (init ++ [back]) = some (init' ++ [back']) ∧
      Listed top (done ++ files) prev' init' back' := by
  induction files generalizing done prev init back with
  | nil =>
    rw [List.append_nil]
    exact ⟨prev, init, back, rfl, h⟩
  | cons cur files ih =>
    have hfollows : ∀ p ∈ prev, Follows p cur := by
      intro p hp
      cases hp
      exact (List.isChain_cons_cons.mp hchain).1
    have hrest : List.IsChain Follows (cur :: files) := by
      cases prev with
      | none => exact hchain
      | some p => exact (List.isChain_cons_cons.mp hchain).2
    obtain ⟨init', back', hadd, hlisted⟩ := h.addInfo htop htype hfollows
      (hmerged cur List.mem_cons_self) (hend cur List.mem_cons_self) (horig cur List.mem_cons_self)
    have hrun := ih hlisted hrest (fun f hf => hmerged f (List.mem_cons_of_mem cur hf))
      (fun f hf => hend f (List.mem_cons_of_mem cur hf)) (fun f hf => horig f (List.mem_cons_of_mem cur hf))
    rw [List.append_assoc, List.singleton_append] at hrun
    rw [List.foldlM_cons, hadd]
    exact hrun

/-- The infos of a list of files: the top, and what is listed for the files. -/
lemma listed_nil (top : RomFSSourceInfo) : Listed top [] none [] top := by
  refine ⟨rfl, List.pairwise_singleton _ _, ?_, ?_, ?_, fun _ => rfl, le_rfl⟩
  · intro f hf
    cases hf
  · intro info hinfo
    exact Or.inl (List.mem_singleton.mp hinfo)
  · intro p hp
    cases hp

end Listed

end RajNX.FsMitm.RomFs
