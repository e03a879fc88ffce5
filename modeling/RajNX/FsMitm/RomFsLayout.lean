import RajNX.FsMitm.RomFsBuild

/-!
# The layout of a built RomFS

Where `Build` puts the files, and which source infos it lists. `placeFiles` is the layout in natural
numbers: a file that follows one of the same RomFS keeps its distance from it, and any other file starts
at the next multiple of 16. `Build` computes it in 64 bits, and never comes upon a file that starts before
the end of the previous one of the same RomFS.
-/

namespace RajNX.FsMitm.RomFs

/-- Whether a file is in one of the RomFS sources. -/
def IsRom (source : RomFSDataSource) : Prop := source = .baseRomFS ∨ source = .fileRomFS

instance (source : RomFSDataSource) : Decidable (IsRom source) :=
  inferInstanceAs (Decidable (_ ∨ _))

/-- The offset of a file behind the end of the previous one. -/
def placeOffset (partitionEnd : Nat) (prev : Option RomFSBuildFileContext)
    (cur : RomFSBuildFileContext) : Nat :=
  match prev with
  | none => alignUp partitionEnd 16
  | some prev =>
    if prev.source = cur.source ∧ IsRom prev.source then
      prev.offset + (cur.origOffset - prev.origOffset)
    else alignUp partitionEnd 16

/-- A file with its offsets. -/
def placed (partitionEnd entryOffset : Nat) (prev : Option RomFSBuildFileContext)
    (cur : RomFSBuildFileContext) : RomFSBuildFileContext :=
  { cur with offset := placeOffset partitionEnd prev cur, entryOffset := entryOffset }

/-- The files with their offsets. -/
def placeFiles : Nat → Nat → Option RomFSBuildFileContext → List RomFSBuildFileContext → List RomFSBuildFileContext
  | _, _, _, [] => []
  | partitionEnd, entryOffset, prev, cur :: files =>
    let cur := placed partitionEnd entryOffset prev cur
    cur :: placeFiles (cur.offset + cur.size) (entryOffset + fileEntrySize cur.name.bytes) (some cur)
      files

/-- The end of the last file. -/
def partitionEnd (start : Nat) (files : List RomFSBuildFileContext) : Nat :=
  files.foldl (fun _ f => f.offset + f.size) start

/-- A file of a RomFS lies behind those in front of it, with the alignment in between. -/
def OrigBefore (a b : RomFSBuildFileContext) : Prop :=
  a.source = b.source → IsRom a.source → alignUp (a.origOffset + a.size) 16 ≤ b.origOffset

/-- The files in the order of their paths, as the RomFS sources have them. -/
structure RomOrdered (files : List RomFSBuildFileContext) : Prop where
  before : files.Pairwise OrigBefore
  aligned : ∀ f ∈ files, IsRom f.source → f.origOffset % 16 = 0

@[simp] lemma alignUp_16 (n : Nat) : alignUp n 16 = (n + 15) / 16 * 16 := rfl

lemma RomOrdered.of_cons {f : RomFSBuildFileContext} {files : List RomFSBuildFileContext}
    (h : RomOrdered (f :: files)) : RomOrdered files :=
  ⟨(List.pairwise_cons.mp h.before).2, fun g hg => h.aligned g (List.mem_cons_of_mem f hg)⟩

lemma RomOrdered.head_before {f g : RomFSBuildFileContext} {files : List RomFSBuildFileContext}
    (h : RomOrdered (f :: files)) (hg : g ∈ files) : OrigBefore f g :=
  (List.pairwise_cons.mp h.before).1 g hg

/-- Where the loop over the files is: behind a file that lies at a multiple of 16, or at the start. -/
structure Placing (s : Nat) (prev : Option RomFSBuildFileContext)
    (files : List RomFSBuildFileContext) : Prop where
  ordered : RomOrdered (prev.toList ++ files)
  end_eq : ∀ p ∈ prev, s = p.offset + p.size
  aligned : ∀ p ∈ prev, p.offset % 16 = 0

section Place

variable {s e : Nat} {prev : Option RomFSBuildFileContext} {cur : RomFSBuildFileContext}
  {files : List RomFSBuildFileContext}

lemma partitionEnd_cons (s : Nat) (f : RomFSBuildFileContext) (files : List RomFSBuildFileContext) :
    partitionEnd s (f :: files) = partitionEnd (f.offset + f.size) files := rfl

section

variable (h : Placing s prev (cur :: files))

include h

/-- The two ways to place a file. -/
lemma Placing.placeOffset_cases :
    (∃ p, prev = some p ∧ p.source = cur.source ∧ IsRom p.source ∧
        alignUp (p.origOffset + p.size) 16 ≤ cur.origOffset ∧ p.origOffset % 16 = 0 ∧
        placeOffset s prev cur = p.offset + (cur.origOffset - p.origOffset)) ∨
      (∀ p ∈ prev, ¬(p.source = cur.source ∧ IsRom p.source)) ∧
        placeOffset s prev cur = alignUp s 16 := by
  cases prev with
  | none => exact .inr ⟨fun p hp => absurd hp (by simp), rfl⟩
  | some p =>
    by_cases hsame : p.source = cur.source ∧ IsRom p.source
    · have hbefore := h.ordered.head_before (List.mem_cons_self (a := cur) (l := files)) hsame.1 hsame.2
      have haligned := h.ordered.aligned p (List.mem_cons_self) hsame.2
      exact .inl ⟨p, rfl, hsame.1, hsame.2, hbefore, haligned, if_pos hsame⟩
    · refine .inr ⟨fun q hq => ?_, if_neg hsame⟩
      rw [Option.mem_some] at hq
      exact hq ▸ hsame

/-- A file is placed behind the previous one. -/
lemma Placing.le_placeOffset : s ≤ placeOffset s prev cur := by
  obtain ⟨p, rfl, -, -, hbefore, -, heq⟩ | ⟨-, heq⟩ := h.placeOffset_cases
  · have hend := h.end_eq p rfl
    rw [alignUp_16] at hbefore
    omega
  · rw [heq, alignUp_16]
    omega

lemma Placing.placeOffset_aligned : placeOffset s prev cur % 16 = 0 := by
  obtain ⟨p, rfl, hsource, hrom, hbefore, horig, heq⟩ | ⟨-, heq⟩ := h.placeOffset_cases
  · have hoffset := h.aligned p rfl
    have hcur : cur.origOffset % 16 = 0 :=
      h.ordered.aligned cur (List.mem_cons_of_mem p List.mem_cons_self) (hsource ▸ hrom)
    omega
  · rw [heq, alignUp_16]
    omega

/-- From a file to the next one. -/
lemma Placing.next (e : Nat) :
    Placing ((placed s e prev cur).offset + (placed s e prev cur).size) (some (placed s e prev cur))
      files := by
  have hcur : RomOrdered (cur :: files) := by
    cases prev with
    | none => exact h.ordered
    | some p => exact h.ordered.of_cons
  refine ⟨⟨?_, ?_⟩, ?_, ?_⟩
  · rw [Option.toList_some, List.singleton_append, List.pairwise_cons]
    exact ⟨fun g hg => hcur.head_before hg, hcur.of_cons.before⟩
  · intro f hf
    rcases List.mem_cons.mp hf with rfl | hf
    · exact hcur.aligned cur List.mem_cons_self
    · exact hcur.of_cons.aligned f hf
  · intro p hp
    rw [Option.mem_some] at hp
    rw [hp]
  · intro p hp
    rw [Option.mem_some] at hp
    rw [← hp]
    exact h.placeOffset_aligned

/-- The padding of `Build`, where nothing wraps around, gives the place of the file. -/
lemma Placing.preservePadding_eq (hend : placeOffset s prev cur < 2 ^ 64)
    (horig : IsRom cur.source → cur.origOffset < 2 ^ 64) :
    preservePadding ((s + 0xF) % 2 ^ 64 / 16 * 16) prev cur = some (placeOffset s prev cur) := by
  have hle := h.le_placeOffset
  have haligned := h.placeOffset_aligned
  have hpad : (s + 0xF) % 2 ^ 64 / 16 * 16 = (s + 15) / 16 * 16 := by omega
  rw [hpad]
  obtain ⟨p, rfl, hsource, hrom, hbefore, hporig, heq⟩ | ⟨hother, heq⟩ := h.placeOffset_cases
  · have hp := h.aligned p rfl
    have hs := h.end_eq p rfl
    have hcur := horig (hsource ▸ hrom)
    rw [alignUp_16] at hbefore
    have hexpected : ((s + 15) / 16 * 16 + 2 ^ 64 - p.offset + p.origOffset) % 2 ^ 64 =
        (s + 15) / 16 * 16 - p.offset + p.origOffset := by omega
    simp only [preservePadding]
    rw [if_pos ⟨hsource, hrom⟩, hexpected, heq]
    split_ifs with hne hgt
    · omega
    · apply congrArg some
      omega
    · apply congrArg some
      omega
  · rw [heq, alignUp_16]
    cases prev with
    | none => rfl
    | some p =>
      simp only [preservePadding]
      exact if_neg (hother p rfl)

end

/-- The partition does not end before where the loop is. -/
lemma Placing.le_partitionEnd (h : Placing s prev files) (e : Nat) :
    s ≤ partitionEnd s (placeFiles s e prev files) := by
  induction files generalizing s e prev with
  | nil => exact le_rfl
  | cons cur files ih =>
    rw [placeFiles, partitionEnd_cons]
    exact (h.le_placeOffset.trans (Nat.le_add_right _ _)).trans (ih (h.next e) _)

/-- The bytes of the files in their table. -/
def fileTableBytes (files : List RomFSBuildFileContext) : Nat :=
  (files.map fun f => fileEntrySize f.name.bytes).sum

/-- Where nothing wraps around, `Build` places the files without coming upon what should never happen. -/
lemma Placing.assignFileOffsets_eq (h : Placing s prev files)
    (hend : partitionEnd s (placeFiles s e prev files) < 2 ^ 64)
    (horig : ∀ f ∈ files, IsRom f.source → f.origOffset < 2 ^ 64) (hentry : e + fileTableBytes files < 2 ^ 32) :
    assignFileOffsets s e prev files =
      some (placeFiles s e prev files, partitionEnd s (placeFiles s e prev files)) := by
  induction files generalizing s e prev with
  | nil => rfl
  | cons cur files ih =>
    have hnext := h.next e
    rw [placeFiles, partitionEnd_cons] at hend ⊢
    have hle := hnext.le_partitionEnd (e + fileEntrySize cur.name.bytes)
    have hoffset : (placed s e prev cur).offset + (placed s e prev cur).size < 2 ^ 64 :=
      Nat.lt_of_le_of_lt hle hend
    have hplace : placeOffset s prev cur < 2 ^ 64 := Nat.lt_of_le_of_lt (Nat.le_add_right _ _) hoffset
    have hbytes : e + fileEntrySize cur.name.bytes + fileTableBytes files < 2 ^ 32 := by
      rw [fileTableBytes, List.map_cons, List.sum_cons] at hentry
      rw [fileTableBytes]
      omega
    have hrest := ih hnext hend (fun f hf => horig f (List.mem_cons_of_mem cur hf)) hbytes
    rw [assignFileOffsets, h.preservePadding_eq hplace (horig cur List.mem_cons_self)]
    simp only [Option.bind_eq_bind, Option.bind_some]
    rw [Nat.mod_eq_of_lt (a := placeOffset s prev cur + cur.size) hoffset, Nat.mod_eq_of_lt (by omega)]
    exact congrArg (fun r => Option.bind r _) hrest

/-- The bytes of the files that are in no RomFS. -/
def looseBytes (files : List RomFSBuildFileContext) : Nat :=
  ((files.filter fun f => ¬IsRom f.source).map (·.size)).sum

lemma looseBytes_cons_of_rom (hrom : IsRom cur.source) : looseBytes (cur :: files) = looseBytes files := by
  rw [looseBytes, List.filter_cons_of_neg (by simpa using hrom)]
  rfl

lemma looseBytes_cons_of_not_rom (hrom : ¬IsRom cur.source) :
    looseBytes (cur :: files) = cur.size + looseBytes files := by
  rw [looseBytes, List.filter_cons_of_pos (by simpa using hrom)]
  rfl

/-- A place in each of the two RomFS sources, added up. -/
def romSum (ends : RomFSDataSource → Nat) : Nat := ends .baseRomFS + ends .fileRomFS

lemma romSum_update {source : RomFSDataSource} (hrom : IsRom source) (ends : RomFSDataSource → Nat) (v : Nat) :
    romSum (Function.update ends source v) + ends source = romSum ends + v := by
  cases hrom with
  | inl hbase =>
    subst hbase
    simp [romSum, Function.update]
    omega
  | inr hfile =>
    subst hfile
    simp [romSum, Function.update]
    omega

/-- Where in its RomFS the last file of it that was placed ends. The files that are left lie behind, and in
front of the end of the RomFS. -/
structure RomLeft (ends limit : RomFSDataSource → Nat) (prev : Option RomFSBuildFileContext)
    (files : List RomFSBuildFileContext) : Prop where
  behind : ∀ f ∈ files, IsRom f.source → ends f.source ≤ f.origOffset
  inside : ∀ f ∈ files, IsRom f.source → f.origOffset + f.size ≤ limit f.source
  ends_le : ∀ source, ends source ≤ limit source
  prev_eq : ∀ p ∈ prev, IsRom p.source → ends p.source = p.origOffset + p.size

variable {ends limit : RomFSDataSource → Nat}

/-- A file of a RomFS moves the end forward in that RomFS. -/
lemma RomLeft.next_rom (hleft : RomLeft ends limit prev (cur :: files))
    (h : Placing s prev (cur :: files)) (hrom : IsRom cur.source) :
    RomLeft (Function.update ends cur.source (cur.origOffset + cur.size)) limit (some (placed s e prev cur))
      files := by
  have hcur : RomOrdered (cur :: files) := by
    cases prev with
    | none => exact h.ordered
    | some p => exact h.ordered.of_cons
  refine ⟨fun f hf hf' => ?_, fun f hf => hleft.inside f (List.mem_cons_of_mem cur hf), fun source => ?_,
    fun p hp _ => ?_⟩
  · by_cases hsource : f.source = cur.source
    · have hbefore := hcur.head_before hf hsource.symm hrom
      rw [alignUp_16] at hbefore
      rw [hsource, Function.update_self]
      omega
    · rw [Function.update_of_ne hsource]
      exact hleft.behind f (List.mem_cons_of_mem cur hf) hf'
  · by_cases hsource : source = cur.source
    · rw [hsource, Function.update_self]
      exact hleft.inside cur List.mem_cons_self hrom
    · rw [Function.update_of_ne hsource]
      exact hleft.ends_le source
  · cases hp
    exact Function.update_self _ _ _

/-- Any other file leaves it. -/
lemma RomLeft.next_loose (hleft : RomLeft ends limit prev (cur :: files)) (hrom : ¬IsRom cur.source) :
    RomLeft ends limit (some (placed s e prev cur)) files := by
  refine ⟨fun f hf => hleft.behind f (List.mem_cons_of_mem cur hf),
    fun f hf => hleft.inside f (List.mem_cons_of_mem cur hf), hleft.ends_le, fun p hp hp' => ?_⟩
  cases hp
  exact absurd hp' hrom

/-- A file of a RomFS takes no more of the partition than the end moves in the RomFS, and the alignment. -/
lemma RomLeft.placeOffset_le (hleft : RomLeft ends limit prev (cur :: files)) (h : Placing s prev (cur :: files))
    (hrom : IsRom cur.source) : placeOffset s prev cur + ends cur.source ≤ s + 16 + cur.origOffset := by
  have hbehind := hleft.behind cur List.mem_cons_self hrom
  obtain ⟨p, rfl, hsource, hp, hbefore, -, heq⟩ | ⟨-, heq⟩ := h.placeOffset_cases
  · have hprev := hleft.prev_eq p rfl hp
    have hs := h.end_eq p rfl
    rw [hsource] at hprev
    rw [alignUp_16] at hbefore
    omega
  · rw [heq, alignUp_16]
    omega

/-- The partition is not much longer than its sources. -/
lemma Placing.partitionEnd_le (h : Placing s prev files) (hleft : RomLeft ends limit prev files) :
    partitionEnd s (placeFiles s e prev files) + romSum ends ≤
      s + looseBytes files + 16 * files.length + romSum limit := by
  induction files generalizing s e prev ends with
  | nil =>
    have hbase := hleft.ends_le .baseRomFS
    have hfile := hleft.ends_le .fileRomFS
    change s + (_ + _) ≤ s + 0 + 0 + (_ + _)
    omega
  | cons cur files ih =>
    rw [placeFiles, partitionEnd_cons, List.length_cons]
    by_cases hrom : IsRom cur.source
    · have hrest := ih (h.next e) (e := e + fileEntrySize cur.name.bytes) (hleft.next_rom h hrom)
      have hplace := hleft.placeOffset_le h hrom
      have hsum := romSum_update hrom ends (cur.origOffset + cur.size)
      have hoffset : (placed s e prev cur).offset + (placed s e prev cur).size =
        placeOffset s prev cur + cur.size := rfl
      rw [looseBytes_cons_of_rom hrom]
      rw [hoffset] at hrest ⊢
      simp only [placed] at hrest ⊢
      omega
    · have hrest := ih (h.next e) (e := e + fileEntrySize cur.name.bytes) (hleft.next_loose hrom)
      have hplace : placeOffset s prev cur ≤ s + 15 := by
        obtain ⟨p, rfl, hsource, hp, -, -, -⟩ | ⟨-, heq⟩ := h.placeOffset_cases
        · exact absurd (hsource ▸ hp) hrom
        · rw [heq, alignUp_16]
          omega
      have hoffset : (placed s e prev cur).offset + (placed s e prev cur).size =
        placeOffset s prev cur + cur.size := rfl
      rw [looseBytes_cons_of_not_rom hrom]
      rw [hoffset] at hrest ⊢
      simp only [placed] at hrest ⊢
      omega

/-- A file is placed behind another one, and keeps its distance from it in their RomFS. -/
structure Follows (p f : RomFSBuildFileContext) : Prop where
  le : p.offset + p.size ≤ f.offset
  keep : p.source = f.source → IsRom p.source → f.offset + p.origOffset = p.offset + f.origOffset

lemma Placing.follows (h : Placing s prev (cur :: files)) (e : Nat) {p : RomFSBuildFileContext}
    (hp : p ∈ prev) : Follows p (placed s e prev cur) := by
  constructor
  · rw [← h.end_eq p hp]
    exact h.le_placeOffset
  · intro hsource hrom
    change placeOffset s prev cur + p.origOffset = p.offset + cur.origOffset
    obtain ⟨q, rfl, -, -, hbefore, -, heq⟩ | ⟨hother, -⟩ := h.placeOffset_cases
    · cases hp
      rw [alignUp_16] at hbefore
      omega
    · exact absurd ⟨hsource, hrom⟩ (hother p hp)

lemma Placing.isChain (h : Placing s prev files) (e : Nat) :
    List.IsChain Follows (prev.toList ++ placeFiles s e prev files) := by
  induction files generalizing s e prev with
  | nil =>
    rw [placeFiles, List.append_nil]
    cases prev with
    | none => exact List.isChain_nil
    | some p => exact List.isChain_singleton p
  | cons cur files ih =>
    have hrest := ih (h.next e) (e + fileEntrySize cur.name.bytes)
    cases prev with
    | none => exact hrest
    | some p => exact List.isChain_cons_cons.mpr ⟨h.follows e rfl, hrest⟩

/-- A file before it is placed. -/
def RomFSBuildFileContext.unplaced (f : RomFSBuildFileContext) : RomFSBuildFileContext :=
  { f with offset := 0, entryOffset := 0 }

end Place

end RajNX.FsMitm.RomFs
