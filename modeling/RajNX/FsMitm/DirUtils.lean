import RajNX.FsMitm.FileSystem
import RajNX.FsMitm.PathUtils

/-!
# Directory utilities

`IterateDirectoryRecursively`, `CopyFile`, `CopyDirectoryRecursively` and `RetryUntilTargetNotLocked`
of `fs_dir_utils.hpp` and `fs_dir_utils.cpp`. Copying a directory into an empty one touches nothing
outside of it, at any point, and when it returns the two look alike.

The work path of a traversal is the list of its names: entering a directory adds a name and leaving it
goes back to the separator before the last one.
-/

namespace RajNX.FsMitm

open FileTree Interruptible

/-- What the directory code gets from its surroundings: the order in which the file system lists the
names of a directory and the size of the work buffer. -/
structure Environment where
  readOrder : List Name → List Name
  readOrder_perm : ∀ l, (readOrder l).Perm l
  workBufSize : Nat
  workBufSize_pos : 0 < workBufSize

/-- The length of a directory's path string, with a separator before and after each name. -/
def pathLen (path : Path) : Nat := 1 + (path.map fun name => name.length + 1).sum

/-- The functions a traversal calls, with the variables they capture as a value `κ`. -/
structure Callbacks (κ : Type) where
  onEnterDir : Path → DirectoryEntry → κ → FsProc κ
  onExitDir : Path → DirectoryEntry → κ → FsProc κ
  onFile : Path → DirectoryEntry → Nat → κ → FsProc κ

/-- The loop over the entries of a directory. -/
def iterateEntries {κ : Type} (visit : DirectoryEntry → κ → FsProc κ) :
    List DirectoryEntry → κ → FsProc κ
  | [], k => pure k
  | ent :: rest, k => do
    let k ← visit ent k
    iterateEntries visit rest k

/-- The body of the loop over the entries of `workPath`: the path is checked, and a directory is
entered, traversed by `recurse` and left again. -/
def visitEntry {κ : Type} (calls : Callbacks κ) (recurse : Path → κ → FsProc κ) (workPath : Path)
    (ent : DirectoryEntry) (k : κ) : FsProc κ :=
  match ent.kind with
  | .dir =>
    if fsMaxPath ≤ pathLen workPath + ent.name.length + 1 then .fail .tooLongPath
    else do
      let k ← calls.onEnterDir (workPath ++ [ent.name]) ent k
      let k ← recurse (workPath ++ [ent.name]) k
      calls.onExitDir (workPath ++ [ent.name]) ent k
  | .file size =>
    if fsMaxPath ≤ pathLen workPath + ent.name.length then .fail .tooLongPath
    else calls.onFile (workPath ++ [ent.name]) ent size k

/-- `FsDirUtils::IterateDirectoryRecursivelyInternal`. Each level makes the work path longer and the
path is checked against `FS_MAX_PATH`, so as much fuel as that is never used up. -/
def iterateDirectoryRecursivelyInternal {κ : Type} (env : Environment) (calls : Callbacks κ) :
    Nat → Path → κ → FsProc κ
  | 0, _, _ => .fail .tooLongPath
  | fuel + 1, workPath, k => do
    let entries ← listDirectory env.readOrder workPath
    iterateEntries
      (visitEntry calls (iterateDirectoryRecursivelyInternal env calls fuel) workPath) entries k

/-- `FsDirUtils::IterateDirectoryRecursively` -/
def iterateDirectoryRecursively {κ : Type} (env : Environment) (calls : Callbacks κ)
    (rootPath : Path) (k : κ) : FsProc κ :=
  if fsMaxPath ≤ pathLen rootPath then .fail .tooLongPath
  else iterateDirectoryRecursivelyInternal env calls fsMaxPath rootPath k

/-- The loop of `FsDirUtils::CopyFile`. Each turn copies a byte at least. -/
def copyChunks (env : Environment) (dstPath srcPath : Path) (fileSize : Nat) :
    Nat → Nat → FsProc Unit
  | 0, offset => if offset < fileSize then .fail .aborted else pure ()
  | fuel + 1, offset =>
    if offset < fileSize then do
      let bytes ← readFile srcPath offset env.workBufSize
      writeFile dstPath offset bytes
      copyChunks env dstPath srcPath fileSize fuel (offset + bytes.length)
    else pure ()

/-- `FsDirUtils::CopyFile` -/
def copyFile (env : Environment) (dstParentPath srcPath : Path) (dirEnt : DirectoryEntry)
    (fileSize : Nat) : FsProc Unit := do
  openFile srcPath
  if fsMaxPath ≤ pathLen dstParentPath + dirEnt.name.length then
    .fail .aborted
  else
    createFile (dstParentPath ++ [dirEnt.name]) fileSize
    openFile (dstParentPath ++ [dirEnt.name])
    copyChunks env (dstParentPath ++ [dirEnt.name]) srcPath fileSize fileSize 0

/-- The functions `CopyDirectoryRecursively` traverses the source with; they share its work path. -/
def copyCallbacks (env : Environment) : Callbacks Path where
  onEnterDir := fun _ dirEnt workPath => do
    createDirectory (workPath ++ [dirEnt.name])
    pure (workPath ++ [dirEnt.name])
  onExitDir := fun _ _ workPath =>
    if pathLen workPath < 2 then .fail .invalidPathFormat else pure workPath.dropLast
  onFile := fun path dirEnt size workPath => do
    copyFile env workPath path dirEnt size
    pure workPath

/-- `FsDirUtils::CopyDirectoryRecursively` -/
def copyDirectoryRecursively (env : Environment) (dstPath srcPath : Path) : FsProc Unit := do
  let _ ← iterateDirectoryRecursively env (copyCallbacks env) srcPath dstPath
  pure ()

/-- `FsDirUtils::RetryUntilTargetNotLocked`: all of the tries are made, also after one that
succeeded. -/
def retryUntilTargetNotLocked (f : FsProc Unit) : Nat → FsProc Unit
  | 0 => pure ()
  | tries + 1 => do
    f.catchOnly .targetLocked (pure ())
    retryUntilTargetNotLocked f tries

/-- `MaxRetries` -/
def maxRetries : Nat := 10

/-! ## Copying -/

/-- Outside of the path everything is as before. -/
def Frame (path : Path) (s t : Tree) : Prop := ∀ q, ¬path <+: q → t.entryAt q = s.entryAt q

lemma Frame.refl (path : Path) (s : Tree) : Frame path s s := fun _ _ => rfl

lemma Frame.trans {path : Path} {s t u : Tree} (h : Frame path s t) (h' : Frame path t u) :
    Frame path s u := fun q hq => (h' q hq).trans (h q hq)

/-- Only what is below the path changed. -/
def Inside (path : Path) (s t : Tree) : Prop := Frame path s t ∧ t.entryAt path = s.entryAt path

lemma Inside.refl (path : Path) (s : Tree) : Inside path s s := ⟨Frame.refl path s, rfl⟩

lemma Inside.trans {path : Path} {s t u : Tree} (h : Inside path s t) (h' : Inside path t u) :
    Inside path s u := ⟨Frame.trans h.1 h'.1, h'.2.trans h.2⟩

lemma Frame.inside {path : Path} {s t : Tree} {name : Name} (h : Frame (path ++ [name]) s t) : Inside path s t := by
  refine ⟨?_, ?_⟩
  · exact fun q hq => h q fun hp => hq ((List.prefix_append path [name]).trans hp)
  · refine h path ?_
    intro hp
    simpa using hp.length_le

/-- Two paths neither of which is above the other. -/
def Apart (p q : Path) : Prop := ¬p <+: q ∧ ¬q <+: p

lemma Apart.not_prefix {p q : Path} (h : Apart p q) (a b : Path) : ¬p ++ a <+: q ++ b := by
  intro hp
  have hp' := (List.prefix_append p a).trans hp
  rcases List.prefix_or_prefix_of_prefix hp' (List.prefix_append q b) with hpq | hqp
  · exact h.1 hpq
  · exact h.2 hqp

lemma Apart.append {p q : Path} (h : Apart p q) (a b : Path) : Apart (p ++ a) (q ++ b) :=
  ⟨h.not_prefix a b, Apart.not_prefix ⟨h.2, h.1⟩ b a⟩

/-- A frame keeps what is apart from its path. -/
lemma Frame.entryAt {p q : Path} {s t : Tree} (h : Frame p s t) (hpq : Apart p q) (b : Path) :
    t.entryAt (q ++ b) = s.entryAt (q ++ b) :=
  h _ fun hp => hpq.not_prefix [] b (by simpa using hp)

/-- Copying a chunk that was read from the same place extends what is copied. -/
lemma take_overwrite {data c : List UInt8} {offset : Nat} (n : Nat) (hlen : c.length = data.length)
    (hoffset : offset ≤ data.length) (htake : c.take offset = data.take offset) :
    (overwrite c offset ((data.drop offset).take n)).length = data.length ∧
      (overwrite c offset ((data.drop offset).take n)).take
        (offset + ((data.drop offset).take n).length) =
        data.take (offset + ((data.drop offset).take n).length) := by
  have hbytes : ((data.drop offset).take n).length ≤ data.length - offset := by
    rw [List.length_take, List.length_drop]
    omega
  have hlength : (data.take offset).length = offset := by
    rw [List.length_take]
    omega
  have hcut : (data.drop offset).take ((data.drop offset).take n).length =
      (data.drop offset).take n := by
    rw [List.length_take, List.take_eq_take_iff]
    omega
  refine ⟨?_, ?_⟩
  · simp only [overwrite, List.length_append, List.length_drop, htake, hlength]
    omega
  · have hsum : (data.take offset ++ (data.drop offset).take n).length =
        offset + ((data.drop offset).take n).length := by
      rw [List.length_append, hlength]
    calc (overwrite c offset ((data.drop offset).take n)).take
          (offset + ((data.drop offset).take n).length)
        = data.take offset ++ (data.drop offset).take n := by
          rw [overwrite, htake, ← hsum, List.take_left]
      _ = data.take (offset + ((data.drop offset).take n).length) := by
          rw [List.take_add, hcut]

variable {F : FsError → Prop}

/-- The loop of `CopyFile` completes the copy it has begun; only a fault stops it. -/
lemma sat_copyChunks {env : Environment} {dst src : Path} {data : List UInt8} (hne : dst ≠ [])
    (hapart : Apart dst src) {fuel offset : Nat} {s : Tree} {c : List UInt8}
    (hsrc : s.entryAt src = some (.file data)) (hdst : s.entryAt dst = some (.file c)) (hlen : c.length = data.length)
    (htake : c.take offset = data.take offset) (hfuel : data.length ≤ offset + fuel) :
    (copyChunks env dst src data.length fuel offset).Sat F s (Frame dst s) fun r t =>
      Frame dst s t ∧ (∀ e, r = .error e → F e) ∧
        (r = .ok () → t.entryAt dst = some (.file data)) := by
  -- the invariant is that the first bytes are copied; at the end they are all
  have hdone : ∀ {offset : Nat} {c : List UInt8}, data.length ≤ offset → c.length = data.length →
      c.take offset = data.take offset → c = data := by
    intro offset c hle hlen htake
    rwa [List.take_of_length_le (by omega), List.take_of_length_le hle] at htake
  induction fuel generalizing offset s c with
  | zero =>
    rw [copyChunks, if_neg (by omega)]
    refine Proc.sat_pure ⟨Frame.refl dst s, nofun, fun _ => ?_⟩
    rw [hdst, hdone (by omega) hlen htake]
  | succ fuel ih =>
    rw [copyChunks]
    by_cases hlt : offset < data.length
    · rw [if_pos hlt]
      have hfail : ∀ e, F e → Frame dst s s ∧
          (∀ e', (.error e : Except FsError Unit) = .error e' → F e') ∧
          ((.error e : Except FsError Unit) = .ok () → s.entryAt dst = some (.file data)) := by
        intro e he
        refine ⟨Frame.refl dst s, ?_, nofun⟩
        rintro e' ⟨⟩
        exact he
      refine Proc.sat_bind (sat_readFile hsrc (Frame.refl dst s) ?_ ⟨?_, nofun⟩)
      · intro e he
        refine ⟨nofun, ?_⟩
        rintro e' ⟨⟩
        exact hfail e he
      rintro bytes ⟨⟩
      refine Proc.sat_bind (sat_writeFile hne hdst (Frame.refl dst s) ?_ ?_)
      · intro e he
        refine ⟨nofun, ?_⟩
        rintro e' ⟨⟩
        exact hfail e he
      intro t ht hframe
      refine ⟨hframe, ?_, nofun⟩
      rintro ⟨⟩ -
      obtain ⟨hlen', htake'⟩ := take_overwrite env.workBufSize hlen hlt.le htake
      -- the buffer has a size, so that every turn copies something
      have hprogress : 0 < ((data.drop offset).take env.workBufSize).length := by
        have := env.workBufSize_pos
        rw [List.length_take, List.length_drop]
        omega
      have hsrc' : t.entryAt src = some (.file data) := by
        rw [hframe src hapart.1, hsrc]
      refine (ih hsrc' ht hlen' htake' (by omega)).mono ?_ ?_
      · exact fun u hu => Frame.trans hframe hu
      · rintro r u ⟨hu, hrest⟩
        exact ⟨Frame.trans hframe hu, hrest⟩
    · rw [if_neg hlt]
      refine Proc.sat_pure ⟨Frame.refl dst s, nofun, fun _ => ?_⟩
      rw [hdst, hdone (by omega) hlen htake]

/-- `CopyFile` into a free path of a directory: only a fault or the path limit stops it. -/
lemma sat_copyFile {env : Environment} {parent src : Path} {ent : DirectoryEntry} {data : List UInt8} {s : Tree}
    (hsrc : s.entryAt src = some (.file data)) (hdir : s.entryAt parent = some .dir)
    (hfree : s.entryAt (parent ++ [ent.name]) = none) (hapart : Apart (parent ++ [ent.name]) src) :
    (copyFile env parent src ent data.length).Sat F s (Frame (parent ++ [ent.name]) s)
      fun r t => Frame (parent ++ [ent.name]) s t ∧
        (∀ e, r = .error e → F e ∨ e ≠ .targetLocked ∧
          fsMaxPath ≤ pathLen parent + ent.name.length) ∧
        (r = .ok () → t.entryAt (parent ++ [ent.name]) = some (.file data)) := by
  set dst := parent ++ [ent.name] with hdst
  have hne : dst ≠ [] := by simp [hdst]
  -- a fault leaves the tree as it is outside of the new file
  have hfail : ∀ {t : Tree} (e : FsError), Frame dst s t → F e → Frame dst s t ∧
      (∀ e', (.error e : Except FsError Unit) = .error e' → F e' ∨ e' ≠ .targetLocked ∧
        fsMaxPath ≤ pathLen parent + ent.name.length) ∧
      ((.error e : Except FsError Unit) = .ok () → t.entryAt dst = some (.file data)) := by
    intro t e ht he
    refine ⟨ht, ?_, by rintro ⟨⟩⟩
    rintro e' ⟨⟩
    exact .inl he
  refine Proc.sat_bind (sat_openFile hsrc (Frame.refl dst s) ?_ ⟨?_, by rintro _ ⟨⟩⟩)
  · intro e he
    refine ⟨by rintro _ ⟨⟩, ?_⟩
    rintro e' ⟨⟩
    exact hfail e (Frame.refl dst s) he
  rintro ⟨⟩ -
  split
  next hlong =>
    refine Proc.sat_fail ⟨Frame.refl dst s, ?_, by rintro ⟨⟩⟩
    rintro e ⟨⟩
    exact .inr ⟨by decide, hlong⟩
  next =>
    refine Proc.sat_bind (sat_createFile (Frame.refl dst s) ?_ ?_)
    · intro e he
      refine ⟨by rintro _ ⟨⟩, ?_⟩
      rintro e' ⟨⟩
      rcases he with he | ⟨-, hwhy⟩
      · exact hfail e (Frame.refl dst s) he
      · rw [List.dropLast_concat] at hwhy
        exact (hwhy.elim (fun h => h hfree) (fun h => h hdir)).elim
    rintro t ⟨-, hentry, -, hframe⟩
    refine ⟨hframe, ?_, by rintro _ ⟨⟩⟩
    rintro ⟨⟩ -
    refine Proc.sat_bind (sat_openFile hentry hframe ?_ ⟨?_, by rintro _ ⟨⟩⟩)
    · intro e he
      refine ⟨by rintro _ ⟨⟩, ?_⟩
      rintro e' ⟨⟩
      exact hfail e hframe he
    rintro ⟨⟩ -
    -- the new file is apart from the source
    have hsrc' : t.entryAt src = some (.file data) := by
      rw [hframe src hapart.1, hsrc]
    have hlen : (List.replicate data.length (0 : UInt8)).length = data.length :=
      List.length_replicate
    refine (sat_copyChunks hne hapart hsrc' hentry hlen rfl (by omega)).mono
      (fun u hu => Frame.trans hframe hu) ?_
    rintro r u ⟨hu, herror, hcopied⟩
    exact ⟨Frame.trans hframe hu, fun e he => .inl (herror e he), hcopied⟩

/-! ## Trees within the path limit -/

lemma pathLen_concat (path : Path) (name : Name) : pathLen (path ++ [name]) = pathLen path + name.length + 1 := by
  simp only [pathLen, List.map_append, List.map_singleton, List.sum_append, List.sum_singleton]
  omega

/-- The length of the path string of an entry, as the traversal checks it. -/
def entryLen (path : Path) (name : Name) (e : Entry (List UInt8)) : Nat :=
  pathLen path + name.length + if e = .dir then 1 else 0

/-- Everything below a directory is within `FS_MAX_PATH`. -/
def Fits (s : Tree) (src : Path) : Prop :=
  ∀ q name e, s.entryAt (src ++ q ++ [name]) = some e → entryLen (src ++ q) name e < fsMaxPath

/-- A name of a directory and everything below it is within `FS_MAX_PATH`. -/
def FitsChild (s : Tree) (src : Path) (name : Name) : Prop :=
  (∀ e, s.entryAt (src ++ [name]) = some e → entryLen src name e < fsMaxPath) ∧
    Fits s (src ++ [name])

lemma fits_iff (s : Tree) (src : Path) : Fits s src ↔ ∀ name, FitsChild s src name := by
  constructor
  · intro h name
    refine ⟨?_, ?_⟩
    · intro e he
      simpa using h [] name e (by simpa using he)
    · intro q name' e he
      simpa using h (name :: q) name' e (by simpa using he)
  · intro h q name e he
    cases q with
    | nil => simpa using (h name).1 e (by simpa using he)
    | cons x q => simpa using (h x).2 q name e (by simpa using he)

lemma Fits.congr {s t : Tree} {src : Path}
    (h : ∀ q, t.entryAt (src ++ q) = s.entryAt (src ++ q)) (hs : Fits s src) : Fits t src := by
  intro q name e he
  refine hs q name e ?_
  rw [List.append_assoc] at he ⊢
  rw [← h, he]

/-- A path with nothing at it has nothing below it that could be too long. -/
lemma fitsChild_of_none {s : Tree} {src : Path} {name : Name}
    (h : s.entryAt (src ++ [name]) = none) : FitsChild s src name := by
  refine ⟨?_, ?_⟩
  · intro e he
    rw [h] at he
    cases he
  · intro q name' e he
    rw [List.append_assoc, Node.entryAt_append_eq_none h] at he
    cases he

/-! ## Copying a directory -/

/-- The rule of the loop over the entries: an invariant that each visit passes on. -/
lemma sat_iterateEntries {κ : Type} {visit : DirectoryEntry → κ → FsProc κ}
    {R : Tree → Prop} {Q : Except FsError κ → Tree → Prop}
    (Inv : List DirectoryEntry → κ → Tree → Prop)
    (hvisit : ∀ ent rest k t, Inv (ent :: rest) k t → (visit ent k).Sat F t R fun r u =>
      (∀ k', r = .ok k' → Inv rest k' u) ∧ ∀ e, r = .error e → Q (.error e) u)
    (hend : ∀ k t, Inv [] k t → Q (.ok k) t) {entries : List DirectoryEntry} {k : κ} {t : Tree}
    (h : Inv entries k t) : (iterateEntries visit entries k).Sat F t R Q := by
  induction entries generalizing k t with
  | nil => exact Proc.sat_pure (hend k t h)
  | cons ent rest ih =>
    refine Proc.sat_bind ((hvisit ent rest k t h).mono (fun _ h => h) ?_)
    rintro r u ⟨hok, herror⟩
    exact ⟨fun k' hk' => ih (hok k' hk'), herror⟩

/-- What a copy of `src` into `dst` did: nothing outside of `dst` changed, and if it returned, the two
look alike and everything was within the path limit. Without a fault it is stopped only by a source
that is no directory or by the limit. -/
structure Copied {κ : Type} (F : FsError → Prop) (dst src : Path) (s : Tree) (r : Except FsError κ)
    (t : Tree) : Prop where
  inside : Inside dst s t
  error : ∀ e, r = .error e → F e ∨ e ≠ .targetLocked ∧ ¬(s.entryAt src = some .dir ∧ Fits s src)
  alike : (∃ k, r = .ok k) → ∀ q, t.entryAt (dst ++ q) = s.entryAt (src ++ q)
  dir : (∃ k, r = .ok k) → s.entryAt src = some .dir
  fits : (∃ k, r = .ok k) → Fits s src

/-- While a directory is copied, the names that are left to copy are not there yet, and the others look
alike. -/
structure Mirroring (dst src : Path) (s : Tree) (rest : List DirectoryEntry) (t : Tree) : Prop where
  inside : Inside dst s t
  dir : t.entryAt dst = some .dir
  nodup : (rest.map (·.name)).Nodup
  kind : ∀ ent ∈ rest, ∃ e, s.entryAt (src ++ [ent.name]) = some e ∧ ent.kind = listedKind e
  left : ∀ name ∈ rest.map (·.name), ∀ q, t.entryAt (dst ++ name :: q) = none
  alike : ∀ name, name ∉ rest.map (·.name) → ∀ q, t.entryAt (dst ++ name :: q) = s.entryAt (src ++ name :: q)

section Mirror

variable {dst src : Path} {s t u : Tree} {ent : DirectoryEntry} {rest : List DirectoryEntry}

/-- Before the first entry nothing is below the destination. -/
lemma Listing.mirroring (h : Listing src s rest) (hdst : s.entryAt dst = some .dir)
    (hempty : ∀ q, q ≠ [] → s.entryAt (dst ++ q) = none) : Mirroring dst src s rest s := by
  refine ⟨Inside.refl dst s, hdst, h.nodup, h.kind, ?_, ?_⟩
  · exact fun name _ q => hempty _ (List.cons_ne_nil name q)
  · intro name hname q
    have hnone : s.entryAt (src ++ [name]) = none := by
      by_contra hne
      exact hname ((h.mem_iff name).mpr hne)
    rw [hempty _ (List.cons_ne_nil name q), ← List.singleton_append, ← List.append_assoc,
      Node.entryAt_append_eq_none hnone]

lemma Mirroring.name_notMem (h : Mirroring dst src s (ent :: rest) t) :
    ent.name ∉ rest.map (·.name) := (List.nodup_cons.mp h.nodup).1

/-- A name that was copied. -/
lemma Mirroring.next (h : Mirroring dst src s (ent :: rest) t) (hframe : Frame (dst ++ [ent.name]) t u)
    (halike : ∀ q, u.entryAt (dst ++ [ent.name] ++ q) = s.entryAt (src ++ [ent.name] ++ q)) :
    Mirroring dst src s rest u := by
  have hother : ∀ name, name ≠ ent.name → ∀ q,
      u.entryAt (dst ++ name :: q) = t.entryAt (dst ++ name :: q) := by
    intro name hname q
    refine hframe _ ?_
    intro hp
    rw [List.prefix_append_right_inj] at hp
    exact hname (List.cons_prefix_cons.mp hp).1.symm
  refine ⟨h.inside.trans hframe.inside, ?_, (List.nodup_cons.mp h.nodup).2,
    fun ent' hent' => h.kind ent' (List.mem_cons_of_mem _ hent'), ?_, ?_⟩
  · rw [hframe.inside.2, h.dir]
  · intro name hname q
    have hne : name ≠ ent.name := by
      rintro rfl
      exact h.name_notMem hname
    rw [hother name hne, h.left name (List.mem_cons_of_mem _ hname)]
  · intro name hname q
    by_cases hne : name = ent.name
    · subst hne
      simpa using halike q
    · rw [hother name hne, h.alike name (by simpa [hne] using hname)]

/-- At the end the two look alike. -/
lemma Mirroring.done (h : Mirroring dst src s [] t) (hsrc : s.entryAt src = some .dir) (q : Path) :
    t.entryAt (dst ++ q) = s.entryAt (src ++ q) := by
  cases q with
  | nil => rw [List.append_nil, List.append_nil, h.dir, hsrc]
  | cons name q => exact h.alike name (by simp) q

end Mirror

/-- The invariant of copying a directory: the names that are left to copy are not there yet, and the
others look alike. -/
structure Copying (dst src : Path) (s : Tree) (rest : List DirectoryEntry) (workPath : Path)
    (t : Tree) : Prop where
  workPath : workPath = dst
  inside : Inside dst s t
  dir : t.entryAt dst = some .dir
  nodup : (rest.map (·.name)).Nodup
  kind : ∀ ent ∈ rest, ∃ e, s.entryAt (src ++ [ent.name]) = some e ∧ ent.kind = listedKind e
  left : ∀ name ∈ rest.map (·.name), ∀ q, t.entryAt (dst ++ name :: q) = none
  alike : ∀ name, name ∉ rest.map (·.name) → ∀ q, t.entryAt (dst ++ name :: q) = s.entryAt (src ++ name :: q)
  fits : ∀ name, name ∉ rest.map (·.name) → FitsChild s src name

section CopyDirectory

variable {dst src : Path} {s t u : Tree} {ent : DirectoryEntry} {rest : List DirectoryEntry}
  {workPath : Path}

lemma Copying.mirroring (h : Copying dst src s rest workPath t) : Mirroring dst src s rest t :=
  ⟨h.inside, h.dir, h.nodup, h.kind, h.left, h.alike⟩

/-- A name that was copied passes the invariant on. -/
lemma Copying.next (h : Copying dst src s (ent :: rest) workPath t) (hframe : Frame (dst ++ [ent.name]) t u)
    (halike : ∀ q, u.entryAt (dst ++ [ent.name] ++ q) = s.entryAt (src ++ [ent.name] ++ q))
    (hfits : FitsChild s src ent.name) : Copying dst src s rest dst u := by
  obtain ⟨hinside, hdir, hnodup, hkind, hleft, hcopied⟩ := h.mirroring.next hframe halike
  refine ⟨rfl, hinside, hdir, hnodup, hkind, hleft, hcopied, ?_⟩
  intro name hname
  by_cases hne : name = ent.name
  · rwa [hne]
  · exact h.fits name (by simpa [hne] using hname)

variable {F : FsError → Prop}

/-- A copy that stopped. -/
lemma copied_error {κ : Type} {e : FsError} (hinside : Inside dst s u)
    (h : F e ∨ e ≠ .targetLocked ∧ ¬(s.entryAt src = some .dir ∧ Fits s src)) :
    Copied F dst src s (.error e : Except FsError κ) u where
  inside := hinside
  error := by
    rintro e' ⟨⟩
    exact h
  alike := nofun
  dir := nofun
  fits := nofun

/-- At the end of the loop the copy is complete. -/
lemma Copying.done (h : Copying dst src s [] workPath t)
    (hsrc : s.entryAt src = some .dir) : Copied F dst src s (.ok workPath) t where
  inside := h.inside
  error := nofun
  alike := fun _ => h.mirroring.done hsrc
  dir := fun _ => hsrc
  fits := fun _ => (fits_iff s src).mpr fun name => h.fits name (by simp)

/-- What a visit to an entry does while a directory is copied. -/
def VisitPost (F : FsError → Prop) (dst src : Path) (s : Tree) (rest : List DirectoryEntry)
    (r : Except FsError Path) (u : Tree) : Prop :=
  (∀ k, r = .ok k → Copying dst src s rest k u) ∧
    ∀ e, r = .error e → Copied F dst src s (.error e : Except FsError Path) u

variable {env : Environment}

/-- Copying a file of the directory. -/
lemma Copying.visit_file {recurse : Path → Path → FsProc Path} {data : List UInt8}
    (h : Copying dst src s (ent :: rest) workPath t) (hapart : Apart dst src) (hlen : pathLen dst = pathLen src)
    (hdata : s.entryAt (src ++ [ent.name]) = some (.file data)) (hkind : ent.kind = .file data.length) :
    (visitEntry (copyCallbacks env) recurse src ent workPath).Sat F t (Inside dst s)
      (VisitPost F dst src s rest) := by
  obtain rfl := h.workPath
  have hsrc : t.entryAt (src ++ [ent.name]) = some (.file data) := by
    rw [h.inside.1.entryAt hapart, hdata]
  have hfree := h.left ent.name (by simp) []
  rw [visitEntry, hkind]
  dsimp only
  by_cases hlong : fsMaxPath ≤ pathLen src + ent.name.length
  · rw [if_pos hlong]
    refine Proc.sat_fail ⟨nofun, ?_⟩
    rintro e ⟨⟩
    refine copied_error h.inside (.inr ⟨by decide, fun ⟨_, hfits⟩ => ?_⟩)
    have := ((fits_iff s src).mp hfits ent.name).1 _ hdata
    simp only [entryLen, reduceCtorEq, if_false] at this
    omega
  · rw [if_neg hlong]
    refine Proc.sat_bind ((sat_copyFile hsrc h.dir hfree (hapart.append _ _)).mono
      (fun u hu => h.inside.trans hu.inside) ?_)
    rintro r u ⟨hframe, herror, hcopied⟩
    refine ⟨?_, ?_⟩
    · rintro ⟨⟩ rfl
      refine Proc.sat_pure ⟨?_, nofun⟩
      rintro k ⟨⟩
      have hentry := hcopied rfl
      refine h.next hframe ?_ ⟨?_, ?_⟩
      · intro q
        cases q with
        | nil => rw [List.append_nil, List.append_nil, hentry, hdata]
        | cons x q =>
          rw [Node.entryAt_below_file hentry (List.cons_ne_nil x q),
            Node.entryAt_below_file hdata (List.cons_ne_nil x q)]
      · intro e he
        rw [hdata] at he
        cases he
        simp only [entryLen, reduceCtorEq, if_false]
        omega
      · intro q name e he
        rw [List.append_assoc, Node.entryAt_below_file hdata (by simp)] at he
        cases he
    · rintro e rfl
      refine ⟨nofun, ?_⟩
      rintro e' ⟨⟩
      refine copied_error (h.inside.trans hframe.inside) ?_
      rcases herror e rfl with he | ⟨-, hlong'⟩
      · exact .inl he
      · omega

/-- Copying a directory of the directory, with what the traversal does inside of it. -/
lemma Copying.visit_dir {recurse : Path → Path → FsProc Path}
    (h : Copying dst src s (ent :: rest) workPath t) (hapart : Apart dst src)
    (hdata : s.entryAt (src ++ [ent.name]) = some .dir) (hkind : ent.kind = .dir)
    (hrecurse : ∀ u, u.entryAt (dst ++ [ent.name]) = some .dir →
      (∀ q, q ≠ [] → u.entryAt (dst ++ [ent.name] ++ q) = none) →
      pathLen src + ent.name.length + 1 < fsMaxPath →
      (recurse (src ++ [ent.name]) (dst ++ [ent.name])).Sat F u (Inside (dst ++ [ent.name]) u)
        fun r v => Copied F (dst ++ [ent.name]) (src ++ [ent.name]) u r v ∧
          ∀ k, r = .ok k → k = dst ++ [ent.name]) :
    (visitEntry (copyCallbacks env) recurse src ent workPath).Sat F t (Inside dst s)
      (VisitPost F dst src s rest) := by
  obtain rfl := h.workPath
  have hfree := h.left ent.name (by simp)
  rw [visitEntry, hkind]
  dsimp only
  by_cases hlong : fsMaxPath ≤ pathLen src + ent.name.length + 1
  · rw [if_pos hlong]
    refine Proc.sat_fail ⟨nofun, ?_⟩
    rintro e ⟨⟩
    refine copied_error h.inside (.inr ⟨by decide, fun ⟨_, hfits⟩ => ?_⟩)
    have := ((fits_iff s src).mp hfits ent.name).1 _ hdata
    simp only [entryLen, if_true] at this
    omega
  rw [if_neg hlong]
  -- on enter: the directory is created
  refine Proc.sat_bind (Proc.sat_bind (sat_createDirectory h.inside ?_ ?_))
  · intro e he
    refine ⟨nofun, ?_⟩
    rintro e' ⟨⟩
    refine ⟨nofun, ?_⟩
    rintro e' ⟨⟩
    refine ⟨nofun, ?_⟩
    rintro e' ⟨⟩
    refine copied_error h.inside ?_
    rcases he with he | ⟨-, hwhy⟩
    · exact .inl he
    · rw [List.dropLast_concat] at hwhy
      exact (hwhy.elim (fun hne => hne (hfree [])) (fun hne => hne h.dir)).elim
  rintro u ⟨-, hentry, hbelow, hframe⟩
  have hframe' : Frame (workPath ++ [ent.name]) t u := hframe
  have hsu : Inside workPath s u := h.inside.trans hframe'.inside
  refine ⟨hsu, ?_, nofun⟩
  rintro ⟨⟩ -
  refine Proc.sat_pure ⟨?_, nofun⟩
  rintro k ⟨⟩
  -- the traversal inside of it
  refine Proc.sat_bind ((hrecurse u hentry hbelow (by omega)).mono
    (fun v hv => hsu.trans hv.1.inside) ?_)
  rintro r v ⟨hcopied, hpath⟩
  have hsv : Inside workPath s v := hsu.trans hcopied.inside.1.inside
  have hsame : ∀ q, u.entryAt (src ++ [ent.name] ++ q) = s.entryAt (src ++ [ent.name] ++ q) := by
    intro q
    rw [List.append_assoc, hsu.1.entryAt hapart]
  refine ⟨?_, ?_⟩
  · rintro k rfl
    obtain rfl := hpath k rfl
    -- on exit: back to the directory above
    show (if pathLen (workPath ++ [ent.name]) < 2 then _ else _ : FsProc Path).Sat F v _ _
    rw [if_neg (by rw [pathLen_concat]; simp only [pathLen]; omega), List.dropLast_concat]
    refine Proc.sat_pure ⟨?_, nofun⟩
    rintro k ⟨⟩
    refine h.next (Frame.trans hframe' hcopied.inside.1) ?_ ⟨?_, ?_⟩
    · intro q
      rw [hcopied.alike ⟨_, rfl⟩, hsame]
    · intro e he
      rw [hdata] at he
      cases he
      simp only [entryLen, if_true]
      omega
    · exact (hcopied.fits ⟨_, rfl⟩).congr fun q => (hsame q).symm
  · rintro e rfl
    refine ⟨nofun, ?_⟩
    rintro e' ⟨⟩
    refine copied_error hsv ?_
    rcases hcopied.error e rfl with he | ⟨hlocked, hnot⟩
    · exact .inl he
    · refine .inr ⟨hlocked, fun ⟨_, hfits⟩ => hnot ⟨?_, ?_⟩⟩
      · simpa [hdata] using hsame []
      · exact ((fits_iff s src).mp hfits ent.name).2.congr hsame

/-- The traversal of `CopyDirectoryRecursively` into an empty directory. -/
lemma sat_iterate_copy {fuel : Nat} {dst src : Path} {s : Tree} (hapart : Apart dst src)
    (hlen : pathLen dst = pathLen src) (hshort : pathLen src < fsMaxPath) (hfuel : fsMaxPath ≤ fuel + pathLen src)
    (hdst : s.entryAt dst = some .dir) (hempty : ∀ q, q ≠ [] → s.entryAt (dst ++ q) = none) :
    (iterateDirectoryRecursivelyInternal env (copyCallbacks env) fuel src dst).Sat F s
      (Inside dst s) fun r t => Copied F dst src s r t ∧ ∀ k, r = .ok k → k = dst := by
  induction fuel generalizing dst src s with
  | zero => omega
  | succ fuel ih =>
    refine Proc.sat_bind (sat_listDirectory env.readOrder_perm (Inside.refl dst s) ?_ ?_)
    · intro e he
      refine ⟨nofun, ?_⟩
      rintro e' ⟨⟩
      refine ⟨copied_error (Inside.refl dst s) ?_, nofun⟩
      rcases he with he | ⟨rfl, hdir⟩
      · exact .inl he
      · exact .inr ⟨by decide, fun h => hdir h.1⟩
    intro entries hdir hlisting
    refine ⟨?_, nofun⟩
    rintro entries' ⟨⟩
    have hinit : Copying dst src s entries dst s := by
      obtain ⟨hinside, hdir', hnodup, hkind, hleft, hcopied⟩ := hlisting.mirroring hdst hempty
      refine ⟨rfl, hinside, hdir', hnodup, hkind, hleft, hcopied, ?_⟩
      intro name hname
      refine fitsChild_of_none ?_
      by_contra hne
      exact hname ((hlisting.mem_iff name).mpr hne)
    refine sat_iterateEntries (Copying dst src s) ?_ ?_ hinit
    · intro ent rest k t hinv
      obtain ⟨e, he, hkind⟩ := hinv.kind ent (by simp)
      have hpost : ∀ r u, VisitPost F dst src s rest r u →
          (∀ k', r = .ok k' → Copying dst src s rest k' u) ∧ ∀ e, r = .error e →
            Copied F dst src s (.error e : Except FsError Path) u ∧
              ∀ k, (.error e : Except FsError Path) = .ok k → k = dst := by
        rintro r u ⟨hok, herror⟩
        exact ⟨hok, fun e he => ⟨herror e he, nofun⟩⟩
      cases e with
      | file data => exact (hinv.visit_file hapart hlen he hkind).mono (fun _ h => h) hpost
      | dir =>
        -- a directory is one name deeper, so that the length of the path bounds the depth
        refine (hinv.visit_dir hapart he hkind ?_).mono (fun _ h => h) hpost
        intro u hu hbelow hlong
        have hlen' : pathLen (dst ++ [ent.name]) = pathLen (src ++ [ent.name]) := by
          rw [pathLen_concat, pathLen_concat, hlen]
        have hshort' : pathLen (src ++ [ent.name]) < fsMaxPath := by
          rwa [pathLen_concat]
        refine ih (hapart.append _ _) hlen' hshort' ?_ hu hbelow
        rw [pathLen_concat]
        omega
    · intro k t hinv
      refine ⟨hinv.done hdir, ?_⟩
      rintro k' ⟨⟩
      exact hinv.workPath

/-- `CopyDirectoryRecursively` into an empty directory. -/
lemma sat_copyDirectoryRecursively {dst src : Path} {s : Tree}
    (hapart : Apart dst src) (hlen : pathLen dst = pathLen src) (hshort : pathLen src < fsMaxPath)
    (hdst : s.entryAt dst = some .dir) (hempty : ∀ q, q ≠ [] → s.entryAt (dst ++ q) = none) :
    (copyDirectoryRecursively env dst src).Sat F s (Inside dst s)
      (Copied F dst src s) := by
  rw [copyDirectoryRecursively, iterateDirectoryRecursively, if_neg (by omega)]
  refine Proc.sat_bind ((sat_iterate_copy hapart hlen hshort (by omega) hdst hempty).mono
    (fun _ h => h) ?_)
  rintro r t ⟨hcopied, -⟩
  refine ⟨?_, ?_⟩
  · rintro k rfl
    exact Proc.sat_pure ⟨hcopied.inside, nofun, fun _ => hcopied.alike ⟨k, rfl⟩,
      fun _ => hcopied.dir ⟨k, rfl⟩, fun _ => hcopied.fits ⟨k, rfl⟩⟩
  · rintro e rfl
    exact copied_error hcopied.inside (hcopied.error e rfl)

end CopyDirectory

/-! ## Retrying -/

/-- The rule of the tries: `P` holds between them, and unless a try can be locked, the last one leaves
`Done`. -/
lemma sat_retryUntilTargetNotLocked {f : FsProc Unit} {R : Tree → Prop}
    {P Done : Tree → Prop} {E : FsError → Tree → Prop}
    (hf : ∀ t, P t → f.Sat F t R fun r u => P u ∧ (r = .ok () → Done u) ∧
      (r = .error .targetLocked → F .targetLocked) ∧
      ∀ e, r = .error e → e ≠ .targetLocked → E e u) {tries : Nat} {t : Tree} (ht : P t) :
    (retryUntilTargetNotLocked f tries).Sat F t R fun r u =>
      P u ∧ (r = .ok () → ¬F .targetLocked → 0 < tries ∨ Done t → Done u) ∧
        ∀ e, r = .error e → E e u := by
  induction tries generalizing t with
  | zero =>
    refine Proc.sat_pure ⟨ht, ?_, nofun⟩
    rintro - - (hlt | hdone)
    · exact (Nat.lt_irrefl 0 hlt).elim
    · exact hdone
  | succ tries ih =>
    have hnext : ∀ {u : Tree}, P u → (¬F .targetLocked → Done u) →
        (retryUntilTargetNotLocked f tries).Sat F u R fun r v =>
          P v ∧ (r = .ok () → ¬F .targetLocked → 0 < tries + 1 ∨ Done t → Done v) ∧
            ∀ e, r = .error e → E e v := by
      intro u hu hdone
      refine (ih hu).mono (fun _ h => h) ?_
      rintro r v ⟨hv, hdone', herror⟩
      exact ⟨hv, fun hr hF _ => hdone' hr hF (.inr (hdone hF)), herror⟩
    refine Proc.sat_bind (Proc.sat_catchOnly ((hf t ht).mono (fun _ h => h) ?_))
    rintro r u ⟨hu, hdone, hlocked, herror⟩
    refine ⟨?_, ?_, ?_⟩
    · rintro rfl
      refine ⟨?_, nofun⟩
      rintro ⟨⟩ -
      exact hnext hu fun _ => hdone rfl
    · rintro rfl
      refine Proc.sat_pure ⟨?_, nofun⟩
      rintro ⟨⟩ -
      exact hnext hu fun hF => (hF (hlocked rfl)).elim
    · rintro e rfl hne
      refine ⟨nofun, ?_⟩
      rintro e' ⟨⟩
      refine ⟨hu, nofun, ?_⟩
      rintro e' ⟨⟩
      exact herror e rfl hne

end RajNX.FsMitm
