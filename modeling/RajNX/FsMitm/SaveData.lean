import RajNX.FsMitm.DirUtils
import RajNX.FsMitm.FullPath

/-!
# Directory save data

`DirectorySaveDataFileSystem` of `fs_directory_savedata_filesystem.cpp`: a save is a directory with a
committed, a working and a synchronizing directory. `Initialize` brings the first two in step,
everything else works in the working directory, and `CommitImpl` copies it to the synchronizing
directory, which then takes the place of the committed one.
-/

namespace RajNX.FsMitm

open FileTree Interruptible SlashPath CString

/-- `CommittedDirectoryPath`, that is `/0/` -/
def committedDirectory : Path := [[0x30]]

/-- `WorkingDirectoryPath`, that is `/1/` -/
def workingDirectory : Path := [[0x31]]

/-- `SynchronizingDirectoryPath`, that is `/_/` -/
def synchronizingDirectory : Path := [[0x5F]]

/-- `DirectorySaveDataFileSystem::SynchronizeDirectory`. A work buffer that cannot be allocated ends the
process, as a loss of power would. -/
def synchronizeDirectory (env : Environment) (dstDir srcDir : Path) : FsProc Unit := do
  (deleteDirectoryRecursively dstDir).catchOnly .pathNotFound (pure ())
  createDirectory dstDir
  copyDirectoryRecursively env dstDir srcDir

/-- The first part of `Initialize`: a missing working directory is created together with the committed
directory. -/
def ensureWorking : FsProc Unit :=
  (getEntryType workingDirectory >>= fun _ => pure ()).catchOnly .pathNotFound (do
    createDirectory workingDirectory
    createDirectory committedDirectory)

/-- The second part of `Initialize`: what is committed is the truth, or else what was being
committed. -/
def ensureCommitted (env : Environment) : FsProc Unit := do
  match ← (getEntryType committedDirectory).attempt with
  | .ok _ => synchronizeDirectory env workingDirectory committedDirectory
  | .error e =>
    if e = .pathNotFound then do
      synchronizeDirectory env synchronizingDirectory workingDirectory
      renameDirectory synchronizingDirectory committedDirectory
    else .fail e

/-- `DirectorySaveDataFileSystem::Initialize` -/
def initializeSave (env : Environment) : FsProc Unit := do
  ensureWorking
  ensureCommitted env

/-- The tries to synchronize of `CommitImpl`. -/
def commitSynchronize (env : Environment) : Nat → FsProc Unit :=
  retryUntilTargetNotLocked (synchronizeDirectory env synchronizingDirectory workingDirectory)

/-- The tries to delete the committed directory of `CommitImpl`. -/
def commitDelete : FsProc Unit :=
  (retryUntilTargetNotLocked (deleteDirectoryRecursively committedDirectory) maxRetries).catchOnly
    .pathNotFound (pure ())

/-- `CommitImpl` up to its last step. -/
def commitPrepare (env : Environment) (openWritableFiles : Nat) : FsProc Unit :=
  if openWritableFiles ≠ 0 then .fail .preconditionViolation
  else do
    commitSynchronize env maxRetries
    commitDelete

/-- The tries to rename of `CommitImpl`. -/
def commitRename : FsProc Unit :=
  retryUntilTargetNotLocked (renameDirectory synchronizingDirectory committedDirectory) maxRetries

/-- `DirectorySaveDataFileSystem::CommitImpl` -/
def commitImpl (env : Environment) (openWritableFiles : Nat) : FsProc Unit := do
  commitPrepare env openWritableFiles
  commitRename

/-- The path that `GetFullPath` makes of a relative path. -/
def saveDataPath (relativePath : List UInt8) : Option Path :=
  match saveDataGetFullPath (List.replicate fsMaxPath 0) relativePath with
  | .returned .success out => some (components slash (cString out))
  | _ => none

/-- The calls that change what is in the working directory, with their relative paths. A write goes
through a file that was opened with its path. -/
inductive WorkingCall
  | createFile (path : List UInt8) (size : Nat)
  | deleteFile (path : List UInt8)
  | createDirectory (path : List UInt8)
  | deleteDirectory (path : List UInt8)
  | deleteDirectoryRecursively (path : List UInt8)
  | cleanDirectoryRecursively (path : List UInt8)
  | renameFile (old new : List UInt8)
  | renameDirectory (old new : List UInt8)
  | writeFile (path : List UInt8) (offset : Nat) (bytes : List UInt8)
  | setFileSize (path : List UInt8) (size : Nat)
deriving Repr, DecidableEq

/-- `R_TRY(GetFullPath(full_path, path))` and the call on the underlying file system. -/
def onFullPath (relativePath : List UInt8) (f : Path → FsProc Unit) : FsProc Unit :=
  match saveDataPath relativePath with
  | some path => f path
  | none => .fail .invalidPathFormat

/-- What a call does. -/
def WorkingCall.proc : WorkingCall → FsProc Unit
  | .createFile path size => onFullPath path (FsMitm.createFile · size)
  | .deleteFile path => onFullPath path FsMitm.deleteFile
  | .createDirectory path => onFullPath path FsMitm.createDirectory
  | .deleteDirectory path => onFullPath path FsMitm.deleteDirectory
  | .deleteDirectoryRecursively path => onFullPath path FsMitm.deleteDirectoryRecursively
  | .cleanDirectoryRecursively path => onFullPath path FsMitm.cleanDirectoryRecursively
  | .renameFile old new => onFullPath old fun old => onFullPath new (FsMitm.renameFile old)
  | .renameDirectory old new =>
    onFullPath old fun old => onFullPath new (FsMitm.renameDirectory old)
  | .writeFile path offset bytes => onFullPath path (FsMitm.writeFile · offset bytes)
  | .setFileSize path size => onFullPath path (FsMitm.setFileSize · size)

/-! ## The three directories -/

lemma apart_synchronizing_working : Apart synchronizingDirectory workingDirectory := by
  constructor <;> decide

lemma apart_working_committed : Apart workingDirectory committedDirectory := by
  constructor <;> decide

lemma apart_synchronizing_committed : Apart synchronizingDirectory committedDirectory := by
  constructor <;> decide

lemma Apart.symm {p q : Path} (h : Apart p q) : Apart q p := ⟨h.2, h.1⟩

/-- What is seen of a directory. -/
abbrev View := Path → Option (Entry (List UInt8))

/-- The contents of a directory, with its own entry at the empty path. -/
def view (s : Tree) (dir : Path) : View := fun q => s.entryAt (dir ++ q)

/-- The contents of an empty directory. -/
def emptyView : View := fun q => if q = [] then some .dir else none

variable {s t : Tree}

lemma Frame.view {p q : Path} (h : Frame p s t) (hpq : Apart p q) :
    view t q = view s q := funext fun b => h.entryAt hpq b

lemma Frame.entryAt_self {p q : Path} (h : Frame p s t) (hpq : Apart p q) :
    t.entryAt q = s.entryAt q := h q hpq.1

/-- A directory is no file, so it can be deleted or created. -/
def NoFile (s : Tree) (path : Path) : Prop := ∀ data, s.entryAt path ≠ some (.file data)

lemma pathLen_append (p q : Path) : pathLen (p ++ q) + 1 = pathLen p + pathLen q := by
  simp only [pathLen, List.map_append, List.sum_append]
  omega

/-- A directory that looks like one within the limit, under a path of the same length, is within it
too. -/
lemma Fits.transfer {src dst : Path} (hs : Fits s src)
    (h : view t dst = view s src) (hlen : pathLen dst = pathLen src) : Fits t dst := by
  intro q name e he
  have hsrc : s.entryAt (src ++ q ++ [name]) = some e := by
    rw [List.append_assoc] at he ⊢
    rw [← he]
    exact (congrFun h (q ++ [name])).symm
  have hfits := hs q name e hsrc
  have h1 := pathLen_append dst q
  have h2 := pathLen_append src q
  rw [entryLen] at hfits ⊢
  omega

/-! ## Synchronizing -/

/-- What a step of synchronizing `dst` keeps. -/
def Keeps (dst : Path) (s t : Tree) : Prop := Frame dst s t ∧ (NoFile s dst → NoFile t dst)

lemma Keeps.refl (dst : Path) (s : Tree) : Keeps dst s s := ⟨Frame.refl dst s, fun h => h⟩

lemma Keeps.trans {dst : Path} {s t u : Tree} (h : Keeps dst s t) (h' : Keeps dst t u) :
    Keeps dst s u := ⟨Frame.trans h.1 h'.1, fun hs => h'.2 (h.2 hs)⟩

/-- What synchronizing `dst` with `src` did. -/
structure Synchronized (F : FsError → Prop) (dst src : Path) (s : Tree) (r : Except FsError Unit)
    (t : Tree) : Prop where
  keeps : Keeps dst s t
  notLocked : r = .error .targetLocked → F .targetLocked
  returns : (∀ e, ¬F e) → s.entryAt src = some .dir → Fits s src → NoFile s dst → r = .ok ()
  alike : r = .ok () → view t dst = view s src
  dir : r = .ok () → s.entryAt src = some .dir
  fits : r = .ok () → Fits s src
  wasNoFile : r = .ok () → NoFile s dst

variable {F : FsError → Prop}

/-- Synchronizing that stopped. -/
lemma synchronized_error {dst src : Path} {e : FsError}
    (hkeeps : Keeps dst s t) (hlocked : e = .targetLocked → F .targetLocked)
    (hwhy : (∃ e, F e) ∨ ¬(s.entryAt src = some .dir ∧ Fits s src ∧ NoFile s dst)) :
    Synchronized F dst src s (.error e) t where
  keeps := hkeeps
  notLocked := by
    rintro ⟨⟩
    exact hlocked rfl
  returns := by
    intro hF hdir hfits hfile
    rcases hwhy with ⟨e', he'⟩ | hnot
    · exact (hF e' he').elim
    · exact (hnot ⟨hdir, hfits, hfile⟩).elim
  alike := nofun
  dir := nofun
  fits := nofun
  wasNoFile := nofun

/-- What the deletion at the start of `SynchronizeDirectory` leaves: the path is free, or a file or a
fault is in the way. -/
def Cleared (F : FsError → Prop) (dst : Path) (s t : Tree) : Prop :=
  Keeps dst s t ∧ (t.entryAt dst = none ∧ NoFile s dst ∨
    t.entryAt dst ≠ none ∧ ((∃ e, F e) ∨ ¬NoFile s dst))

variable {s : Tree}

lemma sat_clear {dst : Path} (src : Path) (hne : dst ≠ []) :
    ((deleteDirectoryRecursively dst).catchOnly .pathNotFound (pure ())).Sat F s (Keeps dst s)
      fun r t => (r = .ok () → Cleared F dst s t) ∧
        ∀ e, r = .error e → Synchronized F dst src s (.error e) t := by
  have hleft : ∀ e, F e ∨ e = .pathNotFound ∧ s.entryAt dst ≠ some .dir → e = .pathNotFound →
      Cleared F dst s s := by
    intro e he hnotFound
    refine ⟨Keeps.refl dst s, ?_⟩
    cases hentry : s.entryAt dst with
    | none => exact .inl ⟨rfl, fun data => by simp [hentry]⟩
    | some entry =>
      refine .inr ⟨by simp, ?_⟩
      rcases he with he | ⟨-, hdir⟩
      · exact .inl ⟨e, he⟩
      · cases entry with
        | dir => exact (hdir hentry).elim
        | file data => exact .inr fun h => h data hentry
  refine Proc.sat_catchOnly (sat_deleteDirectoryRecursively hne (Keeps.refl dst s) ?_ ?_)
  · intro e he
    refine ⟨by rintro ⟨⟩, ?_, ?_⟩
    · rintro ⟨⟩
      exact Proc.sat_pure ⟨fun _ => hleft _ he rfl, by rintro _ ⟨⟩⟩
    · rintro e' ⟨⟩ hother
      refine ⟨by rintro ⟨⟩, ?_⟩
      rintro e' ⟨⟩
      rcases he with he | ⟨rfl, -⟩
      · exact synchronized_error (Keeps.refl dst s) (fun h => h ▸ he) (.inl ⟨e, he⟩)
      · exact (hother rfl).elim
  · intro t hdir herased
    have hfree : t.entryAt dst = none := by
      simpa using herased.1 []
    have hkeeps : Keeps dst s t := ⟨herased.2, fun _ data => by simp [hfree]⟩
    refine ⟨hkeeps, ⟨?_, by rintro ⟨⟩, by rintro _ ⟨⟩⟩⟩
    intro _
    exact ⟨fun _ => ⟨hkeeps, .inl ⟨hfree, fun data => by simp [hdir]⟩⟩, by rintro _ ⟨⟩⟩

variable {env : Environment}

/-- `SynchronizeDirectory` between two top-level directories touches only the first, and when it
returns they look alike. -/
lemma sat_synchronizeDirectory {x y : Name}
    (hapart : Apart [x] [y]) (hlen : pathLen [x] = pathLen [y]) (hshort : pathLen [y] < fsMaxPath) :
    (synchronizeDirectory env [x] [y]).Sat F s (Keeps [x] s) (Synchronized F [x] [y] s) := by
  refine Proc.sat_bind ((sat_clear [y] (by simp)).mono (fun _ h => h) ?_)
  rintro r t ⟨hcleared, herror⟩
  refine ⟨?_, herror⟩
  rintro ⟨⟩ rfl
  obtain ⟨hkeeps, hfree⟩ := hcleared rfl
  refine Proc.sat_bind (sat_createDirectory hkeeps ?_ ?_)
  · intro e he
    refine ⟨by rintro _ ⟨⟩, ?_⟩
    rintro e' ⟨⟩
    rcases he with he | ⟨hlocked, hwhy⟩
    · exact synchronized_error hkeeps (fun h => h ▸ he) (.inl ⟨e, he⟩)
    refine synchronized_error hkeeps (fun h => (hlocked h).elim) ?_
    rcases hwhy with htaken | hroot
    · rcases hfree with ⟨hnone, -⟩ | ⟨-, hF | hfile⟩
      · exact (htaken hnone).elim
      · exact .inl hF
      · exact .inr fun h => hfile h.2.2
    · refine .inr fun h => hroot ?_
      have hdir : s.entryAt [] = some .dir :=
        Node.entryAt_of_below (q := [y]) (by simp) (by simp [h.1])
      show t.entryAt [] = some .dir
      rw [hkeeps.1 [] (by simp), hdir]
  -- the destination is an empty directory now, into which the source is copied
  · rintro u ⟨hnone, hentry, hbelow, hframe⟩
    have hfile : NoFile s [x] := by
      rcases hfree with ⟨-, hfile⟩ | ⟨htaken, -⟩
      · exact hfile
      · exact (htaken hnone).elim
    have hdirFile : ∀ {v : Tree}, v.entryAt [x] = some .dir → NoFile v [x] := by
      intro v hv data
      simp [hv]
    have hsu : Frame [x] s u := Frame.trans hkeeps.1 hframe
    refine ⟨⟨hsu, fun _ => hdirFile hentry⟩, ?_, by rintro _ ⟨⟩⟩
    rintro ⟨⟩ -
    have hinside : ∀ v, Inside [x] u v → Keeps [x] s v := fun v hv =>
      ⟨Frame.trans hsu hv.1, fun _ => hdirFile (by rw [hv.2, hentry])⟩
    refine (sat_copyDirectoryRecursively hapart hlen hshort hentry hbelow).mono hinside ?_
    intro r v hcopied
    have hsame : ∀ q, u.entryAt ([y] ++ q) = s.entryAt ([y] ++ q) := hsu.entryAt hapart
    have hsrc : u.entryAt [y] = s.entryAt [y] := hsu.entryAt_self hapart
    refine ⟨hinside v hcopied.inside, ?_, ?_, ?_, ?_, ?_, fun _ => hfile⟩
    · intro hr
      rcases hcopied.error _ hr with hF | ⟨hlocked, -⟩
      · exact hF
      · exact (hlocked rfl).elim
    · intro hF hdir hfits _
      cases r with
      | ok => rfl
      | error e =>
        rcases hcopied.error e rfl with he | ⟨-, hnot⟩
        · exact (hF e he).elim
        · exact (hnot ⟨hsrc.trans hdir, hfits.congr hsame⟩).elim
    · rintro rfl
      funext q
      exact (hcopied.alike ⟨(), rfl⟩ q).trans (hsame q)
    · rintro rfl
      rw [← hsrc, hcopied.dir ⟨(), rfl⟩]
    · rintro rfl
      exact (hcopied.fits ⟨(), rfl⟩).congr fun q => (hsame q).symm

/-- Synchronizing with the working directory, for a commit. -/
lemma sat_synchronizeWorking :
    (synchronizeDirectory env synchronizingDirectory workingDirectory).Sat F s
      (Keeps synchronizingDirectory s)
      (Synchronized F synchronizingDirectory workingDirectory s) :=
  sat_synchronizeDirectory apart_synchronizing_working rfl (by decide)

/-- Synchronizing the working directory with what is committed. -/
lemma sat_synchronizeCommitted :
    (synchronizeDirectory env workingDirectory committedDirectory).Sat F s
      (Keeps workingDirectory s) (Synchronized F workingDirectory committedDirectory s) :=
  sat_synchronizeDirectory apart_working_committed rfl (by decide)

/-! ## What a save keeps on disk -/

/-- Where the contents that recovery will take are: in the committed directory, or without one in the
working directory; a new save has neither. -/
inductive Truth (A : View → Prop) (s : Tree) : Prop
  | committed : s.entryAt committedDirectory = some .dir → Fits s committedDirectory →
    A (view s committedDirectory) → Truth A s
  | working : s.entryAt committedDirectory = none → s.entryAt workingDirectory = some .dir →
    Fits s workingDirectory → A (view s workingDirectory) → Truth A s
  | fresh : s.entryAt committedDirectory = none → s.entryAt workingDirectory = none →
    A emptyView → Truth A s

/-- The invariant of the disk: recovery will take contents that are allowed. -/
structure Sound (A : View → Prop) (s : Tree) : Prop where
  root : s.entryAt [] = some .dir
  noFile : NoFile s synchronizingDirectory
  truth : Truth A s

lemma Truth.mono {A B : View → Prop} (h : Truth A s) (hAB : ∀ v, A v → B v) : Truth B s := by
  cases h with
  | committed hdir hfits hA => exact .committed hdir hfits (hAB _ hA)
  | working hnone hdir hfits hA => exact .working hnone hdir hfits (hAB _ hA)
  | fresh hnone hnone' hA => exact .fresh hnone hnone' (hAB _ hA)

lemma Sound.mono {A B : View → Prop} (h : Sound A s) (hAB : ∀ v, A v → B v) :
    Sound B s := ⟨h.root, h.noFile, h.truth.mono hAB⟩

/-- The root is above every directory. -/
lemma Frame.root {p : Path} (h : Frame p s t) (hp : p ≠ []) :
    t.entryAt [] = s.entryAt [] := h [] (by simpa using hp)

lemma Fits.frame {p q : Path} (hs : Fits s q) (h : Frame p s t) (hpq : Apart p q) :
    Fits t q := hs.congr (h.entryAt hpq)

variable {A : View → Prop}

/-- Changes in the synchronizing directory keep the invariant. -/
lemma Sound.synchronizing (h : Sound A s) (hkeeps : Keeps synchronizingDirectory s t) : Sound A t := by
  obtain ⟨hframe, hfile⟩ := hkeeps
  have hC := hframe.entryAt_self apart_synchronizing_committed
  have hW := hframe.entryAt_self apart_synchronizing_working
  refine ⟨(hframe.root (by decide)).trans h.root, hfile h.noFile, ?_⟩
  cases h.truth with
  | committed hdir hfits hA =>
    refine .committed (hC.trans hdir) (hfits.frame hframe apart_synchronizing_committed) ?_
    rwa [hframe.view apart_synchronizing_committed]
  | working hnone hdir hfits hA =>
    refine .working (hC.trans hnone) (hW.trans hdir)
      (hfits.frame hframe apart_synchronizing_working) ?_
    rwa [hframe.view apart_synchronizing_working]
  | fresh hnone hnone' hA => exact .fresh (hC.trans hnone) (hW.trans hnone') hA

/-- With a committed directory, changes in the working directory keep the invariant. -/
lemma Sound.changed (h : Sound A s)
    (hdir : s.entryAt committedDirectory = some .dir) (hframe : Frame workingDirectory s t) :
    Sound A t ∧ t.entryAt committedDirectory = some .dir := by
  have hC := hframe.entryAt_self apart_working_committed
  have hS := hframe.entryAt_self apart_synchronizing_working.symm
  refine ⟨⟨(hframe.root (by decide)).trans h.root, ?_, ?_⟩, hC.trans hdir⟩
  · intro data
    rw [hS]
    exact h.noFile data
  · cases h.truth with
    | committed _ hfits hA =>
      refine .committed (hC.trans hdir) (hfits.frame hframe apart_working_committed) ?_
      rwa [hframe.view apart_working_committed]
    | working hnone => simp [hdir] at hnone
    | fresh hnone => simp [hdir] at hnone

/-- What the second part of `Initialize` does. -/
structure Recovered (A : View → Prop) (ok : Prop) (r : Except FsError Unit) (t : Tree) :
    Prop where
  sound : Sound A t
  committed : r = .ok () → t.entryAt committedDirectory = some .dir
  alike : r = .ok () → view t workingDirectory = view t committedDirectory
  allowed : r = .ok () → A (view t committedDirectory)
  returns : r = .ok () ↔ ok

/-- A directory that was just created is seen as empty. -/
lemma Created.view {path : Path} (h : Created path .dir s t) : view t path = emptyView := by
  obtain ⟨-, hentry, hbelow, -⟩ := h
  funext q
  by_cases hq : q = []
  · simp [FsMitm.view, emptyView, hq, hentry]
  · simp [FsMitm.view, emptyView, hq, hbelow q hq]

/-- An empty directory is within every limit. -/
lemma fits_of_emptyView {path : Path} (h : view s path = emptyView) : Fits s path := by
  intro q name e he
  have hnone := congrFun h (q ++ [name])
  rw [view, ← List.append_assoc, he] at hnone
  simp [emptyView] at hnone

/-- Renaming the synchronizing directory commits it. -/
lemma Moved.commits {v : View} (h : Moved synchronizingDirectory committedDirectory s t)
    (hroot : s.entryAt [] = some .dir) (hdir : s.entryAt synchronizingDirectory = some .dir)
    (hview : view s synchronizingDirectory = v) (hfits : Fits s synchronizingDirectory) (hA : A v) :
    Sound A t ∧ t.entryAt committedDirectory = some .dir ∧ view t committedDirectory = v ∧
      view t workingDirectory = view s workingDirectory := by
  obtain ⟨hnew, hold, hother⟩ := h
  have hC : t.entryAt committedDirectory = some .dir := by
    simpa [hdir] using hnew []
  have hviewC : view t committedDirectory = v := by
    rw [← hview]
    exact funext hnew
  have hS : t.entryAt synchronizingDirectory = none := by
    simpa using hold []
  refine ⟨⟨?_, ?_, .committed hC ?_ (hviewC ▸ hA)⟩, hC, hviewC, ?_⟩
  · rw [hother [] (by decide) (by decide), hroot]
  · intro data
    simp [hS]
  · exact hfits.transfer (funext hnew) rfl
  · funext q
    refine hother _ ?_ ?_
    · have := apart_synchronizing_working.not_prefix [] q
      simpa using this
    · have := apart_working_committed.symm.not_prefix [] q
      simpa using this

/-- With a working directory, `Initialize` takes the committed contents or else those of the working
directory. -/
lemma sat_ensureCommitted (h : Sound A s) (hW : s.entryAt workingDirectory ≠ none) :
    (ensureCommitted env).Sat Proc.noFault s (Sound A)
      (Recovered A (s.entryAt workingDirectory = some .dir)) := by
  refine Proc.sat_bind (Proc.sat_attempt (sat_getEntryType h ?_ ?_))
  · rintro e (he | ⟨rfl, hnone⟩)
    · exact he.elim
    refine ⟨?_, by rintro _ ⟨⟩⟩
    rintro r ⟨⟩
    show (if FsError.pathNotFound = .pathNotFound then _ else _ : FsProc Unit).Sat _ s _ _
    rw [if_pos rfl]
    -- the commit was cut off: the working directory holds what was committed
    cases h.truth with
    | committed hdir => simp [hdir] at hnone
    | fresh _ hnone' => exact (hW hnone').elim
    | working _ hdir hfits hA =>
      refine Proc.sat_bind (sat_synchronizeWorking.mono (fun t ht => h.synchronizing ht) ?_)
      intro r t hsync
      obtain rfl := hsync.returns (fun _ he => he) hdir hfits h.noFile
      refine ⟨?_, by rintro _ ⟨⟩⟩
      rintro ⟨⟩ -
      have ht := h.synchronizing hsync.keeps
      have hview := hsync.alike rfl
      have hdirS : t.entryAt synchronizingDirectory = some .dir := by
        have hroot := congrFun hview []
        rw [view, view, List.append_nil, List.append_nil] at hroot
        exact hroot.trans hdir
      have hnoneC : t.entryAt committedDirectory = none :=
        (hsync.keeps.1.entryAt_self apart_synchronizing_committed).trans hnone
      refine sat_renameDirectory (by decide) (by decide) ht ?_ ?_
      · rintro e (he | ⟨-, hwhy⟩)
        · exact he.elim
        · exact absurd (hwhy hdirS hnoneC ht.root) (by decide)
      · intro u _ _ hmoved
        obtain ⟨hsound, hC, hviewC, hviewW⟩ := hmoved.commits ht.root hdirS hview
          (hfits.transfer hview rfl) hA
        refine ⟨hsound, hsound, fun _ => hC, fun _ => ?_, fun _ => hviewC ▸ hA, ?_⟩
        · rw [hviewW, hviewC, hsync.keeps.1.view apart_synchronizing_working]
        · exact ⟨fun _ => hdir, fun _ => rfl⟩
  · intro e hentry
    refine ⟨?_, by rintro _ ⟨⟩⟩
    rintro r ⟨⟩
    -- a committed directory is the truth, and the working directory is made from it
    have hdir : s.entryAt committedDirectory = some .dir := by
      cases h.truth with
      | committed hdir => exact hdir
      | working hnone => simp [hentry] at hnone
      | fresh hnone => simp [hentry] at hnone
    have hfits : Fits s committedDirectory ∧ A (view s committedDirectory) := by
      cases h.truth with
      | committed _ hfits hA => exact ⟨hfits, hA⟩
      | working hnone => simp [hentry] at hnone
      | fresh hnone => simp [hentry] at hnone
    refine sat_synchronizeCommitted.mono (fun t ht => (h.changed hdir ht.1).1) ?_
    intro r t hsync
    obtain ⟨hsound, hC⟩ := h.changed hdir hsync.keeps.1
    have hviewC := hsync.keeps.1.view apart_working_committed
    refine ⟨hsound, fun _ => hC, ?_, fun _ => hviewC ▸ hfits.2, ?_, ?_⟩
    · intro hr
      exact (hsync.alike hr).trans hviewC.symm
    · intro hr
      have hfile := hsync.wasNoFile hr
      cases hentryW : s.entryAt workingDirectory with
      | none => exact (hW hentryW).elim
      | some entry =>
        cases entry with
        | dir => rfl
        | file data => exact (hfile data hentryW).elim
    · intro hdirW
      refine hsync.returns (fun _ he => he) hdir hfits.1 ?_
      intro data hdata
      rw [hdirW] at hdata
      cases hdata

/-- Creating the working directory keeps the invariant; of a new save the working directory is then
the truth. -/
lemma Sound.createWorking (h : Sound A s) (hcreated : Created workingDirectory .dir s t) : Sound A t := by
  have hview := hcreated.view
  obtain ⟨hnone, hentry, -, hframe⟩ := hcreated
  have hframe' : Frame workingDirectory s t := hframe
  cases h.truth with
  | committed hdir => exact (h.changed hdir hframe').1
  | working _ hdir => simp [hdir] at hnone
  | fresh hnoneC _ hA =>
    refine ⟨(hframe'.root (by decide)).trans h.root, ?_, ?_⟩
    · intro data
      rw [hframe'.entryAt_self apart_synchronizing_working.symm]
      exact h.noFile data
    · refine .working ((hframe'.entryAt_self apart_working_committed).trans hnoneC) hentry ?_ ?_
      · exact fits_of_emptyView hview
      · rwa [hview]

/-- Creating the committed directory of a new save keeps the invariant. -/
lemma Sound.createCommitted (h : Sound A s) (hA : A emptyView)
    (hcreated : Created committedDirectory .dir s t) : Sound A t := by
  have hview := hcreated.view
  obtain ⟨-, hentry, -, hframe⟩ := hcreated
  have hframe' : Frame committedDirectory s t := hframe
  refine ⟨(hframe'.root (by decide)).trans h.root, ?_, ?_⟩
  · intro data
    rw [hframe'.entryAt_self apart_synchronizing_committed.symm]
    exact h.noFile data
  · refine .committed hentry (fits_of_emptyView hview) ?_
    rwa [hview]

/-- `Initialize` keeps the invariant at every step. When it returns, the working and the committed
directory look alike and have contents that are allowed; and it returns exactly if there is a working
directory or no committed one. -/
lemma sat_initializeSave (h : Sound A s) :
    (initializeSave env).Sat Proc.noFault s (Sound A)
      (Recovered A (s.entryAt workingDirectory = some .dir ∨
        s.entryAt committedDirectory = none)) := by
  refine Proc.sat_bind (Proc.sat_catchOnly (Proc.sat_bind (sat_getEntryType h ?_ ?_)))
  · rintro e (he | ⟨rfl, hnone⟩)
    · exact he.elim
    refine ⟨by rintro _ ⟨⟩, ?_⟩
    rintro e ⟨⟩
    refine ⟨by rintro ⟨⟩, fun _ => ?_, fun e' he' hne => ?_⟩
    · -- no working directory: both directories are created
      refine Proc.sat_bind (sat_createDirectory h ?_ ?_)
      · rintro e (he | ⟨-, hwhy⟩)
        · exact he.elim
        · exact (hwhy.elim (fun h => h hnone) (fun h' => h' h.root)).elim
      intro t hW
      have ht := h.createWorking hW
      have hframe : Frame workingDirectory s t := hW.2.2.2
      have hC := hframe.entryAt_self apart_working_committed
      refine ⟨ht, ?_, by rintro _ ⟨⟩⟩
      rintro ⟨⟩ -
      refine sat_createDirectory ht ?_ ?_
      · rintro e (he | ⟨-, hwhy⟩)
        · exact he.elim
        refine ⟨by rintro _ ⟨⟩, ?_⟩
        rintro e' ⟨⟩
        have hsome : s.entryAt committedDirectory ≠ none := by
          rcases hwhy with htaken | hroot
          · rwa [← hC]
          · exact (hroot ht.root).elim
        refine ⟨ht, by rintro ⟨⟩, by rintro ⟨⟩, by rintro ⟨⟩, by rintro ⟨⟩, ?_⟩
        rintro (hdir | hnone')
        · simp [hnone] at hdir
        · exact (hsome hnone').elim
      · intro u hcreated
        -- the committed directory was new, so that nothing has been saved yet
        have hnoneC : s.entryAt committedDirectory = none := hC.symm.trans hcreated.1
        have hA : A emptyView := by
          cases h.truth with
          | committed hdir => simp [hnoneC] at hdir
          | working _ hdir => simp [hnone] at hdir
          | fresh _ _ hA => exact hA
        have hu := ht.createCommitted hA hcreated
        have hframe' : Frame committedDirectory t u := hcreated.2.2.2
        have hdirW : u.entryAt workingDirectory = some .dir :=
          (hframe'.entryAt_self apart_working_committed.symm).trans hW.2.1
        refine ⟨hu, ?_, by rintro _ ⟨⟩⟩
        rintro ⟨⟩ -
        refine (sat_ensureCommitted hu (by simp [hdirW])).mono (fun _ h => h) ?_
        intro r v hrec
        exact ⟨hrec.sound, hrec.committed, hrec.alike, hrec.allowed,
          hrec.returns.trans ⟨fun _ => .inr hnoneC, fun _ => hdirW⟩⟩
    · cases he'
      exact (hne rfl).elim
  · intro e hentry
    refine ⟨?_, by rintro _ ⟨⟩⟩
    rintro r ⟨⟩
    refine Proc.sat_pure ⟨fun _ => ⟨?_, by rintro _ ⟨⟩⟩, by rintro ⟨⟩, by rintro _ ⟨⟩⟩
    rintro ⟨⟩ -
    refine (sat_ensureCommitted h (by simp [hentry])).mono (fun _ h => h) ?_
    intro r t hrec
    refine ⟨hrec.sound, hrec.committed, hrec.alike, hrec.allowed, hrec.returns.trans ⟨.inl, ?_⟩⟩
    rintro (hdir | hnone)
    · exact hdir
    · cases h.truth with
      | committed hdir => simp [hdir] at hnone
      | working _ hdir => exact hdir
      | fresh _ hnone' => simp [hentry] at hnone'

end RajNX.FsMitm
