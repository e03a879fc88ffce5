import RajNX.FsMitm.SaveData

/-!
# Runs of a save

A save over its whole life: `Initialize`, calls that change the working directory, `Commit` and losses
of power between any two operations on the disk. A save is mounted from an `Initialize` that returned
until the power is lost; only then can it be changed or committed.

A run also remembers what was committed: the contents of the working directory at the last `Commit`
that got to its last step and returned, and at the later ones that were interrupted.
-/

namespace RajNX.FsMitm

open FileTree Interruptible SlashPath CString

/-! ## Committing -/

variable {A : View → Prop} {s : Tree}

/-- The committed contents of a save with a committed directory. -/
lemma Sound.of_committed (h : Sound A s) (hdir : s.entryAt committedDirectory = some .dir) :
    Fits s committedDirectory ∧ A (view s committedDirectory) := by
  cases h.truth with
  | committed _ hfits hA => exact ⟨hfits, hA⟩
  | working hnone => simp [hdir] at hnone
  | fresh hnone => simp [hdir] at hnone

/-- The contents that were allowed, and those that are being committed. -/
def orView (A : View → Prop) (v : View) : View → Prop := fun w => A w ∨ w = v

/-- A complete copy of the working directory is in the synchronizing directory. -/
structure Staged (s t : Tree) : Prop where
  keeps : Keeps synchronizingDirectory s t
  dir : s.entryAt workingDirectory = some .dir
  fits : Fits s workingDirectory
  alike : view t synchronizingDirectory = view s workingDirectory

variable {env : Environment} {s t : Tree}

/-- A try to synchronize. -/
lemma sat_tryStage {F : FsError → Prop} (ht : Keeps synchronizingDirectory s t) :
    (synchronizeDirectory env synchronizingDirectory workingDirectory).Sat F t
      (Keeps synchronizingDirectory s) fun r u => Keeps synchronizingDirectory s u ∧
        (r = .ok () → Staged s u) ∧ (r = .error .targetLocked → F .targetLocked) ∧
        ∀ e, r = .error e → e ≠ .targetLocked → Keeps synchronizingDirectory s u := by
  refine sat_synchronizeWorking.mono (fun u hu => ht.trans hu) ?_
  intro r u hsync
  have hu := ht.trans hsync.keeps
  refine ⟨hu, ?_, hsync.notLocked, fun _ _ _ => hu⟩
  intro hr
  refine ⟨hu, ?_, ?_, ?_⟩
  · rw [← ht.1.entryAt_self apart_synchronizing_working]
    exact hsync.dir hr
  · exact (hsync.fits hr).congr fun q => (ht.1.entryAt apart_synchronizing_working q).symm
  · exact (hsync.alike hr).trans (ht.1.view apart_synchronizing_working)

/-- The tries to synchronize. -/
lemma sat_commitSynchronize {F : FsError → Prop} {tries : Nat} (ht : Keeps synchronizingDirectory s t) :
    (commitSynchronize env tries).Sat F t (Keeps synchronizingDirectory s) fun r u =>
      Keeps synchronizingDirectory s u ∧
        (r = .ok () → ¬F .targetLocked → 0 < tries ∨ Staged s t → Staged s u) := by
  refine (sat_retryUntilTargetNotLocked (fun t ht => sat_tryStage ht) ht).mono (fun _ h => h) ?_
  rintro r u ⟨hu, hdone, -⟩
  exact ⟨hu, hdone⟩

/-- The committed directory is gone, and nothing else changed. -/
def Dropped (s t : Tree) : Prop :=
  Frame committedDirectory s t ∧ t.entryAt committedDirectory = none

variable {R : Tree → Prop}

/-- The tries to delete the committed directory: the first does it and the second does not find it. -/
lemma sat_commitDelete (hdir : s.entryAt committedDirectory = some .dir) (hs : R s) (hR : ∀ t, Dropped s t → R t) :
    commitDelete.Sat Proc.noFault s R fun r t => r = .ok () ∧ Dropped s t := by
  have htry : ∀ t, t = s ∨ Dropped s t →
      (deleteDirectoryRecursively committedDirectory).Sat Proc.noFault t R fun r u =>
        (u = s ∨ Dropped s u) ∧ (r = .ok () → Dropped s u) ∧
        (r = .error .targetLocked → Proc.noFault FsError.targetLocked) ∧
        ∀ e, r = .error e → e ≠ .targetLocked → e = .pathNotFound ∧ Dropped s u := by
    intro t ht
    have hRt : R t := ht.elim (fun h => h ▸ hs) (hR t)
    refine sat_deleteDirectoryRecursively (by decide) hRt ?_ ?_
    · rintro e (he | ⟨rfl, hnot⟩)
      · exact he.elim
      have hdropped : Dropped s t := ht.resolve_left fun h => hnot (h ▸ hdir)
      refine ⟨.inr hdropped, by rintro ⟨⟩, by rintro ⟨⟩, ?_⟩
      rintro e ⟨⟩ -
      exact ⟨rfl, hdropped⟩
    · intro u hthere herased
      have htu : t = s := ht.resolve_right fun h => by simp [h.2] at hthere
      subst htu
      have hdropped : Dropped t u := ⟨herased.2, by simpa using herased.1 []⟩
      exact ⟨hR u hdropped, .inr hdropped, fun _ => hdropped, by rintro ⟨⟩, by rintro _ ⟨⟩⟩
  refine Proc.sat_catchOnly ((sat_retryUntilTargetNotLocked htry (.inl rfl)).mono
    (fun _ h => h) ?_)
  rintro r t ⟨-, hdone, herror⟩
  refine ⟨?_, ?_, ?_⟩
  · rintro rfl
    exact ⟨rfl, hdone rfl (fun h => h) (.inl (by decide))⟩
  · rintro rfl
    exact Proc.sat_pure ⟨rfl, (herror _ rfl).2⟩
  · rintro e rfl hne
    exact (hne (herror e rfl).1).elim

/-- The tries to rename: the first does it and the second does not find the directory. -/
lemma sat_commitRename (hroot : s.entryAt [] = some .dir)
    (hdir : s.entryAt synchronizingDirectory = some .dir) (hnone : s.entryAt committedDirectory = none) (hs : R s)
    (hR : ∀ t, Moved synchronizingDirectory committedDirectory s t → R t) :
    commitRename.Sat Proc.noFault s R fun _ t =>
      Moved synchronizingDirectory committedDirectory s t := by
  have htry : ∀ t, t = s ∨ Moved synchronizingDirectory committedDirectory s t →
      (renameDirectory synchronizingDirectory committedDirectory).Sat Proc.noFault t R fun r u =>
        (u = s ∨ Moved synchronizingDirectory committedDirectory s u) ∧
        (r = .ok () → Moved synchronizingDirectory committedDirectory s u) ∧
        (r = .error .targetLocked → Proc.noFault FsError.targetLocked) ∧
        ∀ e, r = .error e → e ≠ .targetLocked →
          Moved synchronizingDirectory committedDirectory s u := by
    intro t ht
    have hRt : R t := ht.elim (fun h => h ▸ hs) (hR t)
    refine sat_renameDirectory (by decide) (by decide) hRt ?_ ?_
    · rintro e (he | ⟨hlocked, hwhy⟩)
      · exact he.elim
      have hmoved : Moved synchronizingDirectory committedDirectory s t := by
        refine ht.resolve_left ?_
        rintro rfl
        exact absurd (hwhy hdir hnone hroot) (by decide)
      refine ⟨.inr hmoved, by rintro ⟨⟩, ?_, fun _ _ _ => hmoved⟩
      rintro ⟨⟩
      exact (hlocked rfl).elim
    · intro u hthere _ hmoved
      have htu : t = s := by
        refine ht.resolve_right fun h => ?_
        have hgone := h.2.1 []
        rw [List.append_nil] at hgone
        simp [hgone] at hthere
      subst htu
      exact ⟨hR u hmoved, .inr hmoved, fun _ => hmoved, by rintro ⟨⟩, by rintro _ ⟨⟩⟩
  refine (sat_retryUntilTargetNotLocked htry (.inl rfl)).mono (fun _ h => h) ?_
  rintro r t ⟨-, hdone, herror⟩
  cases r with
  | ok => exact hdone rfl (fun h => h) (.inl (by decide))
  | error e => exact herror e rfl

/-- Everything is ready for the last step of a commit: what was in the working directory is in the
synchronizing directory too, and there is no committed directory. -/
structure Prepared (s t : Tree) : Prop where
  root : t.entryAt [] = some .dir
  dir : t.entryAt synchronizingDirectory = some .dir
  fits : Fits t synchronizingDirectory
  alike : view t synchronizingDirectory = view s workingDirectory
  dropped : t.entryAt committedDirectory = none
  workingDir : t.entryAt workingDirectory = some .dir
  workingFits : Fits t workingDirectory
  working : view t workingDirectory = view s workingDirectory

lemma Staged.entryAt (h : Staged s t) : t.entryAt synchronizingDirectory = some .dir := by
  have hroot := congrFun h.alike []
  rw [view, view, List.append_nil, List.append_nil] at hroot
  exact hroot.trans h.dir

lemma Staged.prepared {s t u : Tree} (h : Staged s t) (hroot : s.entryAt [] = some .dir)
    (hdropped : Dropped t u) : Prepared s u := by
  obtain ⟨hframe, hnone⟩ := hdropped
  have happ := apart_synchronizing_committed.symm
  have happ' := apart_working_committed.symm
  have hview := hframe.view happ
  refine ⟨?_, ?_, ?_, hview.trans h.alike, hnone, ?_, ?_, ?_⟩
  · rw [hframe.root (by decide), h.keeps.1.root (by decide), hroot]
  · rw [hframe.entryAt_self happ, h.entryAt]
  · exact (h.fits.transfer h.alike rfl).frame hframe happ
  · rw [hframe.entryAt_self happ', h.keeps.1.entryAt_self apart_synchronizing_working, h.dir]
  · exact (h.fits.frame h.keeps.1 apart_synchronizing_working).frame hframe happ'
  · rw [hframe.view happ', h.keeps.1.view apart_synchronizing_working]

/-- Without a committed directory, what is being committed is the truth. -/
lemma Prepared.sound (h : Prepared s t) :
    Sound (orView A (view s workingDirectory)) t where
  root := h.root
  noFile := fun data => by simp [h.dir]
  truth := .working h.dropped h.workingDir h.workingFits (.inr h.working)

variable {openWritableFiles : Nat}

/-- `CommitImpl` up to its last step, on a save with a committed directory. -/
lemma sat_commitPrepare (h : Sound A s) (hdir : s.entryAt committedDirectory = some .dir) :
    (commitPrepare env openWritableFiles).Sat Proc.noFault s
      (Sound (orView A (view s workingDirectory))) fun r t =>
        (r = .ok () → Prepared s t) ∧
        ∀ e, r = .error e → Keeps synchronizingDirectory s t := by
  have hsound : Sound (orView A (view s workingDirectory)) s := h.mono fun _ => .inl
  have hkeeps : ∀ t, Keeps synchronizingDirectory s t →
      Sound (orView A (view s workingDirectory)) t := fun t ht => hsound.synchronizing ht
  unfold commitPrepare
  split
  next => exact Proc.sat_fail ⟨nofun, fun _ _ => Keeps.refl _ s⟩
  next =>
    refine Proc.sat_bind ((sat_commitSynchronize (Keeps.refl _ s)).mono hkeeps ?_)
    rintro r t ⟨ht, hstaged⟩
    refine ⟨?_, ?_⟩
    · rintro ⟨⟩ rfl
      have hst := hstaged rfl (fun h => h) (.inl (by decide))
      have hdirC : t.entryAt committedDirectory = some .dir :=
        (ht.1.entryAt_self apart_synchronizing_committed).trans hdir
      refine (sat_commitDelete hdirC (hkeeps t ht)
        fun u hu => (hst.prepared h.root hu).sound).mono (fun _ h => h) ?_
      rintro r u ⟨rfl, hu⟩
      exact ⟨fun _ => hst.prepared h.root hu, nofun⟩
    · rintro e rfl
      exact ⟨nofun, fun _ _ => ht⟩

/-- The last step of `CommitImpl`. -/
lemma Prepared.rename (h : Prepared s t) :
    commitRename.Sat Proc.noFault t (Sound (orView A (view s workingDirectory))) fun _ u =>
      Sound (· = view s workingDirectory) u ∧ u.entryAt committedDirectory = some .dir := by
  have hmoved : ∀ {B : View → Prop} u, B (view s workingDirectory) →
      Moved synchronizingDirectory committedDirectory t u →
      Sound B u ∧ u.entryAt committedDirectory = some .dir := by
    intro B u hB hu
    obtain ⟨hsound, hC, -, -⟩ := hu.commits h.root h.dir h.alike h.fits hB
    exact ⟨hsound, hC⟩
  refine (sat_commitRename h.root h.dir h.dropped h.sound fun u hu =>
    (hmoved u (.inr rfl) hu).1).mono (fun _ h => h) ?_
  exact fun _ u hu => hmoved u rfl hu

section

variable (h : Sound A s) (hdir : s.entryAt committedDirectory = some .dir)

include h hdir

/-- `CommitImpl` on a save with a committed directory: at every step what was committed or what is
being committed is the truth. -/
lemma sat_commitImpl :
    (commitImpl env openWritableFiles).Sat Proc.noFault s
      (Sound (orView A (view s workingDirectory))) fun _ t =>
        Sound (orView A (view s workingDirectory)) t := by
  refine Proc.sat_bind ((sat_commitPrepare h hdir).mono (fun _ h => h) ?_)
  rintro r t ⟨hok, hstop⟩
  refine ⟨?_, ?_⟩
  · rintro ⟨⟩ rfl
    refine (hok rfl).rename.mono (fun _ h => h) ?_
    rintro _ u ⟨hsound, -⟩
    exact hsound.mono fun _ => .inr
  · intro e he
    exact (h.mono fun _ => .inl).synchronizing (hstop e he)

/-- A `Commit` that got to its last step has committed the working directory. -/
lemma commitImpl_completed (hok : ((commitPrepare env openWritableFiles).run s).result = .ok ()) :
    Sound (· = view s workingDirectory) ((commitImpl env openWritableFiles).run s).final ∧
      ((commitImpl env openWritableFiles).run s).final.entryAt committedDirectory = some .dir := by
  have hprepared := (sat_commitPrepare h hdir).run.2.1 hok
  rw [commitImpl, Proc.run_bind_ok hok]
  exact (hprepared.rename (A := A)).run.2

/-- A `Commit` that stopped before it has changed only the synchronizing directory. -/
lemma commitImpl_stopped (herror : ((commitPrepare env openWritableFiles).run s).result ≠ .ok ()) :
    Keeps synchronizingDirectory s ((commitImpl env openWritableFiles).run s).final := by
  have hsat : (commitPrepare env openWritableFiles).Sat _ s _ _ := sat_commitPrepare h hdir
  obtain ⟨-, -, hstop⟩ := hsat.run
  cases hr : ((commitPrepare env openWritableFiles).run s).result with
  | ok => exact (herror hr).elim
  | error e =>
    rw [commitImpl, Proc.run_bind_error hr]
    exact hstop e hr

end

/-! ## Changing the working directory -/

/-- A full path is in the working directory. -/
lemma saveDataPath_eq {relativePath : List UInt8} {path : Path}
    (h : saveDataPath relativePath = some path) : ∃ names, path = workingDirectory ++ names := by
  unfold saveDataPath at h
  split at h
  next out hout =>
    obtain ⟨names, -, -, hcomponents, -⟩ :=
      (saveDataGetFullPath_confined _ _).below out hout
    refine ⟨names, ?_⟩
    rw [← Option.some.inj h, hcomponents]
    exact congrArg (· ++ names) (by decide +kernel)
  next => cases h

/-- Putting a node at a path of the working directory, or removing it. -/
lemma frame_setAt (s : Tree) (names : Path) (m : Option Tree) :
    Frame workingDirectory s (s.setAt (workingDirectory ++ names) m) := by
  intro q hq
  refine Node.entryAt_setAt_of_not_prefix m ?_
  exact fun hp => hq ((List.prefix_append workingDirectory names).trans hp)

lemma frame_createNode (s : Tree) (names : Path) (n : Tree) :
    Frame workingDirectory s (createNode (workingDirectory ++ names) n s).2 := by
  unfold createNode
  split
  next => exact Frame.refl _ s
  next =>
    split
    next => exact Frame.refl _ s
    next => exact frame_setAt s names _

lemma frame_moveNode (s : Tree) (old new : Path) (n : Tree) :
    Frame workingDirectory s
      (moveNode (workingDirectory ++ old) (workingDirectory ++ new) n s).2 := by
  unfold moveNode
  split
  next => exact Frame.refl _ s
  next =>
    split
    next => exact Frame.refl _ s
    next => exact Frame.trans (frame_setAt s old none) (frame_setAt _ new _)

/-- The procedure leaves everything outside of the working directory alone. -/
structure Local (p : FsProc Unit) (s : Tree) : Prop where
  sat : p.Sat Proc.noFault s (Frame workingDirectory s) fun _ t => Frame workingDirectory s t

lemma local_atomic {f : Tree → Except FsError Unit × Tree}
    (h : Frame workingDirectory s (f s).2) : Local (.atomic f) s := ⟨Proc.sat_atomic h h nofun⟩

lemma local_onFullPath {relativePath : List UInt8} {f : Path → FsProc Unit}
    (h : ∀ names, Local (f (workingDirectory ++ names)) s) : Local (onFullPath relativePath f) s := by
  unfold onFullPath
  split
  next path hpath =>
    obtain ⟨names, rfl⟩ := saveDataPath_eq hpath
    exact h names
  next => exact ⟨Proc.sat_fail (Frame.refl _ s)⟩

/-- A call of the working directory changes nothing outside of it. -/
lemma local_proc (call : WorkingCall) (s : Tree) : Local call.proc s := by
  -- each call is one operation on the tree at its full path, or two for a rename
  cases call with
  | createFile path size | createDirectory path =>
    rw [WorkingCall.proc]
    apply local_onFullPath
    intro names
    exact local_atomic (frame_createNode s names _)
  | deleteFile path =>
    rw [WorkingCall.proc]
    apply local_onFullPath
    intro names
    apply local_atomic
    split
    next => exact frame_setAt s names none
    next => exact Frame.refl _ s
  | deleteDirectory path =>
    rw [WorkingCall.proc]
    apply local_onFullPath
    intro names
    apply local_atomic
    split
    next => exact frame_setAt s names none
    next => exact Frame.refl _ s
    next => exact Frame.refl _ s
  | deleteDirectoryRecursively path =>
    rw [WorkingCall.proc]
    apply local_onFullPath
    intro names
    apply local_atomic
    split
    next => exact frame_setAt s names none
    next => exact Frame.refl _ s
  | cleanDirectoryRecursively path =>
    rw [WorkingCall.proc]
    apply local_onFullPath
    intro names
    apply local_atomic
    split
    next => exact frame_setAt s names _
    next => exact Frame.refl _ s
  | renameFile old new | renameDirectory old new =>
    rw [WorkingCall.proc]
    apply local_onFullPath
    intro old
    apply local_onFullPath
    intro new
    apply local_atomic
    split
    next => exact frame_moveNode s old new _
    next => exact Frame.refl _ s
  | writeFile path offset bytes | setFileSize path size =>
    rw [WorkingCall.proc]
    apply local_onFullPath
    intro names
    apply local_atomic
    split
    next => exact frame_setAt s names _
    next => exact Frame.refl _ s

/-! ## Runs -/

/-- The store a procedure leaves behind when it is cut off after `n` of its operations. -/
def cutAfter (r : Run Tree FsError Unit) (s : Tree) (n : Nat) : Tree := (s :: r.visited).getD n r.final

/-- What can happen to a save. -/
inductive SaveEvent
  | initializeSave (env : Environment)
  | initializeSaveCut (env : Environment) (n : Nat)
  | change (call : WorkingCall)
  | openWritable (path : List UInt8)
  | closeWritable
  | commit (env : Environment)
  | commitCut (env : Environment) (n : Nat)
  | powerLoss

/-- A save on its disk: the count of open writable files of a mounted save, the contents that the last
`Commit` to get to its last step was given, and those that interrupted ones were given since. -/
structure SaveState where
  disk : Tree
  openWritableFiles : Option Nat
  completed : View
  interrupted : List View

/-- What recovery may take. -/
def SaveState.allowed (st : SaveState) : View → Prop := (· ∈ st.completed :: st.interrupted)

/-- `Commit` of a mounted save. It got to its last step if everything before returned. -/
def SaveState.commit (st : SaveState) (env : Environment) (openWritableFiles : Nat) : SaveState :=
  let disk := ((commitImpl env openWritableFiles).run st.disk).final
  match ((commitPrepare env openWritableFiles).run st.disk).result with
  | .ok _ =>
    { st with
      disk := disk
      completed := view st.disk workingDirectory
      interrupted := [] }
  | .error _ => { st with disk := disk }

/-- One event. A save that is not mounted can only be initialized. -/
def SaveState.step (st : SaveState) : SaveEvent → SaveState
  | .initializeSave env =>
    let r := (FsMitm.initializeSave env).run st.disk
    { st with
      disk := r.final
      openWritableFiles := if r.result = .ok () then some 0 else none }
  | .initializeSaveCut env n =>
    { st with
      disk := cutAfter ((FsMitm.initializeSave env).run st.disk) st.disk n
      openWritableFiles := none }
  | .change call =>
    match st.openWritableFiles with
    | some _ => { st with disk := (call.proc.run st.disk).final }
    | none => st
  | .openWritable path =>
    match st.openWritableFiles, ((onFullPath path openFile).run st.disk).result with
    | some n, .ok _ => { st with openWritableFiles := some (n + 1) }
    | _, _ => st
  | .closeWritable => { st with openWritableFiles := st.openWritableFiles.map (· - 1) }
  | .commit env =>
    match st.openWritableFiles with
    | some n => st.commit env n
    | none => st
  | .commitCut env n =>
    match st.openWritableFiles with
    | some m =>
      { st with
        disk := cutAfter ((commitImpl env m).run st.disk) st.disk n
        openWritableFiles := none
        interrupted := view st.disk workingDirectory :: st.interrupted }
    | none => st
  | .powerLoss => { st with openWritableFiles := none }

/-- A disk without a save: nothing is at the paths of its three directories. -/
structure Fresh (disk : Tree) : Prop where
  root : disk.entryAt [] = some .dir
  committed : disk.entryAt committedDirectory = none
  working : disk.entryAt workingDirectory = none
  synchronizing : disk.entryAt synchronizingDirectory = none

/-- A save that has never been initialized is empty. -/
def SaveState.start (disk : Tree) : SaveState where
  disk := disk
  openWritableFiles := none
  completed := emptyView
  interrupted := []

/-- The save after a run of events. -/
def SaveState.after (disk : Tree) (events : List SaveEvent) : SaveState :=
  events.foldl SaveState.step (.start disk)

/-- The invariant of a run: recovery will take contents that are allowed, and a mounted save has a
committed directory. -/
structure Kept (st : SaveState) : Prop where
  sound : Sound st.allowed st.disk
  mounted : st.openWritableFiles ≠ none → st.disk.entryAt committedDirectory = some .dir

/-- What a procedure keeps at every step it also keeps when it is cut off. -/
lemma cutAfter_of_sat {p : FsProc Unit} {Q : Except FsError Unit → Tree → Prop}
    (h : p.Sat Proc.noFault s R Q) (hs : R s) (hQ : ∀ r t, Q r t → R t) (n : Nat) : R (cutAfter (p.run s) s n) := by
  obtain ⟨hvisited, hfinal⟩ := h.run
  rw [cutAfter, List.getD_eq_getElem?_getD]
  cases hget : (s :: (p.run s).visited)[n]? with
  | none => exact hQ _ _ hfinal
  | some t =>
    rcases List.mem_cons.mp (List.mem_of_getElem? hget) with rfl | hmem
    · exact hs
    · exact hvisited t hmem

variable {disk : Tree}

lemma kept_start (h : Fresh disk) : Kept (.start disk) where
  sound := ⟨h.root, fun data => by simp [SaveState.start, h.synchronizing],
    .fresh h.committed h.working (by simp [SaveState.allowed, SaveState.start])⟩
  mounted := fun hmounted => (hmounted rfl).elim

/-- A loss of power keeps the invariant. -/
lemma Kept.powerLoss {st : SaveState} (h : Kept st) : Kept (st.step .powerLoss) :=
  ⟨h.sound, fun hmounted => (hmounted rfl).elim⟩

/-- `Commit` keeps the invariant: either it got to its last step and what it was given is committed,
or it changed only the synchronizing directory. -/
lemma Kept.commit {st : SaveState} (h : Kept st) (env : Environment)
    (hdir : st.disk.entryAt committedDirectory = some .dir) : Kept (st.commit env openWritableFiles) := by
  unfold SaveState.commit
  split
  next hok =>
    obtain ⟨hsound, hC⟩ := commitImpl_completed h.sound hdir hok
    refine ⟨hsound.mono ?_, fun _ => hC⟩
    rintro v rfl
    exact List.mem_cons_self
  next e herror =>
    have hkeeps : Keeps synchronizingDirectory st.disk _ :=
      commitImpl_stopped h.sound hdir (by rw [herror]; nofun)
    refine ⟨h.sound.synchronizing hkeeps, fun _ => ?_⟩
    exact (hkeeps.1.entryAt_self apart_synchronizing_committed).trans hdir

/-- A `Commit` that is cut off keeps the invariant, with what it was given allowed too. -/
lemma sound_commitCut (h : Sound A s) (env : Environment)
    (openWritableFiles : Nat) (hdir : s.entryAt committedDirectory = some .dir) (n : Nat) :
    Sound (orView A (view s workingDirectory))
      (cutAfter ((commitImpl env openWritableFiles).run s) s n) := by
  have hsat : (commitImpl env openWritableFiles).Sat _ s _ _ := sat_commitImpl h hdir
  exact cutAfter_of_sat hsat (h.mono fun _ => .inl) (fun _ _ ht => ht) n

/-- Every event keeps the invariant. -/
lemma Kept.step {st : SaveState} (h : Kept st) (ev : SaveEvent) : Kept (st.step ev) := by
  cases ev with
  | initializeSave env =>
    have hsat : (FsMitm.initializeSave env).Sat _ st.disk _ _ := sat_initializeSave h.sound
    obtain ⟨-, hrec⟩ := hsat.run
    refine ⟨hrec.sound, fun hmounted => hrec.committed ?_⟩
    by_contra hr
    exact hmounted (if_neg hr)
  | initializeSaveCut env n =>
    refine ⟨?_, fun hmounted => (hmounted rfl).elim⟩
    exact cutAfter_of_sat (sat_initializeSave h.sound) h.sound (fun _ _ hrec => hrec.sound) n
  | change call =>
    simp only [SaveState.step]
    split
    next m hm =>
      obtain ⟨-, hframe⟩ := (local_proc call st.disk).sat.run
      obtain ⟨hsound, hC⟩ := h.sound.changed (h.mounted (by simp [hm])) hframe
      exact ⟨hsound, fun _ => hC⟩
    next => exact h
  | openWritable path =>
    simp only [SaveState.step]
    split
    next m _ hm _ => exact ⟨h.sound, fun _ => h.mounted (by simp [hm])⟩
    next => exact h
  | closeWritable => exact ⟨h.sound, fun hmounted => h.mounted fun hm => hmounted (by simp [SaveState.step, hm])⟩
  | commit env =>
    simp only [SaveState.step]
    split
    next m hm => exact h.commit env (h.mounted (by simp [hm]))
    next => exact h
  | commitCut env n =>
    simp only [SaveState.step]
    split
    next m hm =>
      refine ⟨(sound_commitCut h.sound env m (h.mounted (by simp [hm])) n).mono ?_, fun hmounted => (hmounted rfl).elim⟩
      intro v hv
      rcases hv with hv | rfl
      · exact List.mem_cons.mpr ((List.mem_cons.mp hv).imp_right (List.mem_cons_of_mem _))
      · simp [SaveState.allowed]
    next => exact h
  | powerLoss => exact h.powerLoss

/-- Every state of a run keeps the invariant. -/
lemma kept_after (h : Fresh disk) (events : List SaveEvent) : Kept (.after disk events) := by
  unfold SaveState.after
  induction events using List.reverseRecOn with
  | nil => exact kept_start h
  | append_singleton events ev ih =>
    rw [List.foldl_append]
    exact ih.step ev

/-- Commits are crash-atomic: whenever `Initialize` returns, the working and the committed directory
look alike, and like what the last `Commit` to get to its end was given or what one that was
interrupted since was given. -/
theorem initializeSave_recovers_commit (h : Fresh disk) (events : List SaveEvent) (env : Environment)
    (hok : ((initializeSave env).run (SaveState.after disk events).disk).result = .ok ()) :
    let st := SaveState.after disk events
    let recovered := ((initializeSave env).run st.disk).final
    view recovered workingDirectory = view recovered committedDirectory ∧
      recovered.entryAt committedDirectory = some .dir ∧
      (view recovered committedDirectory = st.completed ∨
        view recovered committedDirectory ∈ st.interrupted) := by
  intro st recovered
  have hsat : (initializeSave env).Sat _ st.disk _ _ := sat_initializeSave (kept_after h events).sound
  obtain ⟨-, hrec⟩ := hsat.run
  exact ⟨hrec.alike hok, hrec.committed hok, List.mem_cons.mp (hrec.allowed hok)⟩

/-- The surroundings of the runs below: names in the order of the tree, the ideal work buffer. -/
def idealEnvironment : Environment where
  readOrder := id
  readOrder_perm := fun _ => List.Perm.refl _
  workBufSize := 0x100000
  workBufSize_pos := by decide

lemma fresh_empty : Fresh (.dir []) := by
  constructor <;> rfl

/-- A commit of one file that is cut off after the old commit was deleted. -/
def interruptedCommit : List SaveEvent :=
  [.initializeSave idealEnvironment, .change (.createFile "/a".toUTF8.toList 1), .commitCut idealEnvironment 81]

/-- The new contents are recovered after the cut. -/
theorem initializeSave_recovers_commit_cut :
    ((initializeSave idealEnvironment).run (SaveState.after (.dir []) interruptedCommit).disk).result = .ok () ∧
      let st := SaveState.after (.dir []) interruptedCommit
      let recovered := ((initializeSave idealEnvironment).run st.disk).final
      view recovered workingDirectory = view recovered committedDirectory ∧
        recovered.entryAt committedDirectory = some .dir ∧
        (view recovered committedDirectory = st.completed ∨
          view recovered committedDirectory ∈ st.interrupted) := by
  have hok : ((initializeSave idealEnvironment).run
      (SaveState.after (.dir []) interruptedCommit).disk).result = .ok () := by decide +kernel
  exact ⟨hok, initializeSave_recovers_commit fresh_empty interruptedCommit idealEnvironment hok⟩

/-- `Initialize` returns on the disk that a run left behind exactly if there is a working directory or
no committed one. -/
theorem initializeSave_returns_iff (h : Fresh disk) (events : List SaveEvent) (env : Environment) :
    ((initializeSave env).run (SaveState.after disk events).disk).result = .ok () ↔
      (SaveState.after disk events).disk.entryAt workingDirectory = some .dir ∨
        (SaveState.after disk events).disk.entryAt committedDirectory = none := by
  have hsat : (initializeSave env).Sat _ _ _ _ := sat_initializeSave (kept_after h events).sound
  obtain ⟨-, hrec⟩ := hsat.run
  exact hrec.returns

/-- Its next `Initialize` returns. -/
theorem initializeSave_returns_iff_cut :
    ((initializeSave idealEnvironment).run (SaveState.after (.dir []) interruptedCommit).disk).result = .ok () ↔
      (SaveState.after (.dir []) interruptedCommit).disk.entryAt workingDirectory = some .dir ∨
        (SaveState.after (.dir []) interruptedCommit).disk.entryAt committedDirectory = none :=
  initializeSave_returns_iff fresh_empty interruptedCommit idealEnvironment

/-- Power that is lost while `Initialize` brings the working directory in step, right after it deleted
it, leaves a save on which the next `Initialize` fails. -/
theorem initializeSave_fails_after_cut :
    ¬∀ (events : List SaveEvent) (env : Environment),
      ((initializeSave env).run (SaveState.after (.dir []) events).disk).result = .ok () := by
  intro h
  have hfails : ((initializeSave idealEnvironment).run (SaveState.after (.dir [])
      [.initializeSave idealEnvironment, .initializeSaveCut idealEnvironment 3]).disk).result =
        .error .pathAlreadyExists := by decide +kernel
  rw [h] at hfails
  cases hfails

end RajNX.FsMitm
