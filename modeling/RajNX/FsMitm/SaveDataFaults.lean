import RajNX.FsMitm.SaveDataRuns

/-!
# Commits with a fault

A `Commit` one of whose operations on the disk fails. `CommitImpl` has no way back: between the deletion
of the committed directory and the renaming of the synchronizing one, the working directory is the only
one that recovery will take, and a `Commit` that returns there leaves it open to further changes.
`SafeFault` names the operations and errors with which this does not happen.
-/

namespace RajNX.FsMitm

open FileTree Interruptible

/-! ## Deleting and renaming -/

/-- A try of a single operation, with what follows its error. -/
lemma retryUntilTargetNotLocked_atomic (f : Tree → Except FsError Unit × Tree) (tries : Nat) :
    retryUntilTargetNotLocked (.atomic f) (tries + 1) = .op f (fun
      | .ok _ => retryUntilTargetNotLocked (.atomic f) tries
      | .error e =>
        if e = .targetLocked then retryUntilTargetNotLocked (.atomic f) tries else .fail e) := by
  show Proc.op f _ = Proc.op f _
  congr 1
  funext r
  cases r with
  | ok => rfl
  | error e =>
    show ((if e = .targetLocked then pure () else .fail e : FsProc Unit) >>= fun _ => _) = _
    by_cases hlocked : e = .targetLocked
    · simp only [if_pos hlocked, Proc.pure_bind]
    · simp only [if_neg hlocked, Proc.fail_bind]

/-- What `CommitImpl` does when everything is synchronized. -/
def commitSettle : FsProc Unit := do
  commitDelete
  commitRename

lemma commitImpl_eq (env : Environment) :
    commitImpl env 0 = commitSynchronize env maxRetries >>= fun _ => commitSettle :=
  Proc.bind_assoc _ _ _

/-- The operation that deletes the committed directory. -/
def deleteOp : Tree → Except FsError Unit × Tree := fun s =>
  if s.entryAt committedDirectory = some .dir then (.ok (), s.setAt committedDirectory none)
  else (.error .pathNotFound, s)

/-- The operation that renames the synchronizing directory. -/
def renameOp : Tree → Except FsError Unit × Tree := fun s =>
  match s.find synchronizingDirectory with
  | some (.dir es) => moveNode synchronizingDirectory committedDirectory (.dir es) s
  | _ => (.error .pathNotFound, s)

/-- The tries to rename, as operations. -/
def renameTries (tries : Nat) : FsProc Unit := retryUntilTargetNotLocked (.atomic renameOp) tries

/-- The tries to delete and then those to rename, as operations. -/
def deleteTries (tries : Nat) : FsProc Unit :=
  (retryUntilTargetNotLocked (.atomic deleteOp) tries).catchOnly .pathNotFound (pure ()) >>=
    fun _ => renameTries maxRetries

lemma commitSettle_eq : commitSettle = deleteTries maxRetries := rfl

lemma renameTries_succ (tries : Nat) : renameTries (tries + 1) = .op renameOp (fun
    | .ok _ => renameTries tries
    | .error e => if e = .targetLocked then renameTries tries else .fail e) :=
  retryUntilTargetNotLocked_atomic renameOp tries

/-- What follows an error of a try to delete. -/
lemma catchOnly_try (p rest : FsProc Unit) (e : FsError) :
    ((if e = .targetLocked then p else .fail e : FsProc Unit).catchOnly .pathNotFound (pure ()) >>=
        fun _ => rest) =
      if e = .targetLocked then p.catchOnly .pathNotFound (pure ()) >>= fun _ => rest
      else if e = .pathNotFound then rest else .fail e := by
  by_cases hlocked : e = .targetLocked
  · simp only [if_pos hlocked]
  simp only [if_neg hlocked, Proc.catchOnly_fail]
  by_cases hfound : e = .pathNotFound
  · simp only [if_pos hfound, Proc.pure_bind]
  · simp only [if_neg hfound, Proc.fail_bind]

lemma deleteTries_succ (tries : Nat) : deleteTries (tries + 1) = .op deleteOp (fun
    | .ok _ => deleteTries tries
    | .error e =>
      if e = .targetLocked then deleteTries tries
      else if e = .pathNotFound then renameTries maxRetries else .fail e) := by
  rw [deleteTries, retryUntilTargetNotLocked_atomic, Proc.catchOnly_op, Proc.op_bind]
  congr 1
  funext r
  cases r with
  | ok => rfl
  | error e => exact catchOnly_try _ _ e

lemma deleteOp_dir {t : Tree} (hdir : t.entryAt committedDirectory = some .dir) :
    (deleteOp t).1 = .ok () ∧ Dropped t (deleteOp t).2 := by
  have hsat : (deleteDirectoryRecursively committedDirectory).Sat Proc.noFault t (fun _ => True)
      fun r u => r = .ok () ∧ Dropped t u := by
    refine sat_deleteDirectoryRecursively (by decide) trivial ?_ ?_
    · rintro e (he | ⟨-, hnot⟩)
      · exact he.elim
      · exact (hnot hdir).elim
    · exact fun u _ herased => ⟨trivial, rfl, herased.2, by simpa using herased.1 []⟩
  exact hsat.run.2

lemma deleteOp_none {t : Tree} (hnone : t.entryAt committedDirectory = none) :
    deleteOp t = (.error .pathNotFound, t) := by
  simp [deleteOp, hnone]

lemma renameOp_prepared {s t : Tree} (h : Prepared s t) :
    (renameOp t).1 = .ok () ∧ Moved synchronizingDirectory committedDirectory t (renameOp t).2 := by
  have hsat : (renameDirectory synchronizingDirectory committedDirectory).Sat Proc.noFault t
      (fun _ => True) fun r u =>
        r = .ok () ∧ Moved synchronizingDirectory committedDirectory t u := by
    refine sat_renameDirectory (by decide) (by decide) trivial ?_ ?_
    · rintro e (he | ⟨-, hwhy⟩)
      · exact he.elim
      · exact absurd (hwhy h.dir h.dropped h.root) (by decide)
    · exact fun u _ _ hmoved => ⟨trivial, rfl, hmoved⟩
  exact hsat.run.2

/-- The synchronizing directory cannot be renamed when it is missing or the committed one is there. -/
lemma renameOp_fails {t : Tree} (h : t.entryAt synchronizingDirectory = none ∨
    t.entryAt committedDirectory ≠ none) : ∃ e, e ≠ .targetLocked ∧ renameOp t = (.error e, t) := by
  cases hfind : t.find synchronizingDirectory with
  | none => exact ⟨.pathNotFound, by decide, by simp [renameOp, hfind]⟩
  | some n =>
    cases n with
    | file => exact ⟨.pathNotFound, by decide, by simp [renameOp, hfind]⟩
    | dir es =>
      rcases h with hnone | htaken
      · simp [Node.entryAt, hfind] at hnone
      · exact ⟨.pathAlreadyExists, by decide, by simp [renameOp, hfind, moveNode, htaken]⟩

/-- Tries to rename that cannot succeed leave the disk as it is, also with a fault. -/
lemma renameTries_fails {t : Tree} (h : t.entryAt synchronizingDirectory = none ∨
    t.entryAt committedDirectory ≠ none) (tries : Nat) :
    ((renameTries tries).run t).final = t ∧
      ∀ e n, ((renameTries tries).runFault e n t).final = t := by
  obtain ⟨e', he', hop⟩ := renameOp_fails h
  induction tries with
  | zero => exact ⟨rfl, fun _ _ => rfl⟩
  | succ tries ih =>
    rw [renameTries_succ]
    refine ⟨?_, ?_⟩
    · simp only [Proc.run, hop, if_neg he']
      rfl
    · intro e n
      cases n with
      | zero =>
        simp only [Proc.runFault]
        split
        next => exact ih.1
        next => rfl
      | succ n =>
        simp only [Proc.runFault, hop, if_neg he']
        rfl

section Settle

variable {s t : Tree}

/-- When everything is prepared, the tries to rename do it, unless the first one fails for good. -/
lemma renameTries_prepared (h : Prepared s t) (tries : Nat) :
    ((renameTries (tries + 1)).run t).final = (renameOp t).2 ∧
      ∀ e n, (n = 0 → e = .targetLocked) →
        ((renameTries (tries + 2)).runFault e n t).final = (renameOp t).2 := by
  obtain ⟨hok, -, hgone, -⟩ := renameOp_prepared h
  have hafter := renameTries_fails (.inl (by simpa using hgone []) :
    (renameOp t).2.entryAt synchronizingDirectory = none ∨ _)
  have hrun : ∀ tries, ((renameTries (tries + 1)).run t).final = (renameOp t).2 := by
    intro tries
    rw [renameTries_succ]
    simp only [Proc.run, hok]
    exact (hafter tries).1
  refine ⟨hrun tries, ?_⟩
  intro e n hn
  rw [renameTries_succ]
  cases n with
  | zero =>
    simp only [Proc.runFault, if_pos (hn rfl)]
    exact hrun tries
  | succ n =>
    simp only [Proc.runFault, hok]
    exact (hafter _).2 e n

/-- The same for the tries to delete that are left when the committed directory is gone. -/
lemma deleteTries_prepared (h : Prepared s t) (tries : Nat) :
    ((deleteTries (tries + 1)).run t).final = (renameOp t).2 ∧
      ∀ e n, (n = 0 → e = .pathNotFound ∨ e = .targetLocked) → (n = 1 → e = .targetLocked) →
        ((deleteTries (tries + 2)).runFault e n t).final = (renameOp t).2 := by
  have hop := deleteOp_none h.dropped
  have hrun : ∀ tries, ((deleteTries (tries + 1)).run t).final = (renameOp t).2 := by
    intro tries
    rw [deleteTries_succ]
    simp only [Proc.run, hop, reduceCtorEq, if_false, if_true]
    exact (renameTries_prepared h _).1
  refine ⟨hrun tries, ?_⟩
  intro e n hfirst hsecond
  rw [deleteTries_succ]
  cases n with
  | zero =>
    simp only [Proc.runFault]
    rcases hfirst rfl with rfl | rfl
    · simp only [reduceCtorEq, if_false, if_true]
      exact (renameTries_prepared h _).1
    · simp only [if_true]
      exact hrun tries
  | succ n =>
    simp only [Proc.runFault, hop, reduceCtorEq, if_false, if_true]
    exact (renameTries_prepared h _).2 e n fun hn => hsecond (by rw [hn])

/-- With a fault, the rest of `CommitImpl` commits or leaves the disk as it was, unless the fault is in
between. -/
lemma commitSettle_runFault (h : Staged s t) (hroot : s.entryAt [] = some .dir)
    (hdir : t.entryAt committedDirectory = some .dir) {e : FsError} {n : Nat}
    (hdelete : n = 1 → e = .pathNotFound ∨ e = .targetLocked) (hrename : n = 2 → e = .targetLocked) :
    (commitSettle.runFault e n t).final = t ∨
      Prepared s (deleteOp t).2 ∧
        (commitSettle.runFault e n t).final = (renameOp (deleteOp t).2).2 := by
  obtain ⟨hok, hdropped⟩ := deleteOp_dir hdir
  have hprepared := h.prepared hroot hdropped
  rw [commitSettle_eq, show maxRetries = 8 + 1 + 1 from rfl, deleteTries_succ]
  cases n with
  | succ n =>
    refine .inr ⟨hprepared, ?_⟩
    simp only [Proc.runFault, hok]
    exact (deleteTries_prepared hprepared _).2 e n (fun hn => hdelete (by rw [hn]))
      fun hn => hrename (by rw [hn])
  | zero =>
    simp only [Proc.runFault]
    by_cases hlocked : e = .targetLocked
    · refine .inr ⟨hprepared, ?_⟩
      rw [if_pos hlocked, deleteTries_succ]
      simp only [Proc.run, hok]
      exact (deleteTries_prepared hprepared _).1
    rw [if_neg hlocked]
    refine .inl ?_
    by_cases hfound : e = .pathNotFound
    · rw [if_pos hfound]
      exact (renameTries_fails (.inr (by simp [hdir])) _).1
    · rw [if_neg hfound]
      rfl

/-- Without a fault it commits. -/
lemma commitSettle_run (h : Staged s t) (hroot : s.entryAt [] = some .dir)
    (hdir : t.entryAt committedDirectory = some .dir) :
    Prepared s (deleteOp t).2 ∧
      (commitSettle.run t).final = (renameOp (deleteOp t).2).2 := by
  obtain ⟨hok, hdropped⟩ := deleteOp_dir hdir
  have hprepared := h.prepared hroot hdropped
  refine ⟨hprepared, ?_⟩
  rw [commitSettle_eq, show maxRetries = 8 + 1 + 1 from rfl, deleteTries_succ]
  simp only [Proc.run, hok]
  exact (deleteTries_prepared hprepared _).1

end Settle

/-! ## Synchronizing -/

/-- Tries can be made in two parts. -/
lemma retryUntilTargetNotLocked_add (f : FsProc Unit) (m n : Nat) :
    retryUntilTargetNotLocked f (m + n) =
      retryUntilTargetNotLocked f m >>= fun _ => retryUntilTargetNotLocked f n := by
  induction m with
  | zero =>
    rw [Nat.zero_add]
    rfl
  | succ m ih =>
    rw [Nat.succ_add, retryUntilTargetNotLocked, ih, retryUntilTargetNotLocked, Proc.bind_assoc]

/-- The number of operations that so many tries to synchronize take when nothing fails. -/
def synchronizeOps (env : Environment) (disk : Tree) (tries : Nat) : Nat :=
  ((commitSynchronize env tries).run disk).visited.length

/-- A target that is locked in one of the first nine tries, or at the first operation of the tenth,
leaves a complete copy all the same. -/
lemma staged_of_locked {env : Environment} {s : Tree} {n : Nat} (hn : n ≤ synchronizeOps env s 9)
    (hlt : n < synchronizeOps env s maxRetries)
    (hok : ((commitSynchronize env maxRetries).runFault .targetLocked n s).result = .ok ()) :
    Staged s ((commitSynchronize env maxRetries).runFault .targetLocked n s).final := by
  have hsplit : commitSynchronize env maxRetries = commitSynchronize env 9 >>= fun _ => commitSynchronize env 1 :=
    retryUntilTargetNotLocked_add _ 9 1
  have hsat : ∀ {F : FsError → Prop} {t : Tree} (tries : Nat), Keeps synchronizingDirectory s t →
      (commitSynchronize env tries).Sat F t _ _ := fun _ => sat_commitSynchronize
  have hlast : ∀ t, Keeps synchronizingDirectory s t → ((commitSynchronize env 1).run t).result = .ok () →
      Staged s ((commitSynchronize env 1).run t).final := fun t ht hr =>
    (hsat (F := Proc.noFault) 1 ht).run.2.2 hr (fun h => h) (.inl (by decide))
  have hkeeps := Keeps.refl synchronizingDirectory s
  rcases Nat.lt_or_eq_of_le hn with hbefore | rfl
  · -- the fault is in the first nine tries: the tenth has none
    obtain ⟨hfault, -⟩ := ((hsat (F := fun e => e = .targetLocked) 9 hkeeps).runFault rfl n).2
    cases hr : ((commitSynchronize env 9).runFault .targetLocked n s).result with
    | ok =>
      obtain ⟨hresult, hfinal⟩ := Proc.runFault_bind_lt_ok
        (k := fun _ => commitSynchronize env 1) hbefore hr
      rw [hsplit, hresult] at hok
      rw [hsplit, hfinal]
      exact hlast _ hfault hok
    | error e' =>
      obtain ⟨hresult, -⟩ := Proc.runFault_bind_lt_error
        (k := fun _ => commitSynchronize env 1) hbefore hr
      rw [hsplit, hresult] at hok
      cases hok
  · -- the fault is the deletion of the tenth try: the copy of the ninth is still there
    cases hr : ((commitSynchronize env 9).run s).result with
    | error e' =>
      rw [synchronizeOps, synchronizeOps, hsplit, Proc.run_bind_error hr] at hlt
      exact (Nat.lt_irrefl _ hlt).elim
    | ok =>
      obtain ⟨-, hfinal⟩ := Proc.runFault_bind_ge (k := fun _ => commitSynchronize env 1)
        (e := FsError.targetLocked) (n := 0) hr
      rw [Nat.add_zero] at hfinal
      rw [hsplit, synchronizeOps, hfinal]
      exact (hsat (F := Proc.noFault) 9 hkeeps).run.2.2 hr (fun h => h) (.inl (by decide))

/-- The faults with which a failed `Commit` does not lose what was committed. The bad ones are a target
that is locked in the tenth try to synchronize, after its first operation; a failure of the second
deletion of the committed directory; and a failure of the first renaming. -/
structure SafeFault (env : Environment) (disk : Tree) (e : FsError) (n : Nat) : Prop where
  synchronize : e = .targetLocked → n ≤ synchronizeOps env disk 9 ∨ synchronizeOps env disk maxRetries ≤ n
  delete : n = synchronizeOps env disk maxRetries + 1 → e = .pathNotFound ∨ e = .targetLocked
  rename : n = synchronizeOps env disk maxRetries + 2 → e = .targetLocked

/-- What a `Commit` leaves of a mounted save: recovery will take what was committed or what it was given,
and further changes do not matter to that. -/
def Settled (A : View → Prop) (s t : Tree) : Prop :=
  Sound (orView A (view s workingDirectory)) t ∧ t.entryAt committedDirectory = some .dir

lemma settled_of_keeps {A : View → Prop} {s t : Tree} (h : Sound A s)
    (hdir : s.entryAt committedDirectory = some .dir) (hkeeps : Keeps synchronizingDirectory s t) : Settled A s t :=
  ⟨(h.mono fun _ => .inl).synchronizing hkeeps, (hkeeps.1.entryAt_self apart_synchronizing_committed).trans hdir⟩

lemma Prepared.settled {A : View → Prop} {s t : Tree} (h : Prepared s t) : Settled A s (renameOp t).2 := by
  obtain ⟨-, hmoved⟩ := renameOp_prepared h
  have hgiven : orView A (view s workingDirectory) (view s workingDirectory) := .inr rfl
  obtain ⟨hsound, hC, -, -⟩ := hmoved.commits h.root h.dir h.alike h.fits hgiven
  exact ⟨hsound, hC⟩

/-- A `Commit` with a safe fault. -/
lemma settled_commitImpl {A : View → Prop} {s : Tree} (h : Sound A s)
    (hdir : s.entryAt committedDirectory = some .dir) {env : Environment} (openWritableFiles : Nat)
    {e : FsError} {n : Nat} (hsafe : SafeFault env s e n) :
    Settled A s ((commitImpl env openWritableFiles).runFault e n s).final := by
  have hkeeps := Keeps.refl synchronizingDirectory s
  cases openWritableFiles with
  | succ => exact settled_of_keeps h hdir hkeeps
  | zero =>
    have hsat : ∀ F : FsError → Prop, (commitSynchronize env maxRetries).Sat F s _ _ :=
      fun _ => sat_commitSynchronize hkeeps
    rw [commitImpl_eq]
    rcases Nat.lt_or_ge n (synchronizeOps env s maxRetries) with hlt | hge
    · -- the fault is in the synchronization
      obtain ⟨hfault, hstaged⟩ := ((hsat fun e' => e' = e).runFault rfl n).2
      cases hr : ((commitSynchronize env maxRetries).runFault e n s).result with
      | error e' =>
        rw [(Proc.runFault_bind_lt_error hlt hr).2]
        exact settled_of_keeps h hdir hfault
      | ok =>
        have hcopied : Staged s ((commitSynchronize env maxRetries).runFault e n s).final := by
          by_cases hlocked : e = .targetLocked
          · subst hlocked
            refine staged_of_locked ?_ hlt hr
            exact (hsafe.synchronize rfl).resolve_right (Nat.not_le_of_lt hlt)
          · exact hstaged hr (fun h => hlocked h.symm) (.inl (by decide))
        rw [(Proc.runFault_bind_lt_ok hlt hr).2]
        obtain ⟨hprepared, hfinal⟩ := commitSettle_run hcopied h.root
          ((hfault.1.entryAt_self apart_synchronizing_committed).trans hdir)
        rw [hfinal]
        exact hprepared.settled
    · -- the fault is in what follows, if at all
      obtain ⟨n, rfl⟩ := Nat.exists_eq_add_of_le hge
      obtain ⟨hrun, hstaged⟩ := (hsat Proc.noFault).run.2
      cases hr : ((commitSynchronize env maxRetries).run s).result with
      | error e' =>
        have hstop := Proc.run_bind_error (k := fun _ => commitSettle) hr
        rw [Proc.runFault_of_le (by rw [hstop]; exact hge), hstop]
        exact settled_of_keeps h hdir hrun
      | ok =>
        have hcopied := hstaged hr (fun h => h) (.inl (by decide))
        have hdelete : n = 1 → e = .pathNotFound ∨ e = .targetLocked :=
          fun hn => hsafe.delete (by rw [hn])
        have hrename : n = 2 → e = .targetLocked := fun hn => hsafe.rename (by rw [hn])
        rw [synchronizeOps, (Proc.runFault_bind_ge hr).2]
        rcases commitSettle_runFault hcopied h.root
          ((hrun.1.entryAt_self apart_synchronizing_committed).trans hdir) hdelete hrename
          with hsame | ⟨hprepared, hfinal⟩
        · rw [hsame]
          exact settled_of_keeps h hdir hrun
        · rw [hfinal]
          exact hprepared.settled

/-! ## Runs with faults -/

/-- What can happen to a save on a disk that fails now and then. -/
inductive FaultyEvent
  | healthy (ev : SaveEvent)
  | commitFault (env : Environment) (e : FsError) (n : Nat)

/-- One event. -/
def SaveState.faultyStep (st : SaveState) : FaultyEvent → SaveState
  | .healthy ev => st.step ev
  | .commitFault env e n =>
    match st.openWritableFiles with
    | some m =>
      { st with
        disk := ((commitImpl env m).runFault e n st.disk).final
        interrupted := view st.disk workingDirectory :: st.interrupted }
    | none => st

/-- The event has no fault, or a safe one. -/
def SafeEvent (st : SaveState) : FaultyEvent → Prop
  | .healthy _ => True
  | .commitFault env e n => SafeFault env st.disk e n

/-- The states of runs all of whose faults are safe. -/
inductive SafelyReached (disk : Tree) : SaveState → Prop
  | start : SafelyReached disk (.start disk)
  | step {st : SaveState} {ev : FaultyEvent} :
    SafelyReached disk st → SafeEvent st ev → SafelyReached disk (st.faultyStep ev)

/-- The invariant of runs also holds with safe faults. -/
lemma SafelyReached.kept {disk : Tree} {st : SaveState} (hfresh : Fresh disk)
    (h : SafelyReached disk st) : Kept st := by
  induction h with
  | start => exact kept_start hfresh
  | @step st ev _ hsafe ih =>
    cases ev with
    | healthy ev => exact ih.step ev
    | commitFault env e n =>
      simp only [SaveState.faultyStep]
      split
      next m hm =>
        obtain ⟨hsound, hC⟩ := settled_commitImpl ih.sound (ih.mounted (by simp [hm])) m hsafe
        refine ⟨hsound.mono ?_, fun _ => hC⟩
        intro v hv
        rcases hv with hv | rfl
        · exact List.mem_cons.mpr ((List.mem_cons.mp hv).imp_right (List.mem_cons_of_mem _))
        · simp [SaveState.allowed]
      next => exact ih

/-- Further changes in the working directory. -/
def changeAll (calls : List WorkingCall) (s : Tree) : Tree :=
  calls.foldl (fun t call => (call.proc.run t).final) s

lemma Sound.changeAll {A : View → Prop} {s : Tree} (h : Sound A s)
    (hdir : s.entryAt committedDirectory = some .dir) (calls : List WorkingCall) : Sound A (changeAll calls s) := by
  induction calls generalizing s with
  | nil => exact h
  | cons call calls ih =>
    obtain ⟨-, hframe⟩ := (local_proc call s).sat.run
    obtain ⟨hsound, hC⟩ := h.changed hdir hframe
    exact ih hsound hC

/-- A failed commit does not lose the previous one if its fault is safe: whatever is changed afterwards,
recovery takes what was committed or what the failed `Commit` was given. -/
theorem commitFault_keeps_commit {disk : Tree} {st : SaveState} (hfresh : Fresh disk)
    (h : SafelyReached disk st) {openWritableFiles : Nat}
    (hmounted : st.openWritableFiles = some openWritableFiles) (env : Environment) {e : FsError}
    {n : Nat} (hsafe : SafeFault env st.disk e n) (calls : List WorkingCall) (env' : Environment)
    (hok : ((initializeSave env').run (changeAll calls
      ((commitImpl env openWritableFiles).runFault e n st.disk).final)).result = .ok ()) :
    let recovered := ((initializeSave env').run (changeAll calls
      ((commitImpl env openWritableFiles).runFault e n st.disk).final)).final
    view recovered workingDirectory = view recovered committedDirectory ∧
      (view recovered committedDirectory = view st.disk committedDirectory ∨
        view recovered committedDirectory = view st.disk workingDirectory) := by
  intro recovered
  have hkept := h.kept hfresh
  have hdir := hkept.mounted (by simp [hmounted])
  have hbefore : Sound (· = view st.disk committedDirectory) st.disk := by
    obtain ⟨hfits, -⟩ := hkept.sound.of_committed hdir
    exact ⟨hkept.sound.root, hkept.sound.noFile, .committed hdir hfits rfl⟩
  obtain ⟨hsound, hC⟩ := settled_commitImpl hbefore hdir openWritableFiles hsafe
  have hsat : (initializeSave env').Sat _ _ _ _ := sat_initializeSave (hsound.changeAll hC calls)
  obtain ⟨-, hrec⟩ := hsat.run
  exact ⟨hrec.alike hok, hrec.allowed hok⟩

/-- A `Commit` of a new save whose first deletion fails, and a file that is created afterwards. -/
theorem commitFault_keeps_commit_delete :
    let st := SaveState.after (.dir []) [.initializeSave idealEnvironment]
    let failed := ((commitImpl idealEnvironment 0).runFault .preconditionViolation 30 st.disk)
    let recovered := ((initializeSave idealEnvironment).run
      (changeAll [.createFile "/a".toUTF8.toList 0] failed.final)).final
    failed.result = .error .preconditionViolation ∧
      view recovered workingDirectory = view recovered committedDirectory ∧
        (view recovered committedDirectory = view st.disk committedDirectory ∨
          view recovered committedDirectory = view st.disk workingDirectory) := by
  intro st failed recovered
  have hreached : SafelyReached (.dir []) st :=
    @SafelyReached.step _ _ (.healthy (.initializeSave idealEnvironment)) .start trivial
  have hops : synchronizeOps idealEnvironment st.disk maxRetries = 30 := by decide +kernel
  have hsafe : SafeFault idealEnvironment st.disk .preconditionViolation 30 := by
    refine ⟨nofun, ?_, ?_⟩
    · rw [hops]
      nofun
    · rw [hops]
      nofun
  refine ⟨by decide +kernel, ?_⟩
  exact commitFault_keeps_commit fresh_empty hreached (by decide +kernel) idealEnvironment hsafe
    [.createFile "/a".toUTF8.toList 0] idealEnvironment (by decide +kernel)

/-- A renaming that fails leaves only the working directory, and what is created there later is taken
for committed. -/
theorem commitFault_loses_commit :
    ¬∀ (disk : Tree) (st : SaveState) (openWritableFiles : Nat) (env : Environment) (e : FsError)
      (n : Nat) (calls : List WorkingCall) (env' : Environment), Fresh disk → SafelyReached disk st →
      st.openWritableFiles = some openWritableFiles →
      (∃ e', ((commitImpl env openWritableFiles).runFault e n st.disk).result = .error e') →
      let changed := changeAll calls ((commitImpl env openWritableFiles).runFault e n st.disk).final
      let recovered := ((initializeSave env').run changed).final
      ((initializeSave env').run changed).result = .ok () →
      view recovered committedDirectory = view st.disk committedDirectory ∨
        view recovered committedDirectory = view st.disk workingDirectory := by
  intro h
  let st := SaveState.after (.dir []) [.initializeSave idealEnvironment]
  have hreached : SafelyReached (.dir []) st :=
    @SafelyReached.step _ _ (.healthy (.initializeSave idealEnvironment)) .start trivial
  have hlost := h (.dir []) st 0 idealEnvironment .preconditionViolation 32
    [.createFile "/a".toUTF8.toList 0] idealEnvironment fresh_empty hreached (by decide +kernel)
    ⟨.preconditionViolation, by decide +kernel⟩ (by decide +kernel)
  -- the file that was created after the failed commit
  have hfile : ∀ dir, view st.disk dir ["a".toUTF8.toList] ≠ some (.file []) →
      view ((initializeSave idealEnvironment).run (changeAll [.createFile "/a".toUTF8.toList 0]
        ((commitImpl idealEnvironment 0).runFault .preconditionViolation 32 st.disk).final)).final
          committedDirectory ≠ view st.disk dir := by
    intro dir hnone heq
    have hentry := congrFun heq ["a".toUTF8.toList]
    exact hnone (hentry.symm.trans (by decide +kernel))
  rcases hlost with hC | hW
  · exact hfile committedDirectory (by decide +kernel) hC
  · exact hfile workingDirectory (by decide +kernel) hW

end RajNX.FsMitm
