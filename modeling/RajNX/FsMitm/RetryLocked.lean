import RajNX.FsMitm.SaveDataFaults

/-!
# Retrying a locked target

`RetryUntilTargetNotLocked` of `fs_dir_utils.hpp` for an operation with any outcomes. What it is for is
`Retried`: the tries end with the first outcome that is no locked target, and this outcome is returned.
The loop of the code goes on after a success and returns a success when the target stayed locked. An
operation that cannot be repeated, such as the renaming of a `Commit`, then fails at its second try.
-/

namespace RajNX.FsMitm

open FileTree Interruptible

/-- An operation from outside: its outcome and the file system it leaves. -/
abbrev Operation := Tree → Except FsError Unit × Tree

/-- The file system after so many calls. -/
def afterCalls (f : Operation) (s : Tree) : Nat → Tree
  | 0 => s
  | n + 1 => (f (afterCalls f s n)).2

/-- The outcome of a call, after so many others. -/
def outcome (f : Operation) (s : Tree) (n : Nat) : Except FsError Unit := (f (afterCalls f s n)).1

lemma afterCalls_next (f : Operation) (s : Tree) (n : Nat) : afterCalls f (f s).2 n = afterCalls f s (n + 1) := by
  induction n with
  | zero => rfl
  | succ n ih => rw [afterCalls, ih, ← afterCalls]

lemma outcome_next (f : Operation) (s : Tree) (n : Nat) : outcome f (f s).2 n = outcome f s (n + 1) := by
  rw [outcome, outcome, afterCalls_next]

/-- An operation that gives the outcomes of a sequence, with a file that is as long as it was called
often. -/
def scripted (outcomes : Nat → Except FsError Unit) : Operation
  | .file data => (outcomes data.length, .file (0 :: data))
  | .dir es => (outcomes 0, .dir es)

/-- What retrying is for: an operation is called until its outcome is no locked target, for `maxRetries`
times at most, and the last outcome is returned. -/
structure Retried (outcomes : Nat → Except FsError Unit) (calls : Nat) (result : Except FsError Unit) :
    Prop where
  called : 0 < calls ∧ calls ≤ maxRetries
  locked : ∀ n, n + 1 < calls → outcomes n = .error .targetLocked
  ended : calls < maxRetries → outcomes (calls - 1) ≠ .error .targetLocked
  result : result = outcomes (calls - 1)

/-- The first outcome that is no locked target comes in time, and is an error or the success of the last
try. -/
def EndsByItself (outcomes : Nat → Except FsError Unit) : Prop :=
  ∃ n < maxRetries, (∀ i < n, outcomes i = .error .targetLocked) ∧
    outcomes n ≠ .error .targetLocked ∧ (outcomes n = .ok () → n + 1 = maxRetries)

/-- What the loop does: it makes all of its tries and returns a success, unless there is another error than
a locked target, with which it ends. -/
lemma run_retryUntilTargetNotLocked (f : Operation) (tries : Nat) (s : Tree) :
    let run := (retryUntilTargetNotLocked (.atomic f) tries).run s
    run.visited.length = tries ∧ run.result = .ok () ∧
        (∀ n < tries, outcome f s n = .ok () ∨ outcome f s n = .error .targetLocked) ∨
      ∃ n e, n < tries ∧ run.visited.length = n + 1 ∧ run.result = .error e ∧ e ≠ .targetLocked ∧
        outcome f s n = .error e ∧
        ∀ i < n, outcome f s i = .ok () ∨ outcome f s i = .error .targetLocked := by
  induction tries generalizing s with
  | zero => exact .inl ⟨rfl, rfl, nofun⟩
  | succ tries ih =>
    dsimp only
    rw [retryUntilTargetNotLocked_atomic]
    -- an outcome with which the loop goes on
    have hgoes : (outcome f s 0 = .ok () ∨ outcome f s 0 = .error .targetLocked) →
        ∀ {n}, (∀ i < n, outcome f (f s).2 i = .ok () ∨ outcome f (f s).2 i = .error .targetLocked) →
          ∀ i < n + 1, outcome f s i = .ok () ∨ outcome f s i = .error .targetLocked := by
      intro hfirst n hrest i hi
      cases i with
      | zero => exact hfirst
      | succ i =>
        rw [← outcome_next]
        exact hrest i (Nat.lt_of_succ_lt_succ hi)
    have hnext : (outcome f s 0 = .ok () ∨ outcome f s 0 = .error .targetLocked) →
        let rest := (retryUntilTargetNotLocked (.atomic f) tries).run (f s).2
        rest.visited.length + 1 = tries + 1 ∧ rest.result = .ok () ∧
            (∀ n < tries + 1, outcome f s n = .ok () ∨ outcome f s n = .error .targetLocked) ∨
          ∃ n e, n < tries + 1 ∧ rest.visited.length + 1 = n + 1 ∧ rest.result = .error e ∧
            e ≠ .targetLocked ∧ outcome f s n = .error e ∧
            ∀ i < n, outcome f s i = .ok () ∨ outcome f s i = .error .targetLocked := by
      intro hfirst
      rcases ih (f s).2 with ⟨hlength, hresult, hall⟩ | ⟨n, e, hn, hlength, hresult, he, houtcome, hbefore⟩
      · exact .inl ⟨by rw [hlength], hresult, hgoes hfirst hall⟩
      · exact .inr ⟨n + 1, e, Nat.succ_lt_succ hn, by rw [hlength], hresult, he,
          by rw [← outcome_next, houtcome], hgoes hfirst hbefore⟩
    cases hfirst : (f s).1 with
    | ok u =>
      simp only [Proc.run, hfirst, List.length_cons]
      exact hnext (.inl hfirst)
    | error e =>
      by_cases hlocked : e = .targetLocked
      · simp only [Proc.run, hfirst, if_pos hlocked, List.length_cons]
        exact hnext (.inr (by rw [← hlocked, ← hfirst]; rfl))
      · simp only [Proc.run, hfirst, if_neg hlocked]
        exact .inr ⟨0, e, Nat.succ_pos tries, rfl, rfl, hlocked, hfirst, nofun⟩

/-- The loop retries as it is meant to exactly with outcomes that end it by themselves. -/
lemma retried_iff (f : Operation) (s : Tree) :
    Retried (outcome f s) ((retryUntilTargetNotLocked (.atomic f) maxRetries).run s).visited.length
        ((retryUntilTargetNotLocked (.atomic f) maxRetries).run s).result ↔
      EndsByItself (outcome f s) := by
  rcases run_retryUntilTargetNotLocked f maxRetries s with
    ⟨hlength, hresult, hall⟩ | ⟨n, e, hn, hlength, hresult, he, houtcome, hbefore⟩
  · rw [hlength, hresult]
    constructor
    · intro h
      have hlast : outcome f s 9 = .ok () := h.result.symm
      exact ⟨9, by decide, fun i hi => h.locked i (Nat.succ_lt_succ hi), by rw [hlast]; nofun, fun _ => rfl⟩
    · rintro ⟨n, hn, hlocked, hother, hlast⟩
      have hok := (hall n hn).resolve_right hother
      obtain rfl : n = 9 := Nat.succ_injective (hlast hok)
      exact ⟨⟨by decide, le_refl _⟩, fun i hi => hlocked i (Nat.lt_of_succ_lt_succ hi), fun h => absurd h (by decide),
        hok.symm⟩
  · rw [hlength, hresult]
    constructor
    · intro h
      refine ⟨n, hn, fun i hi => h.locked i (Nat.succ_lt_succ hi), ?_, ?_⟩
      · rw [houtcome]
        exact fun h => he (Except.error.inj h)
      · rw [houtcome]
        nofun
    · rintro ⟨m, hm, hlocked, hother, hlast⟩
      -- the loop ends with the same outcome: no error is before it, and no success
      have hnm : n = m := by
        rcases Nat.lt_trichotomy n m with hlt | heq | hgt
        · exact absurd (Except.error.inj (houtcome.symm.trans (hlocked n hlt))) he
        · exact heq
        · have hsucc := hlast ((hbefore m hgt).resolve_right hother)
          omega
      subst hnm
      exact ⟨⟨Nat.succ_pos n, hn⟩, fun i hi => hlocked i (Nat.lt_of_succ_lt_succ hi), fun _ => hother, houtcome.symm⟩

/-! ## Committing -/

/-- `CommitImpl` with one call of each of its operations. -/
def commitOnce (env : Environment) : FsProc Unit := do
  synchronizeDirectory env synchronizingDirectory workingDirectory
  (deleteDirectoryRecursively committedDirectory).catchOnly .pathNotFound (pure ())
  renameDirectory synchronizingDirectory committedDirectory

/-- What a disk is like on which the operations of a `Commit` succeed. -/
structure Committable (s : Tree) : Prop where
  root : s.entryAt [] = some .dir
  working : s.entryAt workingDirectory = some .dir
  fits : Fits s workingDirectory
  noFile : NoFile s synchronizingDirectory
  committed : s.entryAt committedDirectory = some .dir ∨ s.entryAt committedDirectory = none

/-- The calls of a `Commit` succeed only there. -/
lemma sat_commitOnce (env : Environment) (s : Tree) :
    (commitOnce env).Sat Proc.noFault s (fun _ => True) fun r _ => r = .ok () → Committable s := by
  refine Proc.sat_bind (sat_synchronizeWorking.mono (fun _ _ => trivial) ?_)
  intro r t hsync
  refine ⟨?_, fun _ _ => by rintro ⟨⟩⟩
  rintro ⟨⟩ rfl
  have hdir := hsync.dir rfl
  have hcommitted : t.entryAt committedDirectory = s.entryAt committedDirectory :=
    hsync.keeps.1.entryAt_self apart_synchronizing_committed
  have hable : (s.entryAt committedDirectory = some .dir ∨ s.entryAt committedDirectory = none) →
      Committable s := fun h =>
    ⟨Node.entryAt_of_below (q := workingDirectory) (by decide) (by simp [hdir]), hdir, hsync.fits rfl,
      hsync.wasNoFile rfl, h⟩
  -- the committed directory is deleted, or its path is free when the renaming succeeds
  refine Proc.sat_bind (Proc.sat_catchOnly (sat_deleteDirectoryRecursively (by decide) trivial ?_ ?_))
  · rintro e (he | ⟨rfl, -⟩)
    · exact he.elim
    refine ⟨by rintro ⟨⟩, fun _ => ?_, fun e' he' hne => (hne (Except.error.inj he').symm).elim⟩
    refine Proc.sat_pure ⟨fun _ _ => ?_, by rintro _ ⟨⟩⟩
    refine sat_renameDirectory (by decide) (by decide) trivial (fun _ _ => by rintro ⟨⟩) ?_
    exact fun u _ hfree _ => ⟨trivial, fun _ => hable (.inr (hcommitted.symm.trans hfree))⟩
  · intro u hthere _
    refine ⟨trivial, ⟨fun _ => ⟨fun _ _ => ?_, by rintro _ ⟨⟩⟩, by rintro ⟨⟩, by rintro _ ⟨⟩⟩⟩
    have hcommittable := hable (.inl (hcommitted.symm.trans hthere))
    exact sat_renameDirectory (by decide) (by decide) trivial (fun _ _ => by rintro ⟨⟩) fun v _ _ _ =>
      ⟨trivial, fun _ => hcommittable⟩

/-- The tries to synchronize all succeed on such a disk. -/
lemma Committable.synchronize {s : Tree} (h : Committable s) (env : Environment) :
    ((commitSynchronize env maxRetries).run s).result = .ok () ∧
      Staged s ((commitSynchronize env maxRetries).run s).final := by
  have htry : ∀ t, Keeps synchronizingDirectory s t →
      (synchronizeDirectory env synchronizingDirectory workingDirectory).Sat Proc.noFault t (fun _ => True)
        fun r u => Keeps synchronizingDirectory s u ∧ (r = .ok () → True) ∧
          (r = .error .targetLocked → Proc.noFault FsError.targetLocked) ∧
          ∀ e, r = .error e → e ≠ .targetLocked → False := by
    intro t ht
    refine sat_synchronizeWorking.mono (fun _ _ => trivial) ?_
    intro r u hsync
    have hok : r = .ok () := by
      refine hsync.returns (fun _ he => he) ?_ ?_ (ht.2 h.noFile)
      · rw [ht.1.entryAt_self apart_synchronizing_working, h.working]
      · exact h.fits.frame ht.1 apart_synchronizing_working
    subst hok
    exact ⟨ht.trans hsync.keeps, fun _ => trivial, nofun, nofun⟩
  have hkeeps := Keeps.refl synchronizingDirectory s
  have hsat : (commitSynchronize env maxRetries).Sat _ s _ _ := sat_retryUntilTargetNotLocked htry hkeeps
  have hok : ((commitSynchronize env maxRetries).run s).result = .ok () := by
    obtain ⟨-, -, -, herror⟩ := hsat.run
    cases hr : ((commitSynchronize env maxRetries).run s).result with
    | ok => rfl
    | error e => exact (herror e hr).elim
  have hstage : (commitSynchronize env maxRetries).Sat Proc.noFault s _ _ := sat_commitSynchronize hkeeps
  exact ⟨hok, hstage.run.2.2 hok (fun h => h) (.inl (by decide))⟩

/-- The first renaming succeeds, and the second one does not find the directory. -/
lemma renameTries_repeated {s t : Tree} (h : Prepared s t) (tries : Nat) :
    ((renameTries (tries + 2)).run t).result = .error .pathNotFound := by
  obtain ⟨hok, -, hgone, -⟩ := renameOp_prepared h
  have hnone : (renameOp t).2.find synchronizingDirectory = none := by
    have hentry := hgone []
    rw [List.append_nil, Node.entryAt, Option.map_eq_none_iff] at hentry
    exact hentry
  have hagain : renameOp (renameOp t).2 = (.error .pathNotFound, (renameOp t).2) := by
    rw [renameOp, hnone]
  rw [renameTries_succ]
  simp only [Proc.run, hok]
  rw [renameTries_succ]
  simp only [Proc.run, hagain, reduceCtorEq, if_false]
  rfl

/-- Without a committed directory the tries to delete end at once. -/
lemma deleteTries_none {t : Tree} (hnone : t.entryAt committedDirectory = none) (tries : Nat) :
    ((deleteTries (tries + 1)).run t).result = ((renameTries maxRetries).run t).result := by
  rw [deleteTries_succ]
  simp only [Proc.run, deleteOp_none hnone, reduceCtorEq, if_false, if_true]

/-- The rest of `CommitImpl` fails at the second renaming. -/
lemma Committable.settle {s t : Tree} (h : Committable s) (ht : Staged s t) :
    (commitSettle.run t).result = .error .pathNotFound := by
  have hcommitted : t.entryAt committedDirectory = s.entryAt committedDirectory :=
    ht.keeps.1.entryAt_self apart_synchronizing_committed
  rw [commitSettle_eq]
  rcases h.committed with hdir | hnone
  · obtain ⟨hok, hdropped⟩ := deleteOp_dir (hcommitted.trans hdir)
    rw [show maxRetries = 8 + 1 + 1 from rfl, deleteTries_succ]
    simp only [Proc.run, hok]
    rw [deleteTries_none hdropped.2]
    exact renameTries_repeated (ht.prepared h.root hdropped) 8
  · have hdropped : Dropped t t := ⟨Frame.refl _ t, hcommitted.trans hnone⟩
    rw [show maxRetries = 9 + 1 from rfl, deleteTries_none hdropped.2]
    exact renameTries_repeated (ht.prepared h.root hdropped) 8

/-- A `Commit` whose operations all succeed when they are first called returns an error. -/
lemma commitImpl_of_commitOnce {env : Environment} {s : Tree} (h : ((commitOnce env).run s).result = .ok ()) :
    ((commitImpl env 0).run s).result = .error .pathNotFound := by
  have hable := (sat_commitOnce env s).run.2 h
  obtain ⟨hok, hstaged⟩ := hable.synchronize env
  rw [commitImpl_eq, Proc.run_bind_ok hok]
  dsimp only
  exact hable.settle hstaged

/-- The loop retries as it is meant to exactly when the first outcome that is no locked target is an error or
the success of the last try, and a `Commit` never returns a success when its operations do. -/
theorem retryUntilTargetNotLocked_iff (f : Operation) (s : Tree) (env : Environment) (disk : Tree) :
    (Retried (outcome f s) ((retryUntilTargetNotLocked (.atomic f) maxRetries).run s).visited.length
        ((retryUntilTargetNotLocked (.atomic f) maxRetries).run s).result ↔ EndsByItself (outcome f s)) ∧
      (((commitOnce env).run disk).result = .ok () → ((commitImpl env 0).run disk).result ≠ .ok ()) := by
  refine ⟨retried_iff f s, ?_⟩
  intro h
  rw [commitImpl_of_commitOnce h]
  nofun

/-- An operation that succeeds is called ten times, a target that stays locked is a success, and the `Commit`
of a new save fails. -/
theorem retryUntilTargetNotLocked_repeats :
    let disk := (SaveState.after (.dir []) [.initializeSave idealEnvironment]).disk
    let retry (o : Except FsError Unit) :=
      (retryUntilTargetNotLocked (.atomic (scripted fun _ => o)) maxRetries).run (.file [])
    ¬Retried (fun _ => .ok ()) (retry (.ok ())).visited.length (retry (.ok ())).result ∧
      ¬Retried (fun _ => .error .targetLocked) (retry (.error .targetLocked)).visited.length
        (retry (.error .targetLocked)).result ∧
      disk.entryAt workingDirectory = some .dir ∧ ((commitOnce idealEnvironment).run disk).result = .ok () ∧
      ((commitImpl idealEnvironment 0).run disk).result ≠ .ok () := by
  intro disk retry
  have honce : ((commitOnce idealEnvironment).run disk).result = .ok () := by decide +kernel
  refine ⟨fun h => ?_, fun h => ?_, by decide +kernel, honce, ?_⟩
  · exact absurd (h.locked 0 (by decide +kernel)) nofun
  · have hresult : (retry (.error .targetLocked)).result = .ok () := by decide +kernel
    exact absurd (h.result.symm.trans hresult) nofun
  · rw [commitImpl_of_commitOnce honce]
    nofun

end RajNX.FsMitm
