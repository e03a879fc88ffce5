import RajNX.Kvdb.Archive
import RajNX.Lib.Interruptible

/-!
# Saving a key-value store

`Save` and `Load` of `MemoryKeyValueStore` over the two files of a store, the archive and the temporary
archive. `Commit` writes the new archive to the temporary one, removes the archive and renames the
temporary one to it. A store whose archive does not exist is loaded as an empty one.

What a cut between two of the steps leaves for the next `Load` is exact: the contents before or after
the save, but for a cut between the removal of the archive and the renaming.
-/

namespace RajNX.Kvdb

open Interruptible Splice

variable {κ : Type}

/-- The files of a store, `imkvdb.arc` and `imkvdb.tmp`. -/
inductive ArchiveFile
  | path
  | tempPath
deriving Repr, DecidableEq

/-- The contents of the files that exist. -/
abbrev ArchiveFiles : Type := ArchiveFile → Option (List UInt8)

/-- How a save fails: as the store does, or with a result of the file system. -/
inductive SaveFailure
  | kvdb (f : KvFailure)
  | pathNotFound
  | pathAlreadyExists
deriving Repr, DecidableEq

/-- `remove` -/
def removeFile (p : ArchiveFile) : Proc ArchiveFiles SaveFailure Unit :=
  .atomic fun s =>
    match s p with
    | none => (.error .pathNotFound, s)
    | some _ => (.ok (), Function.update s p none)

/-- `fsdevCreateFile` -/
def createFile (p : ArchiveFile) (size : Nat) : Proc ArchiveFiles SaveFailure Unit :=
  .atomic fun s =>
    match s p with
    | none => (.ok (), Function.update s p (some (List.replicate size 0)))
    | some _ => (.error .pathAlreadyExists, s)

/-- `fopen` for update, `fwrite` and `fclose` -/
def writeFile (p : ArchiveFile) (buffer : List UInt8) : Proc ArchiveFiles SaveFailure Unit :=
  .atomic fun s =>
    match s p with
    | none => (.error .pathNotFound, s)
    | some contents => (.ok (), Function.update s p (some (splice contents 0 buffer)))

/-- `rename`, which does not replace a file -/
def renameFile (old new : ArchiveFile) : Proc ArchiveFiles SaveFailure Unit :=
  .atomic fun s =>
    match s old, s new with
    | none, _ => (.error .pathNotFound, s)
    | some _, some _ => (.error .pathAlreadyExists, s)
    | some contents, none => (.ok (), Function.update (Function.update s old none) new (some contents))

/-- `Commit` -/
def commit (buffer : List UInt8) : Proc ArchiveFiles SaveFailure Unit := do
  -- Either removal may fail: the file may not exist.
  let _ ← (removeFile .tempPath).attempt
  createFile .tempPath buffer.length
  writeFile .tempPath buffer
  let _ ← (removeFile .path).attempt
  renameFile .tempPath .path

/-- `Save`, given the memory for the archive unless it cannot be allocated -/
def save (pod : Pod κ) (memory : Option (List UInt8)) (x : Index κ) : Proc ArchiveFiles SaveFailure Unit :=
  match memory with
  | none => .fail (.kvdb (.failed .allocationFailed))
  | some memory =>
    match saveArchive pod memory x with
    | .error f => .fail (.kvdb f)
    | .ok w => commit w.buffer

/-- `Load`, with `ReadArchiveFile`, given which sizes can be allocated -/
def load (pod : Pod κ) (allocates : Nat → Bool) (s : ArchiveFiles) (x : Index κ) : Except KvFailure (Index κ) :=
  match s .path with
  -- No archive file means no entries.
  | none => .ok { x with count := 0 }
  | some bytes =>
    if ¬allocates bytes.length then .error (.failed .allocationFailed)
    else loadArchive pod allocates bytes x

/-- The files load as a store with these entries. -/
def Loads (pod : Pod κ) (allocates : Nat → Bool) (s : ArchiveFiles) (x : Index κ)
    (es : List (Entry κ)) : Prop :=
  ∃ y, load pod allocates s x = .ok y ∧ y.live = es

/-! ## Cuts -/

section Cut

open Proc

variable {s : ArchiveFiles} {p : ArchiveFile} {q : Proc ArchiveFiles SaveFailure Unit}

/-- A file that was to be removed does not exist, whether or not it did. -/
lemma cut_removeFile (n : Nat) :
    ((removeFile p).attempt >>= fun _ => q).cut (n + 1) s = q.cut n (Function.update s p none) := by
  cases hp : s p with
  | none =>
    have hself : Function.update s p none = s := by rw [← hp, Function.update_eq_self]
    rw [hself]
    exact cut_attempt_bind (by simp only [hp]; rfl) n
  | some contents => exact cut_attempt_bind (by simp only [hp]; rfl) n

lemma cut_createFile {size : Nat} (hp : s p = none) (n : Nat) :
    (createFile p size >>= fun _ => q).cut (n + 1) s = q.cut n (Function.update s p (some (List.replicate size 0))) :=
  cut_atomic_bind (by simp only [hp]; rfl) n

lemma cut_writeFile {contents buffer : List UInt8} (hp : s p = some contents) (n : Nat) :
    (writeFile p buffer >>= fun _ => q).cut (n + 1) s =
      q.cut n (Function.update s p (some (splice contents 0 buffer))) :=
  cut_atomic_bind (by simp only [hp]; rfl) n

lemma cut_renameFile {p' : ArchiveFile} {contents : List UInt8} (hp : s p = some contents)
    (hp' : s p' = none) (n : Nat) :
    (renameFile p p').cut (n + 1) s =
      Function.update (Function.update s p none) p' (some contents) := by
  show (match s p, s p' with
    | none, _ => (Except.error SaveFailure.pathNotFound, s)
    | some _, some _ => (.error .pathAlreadyExists, s)
    | some contents, none => (.ok (), Function.update (Function.update s p none) p' (some contents))).2
      = _
  rw [hp, hp']

/-- The archive that a cut after `n` steps of `Commit` leaves. -/
lemma commit_cut_path (buffer : List UInt8) (s : ArchiveFiles) (n : Nat) :
    (commit buffer).cut n s .path =
      if n < 4 then s .path else if n = 4 then none else some buffer := by
  have hwhole : splice (List.replicate buffer.length 0) 0 buffer = buffer := by
    rw [splice, List.take_zero, List.nil_append, Nat.zero_add,
      List.drop_eq_nil_of_le (by rw [List.length_replicate]), List.append_nil]
  rw [commit]
  cases n with
  | zero => rfl
  | succ n =>
  rw [cut_removeFile]
  cases n with
  | zero => rw [cut_zero]; rfl
  | succ n =>
  rw [cut_createFile (Function.update_self ..)]
  cases n with
  | zero => rw [cut_zero]; rfl
  | succ n =>
  rw [cut_writeFile (Function.update_self ..), hwhole]
  cases n with
  | zero => rw [cut_zero]; rfl
  | succ n =>
  rw [cut_removeFile]
  cases n with
  | zero => rw [cut_zero]; rfl
  | succ n =>
  rw [cut_renameFile (rfl : _ = some buffer) rfl]
  rw [Function.update_self, if_neg (by omega), if_neg (by omega)]

end Cut

/-- A `Save` that is given memory and cannot write the archive to it touches no file. -/
lemma save_cut_of_empty {pod : Pod κ} {x : Index κ} (h : ∃ e ∈ x.live, e.value = [])
    (memory : List UInt8) (n : Nat) (s : ArchiveFiles) : (save pod (some memory) x).cut n s = s := by
  have hfail : ∃ f, saveArchive pod memory x = .error f := by
    rw [saveArchive]
    cases ArchiveWriter.writeHeader ⟨memory, 0⟩ x.count with
    | error f => exact ⟨f, rfl⟩
    | ok w => exact writeEntries_of_empty h w
  obtain ⟨f, hf⟩ := hfail
  rw [save, hf]
  rfl

/-- The next `Load` depends on the archive only. -/
lemma load_congr {pod : Pod κ} {allocates : Nat → Bool} {s t : ArchiveFiles} {y : Index κ}
    (h : t .path = s .path) : load pod allocates t y = load pod allocates s y := by
  rw [load, load, h]

/-- Without an archive the store is loaded as an empty one. -/
lemma loads_of_no_archive {pod : Pod κ} {allocates : Nat → Bool} {t : ArchiveFiles} {y : Index κ}
    (h : t .path = none) (es : List (Entry κ)) : Loads pod allocates t y es ↔ es = [] := by
  have hload : load pod allocates t y = .ok { y with count := 0 } := by
    rw [load, h]
  constructor
  · intro h
    obtain ⟨y', hy', hes⟩ := h
    rw [hload] at hy'
    cases hy'
    exact hes.symm
  · intro h
    exact ⟨_, hload, h.symm⟩

/-- What the next `Load` finds after a cut of `Save`: exactly the contents before or after it, unless
the cut is between the removal of the archive and the renaming. There the store is empty, which is
one of the two contents only if one of them is empty. -/
theorem save_cut_loads_iff (pod : Pod κ) (allocates : Nat → Bool) (x y : Index κ)
    (prev : List (Entry κ)) (s : ArchiveFiles) (memory : List UInt8) (n : Nat)
    (hcount : x.count ≤ x.capacity) (hcount32 : x.count < 2 ^ 32) (hkey32 : pod.size < 2 ^ 32)
    (hvalues32 : ∀ e ∈ x.live, e.value.length < 2 ^ 32)
    (hsize : (archiveBytes pod x.live).length < 2 ^ 64)
    (hmemory : memory.length = getArchiveSize pod x.live)
    (halloc : allocates (archiveBytes pod x.live).length = true ∧
      ∀ e ∈ x.live, allocates e.value.length = true)
    (hroom : x.count ≤ y.capacity) (hprev : Loads pod allocates s y prev) :
    (Loads pod allocates ((save pod (some memory) x).cut n s) y prev ∨
      Loads pod allocates ((save pod (some memory) x).cut n s) y x.live) ↔
    n ≠ 4 ∨ prev = [] ∨ x.live = [] ∨ ∃ e ∈ x.live, e.value = [] := by
  have hlive := length_live hcount
  by_cases hempty : ∃ e ∈ x.live, e.value = []
  · rw [save_cut_of_empty hempty]
    exact ⟨fun _ => .inr (.inr (.inr hempty)), fun _ => .inl hprev⟩
  have hpos : ∀ e ∈ x.live, 0 < e.value.length :=
    fun e he => List.length_pos_iff.mpr fun h => hempty ⟨e, he, h⟩
  have hpath := commit_cut_path (archiveBytes pod x.live) s n
  rw [save, saveArchive_eq hlive hpos hsize hmemory]
  dsimp only
  generalize (commit (archiveBytes pod x.live)).cut n s = t at hpath ⊢
  rcases Nat.lt_trichotomy n 4 with hn | rfl | hn
  · rw [if_pos hn] at hpath
    obtain ⟨y', hy', hyprev⟩ := hprev
    exact ⟨fun _ => .inl (Nat.ne_of_lt hn), fun _ => .inl ⟨y', (load_congr hpath).trans hy', hyprev⟩⟩
  · rw [loads_of_no_archive hpath, loads_of_no_archive hpath]
    constructor
    · intro h
      exact .inr (h.imp_right .inl)
    · intro h
      rcases h with h | h | h | h
      · exact absurd rfl h
      · exact .inl h
      · exact .inr h
      · exact absurd h hempty
  · rw [if_neg (by omega), if_neg (by omega)] at hpath
    obtain ⟨y', hy', hynew⟩ := loadArchive_eq (y := y) hkey32 (by rwa [hlive])
      (fun e he => ⟨hpos e he, hvalues32 e he, halloc.2 e he⟩) hsize (by rwa [hlive])
    refine ⟨fun _ => .inl (Nat.ne_of_gt hn), fun _ => .inr ⟨y', ?_, hynew⟩⟩
    rw [load, hpath]
    dsimp only
    rw [if_neg (by rw [halloc.1]; decide), hy']

/-- The files of a store that was saved with one entry. -/
def savedFiles : ArchiveFiles
  | .path => some (archiveBytes bytePod [⟨1, [5]⟩])
  | .tempPath => none

lemma loads_savedFiles : Loads bytePod (fun _ => true) savedFiles ⟨[⟨0, []⟩], 0⟩ [⟨1, [5]⟩] :=
  ⟨⟨[⟨1, [5]⟩], 1⟩, rfl, rfl⟩

/-- A cut behind the writing of the temporary archive leaves the saved contents. -/
theorem save_cut_loads_iff_written :
    let x : Index UInt8 := ⟨[⟨1, [6]⟩], 1⟩
    let t := (save bytePod (some (List.replicate 26 0)) x).cut 3 savedFiles
    Loads bytePod (fun _ => true) t ⟨[⟨0, []⟩], 0⟩ [⟨1, [5]⟩] ∨
      Loads bytePod (fun _ => true) t ⟨[⟨0, []⟩], 0⟩ x.live := by
  intro x t
  have hiff := save_cut_loads_iff bytePod (fun _ => true) x ⟨[⟨0, []⟩], 0⟩ [⟨1, [5]⟩] savedFiles
    (List.replicate 26 0) 3 (by decide) (by decide) (by decide) (by decide) (by decide) (by decide)
    (by decide) (by decide) loads_savedFiles
  exact hiff.mpr (.inl (by decide))

/-- A cut between the removal of the archive and the renaming empties the store. -/
theorem save_cut_empties_store :
    let x : Index UInt8 := ⟨[⟨1, [6]⟩], 1⟩
    let y : Index UInt8 := ⟨[⟨0, []⟩], 0⟩
    let t := (save bytePod (some (List.replicate (getArchiveSize bytePod x.live) 0)) x).cut 4 savedFiles
    Loads bytePod (fun _ => true) savedFiles y [⟨1, [5]⟩] ∧
      ¬(Loads bytePod (fun _ => true) t y [⟨1, [5]⟩] ∨ Loads bytePod (fun _ => true) t y x.live) := by
  intro x y t
  have ht : t .path = none := rfl
  refine ⟨loads_savedFiles, ?_⟩
  rw [loads_of_no_archive ht, loads_of_no_archive ht]
  decide

end RajNX.Kvdb
