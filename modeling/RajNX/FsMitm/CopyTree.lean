import RajNX.FsMitm.DirUtils

/-!
# Copying a tree

`CopyDirectoryRecursively` of `fs_dir_utils.cpp` with its path buffers: the traversal moves one cursor over the
source, its callbacks move another one over the destination, and both are path strings that grow by a name and
a separator and are cut back. The two file systems are directories of one device; they may be the same.
-/

namespace RajNX.FsMitm

open FileTree Interruptible SlashPath

/-- Where the root of a file system is on the device. -/
abbrev Mount := Path

/-- Where a path of a file system is on the device. -/
def located (mount : Mount) (path : List UInt8) : Path := mount ++ components slash path

/-- `strncat` to the string of an `FsPath`, with the room that is left in it. -/
def strncat (path name : List UInt8) : List UInt8 := path ++ name.take (fsMaxPath - path.length - 1)

/-- The functions a traversal calls, with the path strings it has. -/
structure TextCallbacks (κ : Type) where
  onEnterDir : List UInt8 → DirectoryEntry → κ → FsProc κ
  onExitDir : List UInt8 → DirectoryEntry → κ → FsProc κ
  onFile : List UInt8 → DirectoryEntry → Nat → κ → FsProc κ

/-- How much longer the path of an entry is than its name. -/
def separatorLen (kind : Entry Nat) : Nat := if kind = .dir then 1 else 0

/-- The body of the loop over the entries of a directory, whose path has `parentLen` characters. -/
def visitEntryText {κ : Type} (calls : TextCallbacks κ) (recurse : List UInt8 → κ → FsProc (List UInt8 × κ))
    (parentLen : Nat) (ent : DirectoryEntry) (st : List UInt8 × κ) : FsProc (List UInt8 × κ) :=
  if fsMaxPath ≤ parentLen + ent.name.length + separatorLen ent.kind then .fail .tooLongPath
  else
    let workPath := strncat st.1 ent.name
    match ent.kind with
    | .dir => do
      let k ← calls.onEnterDir workPath ent st.2
      let st ← recurse (strncat workPath [slash]) k
      let k ← calls.onExitDir st.1 ent st.2
      pure (st.1.take parentLen, k)
    | .file size => do
      let k ← calls.onFile workPath ent size st.2
      pure (workPath.take parentLen, k)

/-- `FsDirUtils::IterateDirectoryRecursivelyInternal`, which leaves its work path behind. A directory inside of
another one has a longer path, so that `FS_MAX_PATH` bounds the depth. -/
def iterateTextInternal {κ : Type} (env : Environment) (mount : Mount) (calls : TextCallbacks κ) :
    Nat → List UInt8 → κ → FsProc (List UInt8 × κ)
  | 0, _, _ => .fail .tooLongPath
  | fuel + 1, workPath, k => do
    let entries ← listDirectory env.readOrder (located mount workPath)
    iterateEntries (visitEntryText calls (iterateTextInternal env mount calls fuel) workPath.length) entries
      (workPath, k)

/-- The path of a directory with a separator at its end. -/
def terminated (path : List UInt8) : List UInt8 := if path.getLast? = some slash then path else path ++ [slash]

/-- `FsDirUtils::IterateDirectoryRecursively` -/
def iterateText {κ : Type} (env : Environment) (mount : Mount) (calls : TextCallbacks κ) (rootPath : List UInt8)
    (k : κ) : FsProc (List UInt8 × κ) :=
  if fsMaxPath - 1 < rootPath.length ∨ rootPath.length = fsMaxPath - 1 ∧ rootPath.getLast? ≠ some slash then
    .fail .tooLongPath
  else iterateTextInternal env mount calls fsMaxPath (terminated rootPath) k

/-- `FsDirUtils::CopyFile` -/
def copyFileText (env : Environment) (dstMount srcMount : Mount) (dstParentPath srcPath : List UInt8)
    (dirEnt : DirectoryEntry) (fileSize : Nat) : FsProc Unit := do
  openFile (located srcMount srcPath)
  if fsMaxPath ≤ (dstParentPath ++ dirEnt.name).length then .fail .aborted
  else do
    createFile (located dstMount (dstParentPath ++ dirEnt.name)) fileSize
    openFile (located dstMount (dstParentPath ++ dirEnt.name))
    copyChunks env (located dstMount (dstParentPath ++ dirEnt.name)) (located srcMount srcPath) fileSize fileSize 0

/-- The walk of the pointer `p` in a path, back to a separator or the first character. -/
def findSeparator (path : List UInt8) : Nat → Nat
  | 0 => 0
  | p + 1 => if path.getD (p + 1) 0 ≠ slash then findSeparator path p else p + 1

/-- The functions `CopyDirectoryRecursively` traverses the source with; they share its work path. -/
def copyTextCallbacks (env : Environment) (dstMount srcMount : Mount) : TextCallbacks (List UInt8) where
  onEnterDir := fun _ dirEnt workPath => do
    let workPath := strncat (strncat workPath dirEnt.name) [slash]
    createDirectory (located dstMount workPath)
    pure workPath
  onExitDir := fun _ _ workPath =>
    if workPath.length < 2 then .fail .invalidPathFormat
    else pure (workPath.take (findSeparator workPath (workPath.length - 2) + 1))
  onFile := fun path dirEnt size workPath => do
    copyFileText env dstMount srcMount workPath path dirEnt size
    pure workPath

/-- `FsDirUtils::CopyDirectoryRecursively` -/
def copyTree (env : Environment) (dstMount srcMount : Mount) (dstPath srcPath : List UInt8) : FsProc Unit := do
  let _ ← iterateText env srcMount (copyTextCallbacks env dstMount srcMount) srcPath dstPath
  pure ()

/-! ## Cursors -/

/-- A path string that leads to a directory. -/
structure DirCursor (mount : Mount) (path : List UInt8) (dir : Path) : Prop where
  located : located mount path = dir
  terminated : path.getLast? = some slash
  short : path.length < fsMaxPath

/-- A name in a path. -/
def PlainName (name : Name) : Prop := name ≠ [] ∧ slash ∉ name

section Cursors

variable {mount : Mount} {path : List UInt8} {dir : Path} {name : Name}

lemma strncat_of_lt (h : path.length + name.length < fsMaxPath) : strncat path name = path ++ name := by
  rw [strncat, List.take_of_length_le (by omega)]

lemma strncat_push (h : path.length + name.length + 1 < fsMaxPath) :
    strncat (strncat path name) [slash] = path ++ name ++ [slash] := by
  have hname : strncat path name = path ++ name := strncat_of_lt (by omega)
  rw [hname, strncat_of_lt]
  rw [List.length_append, List.length_singleton]
  exact h

/-- The string up to its last separator. -/
lemma DirCursor.exists_front (h : DirCursor mount path dir) : ∃ front, path = front ++ [slash] := by
  have hne : path ≠ [] := by
    rintro rfl
    exact absurd h.terminated nofun
  have hlast : path.getLast hne = slash := by
    have hterminated := h.terminated
    rw [List.getLast?_eq_some_getLast hne] at hterminated
    exact Option.some.inj hterminated
  exact ⟨path.dropLast, by rw [← hlast, List.dropLast_append_getLast hne]⟩

/-- An entry of the directory. -/
lemma DirCursor.located_name (h : DirCursor mount path dir) (hname : PlainName name) :
    FsMitm.located mount (path ++ name) = dir ++ [name] := by
  obtain ⟨front, rfl⟩ := h.exists_front
  have hdir := h.located
  rw [FsMitm.located, components_append_sep, components_nil, List.append_nil] at hdir
  rw [FsMitm.located, List.append_assoc, List.singleton_append, components_append_sep,
    components_name hname.1 hname.2, ← List.append_assoc, hdir]

/-- The cursor of a directory inside of the directory. -/
lemma DirCursor.push (h : DirCursor mount path dir) (hname : PlainName name)
    (hlen : path.length + name.length + 1 < fsMaxPath) :
    DirCursor mount (path ++ name ++ [slash]) (dir ++ [name]) where
  located := by
    rw [FsMitm.located, components_append_sep, components_nil, List.append_nil]
    exact h.located_name hname
  terminated := List.getLast?_concat
  short := by
    rw [List.length_append, List.length_append, List.length_singleton]
    exact hlen

/-- The pointer walks back over a name. -/
lemma findSeparator_name {path : List UInt8} {m : Nat} (hm : path.getD m 0 = slash) (n : Nat)
    (hname : ∀ k, m < k → k ≤ m + n → path.getD k 0 ≠ slash) : findSeparator path (m + n) = m := by
  induction n with
  | zero =>
    cases m with
    | zero => rfl
    | succ m => rw [Nat.add_zero, findSeparator, if_neg (not_not.mpr hm)]
  | succ n ih =>
    rw [← Nat.add_assoc, findSeparator, if_pos (hname _ (by omega) (by omega))]
    exact ih fun k hk hk' => hname k hk (by omega)

/-- Leaving a directory cuts its name off again. -/
lemma DirCursor.pop (h : DirCursor mount path dir) (hname : PlainName name) :
    (path ++ name ++ [slash]).take
        (findSeparator (path ++ name ++ [slash]) ((path ++ name ++ [slash]).length - 2) + 1) = path := by
  obtain ⟨front, rfl⟩ := h.exists_front
  have hpos : 0 < name.length := List.length_pos_iff.mpr hname.1
  have hlength : (front ++ [slash] ++ name ++ [slash]).length - 2 = front.length + name.length := by
    simp only [List.length_append, List.length_singleton]
    omega
  have hfound : findSeparator (front ++ [slash] ++ name ++ [slash]) (front.length + name.length) =
      front.length := by
    apply findSeparator_name
    · simp
    · intro k hk hk'
      have hin : k - (front ++ [slash]).length < name.length := by
        rw [List.length_append, List.length_singleton]
        omega
      have hchar : (front ++ [slash] ++ name ++ [slash]).getD k 0 = name[k - (front ++ [slash]).length] := by
        rw [List.getD_eq_getElem?_getD, List.getElem?_append_left (by simp; omega),
          List.getElem?_append_right (by simp; omega), List.getElem?_eq_getElem hin, Option.getD_some]
      rw [hchar]
      intro heq
      exact hname.2 (heq ▸ List.getElem_mem hin)
  rw [hlength, hfound, List.append_assoc (front ++ [slash])]
  exact List.take_left' (by simp)

end Cursors

/-! ## Copying -/

/-- What is below a directory can be reached from a path of `n` characters: the names are plain ones, and the
paths are within `FS_MAX_PATH`, with the separator at the end of a directory's. -/
structure Reachable (s : Tree) (dir : Path) (n : Nat) : Prop where
  plain : ∀ q name, s.entryAt (dir ++ q ++ [name]) ≠ none → PlainName name
  fits : ∀ q name e, s.entryAt (dir ++ q ++ [name]) = some e → n + entryLen q name e ≤ fsMaxPath

section Copy

variable {env : Environment} {dstMount srcMount : Mount} {dst src : Path} {s t : Tree} {d w : List UInt8}
  {ent : DirectoryEntry} {rest : List DirectoryEntry} {n : Nat} {name : Name}
  {recurse : List UInt8 → List UInt8 → FsProc (List UInt8 × List UInt8)}

lemma Reachable.congr (h : ∀ q, t.entryAt (src ++ q) = s.entryAt (src ++ q)) (hs : Reachable s src n) :
    Reachable t src n where
  plain q name := by
    rw [List.append_assoc, h, ← List.append_assoc]
    exact hs.plain q name
  fits q name e := by
    rw [List.append_assoc, h, ← List.append_assoc]
    exact hs.fits q name e

/-- A directory inside of the directory. -/
lemma Reachable.child (h : Reachable s src n) (name : Name) : Reachable s (src ++ [name]) (n + name.length + 1) where
  plain q name' hne := by
    refine h.plain (name :: q) name' ?_
    simpa using hne
  fits q name' e he := by
    have hfits := h.fits (name :: q) name' e (by simpa using he)
    simp only [entryLen, pathLen, List.map_cons, List.sum_cons] at hfits ⊢
    omega

/-- An entry of the directory itself. -/
lemma Reachable.entry (h : Reachable s src n) {e : Entry (List UInt8)} (he : s.entryAt (src ++ [name]) = some e) :
    PlainName name ∧ n + name.length + separatorLen (listedKind e) < fsMaxPath := by
  have hentry : s.entryAt (src ++ [] ++ [name]) = some e := by
    rwa [List.append_nil]
  have hfits := h.fits [] name e hentry
  refine ⟨h.plain [] name (by rw [hentry]; nofun), ?_⟩
  cases e with
  | dir =>
    simp only [entryLen, pathLen, List.map_nil, List.sum_nil, listedKind, separatorLen, if_true] at hfits ⊢
    omega
  | file data =>
    simp only [entryLen, pathLen, List.map_nil, List.sum_nil, listedKind, separatorLen, reduceCtorEq,
      if_false] at hfits ⊢
    omega

/-- `CopyFile` into a free path. -/
lemma sat_copyFileText {data : List UInt8} (hsrc : s.entryAt (located srcMount w) = some (.file data))
    (hshort : d.length + ent.name.length < fsMaxPath) (hdst : located dstMount (d ++ ent.name) = dst ++ [ent.name])
    (hdir : s.entryAt dst = some .dir) (hfree : s.entryAt (dst ++ [ent.name]) = none)
    (hapart : Apart (dst ++ [ent.name]) (located srcMount w)) :
    (copyFileText env dstMount srcMount d w ent data.length).Sat Proc.noFault s (Frame (dst ++ [ent.name]) s)
      fun r t => r = .ok () ∧ Frame (dst ++ [ent.name]) s t ∧ t.entryAt (dst ++ [ent.name]) = some (.file data) := by
  have hrefl := Frame.refl (dst ++ [ent.name]) s
  rw [copyFileText, hdst]
  refine Proc.sat_bind (sat_openFile hsrc hrefl (fun _ he => he.elim) ⟨?_, nofun⟩)
  rintro ⟨⟩ -
  rw [if_neg (by rw [List.length_append]; omega)]
  refine Proc.sat_bind (sat_createFile hrefl ?_ ?_)
  · rintro e (he | ⟨-, hwhy⟩)
    · exact he.elim
    · rw [List.dropLast_concat] at hwhy
      exact (hwhy.elim (fun h => h hfree) (fun h => h hdir)).elim
  rintro t ⟨-, hentry, -, hframe⟩
  refine ⟨hframe, ?_, nofun⟩
  rintro ⟨⟩ -
  refine Proc.sat_bind (sat_openFile hentry hframe (fun _ he => he.elim) ⟨?_, nofun⟩)
  rintro ⟨⟩ -
  have hsrc' : t.entryAt (located srcMount w) = some (.file data) := by
    rw [hframe _ hapart.1, hsrc]
  refine (sat_copyChunks (by simp) hapart hsrc' hentry List.length_replicate rfl (by omega)).mono
    (fun u hu => Frame.trans hframe hu) ?_
  rintro r u ⟨hu, herror, hcopied⟩
  cases r with
  | ok => exact ⟨rfl, Frame.trans hframe hu, hcopied rfl⟩
  | error e => exact (herror e rfl).elim

/-- What a visit leaves: the cursors are back, and one more entry is copied. -/
def Visited (dst src : Path) (s : Tree) (w d : List UInt8) (rest : List DirectoryEntry)
    (r : Except FsError (List UInt8 × List UInt8)) (u : Tree) : Prop :=
  r = .ok (w, d) ∧ Mirroring dst src s rest u

/-- Copying a file of the directory. -/
lemma Mirroring.visit_file {data : List UInt8} (h : Mirroring dst src s (ent :: rest) t) (hapart : Apart dst src)
    (hw : DirCursor srcMount w src) (hd : DirCursor dstMount d dst)
    (hdata : s.entryAt (src ++ [ent.name]) = some (.file data)) (hkind : ent.kind = .file data.length)
    (hsrc : Reachable s src w.length) (hdst : Reachable s src d.length) :
    (visitEntryText (copyTextCallbacks env dstMount srcMount) recurse w.length ent (w, d)).Sat Proc.noFault t
      (Inside dst s) (Visited dst src s w d rest) := by
  obtain ⟨hplain, hlen⟩ := hsrc.entry hdata
  obtain ⟨-, hlen'⟩ := hdst.entry hdata
  simp only [listedKind, separatorLen, reduceCtorEq, if_false, Nat.add_zero] at hlen hlen'
  have hthere : t.entryAt (located srcMount (w ++ ent.name)) = some (.file data) := by
    rw [hw.located_name hplain, h.inside.1.entryAt hapart, hdata]
  have happ : Apart (dst ++ [ent.name]) (located srcMount (w ++ ent.name)) := by
    rw [hw.located_name hplain]
    exact hapart.append _ _
  rw [visitEntryText, hkind]
  simp only [separatorLen, reduceCtorEq, if_false, Nat.add_zero]
  rw [if_neg (by omega), strncat_of_lt (by omega)]
  refine Proc.sat_bind (Proc.sat_bind ((sat_copyFileText hthere (by omega) (hd.located_name hplain) h.dir
    (h.left ent.name (by simp) []) happ).mono (fun u hu => h.inside.trans hu.inside) ?_))
  rintro r u ⟨rfl, hframe, hentry⟩
  refine ⟨?_, nofun⟩
  rintro ⟨⟩ -
  refine Proc.sat_pure ⟨?_, nofun⟩
  rintro k ⟨⟩
  refine Proc.sat_pure ⟨by rw [List.take_left], h.next hframe ?_⟩
  intro q
  cases q with
  | nil => rw [List.append_nil, List.append_nil, hentry, hdata]
  | cons x q =>
    rw [Node.entryAt_below_file hentry (List.cons_ne_nil x q), Node.entryAt_below_file hdata (List.cons_ne_nil x q)]

/-- Copying a directory of the directory, with what the traversal does inside of it. -/
lemma Mirroring.visit_dir (h : Mirroring dst src s (ent :: rest) t) (hapart : Apart dst src)
    (hw : DirCursor srcMount w src) (hd : DirCursor dstMount d dst)
    (hdata : s.entryAt (src ++ [ent.name]) = some .dir) (hkind : ent.kind = .dir)
    (hsrc : Reachable s src w.length) (hdst : Reachable s src d.length)
    (hrecurse : ∀ u, u.entryAt (dst ++ [ent.name]) = some .dir → u.entryAt (src ++ [ent.name]) = some .dir →
      (∀ q, q ≠ [] → u.entryAt (dst ++ [ent.name] ++ q) = none) →
      Reachable u (src ++ [ent.name]) (w ++ ent.name ++ [slash]).length →
      Reachable u (src ++ [ent.name]) (d ++ ent.name ++ [slash]).length →
      DirCursor srcMount (w ++ ent.name ++ [slash]) (src ++ [ent.name]) →
      DirCursor dstMount (d ++ ent.name ++ [slash]) (dst ++ [ent.name]) →
      (recurse (w ++ ent.name ++ [slash]) (d ++ ent.name ++ [slash])).Sat Proc.noFault u
        (Inside (dst ++ [ent.name]) u) fun r v =>
          r = .ok (w ++ ent.name ++ [slash], d ++ ent.name ++ [slash]) ∧ Inside (dst ++ [ent.name]) u v ∧
            ∀ q, v.entryAt (dst ++ [ent.name] ++ q) = u.entryAt (src ++ [ent.name] ++ q)) :
    (visitEntryText (copyTextCallbacks env dstMount srcMount) recurse w.length ent (w, d)).Sat Proc.noFault t
      (Inside dst s) (Visited dst src s w d rest) := by
  obtain ⟨hplain, hlen⟩ := hsrc.entry hdata
  obtain ⟨-, hlen'⟩ := hdst.entry hdata
  simp only [listedKind, separatorLen, if_true] at hlen hlen'
  have hpushw := hw.push hplain hlen
  have hpushd := hd.push hplain hlen'
  rw [visitEntryText, hkind]
  simp only [separatorLen, if_true]
  rw [if_neg (by omega), strncat_push hlen]
  -- on enter: the directory is created
  refine Proc.sat_bind (Proc.sat_bind (p := createDirectory _) ?_)
  rw [strncat_push hlen', hpushd.located]
  refine sat_createDirectory h.inside ?_ ?_
  · rintro e (he | ⟨-, hwhy⟩)
    · exact he.elim
    · rw [List.dropLast_concat] at hwhy
      exact (hwhy.elim (fun hne => hne (h.left ent.name (by simp) [])) (fun hne => hne h.dir)).elim
  rintro u ⟨-, hentry, hbelow, hframe⟩
  have hframe' : Frame (dst ++ [ent.name]) t u := hframe
  have hsu : Inside dst s u := h.inside.trans hframe'.inside
  refine ⟨hsu, ?_, nofun⟩
  rintro ⟨⟩ -
  refine Proc.sat_pure ⟨?_, nofun⟩
  rintro k ⟨⟩
  -- the traversal inside of it
  have hsame : ∀ q, u.entryAt (src ++ [ent.name] ++ q) = s.entryAt (src ++ [ent.name] ++ q) := by
    intro q
    rw [List.append_assoc, hsu.1.entryAt hapart]
  have hthere : u.entryAt (src ++ [ent.name]) = some .dir := by
    have hroot := hsame []
    rwa [List.append_nil, hdata] at hroot
  have hreach : ∀ path : List UInt8, Reachable s src path.length →
      Reachable u (src ++ [ent.name]) (path ++ ent.name ++ [slash]).length := by
    intro path hpath
    rw [List.length_append, List.length_append, List.length_singleton]
    exact (hpath.child ent.name).congr hsame
  refine Proc.sat_bind ((hrecurse u hentry hthere hbelow (hreach w hsrc) (hreach d hdst) hpushw hpushd).mono
    (fun v hv => hsu.trans hv.1.inside) ?_)
  rintro r v ⟨rfl, hinside, halike⟩
  refine ⟨?_, nofun⟩
  rintro k ⟨⟩
  -- on exit: the cursor goes back to the directory
  show Proc.Sat ((if (d ++ ent.name ++ [slash]).length < 2 then _ else _ : FsProc (List UInt8)) >>= _) _ _ _ _
  have htwo : ¬(d ++ ent.name ++ [slash]).length < 2 := by
    have hpos := List.length_pos_iff.mpr hplain.1
    simp only [List.length_append, List.length_singleton]
    omega
  rw [if_neg htwo, hd.pop hplain]
  refine Proc.sat_bind (Proc.sat_pure ⟨?_, nofun⟩)
  rintro k ⟨⟩
  refine Proc.sat_pure ⟨?_, h.next (Frame.trans hframe' hinside.1) ?_⟩
  · rw [List.append_assoc, List.take_left]
  · intro q
    rw [halike, hsame]

/-- The traversal of `CopyDirectoryRecursively` from a directory into an empty one. -/
lemma sat_iterateText {fuel : Nat} (hfuel : fsMaxPath ≤ fuel + w.length) (hapart : Apart dst src)
    (hw : DirCursor srcMount w src) (hd : DirCursor dstMount d dst) (hsrc : s.entryAt src = some .dir)
    (hdst : s.entryAt dst = some .dir) (hempty : ∀ q, q ≠ [] → s.entryAt (dst ++ q) = none)
    (hreach : Reachable s src w.length) (hreach' : Reachable s src d.length) :
    (iterateTextInternal env srcMount (copyTextCallbacks env dstMount srcMount) fuel w d).Sat Proc.noFault s
      (Inside dst s) fun r t => r = .ok (w, d) ∧ Inside dst s t ∧
        ∀ q, t.entryAt (dst ++ q) = s.entryAt (src ++ q) := by
  -- a directory inside has a longer path, which stays within the limit
  induction fuel generalizing dst src s w d with
  | zero =>
    have hshort := hw.short
    omega
  | succ fuel ih =>
    rw [iterateTextInternal, hw.located]
    refine Proc.sat_bind (sat_listDirectory env.readOrder_perm (Inside.refl dst s) ?_ ?_)
    · rintro e (he | ⟨-, hnot⟩)
      · exact he.elim
      · exact (hnot hsrc).elim
    intro entries _ hlisting
    refine ⟨?_, nofun⟩
    rintro entries' ⟨⟩
    refine sat_iterateEntries (fun rest st t => st = (w, d) ∧ Mirroring dst src s rest t) ?_ ?_
      ⟨rfl, hlisting.mirroring hdst hempty⟩
    · rintro ent rest st t ⟨rfl, hinv⟩
      obtain ⟨e, he, hkind⟩ := hinv.kind ent (by simp)
      have hpost : ∀ r u, Visited dst src s w d rest r u →
          (∀ st', r = .ok st' → st' = (w, d) ∧ Mirroring dst src s rest u) ∧
            ∀ e, r = .error e → (.error e : Except FsError (List UInt8 × List UInt8)) = .ok (w, d) ∧
              Inside dst s u ∧ ∀ q, u.entryAt (dst ++ q) = s.entryAt (src ++ q) := by
        rintro r u ⟨rfl, hnext⟩
        refine ⟨?_, nofun⟩
        rintro st' ⟨⟩
        exact ⟨rfl, hnext⟩
      cases e with
      | file data => exact (hinv.visit_file hapart hw hd he hkind hreach hreach').mono (fun _ h => h) hpost
      | dir =>
        refine (hinv.visit_dir hapart hw hd he hkind hreach hreach' ?_).mono (fun _ h => h) hpost
        intro u hu hthere hbelow hr hr' hpush hpush'
        refine ih ?_ (hapart.append _ _) hpush hpush' hthere hu hbelow hr hr'
        simp only [List.length_append, List.length_singleton]
        omega
    · rintro st t ⟨rfl, hinv⟩
      exact ⟨rfl, hinv.inside, hinv.done hsrc⟩

end Copy

lemma components_terminated (path : List UInt8) : components slash (terminated path) = components slash path := by
  unfold terminated
  split
  next => rfl
  next => rw [components_append_sep, components_nil, List.append_nil]

lemma getLast?_terminated (path : List UInt8) : (terminated path).getLast? = some slash := by
  unfold terminated
  split
  next h => exact h
  next => exact List.getLast?_concat

/-- An empty directory is copied to itself. -/
lemma sat_iterateText_self {env : Environment} {dstMount srcMount : Mount} {dir : Path} {s : Tree} {d w : List UInt8}
    (fuel : Nat) (hw : DirCursor srcMount w dir) (hdir : s.entryAt dir = some .dir)
    (hempty : ∀ q, q ≠ [] → s.entryAt (dir ++ q) = none) :
    (iterateTextInternal env srcMount (copyTextCallbacks env dstMount srcMount) (fuel + 1) w d).Sat Proc.noFault s
      (Inside dir s) fun r t => r = .ok (w, d) ∧ t = s := by
  rw [iterateTextInternal, hw.located]
  refine Proc.sat_bind (sat_listDirectory env.readOrder_perm (Inside.refl dir s) ?_ ?_)
  · rintro e (he | ⟨-, hnot⟩)
    · exact he.elim
    · exact (hnot hdir).elim
  intro entries _ hlisting
  refine ⟨?_, nofun⟩
  rintro entries' ⟨⟩
  cases entries with
  | nil => exact Proc.sat_pure ⟨rfl, rfl⟩
  | cons ent rest =>
    have hsome := (hlisting.mem_iff ent.name).mp (by simp)
    exact (hsome (hempty _ (List.cons_ne_nil _ _))).elim

/-- `CopyDirectoryRecursively` into an empty directory, whose path ends with a separator and which is not inside
of the source, returns; then the directory looks like the source, and nothing else has changed. All the paths
below the two directories are to be within `FS_MAX_PATH`, with the separator that a directory's path ends with. -/
theorem copyTree_copies {env : Environment} {dstMount srcMount : Mount} {dstPath srcPath : List UInt8} {s : Tree}
    (hslash : dstPath.getLast? = some slash) (hdstLen : dstPath.length < fsMaxPath)
    (hsrcLen : (terminated srcPath).length < fsMaxPath)
    (hsrc : s.entryAt (located srcMount srcPath) = some .dir) (hdst : s.entryAt (located dstMount dstPath) = some .dir)
    (hempty : ∀ q, q ≠ [] → s.entryAt (located dstMount dstPath ++ q) = none)
    (hinside : ∀ q, q ≠ [] → located dstMount dstPath ≠ located srcMount srcPath ++ q)
    (hreach : Reachable s (located srcMount srcPath) (terminated srcPath).length)
    (hreach' : Reachable s (located srcMount srcPath) dstPath.length) :
    let run := (copyTree env dstMount srcMount dstPath srcPath).run s
    run.result = .ok () ∧
      (∀ q, run.final.entryAt (located dstMount dstPath ++ q) = s.entryAt (located srcMount srcPath ++ q)) ∧
      ∀ q, ¬located dstMount dstPath <+: q → run.final.entryAt q = s.entryAt q := by
  have hw : DirCursor srcMount (terminated srcPath) (located srcMount srcPath) :=
    ⟨by rw [located, components_terminated, located], getLast?_terminated srcPath, hsrcLen⟩
  have hd : DirCursor dstMount dstPath (located dstMount dstPath) := ⟨rfl, hslash, hdstLen⟩
  have hroot : ¬(fsMaxPath - 1 < srcPath.length ∨
      srcPath.length = fsMaxPath - 1 ∧ srcPath.getLast? ≠ some slash) := by
    unfold terminated at hsrcLen
    split at hsrcLen
    next hlast =>
      rintro (hlt | ⟨-, hne⟩)
      · omega
      · exact hne hlast
    next =>
      rw [List.length_append, List.length_singleton] at hsrcLen
      omega
  have hsat : (copyTree env dstMount srcMount dstPath srcPath).Sat Proc.noFault s
      (Inside (located dstMount dstPath) s) fun r t => r = .ok () ∧ Inside (located dstMount dstPath) s t ∧
        ∀ q, t.entryAt (located dstMount dstPath ++ q) = s.entryAt (located srcMount srcPath ++ q) := by
    rw [copyTree, iterateText, if_neg hroot]
    by_cases hsame : located srcMount srcPath = located dstMount dstPath
    · rw [hsame] at hw ⊢
      refine Proc.sat_bind ((sat_iterateText_self (fsMaxPath - 1) hw hdst hempty).mono (fun _ h => h) ?_)
      rintro r t ⟨rfl, rfl⟩
      exact ⟨fun _ _ => Proc.sat_pure ⟨rfl, Inside.refl _ t, fun _ => rfl⟩, nofun⟩
    -- neither directory is inside of the other one
    have hapart : Apart (located dstMount dstPath) (located srcMount srcPath) := by
      constructor
      · rintro ⟨q, hq⟩
        have hne : q ≠ [] := by
          rintro rfl
          exact hsame (by rw [← hq, List.append_nil])
        rw [← hq, hempty q hne] at hsrc
        cases hsrc
      · rintro ⟨q, hq⟩
        have hne : q ≠ [] := by
          rintro rfl
          exact hsame (by rw [← hq, List.append_nil])
        exact hinside q hne hq.symm
    refine Proc.sat_bind ((sat_iterateText (Nat.le_add_right _ _) hapart hw hd hsrc hdst hempty hreach hreach').mono
      (fun _ h => h) ?_)
    rintro r t ⟨rfl, hinside, halike⟩
    exact ⟨fun _ _ => Proc.sat_pure ⟨rfl, hinside, halike⟩, nofun⟩
  obtain ⟨hok, hkept, halike⟩ := hsat.run.2
  exact ⟨hok, halike, hkept.1⟩

/-- A device with a directory `s`, in which a directory `d` has a file `a`, and an empty directory `t`. -/
def exampleDevice : Tree :=
  .dir [([0x73], .dir [([0x64], .dir [([0x61], .file [1, 2, 3])])]), ([0x74], .dir [])]

/-- Only the directory and its file are below `s`. -/
lemma below_exampleDevice {q : Path} {name : Name} (h : exampleDevice.entryAt ([[0x73]] ++ q ++ [name]) ≠ none) :
    (q = [] ∧ name = [0x64]) ∨ (q = [[0x64]] ∧ name = [0x61]) := by
  have hdir : exampleDevice.find [[0x73]] = some (.dir [([0x64], .dir [([0x61], .file [1, 2, 3])])]) := rfl
  rw [List.append_assoc, Node.entryAt_append, hdir, Option.bind_some] at h
  cases q with
  | nil =>
    refine .inl ⟨rfl, ?_⟩
    by_contra hne
    exact h (by simp [Node.entryAt, Node.find, lookup_cons_if, hne])
  | cons x q =>
    refine .inr ?_
    by_cases hx : x = [0x64]
    · subst hx
      cases q with
      | nil =>
        refine ⟨rfl, ?_⟩
        by_contra hne
        exact h (by simp [Node.entryAt, Node.find, lookup_cons_if, hne])
      | cons y q =>
        refine (h ?_).elim
        by_cases hy : y = [0x61]
        · cases q <;> simp [Node.entryAt, Node.find, lookup_cons_if, hy]
        · simp [Node.entryAt, Node.find, lookup_cons_if, hy]
    · refine (h ?_).elim
      cases q <;> simp [Node.entryAt, Node.find, lookup_cons_if, hx]

lemma reachable_exampleDevice {n : Nat} (hn : n ≤ 0x100) : Reachable exampleDevice [[0x73]] n where
  plain q name h := by
    rcases below_exampleDevice h with ⟨-, rfl⟩ | ⟨-, rfl⟩
    · exact ⟨nofun, by decide⟩
    · exact ⟨nofun, by decide⟩
  fits q name e he := by
    have hlen : ∀ b : Prop, [Decidable b] → (if b then 1 else 0) ≤ 1 := by
      intro b _
      split
      · exact le_rfl
      · exact Nat.zero_le 1
    have hlimit : fsMaxPath = 0x301 := rfl
    have hsome : exampleDevice.entryAt ([[0x73]] ++ q ++ [name]) ≠ none := by
      rw [he]
      nofun
    rcases below_exampleDevice hsome with ⟨rfl, rfl⟩ | ⟨rfl, rfl⟩
    · have := hlen (e = .dir)
      simp only [entryLen, pathLen, List.map_nil, List.sum_nil, List.length_singleton]
      omega
    · have := hlen (e = .dir)
      simp only [entryLen, pathLen, List.map_cons, List.map_nil, List.sum_cons, List.sum_nil, List.length_singleton]
      omega

/-- The directory is copied to the empty one, with a buffer of two bytes. -/
theorem copyTree_copies_device :
    let env : Environment := ⟨id, fun _ => List.Perm.refl _, 2, by decide⟩
    let run := (copyTree env [] [] [0x2F, 0x74, 0x2F] [0x2F, 0x73]).run exampleDevice
    run.result = .ok () ∧
      (∀ q, run.final.entryAt (located [] [0x2F, 0x74, 0x2F] ++ q) =
        exampleDevice.entryAt (located [] [0x2F, 0x73] ++ q)) ∧
      ∀ q, ¬located [] [0x2F, 0x74, 0x2F] <+: q → run.final.entryAt q = exampleDevice.entryAt q := by
  have hdst : located [] [0x2F, 0x74, 0x2F] = [[0x74]] := by with_unfolding_all decide
  have hsrc : located [] [0x2F, 0x73] = [[0x73]] := by with_unfolding_all decide
  refine copyTree_copies (by decide) (by decide) (by decide) ?_ ?_ ?_ ?_ ?_ ?_
  · rw [hsrc]
    rfl
  · rw [hdst]
    rfl
  · rw [hdst]
    intro q hq
    cases q with
    | nil => exact (hq rfl).elim
    | cons x q => rfl
  · rw [hdst, hsrc]
    intro q _
    simp
  · rw [hsrc]
    exact reachable_exampleDevice (by decide)
  · rw [hsrc]
    exact reachable_exampleDevice (by decide)

end RajNX.FsMitm
