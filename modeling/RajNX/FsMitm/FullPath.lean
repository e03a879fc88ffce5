import RajNX.FsMitm.PathUtils

/-!
# Full paths of sub-filesystems

`SubDirectoryFileSystem::Initialize` and `GetFullPath` of `fs_subdirectory_filesystem.cpp`, and
`DirectorySaveDataFileSystem::GetFullPath` of `fs_directory_savedata_filesystem.cpp`. Both copy a
directory into the output and have `Normalize` write the relative path over its last separator. A
relative path that resolves gives the directory followed by its canonical form, and one that climbs
above its root fails.

The size of an output buffer is the length of the list; a `const char *` argument is a buffer whose
string is read.
-/

namespace RajNX.FsMitm

open SlashPath CString

/-- `SubDirectoryFileSystem`: the allocated base path and its size. -/
structure SubDirectoryFileSystem where
  basePath : List UInt8 := []
  basePathLen : Nat := 0
deriving Repr, DecidableEq

/-- The end of `Initialize`: the normalised path is copied into an allocated block. -/
def SubDirectoryFileSystem.setBasePath (mallocOk : Bool) (normalPath : List UInt8)
    (normalPathLen : Nat) : Ending SubDirectoryFileSystem :=
  let basePathLen := normalPathLen + 1
  if mallocOk then
    let basePath := strncpy (List.replicate basePathLen 0) normalPath
    .returned .success ⟨basePath.set (basePathLen - 1) 0, basePathLen⟩
  else
    .returned .allocationFailureInSubDirectoryFileSystem ⟨[], basePathLen⟩

/-- The terminating separator of `Initialize`. -/
def SubDirectoryFileSystem.ensureSeparator (mallocOk : Bool) (normalPath : List UInt8)
    (normalPathLen : Nat) : Ending SubDirectoryFileSystem :=
  if normalPath.getD (normalPathLen - 1) 0 ≠ slash then
    if normalPath.length < normalPathLen + 2 then .abort
    else
      let normalPath := strcat normalPath [slash]
      setBasePath mallocOk (normalPath.set (normalPath.length - 1) 0) (normalPathLen + 1)
  else setBasePath mallocOk normalPath normalPathLen

/-- `SubDirectoryFileSystem::Initialize`. `stack` is what the uninitialised buffer holds. -/
def SubDirectoryFileSystem.initializePath (mallocOk : Bool) (stack : Fin (fsMaxPath + 1) → UInt8)
    (bp : List UInt8) : Ending SubDirectoryFileSystem :=
  if fsMaxPath ≤ strnlen bp fsMaxPath then .returned .tooLongPath {}
  else
    match normalize (List.ofFn stack) 0 (fsMaxPath + 1) (cString bp) with
    | .returned .success w => ensureSeparator mallocOk w.buf (w.outLen.getD 0)
    | .fault => .fault
    | _ => .abort

/-- `SubDirectoryFileSystem::GetFullPath` -/
def SubDirectoryFileSystem.getFullPath (fs : SubDirectoryFileSystem) (out relativePath : List UInt8) :
    Ending (List UInt8) :=
  if out.length < fs.basePathLen + strnlen relativePath fsMaxPath then .returned .tooLongPath out
  else
    let out := (strncpy out fs.basePath).set (out.length - 1) 0
    (normalize out (fs.basePathLen - 2) (out.length - (fs.basePathLen - 2))
      (cString relativePath)).map (·.buf)

/-- `DirectorySaveDataFileSystem::WorkingDirectoryPath` -/
def workingDirectoryPath : List UInt8 :=
  [slash, 0x31, slash] ++ List.replicate (fsMaxPath - 3) 0

/-- `DirectorySaveDataFileSystem::GetFullPath` -/
def saveDataGetFullPath (out relativePath : List UInt8) : Ending (List UInt8) :=
  if out.length ≤ 1 + strnlen relativePath fsMaxPath then .returned .tooLongPath out
  else if relativePath.getD 0 0 ≠ slash then .returned .invalidPath out
  else
    let out := (strncpy out workingDirectoryPath).set (out.length - 1) 0
    let workingLen := (cString workingDirectoryPath).length - 1
    (normalize out workingLen (out.length - workingLen) (cString relativePath)).map (·.buf)

/-- What confines a call of `GetFullPath` to a directory: a path it returns is the directory followed
by the canonical form of the relative path's names, so its names are the directory's and then these,
with no `..` among them; and for a relative path that climbs above its root it returns an error. -/
structure Confined (dir relativePath : List UInt8) (ending : Ending (List UInt8)) : Prop where
  below : ∀ out, ending = .returned .success out →
    ∃ names, resolve dot [] (components slash (cString relativePath)) = some names ∧
      cString out = dir ++ render slash names ∧
      components slash (cString out) = components slash dir ++ names ∧
      [dot, dot] ∉ components slash (cString out)
  climbing : resolve dot [] (components slash (cString relativePath)) = none →
    ∃ result out, ending = .returned result out ∧ result ≠ .success

/-- A call that returns an error is confined. -/
lemma Confined.failed {dir relativePath out : List UInt8} {result : FsResult}
    (h : result ≠ .success) : Confined dir relativePath (.returned result out) where
  below := by
    intro out h'
    cases h'
    exact (h rfl).elim
  climbing := fun _ => ⟨result, out, rfl, h⟩

/-- No name of a directory followed by good names is `..`. -/
lemma dotdot_notMem {names rest : List (List UInt8)} (good : ∀ name ∈ names, GoodName name)
    (good' : ∀ name ∈ rest, GoodName name) : [dot, dot] ∉ names ++ rest := by
  intro hm
  rcases List.mem_append.mp hm with hm | hm
  · exact (good _ hm).ne_dotdot rfl
  · exact (good' _ hm).ne_dotdot rfl

variable {dirNames : List (List UInt8)}

/-- The call of `Normalize` in both functions is confined to what stands before its output. -/
lemma confined_normalize {out relativePath : List UInt8}
    (good : ∀ name ∈ dirNames, GoodName name) (hout : 1 ≤ out.length) :
    Confined (body slash dirNames) relativePath
      ((normalize (body slash dirNames ++ out) (body slash dirNames).length out.length
        (cString relativePath)).map (·.buf)) := by
  by_cases hhead : (cString relativePath).head? = some slash
  · have hspec := normalize_spec (body slash dirNames) out hout
      (by rw [List.length_append]) hhead (zero_notMem_cString relativePath)
    generalize normalize _ _ _ _ = ending at hspec ⊢
    obtain ⟨-, hsome, -, rfl⟩ | hspec := hspec
    · exact ⟨nofun, fun hnone => (hsome hnone).elim⟩
    cases hspec with
    | @success names rest hnames _ good' hlen =>
      refine ⟨fun out h => ?_, fun hnone => by rw [hnone] at hnames; cases hnames⟩
      cases h
      have hout : cString (body slash dirNames ++ (render slash names ++ 0 :: rest)) =
          body slash dirNames ++ render slash names := by
        rw [← List.append_assoc]
        refine cString_append ?_ rest
        rw [List.mem_append, not_or]
        exact ⟨zero_notMem_body good, zero_notMem_render good'⟩
      have hcomponents := @components_body_render _ _ slash dirNames names
        fun c hc => (List.mem_append.mp hc).elim (fun h => (good c h).plain)
          (fun h => (good' c h).plain)
      refine ⟨names, hnames, hout, ?_, ?_⟩
      · rw [hout, hcomponents, components_body fun c hc => (good c hc).plain]
      · rw [hout, hcomponents]
        exact dotdot_notMem good good'
    | tooLong =>
      exact .failed (by decide)
    | climbed hnone hw =>
      exact .failed (by decide)
  · rw [normalize, if_pos hhead]
    exact .failed (by decide)

/-- The same for a copied directory whose buffer's last byte is cleared first. -/
lemma confined_copy {buf rest relativePath : List UInt8} {n : Nat} (good : ∀ name ∈ dirNames, GoodName name)
    (hbuf : buf = body slash dirNames ++ rest) (hrest : rest ≠ []) (hn : n = buf.length - 1) :
    Confined (body slash dirNames) relativePath
      ((normalize (buf.set n 0) (body slash dirNames).length
        ((buf.set n 0).length - (body slash dirNames).length) (cString relativePath)).map (·.buf)) := by
  have hpos := List.length_pos_iff.mpr hrest
  subst hbuf
  rw [set_last _ hrest n hn, List.length_append, Nat.add_sub_cancel_left]
  refine confined_normalize good ?_
  rwa [List.length_set]

/-- With two bytes behind the directory such a call ends with a result. -/
lemma returns_copy {buf rest : List UInt8} {n : Nat} (hbuf : buf = body slash dirNames ++ rest)
    (hrest : 2 ≤ rest.length) (hn : n = buf.length - 1) (relativePath : List UInt8) :
    ∃ result out, (normalize (buf.set n 0) (body slash dirNames).length
      ((buf.set n 0).length - (body slash dirNames).length) (cString relativePath)).map (·.buf) =
        .returned result out := by
  have hne : rest ≠ [] := by
    rintro rfl
    simp at hrest
  subst hbuf
  rw [set_last _ hne n hn, List.length_append, Nat.add_sub_cancel_left]
  have hlen : 2 ≤ (rest.set (rest.length - 1) 0).length := by
    rwa [List.length_set]
  obtain ⟨result, w, h⟩ := normalize_returns (body slash dirNames) (rest.set (rest.length - 1) 0)
    hlen (by rw [List.length_append]) (zero_notMem_cString relativePath)
  exact ⟨result, w.buf, by rw [h]; rfl⟩

/-- The base path a successful `Initialize` leaves behind: the canonical path of the names of its
argument with a separator at the end. -/
structure BasePath (bp : List UInt8) (fs : SubDirectoryFileSystem)
    (names : List (List UInt8)) : Prop where
  resolved : resolve dot [] (components slash (cString bp)) = some names
  good : ∀ name ∈ names, GoodName name
  basePath : fs.basePath = body slash names ++ [slash, 0]
  basePathLen : fs.basePathLen = (body slash names).length + 2

variable {names : List (List UInt8)} {fs : SubDirectoryFileSystem}

section

variable (good : ∀ name ∈ names, GoodName name)

include good

lemma setBasePath_success {mallocOk : Bool} {rest : List UInt8}
    (h : SubDirectoryFileSystem.setBasePath mallocOk (body slash names ++ [slash] ++ 0 :: rest)
      ((body slash names).length + 1) = .returned .success fs) :
    fs.basePath = body slash names ++ [slash, 0] ∧
      fs.basePathLen = (body slash names).length + 2 := by
  cases mallocOk with
  | false => cases h
  | true =>
    cases h
    have hz : 0 ∉ body slash names ++ [slash] := by
      simpa [slash_ne_zero.symm] using zero_notMem_body good
    refine ⟨?_, rfl⟩
    show ((strncpy _ _).set _ _) = _
    rw [strncpy_of_le hz (by simp)]
    simp

/-- A canonical path other than `/` does not end in a separator. -/
lemma getLast_body (hne : names ≠ []) (rest : List UInt8) :
    (body slash names ++ rest).getD ((body slash names).length - 1) 0 ≠ slash := by
  obtain ⟨names, last, rfl⟩ := (List.eq_nil_or_concat names).resolve_left hne
  have hlast := good last (by simp)
  obtain ⟨init, b, rfl⟩ := (List.eq_nil_or_concat last).resolve_left hlast.ne_nil
  have hb : b ≠ slash := fun he => hlast.sep_notMem (by simp [he])
  have hlen : (body slash (names ++ [init ++ [b]])).length - 1 =
      (body slash names ++ slash :: init).length := by
    simp [body_append]
  have hbody : body slash (names ++ [init ++ [b]]) ++ rest =
      (body slash names ++ slash :: init) ++ b :: rest := by
    simp [body_append]
  simp only [List.concat_eq_append]
  rw [hlen, hbody, List.getD_eq_getElem?_getD, List.getElem?_append_right le_rfl]
  simpa using hb

/-- A canonical path gets a separator, and the last byte of its buffer is cleared. -/
lemma exists_separator_appended (rest : List UInt8) :
    ∃ rest', (strcat (body slash names ++ 0 :: rest) [slash]).set
      ((strcat (body slash names ++ 0 :: rest) [slash]).length - 1) 0 = body slash names ++ [slash] ++ 0 :: rest' := by
  obtain ⟨rest', hcat⟩ := strcat_append (zero_notMem_body good) rest [slash]
  rw [hcat]
  exact set_last_terminated (body slash names ++ [slash]) rest'

/-- The copied base path ends in one separator. -/
lemma ensureSeparator_success {mallocOk : Bool} {rest : List UInt8}
    (h : SubDirectoryFileSystem.ensureSeparator mallocOk (render slash names ++ 0 :: rest)
      (render slash names).length = .returned .success fs) :
    fs.basePath = body slash names ++ [slash, 0] ∧
      fs.basePathLen = (body slash names).length + 2 := by
  rw [SubDirectoryFileSystem.ensureSeparator] at h
  by_cases hnil : names = []
  · subst hnil
    rw [if_neg (by simp [render])] at h
    exact setBasePath_success good h
  · have hrender : render slash names = body slash names := if_neg hnil
    rw [hrender, if_pos (getLast_body good hnil _)] at h
    split at h
    next => cases h
    next =>
      obtain ⟨rest', hset⟩ := exists_separator_appended good rest
      simp only [hset] at h
      exact setBasePath_success good h

end

/-- A successful `Initialize` leaves the base path of its argument's names. -/
lemma initialize_success {mallocOk : Bool} {stack : Fin (fsMaxPath + 1) → UInt8} {bp : List UInt8}
    (h : SubDirectoryFileSystem.initializePath mallocOk stack bp = .returned .success fs) :
    ∃ names, BasePath bp fs names := by
  rw [SubDirectoryFileSystem.initializePath] at h
  split at h
  next => cases h
  next =>
    by_cases hhead : (cString bp).head? = some slash
    · have hsize : ([] : List UInt8).length + (fsMaxPath + 1) ≤ ([] ++ List.ofFn stack).length := by
        simp
      have hspec := normalize_spec [] (List.ofFn stack) (by decide) hsize hhead
        (zero_notMem_cString bp)
      rw [List.nil_append, List.length_nil] at hspec
      generalize normalize _ _ _ _ = ending at hspec h
      obtain ⟨-, -, -, rfl⟩ | hspec := hspec
      · cases h
      cases hspec with
      | tooLong => cases h
      | climbed => cases h
      | @success names rest hnames _ good hlen =>
        have hbase := ensureSeparator_success good h
        exact ⟨names, hnames, good, hbase.1, hbase.2⟩
    · rw [normalize, if_pos hhead] at h
      cases h

/-- A base path that fits is copied with at least its terminator behind it. -/
lemma BasePath.strncpy {bp : List UInt8}
    (h : BasePath bp fs names) {out : List UInt8} (hfit : fs.basePathLen ≤ out.length) :
    ∃ rest, strncpy out fs.basePath = body slash names ++ rest ∧ 2 ≤ rest.length := by
  have hz : 0 ∉ body slash names ++ [slash] := by
    simpa [slash_ne_zero.symm] using zero_notMem_body h.good
  have hbase : fs.basePath = (body slash names ++ [slash]) ++ 0 :: [] := by
    rw [h.basePath]
    simp
  rw [h.basePathLen] at hfit
  refine ⟨slash :: List.replicate (out.length - (body slash names ++ [slash]).length) 0, ?_, ?_⟩
  · rw [hbase, strncpy_of_le hz (by simp; omega)]
    simp
  · simp only [List.length_cons, List.length_replicate, List.length_append, List.length_nil]
    omega

/-- `GetFullPath` of an initialised sub-directory is confined to its base path. -/
lemma getFullPath_confined {bp : List UInt8} (h : BasePath bp fs names) (out relativePath : List UInt8) :
    Confined (body slash names) relativePath (fs.getFullPath out relativePath) := by
  rw [SubDirectoryFileSystem.getFullPath]
  split
  next => exact .failed (by decide)
  next hfit =>
    obtain ⟨rest, hcopy, hlen⟩ := h.strncpy (show fs.basePathLen ≤ out.length by omega)
    rw [h.basePathLen]
    refine confined_copy h.good hcopy ?_ (by rw [length_strncpy])
    exact List.ne_nil_of_length_pos (by omega)

/-- The working directory's only name. -/
lemma goodName_working : ∀ name ∈ [[(0x31 : UInt8)]], GoodName name := by
  intro name hname
  rw [List.mem_singleton.mp hname]
  exact ⟨⟨by decide, by decide, by decide, by decide⟩, by decide⟩

/-- The copied working directory, cut off by a short buffer. -/
lemma strncpy_working {out : List UInt8} (h : 3 ≤ out.length) :
    ∃ rest, strncpy out workingDirectoryPath = body slash [[0x31]] ++ rest ∧
      rest.length = out.length - 2 := by
  have hworking : cString workingDirectoryPath = [slash, 0x31, slash] := by
    decide
  obtain ⟨n, hlen⟩ : ∃ n, out.length = n + 3 := ⟨out.length - 3, by omega⟩
  refine ⟨(slash :: List.replicate (n + 3) 0).take (n + 1), ?_, ?_⟩
  · rw [strncpy, hworking, hlen]
    simp
  · rw [List.length_take, List.length_cons, List.length_replicate]
    omega

/-- `DirectorySaveDataFileSystem::GetFullPath` is confined to the working directory. -/
lemma saveDataGetFullPath_confined (out relativePath : List UInt8) :
    Confined [slash, 0x31] relativePath (saveDataGetFullPath out relativePath) := by
  rw [saveDataGetFullPath]
  split
  next => exact .failed (by decide)
  next hfit =>
    split
    next => exact .failed (by decide)
    next hhead =>
      have hrel : 1 ≤ strnlen relativePath fsMaxPath := by
        cases relativePath with
        | nil => exact (hhead (by decide)).elim
        | cons b rest =>
          have hb : b = slash := by simpa using hhead
          simp [strnlen, cString, hb, slash_ne_zero, fsMaxPath]
      obtain ⟨rest, hcopy, hlen⟩ := strncpy_working (show 3 ≤ out.length by omega)
      refine confined_copy goodName_working hcopy ?_ (by rw [length_strncpy])
      exact List.ne_nil_of_length_pos (by omega)

/-- On a whole `FsPath` no call leaves the buffer or aborts. -/
theorem getFullPath_returns {out : List UInt8} (hout : out.length = fsMaxPath) (relativePath : List UInt8) :
    (∀ bp fs names, BasePath bp fs names → ∃ result out', fs.getFullPath out relativePath = .returned result out') ∧
    ∃ result out', saveDataGetFullPath out relativePath = .returned result out' := by
  refine ⟨?_, ?_⟩
  · intro bp fs names h
    rw [SubDirectoryFileSystem.getFullPath]
    split
    next => exact ⟨_, _, rfl⟩
    next hfit =>
      obtain ⟨rest, hcopy, hlen⟩ := h.strncpy (show fs.basePathLen ≤ out.length by omega)
      rw [h.basePathLen]
      exact returns_copy hcopy hlen (by rw [length_strncpy]) relativePath
  · rw [saveDataGetFullPath]
    split
    next => exact ⟨_, _, rfl⟩
    next =>
      split
      next => exact ⟨_, _, rfl⟩
      next =>
        have hlen : 4 ≤ out.length := hout ▸ (by decide)
        obtain ⟨rest, hcopy, hrest⟩ := strncpy_working (show 3 ≤ out.length by omega)
        exact returns_copy hcopy (by omega) (by rw [length_strncpy]) relativePath

lemma initializePath_a : SubDirectoryFileSystem.initializePath true (fun _ => 0) "/a".toUTF8.toList =
    .returned .success ⟨"/a/".toUTF8.toList ++ [0], 4⟩ := by
  decide +kernel

/-- Paths that climb out of the directory `/a` and out of the save data. -/
theorem getFullPath_returns_climbing :
    (∃ fs, SubDirectoryFileSystem.initializePath true (fun _ => 0) "/a".toUTF8.toList = .returned .success fs ∧
      ∃ result out', fs.getFullPath (List.replicate fsMaxPath 0) "/b/../..".toUTF8.toList = .returned result out') ∧
    ∃ result out', saveDataGetFullPath (List.replicate fsMaxPath 0) "/..".toUTF8.toList = .returned result out' := by
  obtain ⟨names, hbase⟩ := initialize_success initializePath_a
  exact ⟨⟨_, initializePath_a, (getFullPath_returns List.length_replicate _).1 _ _ names hbase⟩,
    (getFullPath_returns List.length_replicate _).2⟩

/-- A sub-filesystem cannot be left through its paths: `GetFullPath` of a sub-directory is confined to
the directory that `Initialize` was given, and that of the save data to its working directory. -/
theorem getFullPath_cannot_escape :
    (∀ mallocOk stack bp fs, SubDirectoryFileSystem.initializePath mallocOk stack bp = .returned .success fs →
      ∃ names, resolve dot [] (components slash (cString bp)) = some names ∧
        cString fs.basePath = body slash names ++ [slash] ∧
        ∀ out relativePath, Confined (body slash names) relativePath (fs.getFullPath out relativePath)) ∧
    ∀ out relativePath,
      Confined [slash, 0x31] relativePath (saveDataGetFullPath out relativePath) := by
  refine ⟨?_, saveDataGetFullPath_confined⟩
  intro mallocOk stack bp fs h
  obtain ⟨names, hbase⟩ := initialize_success h
  refine ⟨names, hbase.resolved, ?_, getFullPath_confined hbase⟩
  have hz : 0 ∉ body slash names ++ [slash] := by
    simpa [slash_ne_zero.symm] using zero_notMem_body hbase.good
  rw [hbase.basePath, show [slash, (0 : UInt8)] = [slash] ++ [0] from rfl, ← List.append_assoc]
  exact cString_append hz []

/-- The sub-directory `/a`, a path in it and a path that climbs out of it. -/
theorem getFullPath_cannot_escape_at_a :
    (∃ fs names, SubDirectoryFileSystem.initializePath true (fun _ => 0) "/a".toUTF8.toList = .returned .success fs ∧
      Confined (body slash names) "/b/../c/.".toUTF8.toList
        (fs.getFullPath (List.replicate 16 0) "/b/../c/.".toUTF8.toList) ∧
      fs.getFullPath (List.replicate 16 0) "/b/../c/.".toUTF8.toList =
        .returned .success ("/a/c".toUTF8.toList ++ List.replicate 12 0) ∧
      fs.getFullPath (List.replicate 16 0) "/b/../..".toUTF8.toList =
        .returned .directoryUnobtainable ("/a/b/".toUTF8.toList ++ List.replicate 11 0)) ∧
    Confined [slash, 0x31] "/..".toUTF8.toList
      (saveDataGetFullPath (List.replicate 16 0) "/..".toUTF8.toList) := by
  obtain ⟨names, -, -, hconf⟩ := getFullPath_cannot_escape.1 _ _ _ _ initializePath_a
  exact ⟨⟨_, names, initializePath_a, hconf _ _, by with_unfolding_all decide, by with_unfolding_all decide⟩,
    getFullPath_cannot_escape.2 _ _⟩

end RajNX.FsMitm
