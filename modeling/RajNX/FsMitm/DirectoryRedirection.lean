import RajNX.FsMitm.FullPath
import RajNX.FsMitm.PathNormalize

/-!
# Directory redirection

`DirectoryRedirectionFileSystem` of `fs_directory_redirection_filesystem.cpp`: the paths below one directory are
those below another, and all others stay as they are. `GetFullPath` compares the normalised path with the
directory, but has `Normalize` write the path as it was spelled, from the length of the directory on.
-/

namespace RajNX.FsMitm

open SlashPath CString

/-- The end of `GetNormalizedDirectory`: the path is copied into an allocated block. -/
def allocateDirectory (mallocOk : Bool) (normalPath : List UInt8) (normalPathLen : Nat) : Ending (List UInt8) :=
  if mallocOk then
    .returned .success ((strncpy (List.replicate (normalPathLen + 1) 0) normalPath).set normalPathLen 0)
  else .abort

/-- `GetNormalizedDirectory`. `stack` is what the uninitialised buffer holds. -/
def getNormalizedDirectory (mallocOk : Bool) (stack : Fin (fsMaxPath + 1) → UInt8) (dir : List UInt8) :
    Ending (List UInt8) :=
  match normalize (List.ofFn stack) 0 (fsMaxPath + 1) (cString dir) with
  | .returned .success w =>
    let normalPathLen := w.outLen.getD 0
    if w.buf.getD (normalPathLen - 1) 0 ≠ slash then
      if w.buf.length < normalPathLen + 2 then .abort
      else
        let normalPath := strcat w.buf [slash]
        allocateDirectory mallocOk (normalPath.set (normalPath.length - 1) 0) (normalPathLen + 1)
    else allocateDirectory mallocOk w.buf normalPathLen
  | .fault => .fault
  | _ => .abort

/-- `DirectoryRedirectionFileSystem`: the two directories and their lengths. -/
structure DirectoryRedirectionFileSystem where
  beforeDir : List UInt8 := []
  beforeDirLen : Nat := 0
  afterDir : List UInt8 := []
  afterDirLen : Nat := 0
deriving Repr, DecidableEq

/-- `DirectoryRedirectionFileSystem::Initialize` -/
def DirectoryRedirectionFileSystem.initializeDirs (mallocOk : Bool) (stack stack' : Fin (fsMaxPath + 1) → UInt8)
    (before after : List UInt8) : Ending DirectoryRedirectionFileSystem :=
  if fsMaxPath ≤ strnlen before fsMaxPath ∨ fsMaxPath ≤ strnlen after fsMaxPath then .returned .tooLongPath {}
  else
    match getNormalizedDirectory mallocOk stack before with
    | .returned _ beforeDir =>
      (getNormalizedDirectory mallocOk stack' after).map fun afterDir =>
        ⟨beforeDir, (cString beforeDir).length, afterDir, (cString afterDir).length⟩
    | .abort => .abort
    | .fault => .fault

/-- `GetFullPath` behind its first call of `Normalize` -/
def DirectoryRedirectionFileSystem.fullPathOf (fs : DirectoryRedirectionFileSystem)
    (out relativePath tmpRelPath : List UInt8) : Ending (List UInt8) :=
  if strncmpEq tmpRelPath fs.beforeDir fs.beforeDirLen then
    if out.length < fs.afterDirLen + strnlen tmpRelPath fsMaxPath - fs.beforeDirLen then
      .returned .tooLongPath out
    else
      let out := (strncpy out fs.afterDir).set (out.length - 1) 0
      (normalize out (fs.afterDirLen - 1) (out.length - (fs.afterDirLen - 1))
        (cString (relativePath.drop (fs.beforeDirLen - 1)))).map (·.buf)
  else if tmpRelPath.take (fs.beforeDirLen - 1) = fs.beforeDir.take (fs.beforeDirLen - 1) then
    if out.length < fs.afterDirLen + 1 then .returned .tooLongPath out
    else .returned .success ((strncpy out fs.afterDir).set (out.length - 1) 0)
  else (normalize out 0 out.length (cString relativePath)).map (·.buf)

/-- `DirectoryRedirectionFileSystem::GetFullPath`. `stack` is what `tmp_rel_path` holds. -/
def DirectoryRedirectionFileSystem.getFullPath (fs : DirectoryRedirectionFileSystem)
    (stack : Fin fsMaxPath → UInt8) (out relativePath : List UInt8) : Ending (List UInt8) :=
  match normalize (List.ofFn stack) 0 fsMaxPath (cString relativePath) with
  | .returned .success w => fs.fullPathOf out relativePath w.buf
  | .returned result _ => .returned result out
  | .abort => .abort
  | .fault => .fault

/-- The full path of the names of a path. -/
def redirected (before after names : List (List UInt8)) : List UInt8 :=
  if before <+: names then body slash after ++ render slash (names.drop before.length) else render slash names

/-- How a path with some names has to be spelled for `GetFullPath` to give their full path: one of the redirected
directory, other than itself, starts as the directory does and does not climb out of it behind that, and one of no
such directory does not start as it does when it is normalised. -/
def RedirectsSpelling (before after names : List (List UInt8)) (outSize : Nat) (p : List UInt8) : Prop :=
  fits slash dot fsMaxPath [] (components slash p) = true ∧
    if before <+: names then
      names = before ∧ before ≠ [] ∨
        (body slash before ++ [slash]) <+: p ∧
          resolve dot [] (components slash (p.drop (body slash before).length)) ≠ none ∧
          fits slash dot (outSize - (body slash after).length) []
            (components slash (p.drop (body slash before).length)) = true
    else ¬body slash before <+: render slash names ∧
      fits slash dot outSize [] (components slash p) = true

/-- The directories that a successful `Initialize` leaves behind. -/
structure RedirectedDirs (before after : List UInt8) (fs : DirectoryRedirectionFileSystem)
    (beforeNames afterNames : List (List UInt8)) : Prop where
  before_eq : resolve dot [] (components slash (cString before)) = some beforeNames
  after_eq : resolve dot [] (components slash (cString after)) = some afterNames
  goodBefore : ∀ name ∈ beforeNames, GoodName name
  goodAfter : ∀ name ∈ afterNames, GoodName name
  beforeDir : fs.beforeDir = body slash beforeNames ++ [slash, 0]
  beforeDirLen : fs.beforeDirLen = (body slash beforeNames).length + 1
  afterDir : fs.afterDir = body slash afterNames ++ [slash, 0]
  afterDirLen : fs.afterDirLen = (body slash afterNames).length + 1

section Initialize

variable {mallocOk : Bool} {names : List (List UInt8)}

lemma zero_notMem_directory (good : ∀ name ∈ names, GoodName name) : 0 ∉ body slash names ++ [slash] := by
  rw [List.mem_append, not_or]
  exact ⟨zero_notMem_body good, by decide⟩

lemma cString_directory (good : ∀ name ∈ names, GoodName name) :
    cString (body slash names ++ [slash, 0]) = body slash names ++ [slash] := by
  have h := cString_append (zero_notMem_directory good) []
  rwa [List.append_assoc, List.singleton_append] at h

lemma allocateDirectory_success {rest dir : List UInt8} {result : FsResult}
    (good : ∀ name ∈ names, GoodName name)
    (h : allocateDirectory mallocOk (body slash names ++ [slash] ++ 0 :: rest) ((body slash names).length + 1) =
      .returned result dir) : dir = body slash names ++ [slash, 0] := by
  cases mallocOk with
  | false => cases h
  | true =>
    cases h
    rw [strncpy_of_le (zero_notMem_directory good) (by simp)]
    simp

/-- A directory is normalised and ends in one separator. -/
lemma getNormalizedDirectory_success {stack : Fin (fsMaxPath + 1) → UInt8} {bytes dir : List UInt8}
    {result : FsResult} (h : getNormalizedDirectory mallocOk stack bytes = .returned result dir) :
    ∃ names, resolve dot [] (components slash (cString bytes)) = some names ∧ (∀ name ∈ names, GoodName name) ∧
      dir = body slash names ++ [slash, 0] := by
  rw [getNormalizedDirectory] at h
  cases hnormalize : normalize (List.ofFn stack) 0 (fsMaxPath + 1) (cString bytes) with
  | abort | fault =>
    rw [hnormalize] at h
    cases h
  | returned r w =>
    rw [hnormalize] at h
    cases r with
    | invalidPath => cases h
    | invalidPathFormat => cases h
    | tooLongPath => cases h
    | directoryUnobtainable => cases h
    | allocationFailureInSubDirectoryFileSystem => cases h
    | success =>
      have hhead : (cString bytes).head? = some slash := by
        by_contra hne
        rw [normalize, if_pos hne] at hnormalize
        cases hnormalize
      have hmax : 1 ≤ fsMaxPath + 1 := Nat.succ_le_succ (Nat.zero_le _)
      have hsize : fsMaxPath + 1 ≤ (List.ofFn stack).length := List.length_ofFn.ge
      have hwritten := @normalize_success [] (List.ofFn stack) (cString bytes) (fsMaxPath + 1) w hmax hsize hhead
        (zero_notMem_cString bytes)
      rw [List.nil_append, List.length_nil] at hwritten
      obtain ⟨names, rest, hnames, -, good, rfl⟩ := hwritten hnormalize
      refine ⟨names, hnames, good, ?_⟩
      dsimp only at h
      rw [List.nil_append, Option.getD_some] at h
      -- the root ends in a separator already, and any other directory gets one
      by_cases hnil : names = []
      · subst hnil
        rw [if_neg (by simp [render])] at h
        exact allocateDirectory_success good h
      · have hrender : render slash names = body slash names := if_neg hnil
        rw [hrender, if_pos (getLast_body good hnil _)] at h
        split at h
        next => cases h
        next =>
          obtain ⟨rest', hset⟩ := exists_separator_appended good rest
          simp only [hset] at h
          exact allocateDirectory_success good h

/-- A successful `Initialize` leaves the directories of the names of its arguments. -/
lemma initializeDirs_success {stack stack' : Fin (fsMaxPath + 1) → UInt8} {before after : List UInt8}
    {fs : DirectoryRedirectionFileSystem}
    (h : DirectoryRedirectionFileSystem.initializeDirs mallocOk stack stack' before after = .returned .success fs) :
    ∃ beforeNames afterNames, RedirectedDirs before after fs beforeNames afterNames := by
  rw [DirectoryRedirectionFileSystem.initializeDirs] at h
  split at h
  next => cases h
  next =>
    cases hbefore : getNormalizedDirectory mallocOk stack before with
    | abort | fault =>
      rw [hbefore] at h
      cases h
    | returned r beforeDir =>
      rw [hbefore] at h
      cases hafter : getNormalizedDirectory mallocOk stack' after with
      | abort | fault =>
        rw [hafter] at h
        cases h
      | returned r' afterDir =>
        rw [hafter] at h
        cases h
        obtain ⟨beforeNames, hb, goodBefore, rfl⟩ := getNormalizedDirectory_success hbefore
        obtain ⟨afterNames, ha, goodAfter, rfl⟩ := getNormalizedDirectory_success hafter
        refine ⟨beforeNames, afterNames, hb, ha, goodBefore, goodAfter, rfl, ?_, rfl, ?_⟩
        · dsimp only
          rw [cString_directory goodBefore, List.length_append, List.length_singleton]
        · dsimp only
          rw [cString_directory goodAfter, List.length_append, List.length_singleton]

end Initialize

section Spelling

variable {before names rest : List (List UInt8)} {p : List UInt8}

lemma plain_of_good (good : ∀ name ∈ names, GoodName name) : ∀ c ∈ names, c ≠ [] ∧ slash ∉ c :=
  fun c hc => (good c hc).plain

lemma render_inj (good : ∀ name ∈ names, GoodName name) (good' : ∀ name ∈ rest, GoodName name)
    (h : render slash names = render slash rest) : names = rest := by
  have hnames := congrArg (components slash) h
  rwa [components_render (plain_of_good good), components_render (plain_of_good good')] at hnames

/-- A canonical path is a directory and what is below it. -/
lemma render_append (hproper : before = [] ∨ rest ≠ []) :
    render slash (before ++ rest) = body slash before ++ render slash rest := by
  unfold render
  by_cases hrest : rest = []
  · rw [if_pos hrest, hrest, List.append_nil, hproper.resolve_right (not_not.mpr hrest), if_pos rfl]
    rfl
  · rw [if_neg hrest, if_neg (fun h => hrest (List.append_eq_nil_iff.mp h).2), body_append]

/-- A canonical path that starts with a directory and a separator is of the directory. -/
lemma prefix_of_directory (goodBefore : ∀ name ∈ before, GoodName name) (good : ∀ name ∈ names, GoodName name)
    (h : (body slash before ++ [slash]) <+: render slash names) : before <+: names := by
  obtain ⟨t, ht⟩ := h
  have hnames := components_render (plain_of_good good)
  rw [← ht, List.append_assoc, List.singleton_append, components_append_sep,
    components_body (plain_of_good goodBefore)] at hnames
  exact ⟨_, hnames⟩

/-- The path of the directory itself does not go on with a separator. -/
lemma not_prefix_of_self (h : before ≠ []) : ¬(body slash before ++ [slash]) <+: render slash before := by
  intro hprefix
  have hle := hprefix.length_le
  rw [render, if_neg h, List.length_append, List.length_singleton] at hle
  omega

/-- Behind as many bytes as the directory has, a path of the directory has the names below it if and only if it starts
as the directory does and does not climb out of it. -/
lemma spelled_iff (goodBefore : ∀ name ∈ before, GoodName name) (hhead : p.head? = some slash)
    (hnames : resolve dot [] (components slash p) = some (before ++ rest)) :
    (p.drop (body slash before).length).head? = some slash ∧
        resolve dot [] (components slash (p.drop (body slash before).length)) = some rest ↔
      (body slash before ++ [slash]) <+: p ∧
        resolve dot [] (components slash (p.drop (body slash before).length)) ≠ none := by
  constructor
  · rintro ⟨hsep, hrest⟩
    refine ⟨?_, by rw [hrest]; exact Option.some_ne_none rest⟩
    obtain ⟨t, ht⟩ := List.head?_eq_some_iff.mp hsep
    have hsplit := List.take_append_drop (body slash before).length p
    -- The names in front of the rest are those of the directory.
    have hfront : resolve dot [] (components slash (p.take (body slash before).length)) = some before := by
      rw [← hsplit, ht, components_append_sep, ← components_sep_cons t, ← ht, resolve_append,
        Option.bind_eq_some_iff] at hnames
      obtain ⟨front, hfront, hbehind⟩ := hnames
      have habove := resolve_above hrest front
      rw [List.append_nil] at habove
      rw [hfront, List.append_cancel_right (Option.some_inj.mp (habove.symm.trans hbehind))]
    have hstart : p.take (body slash before).length = [] ∨
        (p.take (body slash before).length).head? = some slash := by
      rw [List.head?_take]
      split
      · rename_i hzero
        rw [hzero]
        exact .inl rfl
      · exact .inr hhead
    have hlength : (p.take (body slash before).length).length ≤ (body slash before).length := by
      rw [List.length_take]
      exact Nat.min_le_left _ _
    -- The text has the length of the directory, so that it has no room for other names or separators.
    have hbody : body slash before = p.take (body slash before).length := by
      obtain hlt | htext := length_body_components _ hstart
      · obtain hshort | heq := length_body_resolve slash hfront
        · rw [body_nil, List.length_nil] at hshort
          omega
        · rw [← List.nil_append (components slash _), ← heq] at hlt
          omega
      · obtain hshort | heq := length_body_resolve slash hfront
        · rw [body_nil, List.length_nil, htext] at hshort
          omega
        · nth_rewrite 1 [heq]
          rw [List.nil_append, htext]
    refine ⟨t, ?_⟩
    rw [List.append_assoc, List.singleton_append, ← ht]
    nth_rewrite 1 [hbody]
    exact hsplit
  · rintro ⟨⟨t, ht⟩, hne⟩
    have hdrop : p.drop (body slash before).length = slash :: t := by
      rw [← ht, List.append_assoc, List.drop_left, List.singleton_append]
    rw [hdrop] at hne ⊢
    obtain ⟨found, hfound⟩ := Option.ne_none_iff_exists'.mp hne
    refine ⟨rfl, ?_⟩
    rw [← ht, List.append_assoc, List.singleton_append, components_append_sep,
      components_body (plain_of_good goodBefore), resolve_append,
      resolve_names slash (fun c hc => (goodBefore c hc).toIsName), Option.bind_some, List.nil_append] at hnames
    rw [components_sep_cons] at hfound ⊢
    have habove := resolve_above hfound before
    rw [List.append_nil] at habove
    rw [hfound, List.append_cancel_left (Option.some_inj.mp (habove.symm.trans hnames))]

end Spelling

/-- The text that `Normalize` writes behind other bytes -/
lemma normalize_text_iff {pre out q : List UInt8} {names : List (List UInt8)} (hpre : 0 ∉ pre)
    (hout : 2 ≤ out.length) (hz : 0 ∉ q) (good : ∀ name ∈ names, GoodName name) :
    (∃ buf, (normalize (pre ++ out) pre.length out.length q).map (·.buf) = .returned .success buf ∧
        cString buf = pre ++ render slash names) ↔
      q.head? = some slash ∧ resolve dot [] (components slash q) = some names ∧
        fits slash dot out.length [] (components slash q) = true := by
  have hzero : ∀ {names rest}, (∀ name ∈ names, GoodName name) →
      cString (pre ++ (render slash names ++ 0 :: rest)) = pre ++ render slash names := by
    intro names rest good
    rw [← List.append_assoc]
    apply cString_append
    rw [List.mem_append, not_or]
    exact ⟨hpre, zero_notMem_render good⟩
  constructor
  · rintro ⟨buf, hcall, htext⟩
    cases hnormalize : normalize (pre ++ out) pre.length out.length q with
    | abort | fault =>
      rw [hnormalize] at hcall
      cases hcall
    | returned result w =>
      rw [hnormalize] at hcall
      cases hcall
      have hhead : q.head? = some slash := by
        by_contra hne
        rw [normalize, if_pos hne] at hnormalize
        cases hnormalize
      obtain ⟨names', rest, hnames, hfits, good', rfl⟩ :=
        normalize_success (by omega) le_rfl hhead hz hnormalize
      rw [hzero good'] at htext
      rw [← render_inj good' good (List.append_cancel_left htext)]
      exact ⟨hhead, hnames, hfits⟩
  · rintro ⟨hhead, hnames, hfits⟩
    obtain ⟨hnone, -⟩ | ⟨names', rest, hsome, -, h⟩ := @normalize_of_fits pre out q _ hout le_rfl hhead hz hfits
    · rw [hnames] at hnone
      cases hnone
    · cases hnames.symm.trans hsome
      refine ⟨pre ++ (render slash names ++ 0 :: rest), ?_, hzero good⟩
      rw [h]
      rfl

/-- A string without a terminator starts a buffer if and only if it starts the string in it. -/
lemma prefix_terminated {d s : List UInt8} (hd : 0 ∉ d) (rest : List UInt8) : d <+: s ++ 0 :: rest ↔ d <+: s := by
  constructor
  · intro h
    rcases Nat.lt_or_ge s.length d.length with hlt | hle
    · have hzero : s ++ [0] <+: s ++ 0 :: rest := ⟨rest, by rw [List.append_assoc, List.singleton_append]⟩
      have hshort := List.prefix_of_prefix_length_le hzero h (by rw [List.length_append]; exact hlt)
      exact absurd (hshort.subset (List.mem_append_right s (List.mem_singleton_self 0))) hd
    · exact List.prefix_of_prefix_length_le h (List.prefix_append s _) hle
  · intro h
    exact h.trans (List.prefix_append s _)

section FullPath

variable {before after : List UInt8} {fs : DirectoryRedirectionFileSystem}
  {beforeNames afterNames names : List (List UInt8)}

section

variable (h : RedirectedDirs before after fs beforeNames afterNames)

include h

/-- The comparison with the directory and its separator -/
lemma RedirectedDirs.strncmpEq_iff (good : ∀ name ∈ names, GoodName name) (rest : List UInt8) :
    strncmpEq (render slash names ++ 0 :: rest) fs.beforeDir fs.beforeDirLen = true ↔
      (body slash beforeNames ++ [slash]) <+: render slash names := by
  have hlength : (body slash beforeNames ++ [slash]).length = (body slash beforeNames).length + 1 := by
    rw [List.length_append, List.length_singleton]
  rw [strncmpEq, cString_append (zero_notMem_render good), h.beforeDir, cString_directory h.goodBefore,
    h.beforeDirLen, ← hlength, List.take_length, beq_iff_eq, List.prefix_iff_eq_take]
  exact eq_comm

/-- The comparison without the separator -/
lemma RedirectedDirs.memcmp_iff (rest : List UInt8) :
    (render slash names ++ 0 :: rest).take (fs.beforeDirLen - 1) = fs.beforeDir.take (fs.beforeDirLen - 1) ↔
      body slash beforeNames <+: render slash names := by
  rw [h.beforeDirLen, Nat.add_sub_cancel, h.beforeDir, List.take_left,
    ← prefix_terminated (zero_notMem_body h.goodBefore) rest, List.prefix_iff_eq_take]
  exact eq_comm

/-- The directory is copied with its separator. -/
lemma RedirectedDirs.copy_eq {out : List UInt8} (hfit : (body slash afterNames).length + 1 < out.length) :
    (strncpy out fs.afterDir).set (out.length - 1) 0 = body slash afterNames ++
      (slash :: List.replicate (out.length - ((body slash afterNames).length + 1)) 0) := by
  have hlength : (body slash afterNames ++ [slash]).length = (body slash afterNames).length + 1 := by
    rw [List.length_append, List.length_singleton]
  have hdir : fs.afterDir = (body slash afterNames ++ [slash]) ++ 0 :: [] := by
    rw [h.afterDir, List.append_assoc, List.singleton_append]
  have hne : List.replicate (out.length - ((body slash afterNames).length + 1)) (0 : UInt8) ≠ [] := by
    intro hnil
    have hzero := congrArg List.length hnil
    rw [List.length_replicate, List.length_nil] at hzero
    omega
  rw [hdir, strncpy_of_le (zero_notMem_directory h.goodAfter) (by omega), hlength,
    set_last _ hne _ (by rw [List.length_append, List.length_replicate]; omega), List.set_replicate_self,
    List.append_assoc, List.singleton_append]

/-- A path below the redirected directory: what is spelled behind as many bytes as the directory has is written
behind the other directory. -/
lemma RedirectedDirs.descendant_iff {rest : List (List UInt8)} (hgood : ∀ name ∈ rest, GoodName name)
    {out relativePath : List UInt8} (hhead : (cString relativePath).head? = some slash)
    (hnames : resolve dot [] (components slash (cString relativePath)) = some (beforeNames ++ rest))
    (hfit : (body slash afterNames ++ render slash rest).length < out.length) :
    (∃ buf, (normalize ((strncpy out fs.afterDir).set (out.length - 1) 0) (fs.afterDirLen - 1)
          (((strncpy out fs.afterDir).set (out.length - 1) 0).length - (fs.afterDirLen - 1))
          (cString (relativePath.drop (fs.beforeDirLen - 1)))).map (·.buf) = .returned .success buf ∧
        cString buf = body slash afterNames ++ render slash rest) ↔
      (body slash beforeNames ++ [slash]) <+: cString relativePath ∧
        resolve dot [] (components slash ((cString relativePath).drop (body slash beforeNames).length)) ≠ none ∧
        fits slash dot (out.length - (body slash afterNames).length) []
          (components slash ((cString relativePath).drop (body slash beforeNames).length)) = true := by
  have hpos : 1 ≤ (render slash rest).length := by
    rw [render_eq_intercalate]
    exact Nat.succ_le_succ (Nat.zero_le _)
  rw [List.length_append] at hfit
  have hout : (slash :: List.replicate (out.length - ((body slash afterNames).length + 1)) (0 : UInt8)).length =
      out.length - (body slash afterNames).length := by
    rw [List.length_cons, List.length_replicate]
    omega
  -- The path is at least as long as the directory, since its names are.
  have hinside : (body slash beforeNames).length ≤ (cString relativePath).length := by
    have hbody : (body slash (beforeNames ++ rest)).length ≤
        (body slash (components slash (cString relativePath))).length := by
      obtain hlt | heq := length_body_resolve slash hnames
      · rw [body_nil, List.length_nil] at hlt
        omega
      · rw [heq, List.nil_append]
    have htext : (body slash (components slash (cString relativePath))).length ≤ (cString relativePath).length := by
      obtain hlt | heq := length_body_components (cString relativePath) (.inr hhead)
      · exact hlt.le
      · rw [heq]
    rw [body_append, List.length_append] at hbody
    omega
  have hz : 0 ∉ (cString relativePath).drop (body slash beforeNames).length :=
    fun hmem => zero_notMem_cString relativePath (List.mem_of_mem_drop hmem)
  have hcall := @normalize_text_iff (body slash afterNames)
    (slash :: List.replicate (out.length - ((body slash afterNames).length + 1)) 0) _ rest
    (zero_notMem_body h.goodAfter) (by omega) hz hgood
  rw [h.copy_eq (by omega), h.afterDirLen, h.beforeDirLen, Nat.add_sub_cancel, Nat.add_sub_cancel,
    cString_drop hinside, List.length_append, Nat.add_sub_cancel_left, hcall, hout, ← and_assoc,
    spelled_iff h.goodBefore hhead hnames, and_assoc]

/-- The directory itself is the other directory. -/
lemma RedirectedDirs.self_text {out : List UInt8} (hfit : (body slash afterNames).length + 1 < out.length) :
    cString ((strncpy out fs.afterDir).set (out.length - 1) 0) = body slash afterNames ++ render slash [] := by
  obtain ⟨n, hn⟩ := Nat.exists_eq_add_of_lt hfit
  have hroom : out.length - ((body slash afterNames).length + 1) = n + 1 := by omega
  rw [h.copy_eq hfit, hroom, List.replicate_succ]
  have htext := cString_append (zero_notMem_directory h.goodAfter) (List.replicate n 0)
  rw [List.append_assoc, List.singleton_append] at htext
  exact htext

end

/-- A canonical path of names does not end in a separator. -/
lemma render_ne_directory (good : ∀ name ∈ names, GoodName name) (hne : names ≠ []) (d : List UInt8) :
    render slash names ≠ d ++ [slash] := by
  intro heq
  have hbody : render slash names = body slash names := if_neg hne
  have hlast := getLast_body good hne []
  rw [List.append_nil, ← hbody, heq, List.length_append, List.length_singleton, Nat.add_sub_cancel,
    List.getD_eq_getElem?_getD, List.getElem?_append_right le_rfl, Nat.sub_self] at hlast
  exact hlast rfl

lemma length_render_pos (names : List (List UInt8)) : 1 ≤ (render slash names).length := by
  rw [render_eq_intercalate]
  exact Nat.succ_le_succ (Nat.zero_le _)

/-- No directory but the root is in front of the root. -/
lemma names_ne_nil_of_prefix (hbelow : ¬beforeNames <+: names)
    (hstart : body slash beforeNames <+: render slash names) (goodBefore : ∀ name ∈ beforeNames, GoodName name) :
    names ≠ [] := by
  rintro rfl
  cases beforeNames with
  | nil => exact hbelow (List.prefix_refl [])
  | cons c cs =>
    have hpos := List.length_pos_iff.mpr (goodBefore c List.mem_cons_self).ne_nil
    have hle := hstart.length_le
    rw [body_cons, render, if_pos rfl, List.length_cons, List.length_append, List.length_singleton] at hle
    omega

/-- The full path of a path of the redirected directory -/
lemma RedirectedDirs.below_iff (h : RedirectedDirs before after fs beforeNames afterNames)
    {below : List (List UInt8)} (good : ∀ name ∈ beforeNames ++ below, GoodName name)
    {out relativePath : List UInt8} (rest : List UInt8) (hhead : (cString relativePath).head? = some slash)
    (hnames : resolve dot [] (components slash (cString relativePath)) = some (beforeNames ++ below))
    (hfit : (body slash afterNames ++ render slash below).length < out.length)
    (htmp : (render slash (beforeNames ++ below)).length < fsMaxPath) :
    (∃ buf, fs.fullPathOf out relativePath (render slash (beforeNames ++ below) ++ 0 :: rest) =
          .returned .success buf ∧ cString buf = body slash afterNames ++ render slash below) ↔
      beforeNames ++ below = beforeNames ∧ beforeNames ≠ [] ∨
        (body slash beforeNames ++ [slash]) <+: cString relativePath ∧
          resolve dot [] (components slash ((cString relativePath).drop (body slash beforeNames).length)) ≠ none ∧
          fits slash dot (out.length - (body slash afterNames).length) []
            (components slash ((cString relativePath).drop (body slash beforeNames).length)) = true := by
  rw [DirectoryRedirectionFileSystem.fullPathOf]
  have hpos := length_render_pos below
  have hroom := hfit
  rw [List.length_append] at hroom
  by_cases hself : beforeNames ≠ [] ∧ below = []
  · -- The directory itself, which has no separator at its end
    obtain ⟨hne, rfl⟩ := hself
    rw [List.append_nil] at good ⊢
    have hcmp : ¬strncmpEq (render slash beforeNames ++ 0 :: rest) fs.beforeDir fs.beforeDirLen = true :=
      fun heq => not_prefix_of_self hne ((h.strncmpEq_iff good rest).mp heq)
    have hbody : body slash beforeNames <+: render slash beforeNames := by
      rw [render, if_neg hne]
    rw [if_neg hcmp, if_pos ((h.memcmp_iff rest).mpr hbody), h.afterDirLen, if_neg (by omega)]
    exact ⟨fun _ => .inl ⟨rfl, hne⟩, fun _ => ⟨_, rfl, h.self_text (by omega)⟩⟩
  · -- The path has the directory for a prefix, so that the spelling is what is normalised.
    have hproper : beforeNames = [] ∨ below ≠ [] := by
      by_contra hboth
      push Not at hboth
      exact hself hboth
    have hrender := render_append hproper
    have hcmp : strncmpEq (render slash (beforeNames ++ below) ++ 0 :: rest) fs.beforeDir fs.beforeDirLen =
        true := by
      apply (h.strncmpEq_iff good rest).mpr
      rw [hrender, render_eq_intercalate]
      exact ⟨List.intercalate [slash] below, by rw [List.append_assoc, List.singleton_append]⟩
    have hlen : strnlen (render slash (beforeNames ++ below) ++ 0 :: rest) fsMaxPath =
        (body slash beforeNames).length + (render slash below).length := by
      rw [strnlen, cString_append (zero_notMem_render good), Nat.min_eq_left htmp.le, hrender, List.length_append]
    have hnot : ¬(beforeNames ++ below = beforeNames ∧ beforeNames ≠ []) := by
      rintro ⟨heq, hne⟩
      exact hself ⟨hne, List.append_right_eq_self.mp heq⟩
    rw [if_pos hcmp, hlen, h.afterDirLen, h.beforeDirLen, if_neg (by omega), or_iff_right hnot]
    have hcall := h.descendant_iff (fun c hc => good c (List.mem_append_right _ hc)) hhead hnames hfit
    rw [h.afterDirLen, h.beforeDirLen] at hcall
    exact hcall

/-- The full path of any other path -/
lemma RedirectedDirs.apart_iff (h : RedirectedDirs before after fs beforeNames afterNames)
    (good : ∀ name ∈ names, GoodName name) (hapart : ¬beforeNames <+: names) {out relativePath : List UInt8}
    (rest : List UInt8) (hhead : (cString relativePath).head? = some slash)
    (hnames : resolve dot [] (components slash (cString relativePath)) = some names)
    (hfit : (render slash names).length < out.length) :
    (∃ buf, fs.fullPathOf out relativePath (render slash names ++ 0 :: rest) = .returned .success buf ∧
        cString buf = render slash names) ↔
      ¬body slash beforeNames <+: render slash names ∧
        fits slash dot out.length [] (components slash (cString relativePath)) = true := by
  have hpos := length_render_pos names
  have hcmp : ¬strncmpEq (render slash names ++ 0 :: rest) fs.beforeDir fs.beforeDirLen = true :=
    fun heq => hapart (prefix_of_directory h.goodBefore good ((h.strncmpEq_iff good rest).mp heq))
  rw [DirectoryRedirectionFileSystem.fullPathOf, if_neg hcmp]
  by_cases hstart : body slash beforeNames <+: render slash names
  · -- A sibling whose name starts with that of the directory
    have hne := names_ne_nil_of_prefix hapart hstart h.goodBefore
    rw [if_pos ((h.memcmp_iff rest).mpr hstart), h.afterDirLen]
    constructor
    · rintro ⟨buf, hcall, htext⟩
      split at hcall
      next => cases hcall
      next hroom =>
        cases hcall
        rw [h.self_text (by omega), render, if_pos rfl] at htext
        exact absurd htext.symm (render_ne_directory good hne _)
    · rintro ⟨hnot, -⟩
      exact absurd hstart hnot
  · rw [if_neg fun heq => hstart ((h.memcmp_iff rest).mp heq), and_iff_right hstart]
    have hcall := @normalize_text_iff [] out (cString relativePath) names List.not_mem_nil (by omega)
      (zero_notMem_cString relativePath) good
    rw [List.nil_append, List.length_nil, List.nil_append, and_iff_right hhead, and_iff_right hnames] at hcall
    exact hcall

/-- `GetFullPath` gives the full path of the names of a path, if the full path fits, if and only if the path is spelled
so that the two are the same: a path below the redirected directory has to start with its normalised path, since the
rest is taken from the path as it was spelled, and a path that starts with the name of the directory has to be of
it. -/
theorem getFullPath_redirects_iff {mallocOk : Bool} {stack stack' : Fin (fsMaxPath + 1) → UInt8}
    (hinit : DirectoryRedirectionFileSystem.initializeDirs mallocOk stack stack' before after = .returned .success fs) :
    ∃ beforeNames afterNames, resolve dot [] (components slash (cString before)) = some beforeNames ∧
      resolve dot [] (components slash (cString after)) = some afterNames ∧
      ∀ (tmp : Fin fsMaxPath → UInt8) (out relativePath : List UInt8) (names : List (List UInt8)),
        (cString relativePath).head? = some slash →
        resolve dot [] (components slash (cString relativePath)) = some names →
        (redirected beforeNames afterNames names).length < out.length →
        ((∃ buf, fs.getFullPath tmp out relativePath = .returned .success buf ∧
            cString buf = redirected beforeNames afterNames names) ↔
          RedirectsSpelling beforeNames afterNames names out.length (cString relativePath)) := by
  obtain ⟨beforeNames, afterNames, h⟩ := initializeDirs_success hinit
  refine ⟨beforeNames, afterNames, h.before_eq, h.after_eq, fun tmp out relativePath names hhead hnames hfit => ?_⟩
  have hz := zero_notMem_cString relativePath
  have hspec := normalize_spec [] (List.ofFn tmp) (by decide : 1 ≤ fsMaxPath)
    (by rw [List.nil_append, List.length_nil, List.length_ofFn, Nat.zero_add]) hhead hz
  rw [List.nil_append, List.length_nil, hnames] at hspec
  rw [DirectoryRedirectionFileSystem.getFullPath, RedirectsSpelling]
  generalize normalize (List.ofFn tmp) 0 fsMaxPath (cString relativePath) = ending at hspec ⊢
  obtain ⟨hone, -⟩ | hspec := hspec
  · rw [fsMaxPath] at hone
    omega
  cases hspec with
  | tooLong hfits _ =>
    -- the path does not fit into the buffer on the stack
    rw [hfits]
    constructor
    · rintro ⟨buf, hcall, -⟩
      cases hcall
    · rintro ⟨hfalse, -⟩
      cases hfalse
  | climbed hnone _ => cases hnone
  | @success names' rest hsome hfits good hlength =>
    cases hsome
    rw [and_iff_right hfits]
    dsimp only
    rw [List.nil_append]
    by_cases hbelow : beforeNames <+: names
    · obtain ⟨below, rfl⟩ := hbelow
      have htext : redirected beforeNames afterNames (beforeNames ++ below) =
          body slash afterNames ++ render slash below := by
        rw [redirected, if_pos (List.prefix_append _ _), List.drop_left]
      rw [htext] at hfit ⊢
      rw [if_pos (List.prefix_append _ _)]
      have htmp : (render slash (beforeNames ++ below)).length < fsMaxPath := by
        rw [List.nil_append, List.length_append, List.length_cons, List.length_ofFn] at hlength
        omega
      exact h.below_iff good rest hhead hnames hfit htmp
    · have htext : redirected beforeNames afterNames names = render slash names := by
        rw [redirected, if_neg hbelow]
      rw [htext] at hfit ⊢
      rw [if_neg hbelow]
      exact h.apart_iff good hbelow rest hhead hnames hfit

/-- The redirection of `/a` to `/x` -/
def exampleRedirection : DirectoryRedirectionFileSystem :=
  ⟨"/a/".toUTF8.toList ++ [0], 3, "/x/".toUTF8.toList ++ [0], 3⟩

lemma exampleRedirection_eq : DirectoryRedirectionFileSystem.initializeDirs true (fun _ => 0x2A) (fun _ => 0x2A)
    "/a".toUTF8.toList "//x/.".toUTF8.toList = .returned .success exampleRedirection := by
  decide +kernel

/-- A path below `/a` that climbs inside of it -/
theorem getFullPath_redirects_c :
    ∃ buf, exampleRedirection.getFullPath (fun _ => 0x2A) (List.replicate 16 0x2A) "/a/b/..//c".toUTF8.toList =
      .returned .success buf ∧ cString buf = "/x/c".toUTF8.toList := by
  obtain ⟨beforeNames, afterNames, hbefore, hafter, hall⟩ := getFullPath_redirects_iff exampleRedirection_eq
  have hb : resolve dot [] (components slash (cString "/a".toUTF8.toList)) = some ["a".toUTF8.toList] := by
    with_unfolding_all decide
  have ha : resolve dot [] (components slash (cString "//x/.".toUTF8.toList)) = some ["x".toUTF8.toList] := by
    with_unfolding_all decide
  cases hb.symm.trans hbefore
  cases ha.symm.trans hafter
  have htext : redirected ["a".toUTF8.toList] ["x".toUTF8.toList] ["a".toUTF8.toList, "c".toUTF8.toList] =
      "/x/c".toUTF8.toList := by with_unfolding_all decide
  have hpath := hall (fun _ => 0x2A) (List.replicate 16 0x2A) "/a/b/..//c".toUTF8.toList
    ["a".toUTF8.toList, "c".toUTF8.toList] (by with_unfolding_all decide) (by with_unfolding_all decide)
    (by with_unfolding_all decide)
  rw [htext] at hpath
  exact hpath.mpr (by unfold RedirectsSpelling; with_unfolding_all decide)

/-- A sibling of `/a` whose name starts with `a` is redirected to `/x` itself, and a path below `/a` that is spelled
with another separator is refused. -/
theorem not_getFullPath_redirects :
    (∃ buf, exampleRedirection.getFullPath (fun _ => 0x2A) (List.replicate 16 0x2A) "/ab".toUTF8.toList =
        .returned .success buf ∧ cString buf = "/x/".toUTF8.toList) ∧
      redirected ["a".toUTF8.toList] ["x".toUTF8.toList] ["ab".toUTF8.toList] = "/ab".toUTF8.toList ∧
    (∃ buf, exampleRedirection.getFullPath (fun _ => 0x2A) (List.replicate 16 0x2A) "//a/b".toUTF8.toList =
        .returned .invalidPathFormat buf) ∧
      resolve dot [] (components slash "//a/b".toUTF8.toList) = some ["a".toUTF8.toList, "b".toUTF8.toList] ∧
      redirected ["a".toUTF8.toList] ["x".toUTF8.toList] ["a".toUTF8.toList, "b".toUTF8.toList] =
        "/x/b".toUTF8.toList := by
  refine ⟨⟨"/x/".toUTF8.toList ++ List.replicate 13 0, by decide +kernel, by decide +kernel⟩, by decide +kernel,
    ⟨"/x/".toUTF8.toList ++ List.replicate 13 0, by decide +kernel⟩, by decide +kernel, by decide +kernel⟩

end FullPath

end RajNX.FsMitm
