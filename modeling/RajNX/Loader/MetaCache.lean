import RajNX.Loader.Meta

/-!
# The cache of program metadata

One buffer and one title id serve every title. `LoadMeta` puts the metadata of a title into the buffer and
patches it; `LoadMetaFromCache` does so unless the title id is that of the title. A file that is opened but
cannot be loaded has already emptied the cache when `LoadMeta` fails, and the title id is left as it was.
`CleanCall` is the condition under which that is not seen.
-/

namespace RajNX.Loader

open LittleEndian Splice WriteTrace

/-- What the file system and the configuration answer to `LoadMeta`: the file of the program, whether the
title is overridden, and the file of the program that is overridden. -/
structure LoadAnswers where
  code : Except Nat CodeFile
  isHblOverride : Bool
  base : Except Nat CodeFile

/-- The global storage. -/
structure LoaderState where
  cachedTitleId : Nat
  metaCache : MetaCache
  originalMetaCache : MetaCache

/-! ## Patches -/

/-- The words of a list of capabilities in a buffer. -/
def kacWords (b : List UInt8) (kac size : Nat) : List UInt32 :=
  (List.range (size / 4)).map fun i => .ofNat (readU32 b (kac + 4 * i))

/-- `SetProgramInfoFlags` on a list in a buffer -/
def setKacFlags (flags : Nat) (b : List UInt8) (kac size : Nat) : List UInt8 :=
  let words := setProgramInfoFlags flags (kacWords b kac size)
  (Write.copy kac (words.flatMap fun w => leBytes 4 w.toNat)).apply b

/-- The title ids of a title. -/
def patchTitleIds (titleId : Nat) (info : Meta) (b : List UInt8) : List UInt8 :=
  let b := writeBytes b (info.acid + 0x210) 8 titleId
  let b := writeBytes b (info.acid + 0x218) 8 titleId
  writeBytes b (info.aci + 0x10) 8 titleId

/-- What is copied from the metadata of a program that is overridden. -/
def patchFromBase (config : LoaderConfig) (info : Meta) (b : List UInt8) (original : Meta)
    (originalBuffer : List UInt8) : List UInt8 :=
  let b :=
    if config.isFirmware500 then
      writeBytes b (info.acid + 0x20C) 4
        ((Acid.flags b info.acid &&& 0xFFFFFFC3) |||
          (Acid.flags originalBuffer original.acid &&& 0x0000003C))
    else b
  let flags :=
    getProgramInfoFlags (kacWords originalBuffer original.aciKac (Aci.kacSize originalBuffer original.aci))
  let b := setKacFlags flags b info.acidKac (Acid.kacSize b info.acid)
  setKacFlags flags b info.aciKac (Aci.kacSize b info.aci)

/-- All patches, with what is left in the other cache. -/
def patchMeta (config : LoaderConfig) (titleId : Nat) (answers : LoadAnswers) (info : Meta)
    (b : List UInt8) (originalCache : MetaCache) : List UInt8 × MetaCache :=
  let b := patchTitleIds titleId info b
  if answers.isHblOverride then
    match answers.base with
    | .error _ => (b, originalCache)
    | .ok f =>
      match loadMetaFromFile config f originalCache with
      | (.error _, cache) => (b, cache)
      | (.ok original, cache) => (patchFromBase config info b original cache.buffer, cache)
  else (b, originalCache)

lemma length_writeBytes (b : List UInt8) (o width v : Nat) : (writeBytes b o width v).length = b.length :=
  Write.length_apply _ _

lemma length_setKacFlags (flags : Nat) (b : List UInt8) (kac size : Nat) :
    (setKacFlags flags b kac size).length = b.length :=
  Write.length_apply _ _

lemma length_patchTitleIds (titleId : Nat) (info : Meta) (b : List UInt8) :
    (patchTitleIds titleId info b).length = b.length := by
  simp only [patchTitleIds, length_writeBytes]

lemma length_patchFromBase (config : LoaderConfig) (info : Meta) (b : List UInt8) (original : Meta)
    (originalBuffer : List UInt8) : (patchFromBase config info b original originalBuffer).length = b.length := by
  simp only [patchFromBase, length_setKacFlags]
  split
  · exact length_writeBytes _ _ _ _
  · rfl

lemma length_patchMeta (config : LoaderConfig) (titleId : Nat) (answers : LoadAnswers) (info : Meta)
    (b : List UInt8) (originalCache : MetaCache) :
    (patchMeta config titleId answers info b originalCache).1.length = b.length := by
  have hids := length_patchTitleIds titleId info b
  unfold patchMeta
  dsimp only
  split
  · split
    · exact hids
    · split
      · exact hids
      · exact (length_patchFromBase _ _ _ _ _).trans hids
  · exact hids

/-! ## The calls -/

/-- `LoadMeta`. The `Meta` that it returns has its pointers set. -/
def loadMeta (config : LoaderConfig) (s : LoaderState) (titleId : Nat) (answers : LoadAnswers) :
    Except LoaderError (Option Meta) × LoaderState :=
  match answers.code with
  | .error e => (.error (.fileSystem e), s)
  | .ok f =>
    match loadMetaFromFile config f s.metaCache with
    | (.error e, cache) => (.error e, { s with metaCache := cache })
    | (.ok info, cache) =>
      let patched := patchMeta config titleId answers info cache.buffer s.originalMetaCache
      (.ok (some info), {
        cachedTitleId := titleId
        metaCache :=
          { info := some info
            buffer := patched.1
            length_buffer := by rw [length_patchMeta, cache.length_buffer] }
        originalMetaCache := patched.2 })

/-- `LoadMetaFromCache` -/
def loadMetaFromCache (config : LoaderConfig) (s : LoaderState) (titleId : Nat) (answers : LoadAnswers) :
    Except LoaderError (Option Meta) × LoaderState :=
  if s.cachedTitleId ≠ titleId then loadMeta config s titleId answers
  else (.ok s.metaCache.info, s)

/-- The calls that use the cache, with what is answered if they load. -/
inductive LoaderCall
  | loadMeta (titleId : Nat) (answers : LoadAnswers)
  | loadMetaFromCache (titleId : Nat) (answers : LoadAnswers)
  | invalidateMetaCache

/-- A call. `InvalidateMetaCache` returns nothing. -/
def loaderStep (config : LoaderConfig) (s : LoaderState) :
    LoaderCall → Except LoaderError (Option Meta) × LoaderState
  | .loadMeta titleId answers => loadMeta config s titleId answers
  | .loadMetaFromCache titleId answers => loadMetaFromCache config s titleId answers
  | .invalidateMetaCache => (.ok none, { s with cachedTitleId := 0 })

/-- The state in which the loader starts. -/
def loaderStart : LoaderState where
  cachedTitleId := 0
  metaCache := emptyMetaCache
  originalMetaCache := emptyMetaCache

/-- Runs all of whose calls meet a condition in the state before them, with the calls, the last one
first. -/
inductive LoaderRun (config : LoaderConfig) (ok : LoaderState → LoaderCall → Prop) :
    List LoaderCall → LoaderState → Prop
  | start : LoaderRun config ok [] loaderStart
  | call {t : List LoaderCall} {s : LoaderState} {call : LoaderCall} : LoaderRun config ok t s →
    ok s call → LoaderRun config ok (call :: t) (loaderStep config s call).2

/-! ## What is in the cache -/

/-- The calls that load the file of a title. -/
def LoaderCall.Loads (titleId : Nat) (answers : LoadAnswers) : LoaderCall → Prop
  | .loadMeta titleId' answers' => titleId' = titleId ∧ answers' = answers
  | .loadMetaFromCache titleId' answers' => titleId' = titleId ∧ answers' = answers
  | .invalidateMetaCache => False

/-- A `Meta` that was parsed from a file of a title, and a buffer that has the bytes of that file, patched
for the title. -/
def OfTitle (config : LoaderConfig) (t : List LoaderCall) (titleId : Nat) (info : Meta)
    (buffer : List UInt8) : Prop :=
  ∃ call ∈ t, ∃ answers f before original, call.Loads titleId answers ∧ answers.code = .ok f ∧
    parseMeta config f.contents f.contents.length = .ok info ∧
    buffer = (patchMeta config titleId answers info (splice before 0 f.contents) original).1

/-- A file that can be loaded. -/
def CodeFile.Valid (config : LoaderConfig) (f : CodeFile) : Prop :=
  f.contents.length ≤ metaCacheBufferSize ∧ f.contents.length ≠ 0 ∧ f.contents.length ≤ f.readable ∧
    ∃ info, parseMeta config f.contents f.contents.length = .ok info

/-- The condition on a load: while a title is cached, every file that is opened can be loaded. -/
def CleanLoad (config : LoaderConfig) (s : LoaderState) (answers : LoadAnswers) : Prop :=
  s.cachedTitleId = 0 ∨ ∀ f, answers.code = .ok f → f.Valid config

/-- The condition on a call. Title id 0 stands for no title. -/
def CleanCall (config : LoaderConfig) (s : LoaderState) : LoaderCall → Prop
  | .loadMeta _ answers => CleanLoad config s answers
  | .loadMetaFromCache titleId answers =>
    titleId ≠ 0 ∧ (s.cachedTitleId ≠ titleId → CleanLoad config s answers)
  | .invalidateMetaCache => True

/-- The title that is cached is the one in the buffer. -/
def CacheOfTitle (config : LoaderConfig) (t : List LoaderCall) (s : LoaderState) : Prop :=
  s.cachedTitleId ≠ 0 → ∃ info, s.metaCache.info = some info ∧
    OfTitle config t s.cachedTitleId info s.metaCache.buffer

section Runs

variable {config : LoaderConfig} {s s' : LoaderState} {t : List LoaderCall} {titleId : Nat}
  {answers : LoadAnswers} {call : LoaderCall} {out : Option Meta}

lemma OfTitle.cons {info : Meta} {buffer : List UInt8} (h : OfTitle config t titleId info buffer) :
    OfTitle config (call :: t) titleId info buffer := by
  obtain ⟨load, hload, h⟩ := h
  exact ⟨load, List.mem_cons_of_mem _ hload, h⟩

lemma CacheOfTitle.cons (h : CacheOfTitle config t s) : CacheOfTitle config (call :: t) s := by
  intro hcached
  obtain ⟨info, hinfo, htitle⟩ := h hcached
  exact ⟨info, hinfo, htitle.cons⟩

/-- A load that succeeds leaves the file of the title in the cache. -/
lemma loadMeta_eq_ok (h : loadMeta config s titleId answers = (.ok out, s')) (hcall : call.Loads titleId answers) :
    ∃ info, out = some info ∧ s'.cachedTitleId = titleId ∧ s'.metaCache.info = some info ∧
      OfTitle config (call :: t) titleId info s'.metaCache.buffer := by
  unfold loadMeta at h
  split at h
  · cases h
  · next f hf =>
    split at h
    · cases h
    · next info cache hload =>
      obtain ⟨-, -, hbuffer, hparse⟩ := loadMetaFromFile_eq_ok hload
      cases h
      refine ⟨info, rfl, rfl, rfl, call, List.mem_cons_self, answers, f, s.metaCache.buffer,
        s.originalMetaCache, hcall, hf, hparse, ?_⟩
      rw [← hbuffer]

/-- A load that fails leaves the cache as it was, or the file could not be loaded. -/
lemma loadMeta_eq_error {e : LoaderError} (h : loadMeta config s titleId answers = (.error e, s')) :
    s' = s ∨ s'.cachedTitleId = s.cachedTitleId ∧ ∃ f, answers.code = .ok f ∧ ¬f.Valid config := by
  unfold loadMeta at h
  split at h
  · cases h
    exact .inl rfl
  · next f hf =>
    split at h
    · next cache hload =>
      cases h
      refine .inr ⟨rfl, f, hf, ?_⟩
      rintro ⟨hsize, hpos, hread, info, hparse⟩
      obtain ⟨cache', hload', -, -⟩ := loadMetaFromFile_of_parse hsize hpos hread hparse
      rw [hload'] at hload
      cases hload
    · cases h

/-- A file that can be loaded is loaded. -/
lemma loadMeta_of_parse {f : CodeFile} {info : Meta} (hf : answers.code = .ok f)
    (hsize : f.contents.length ≤ metaCacheBufferSize) (hpos : f.contents.length ≠ 0)
    (hread : f.contents.length ≤ f.readable) (hparse : parseMeta config f.contents f.contents.length = .ok info) :
    ∃ s', loadMeta config s titleId answers = (.ok (some info), s') ∧ s'.cachedTitleId = titleId := by
  obtain ⟨cache, hload, -, -⟩ := loadMetaFromFile_of_parse hsize hpos hread hparse
  unfold loadMeta
  rw [hf]
  dsimp only
  rw [hload]
  exact ⟨_, rfl, rfl⟩

/-- A load keeps the cache in order if its file is clean. -/
lemma CacheOfTitle.loadMeta (hs : CacheOfTitle config t s) (hclean : CleanLoad config s answers)
    (hcall : call.Loads titleId answers) : CacheOfTitle config (call :: t) (loadMeta config s titleId answers).2 := by
  cases hresult : Loader.loadMeta config s titleId answers with
  | mk result s' =>
    cases result with
    | ok out =>
      obtain ⟨info, -, hid, hinfo, htitle⟩ := loadMeta_eq_ok (t := t) hresult hcall
      intro _
      rw [hid]
      exact ⟨info, hinfo, htitle⟩
    | error e =>
      obtain rfl | ⟨hid, f, hf, hvalid⟩ := loadMeta_eq_error hresult
      · exact hs.cons
      · intro hcached
        rcases hclean with hzero | hfiles
        · exact absurd (hid.trans hzero) hcached
        · exact absurd (hfiles f hf) hvalid

lemma CacheOfTitle.step (hs : CacheOfTitle config t s) (hclean : CleanCall config s call) :
    CacheOfTitle config (call :: t) (loaderStep config s call).2 := by
  cases call with
  | loadMeta titleId answers => exact hs.loadMeta hclean ⟨rfl, rfl⟩
  | loadMetaFromCache titleId answers =>
    rw [loaderStep, loadMetaFromCache]
    split
    · next hid => exact hs.loadMeta (hclean.2 hid) ⟨rfl, rfl⟩
    · exact hs.cons
  | invalidateMetaCache => exact fun hzero => absurd rfl hzero

lemma LoaderRun.cacheOfTitle (h : LoaderRun config (CleanCall config) t s) : CacheOfTitle config t s := by
  induction h with
  | start => exact fun hzero => absurd rfl hzero
  | call _ hclean ih => exact ih.step hclean

end Runs

/-- In a run in which no file that is opened fails to load while a title is cached, `LoadMetaFromCache`
returns a `Meta` that was parsed from a file of its title, and the buffer has that file. -/
theorem cached_meta_of_title (config : LoaderConfig) (t : List LoaderCall) (s s' : LoaderState) (titleId : Nat)
    (answers : LoadAnswers) (out : Option Meta) (h : LoaderRun config (CleanCall config) t s)
    (hcall : CleanCall config s (.loadMetaFromCache titleId answers))
    (hload : loadMetaFromCache config s titleId answers = (.ok out, s')) :
    ∃ info, out = some info ∧
      OfTitle config (.loadMetaFromCache titleId answers :: t) titleId info s'.metaCache.buffer := by
  rw [loadMetaFromCache] at hload
  split at hload
  · have hloads : LoaderCall.Loads titleId answers (.loadMetaFromCache titleId answers) := ⟨rfl, rfl⟩
    obtain ⟨info, hout, -, -, htitle⟩ := loadMeta_eq_ok hload hloads
    exact ⟨info, hout, htitle⟩
  · next hid =>
    cases hload
    have hid := not_not.mp hid
    obtain ⟨info, hinfo, htitle⟩ := h.cacheOfTitle (hid.trans_ne hcall.1)
    rw [hid] at htitle
    exact ⟨info, hinfo, htitle.cons⟩

section Example

/-- The example is the file of a title. -/
def exampleAnswers : LoadAnswers := ⟨.ok ⟨exampleNpdm, 0x300⟩, false, .error 0⟩

/-- A file of one byte. -/
def brokenAnswers : LoadAnswers := ⟨.ok ⟨[0], 1⟩, false, .error 0⟩

lemma exampleAnswers_load (s : LoaderState) (titleId : Nat) :
    ∃ s', loadMeta exampleConfig s titleId exampleAnswers = (.ok (some exampleMeta), s') ∧
      s'.cachedTitleId = titleId := by
  have hlen := exampleNpdm_length
  have hparse := exampleNpdm_parse
  rw [← hlen] at hparse
  exact loadMeta_of_parse rfl (hlen.trans_le (by decide)) (hlen.trans_ne (by decide)) hlen.le hparse

lemma brokenAnswers_load (s : LoaderState) (titleId : Nat) :
    ∃ s', loadMeta exampleConfig s titleId brokenAnswers = (.error .invalidMeta, s') ∧
      s'.cachedTitleId = s.cachedTitleId ∧ s'.metaCache.info = none := by
  refine ⟨{ s with metaCache := s.metaCache.fread ⟨[0], 1⟩ (by decide) }, ?_, rfl, rfl⟩
  rfl

end Example

/-- Title 1 is loaded, and then returned from the cache. -/
theorem cached_meta_of_title_hit :
    ∃ t s out info, LoaderRun exampleConfig (CleanCall exampleConfig) t s ∧ s.cachedTitleId = 1 ∧
      (loadMetaFromCache exampleConfig s 1 exampleAnswers).1 = .ok out ∧ out = some info ∧
      OfTitle exampleConfig (.loadMetaFromCache 1 exampleAnswers :: t) 1 info
        (loadMetaFromCache exampleConfig s 1 exampleAnswers).2.metaCache.buffer := by
  obtain ⟨s, hload, hid⟩ := exampleAnswers_load loaderStart 1
  have hstep : (loaderStep exampleConfig loaderStart (.loadMeta 1 exampleAnswers)).2 = s := by
    rw [loaderStep, hload]
  have hclean : CleanCall exampleConfig loaderStart (.loadMeta 1 exampleAnswers) := .inl rfl
  have hrun : LoaderRun exampleConfig (CleanCall exampleConfig) [.loadMeta 1 exampleAnswers] s :=
    hstep ▸ LoaderRun.call .start hclean
  have hhit : loadMetaFromCache exampleConfig s 1 exampleAnswers = (.ok s.metaCache.info, s) :=
    if_neg (not_not.mpr hid)
  have hcall : CleanCall exampleConfig s (.loadMetaFromCache 1 exampleAnswers) :=
    ⟨by decide, fun hne => absurd hid hne⟩
  obtain ⟨info, hout, htitle⟩ := cached_meta_of_title exampleConfig _ s s 1 exampleAnswers _ hrun hcall hhit
  refine ⟨_, s, _, info, hrun, hid, congrArg Prod.fst hhit, hout, ?_⟩
  rw [hhit]
  exact htitle

/-- Title 1 is loaded, and then a file of title 2 that is too short. The cache has no `Meta` any more, but
`LoadMetaFromCache` returns what it has for title 1. -/
theorem cached_meta_lost :
    ∃ t s, LoaderRun exampleConfig (fun _ _ => True) t s ∧
      t = [.loadMeta 2 brokenAnswers, .loadMeta 1 exampleAnswers] ∧
      (loadMetaFromCache exampleConfig s 1 exampleAnswers).1 = .ok none := by
  obtain ⟨s₁, hload, hid⟩ := exampleAnswers_load loaderStart 1
  obtain ⟨s₂, hbroken, hid₂, hinfo⟩ := brokenAnswers_load s₁ 2
  have hstep : (loaderStep exampleConfig loaderStart (.loadMeta 1 exampleAnswers)).2 = s₁ := by
    rw [loaderStep, hload]
  have hstep₂ : (loaderStep exampleConfig s₁ (.loadMeta 2 brokenAnswers)).2 = s₂ := by
    rw [loaderStep, hbroken]
  have hrun : LoaderRun exampleConfig (fun _ _ => True) [.loadMeta 1 exampleAnswers] s₁ :=
    hstep ▸ LoaderRun.call .start trivial
  have hrun₂ : LoaderRun exampleConfig (fun _ _ => True)
      [.loadMeta 2 brokenAnswers, .loadMeta 1 exampleAnswers] s₂ :=
    hstep₂ ▸ LoaderRun.call hrun trivial
  refine ⟨_, s₂, hrun₂, rfl, ?_⟩
  rw [loadMetaFromCache, if_neg (not_not.mpr (hid₂.trans hid)), hinfo]

end RajNX.Loader
