import RajNX.Creport.ModuleSearch

/-!
# The modules of all threads

The modules that are found from a list of addresses are those of the groups seen so far, in the order in which they
were seen and as far as there is room (`Records`). A group that is seen again is found to be there only by its first
region: if that is not executable, or goes to the end of the space, then the group is taken down again.
-/

namespace RajNX.Creport

open BlockWalk CString Loop Fallible

/-- The last address of a range, of which the end wraps around at the end of the space. -/
def lastAddress (range : Nat × Nat) : Nat := (range.2 + 2 ^ 64 - 1) % 2 ^ 64

/-- One of two ranges ends before the other starts. -/
def RangesApart (range range' : Nat × Nat) : Prop := lastAddress range < range'.1 ∨ lastAddress range' < range.1

instance (range range' : Nat × Nat) : Decidable (RangesApart range range') := inferInstanceAs (Decidable (_ ∨ _))

/-- The addresses that are read of a thread. -/
def ThreadInfo.addresses (thread : ThreadInfo) : List Nat := thread.pc :: thread.lr :: thread.stack_trace

namespace DebugProcess

/-- The search ends inside of its buffers, with modules that the array has room for and that are apart. -/
def FindsApart (p : DebugProcess) (threads : List ThreadInfo) : Prop :=
  ∃ modules, p.findModules threads = .ok modules ∧ modules.length ≤ moduleCountMax ∧
    (modules.map ModuleInfo.range).Pairwise RangesApart

/-- The executable regions of some groups. -/
def codeOf (p : DebugProcess) (groups : List MemoryInfo) : List MemoryInfo :=
  groups.flatMap fun u => p.codeBlocks u.stop

/-- The first region of a group is executable, and does not go to the end of the space. -/
def StartsWithCode (p : DebugProcess) (u : MemoryInfo) : Prop :=
  ∃ mi, p.svcQueryDebugProcessMemory u.stop = some mi ∧ mi.perm = .rx ∧ mi.stop < 2 ^ 64

/-- With some groups seen, addresses after each other lead nowhere, to a group that was not seen whose paths end, as
far as there is room, or to one that was seen and starts with code, has no code, or for which no room is left. -/
inductive Clean (p : DebugProcess) : List MemoryInfo → List Nat → Prop
  | nil {seen} : Clean p seen []
  | nowhere {seen guess guesses} : (∀ u, ¬p.FindsGroup guess u) → Clean p seen guesses → Clean p seen (guess :: guesses)
  | new {seen guess guesses u} : p.FindsGroup guess u → u ∉ seen →
      (∀ mi ∈ (p.codeBlocks u.stop).take (moduleCountMax - (p.codeOf seen).length), ¬p.LongPath mi) →
      Clean p (seen ++ [u]) guesses → Clean p seen (guess :: guesses)
  | again {seen guess guesses u} : p.FindsGroup guess u → u ∈ seen →
      p.StartsWithCode u ∨ p.codeBlocks u.stop = [] ∨ moduleCountMax ≤ (p.codeOf seen).length →
      Clean p seen guesses → Clean p seen (guess :: guesses)

variable {p : DebugProcess} {mi mi' u u' : MemoryInfo} {m m' : ModuleInfo} {modules : List ModuleInfo}
  {seen : List MemoryInfo} {guess : Nat} {guesses : List Nat}

/-! ## Groups -/

lemma FindsGroup.unmapped_region (h : p.FindsGroup guess u) : p.blocks.Known u ∧ halts u := by
  obtain ⟨_, _, _, _, _, hleads⟩ := h
  obtain ⟨hknown, htype⟩ := hleads.unmapped_region
  exact ⟨hknown, decide_eq_true (.inl htype)⟩

lemma mem_codeBlocks {a : Nat} (h : mi ∈ p.codeBlocks a) : mi ∈ p.blocks.walk 64 halts a ∧ mi.perm = .rx := by
  rw [codeBlocks, List.mem_filter, decide_eq_true_iff] at h
  exact h

section Lawful

variable (hp : p.Lawful)
include hp

lemma Lawful.eq_of_stop_eq (hu : p.blocks.Known u) (hu' : p.blocks.Known u') (h : u.stop = u'.stop) : u = u' := by
  have hlt := hp.addr_lt_stop hu
  have hlt' := hp.addr_lt_stop hu'
  obtain heq | hbefore | hafter := hp.blocks.apart hu hu'
  · exact heq
  · have hle : u.stop ≤ u'.addr := hbefore
    omega
  · have hle : u'.stop ≤ u.addr := hafter
    omega

/-- Regions that are apart are taken down with ranges that are apart. -/
lemma Lawful.range_apart (hmi : p.blocks.Known mi) (hmi' : p.blocks.Known mi')
    (h : mi.stop ≤ mi'.addr ∨ mi'.stop ≤ mi.addr) : RangesApart mi.range mi'.range := by
  have hlt := hp.addr_lt_stop hmi
  have hle := hp.stop_le hmi
  have hlt' := hp.addr_lt_stop hmi'
  have hle' := hp.stop_le hmi'
  unfold RangesApart lastAddress MemoryInfo.range
  dsimp only
  omega

lemma Lawful.not_range_apart (hmi : p.blocks.Known mi) : ¬RangesApart mi.range mi.range := by
  have hlt := hp.addr_lt_stop hmi
  have hle := hp.stop_le hmi
  unfold RangesApart lastAddress MemoryInfo.range
  dsimp only
  omega

/-- Executable regions of groups that are all different are apart. -/
lemma Lawful.codeOf_pairwise (hfound : ∀ u ∈ seen, p.blocks.Known u ∧ halts u) (hnodup : seen.Nodup) :
    (p.codeOf seen).Pairwise fun mi mi' => mi.stop ≤ mi'.addr ∨ mi'.stop ≤ mi.addr := by
  rw [codeOf, List.pairwise_flatMap]
  constructor
  · intro u hu
    have hwalk : (p.blocks.walk 64 halts u.stop).Pairwise fun b b' => p.blocks.stop b ≤ p.blocks.start b' :=
      hp.blocks.walk_pairwise ⟨u, (hfound u hu).1, rfl⟩
    exact (hwalk.sublist List.filter_sublist).imp .inl
  · refine hnodup.imp_of_mem fun {u u'} hu hu' hne mi hmi mi' hmi' => ?_
    obtain ⟨hknown, hhalts⟩ := hfound u hu
    obtain ⟨hknown', hhalts'⟩ := hfound u' hu'
    have hstop : u.stop ≠ u'.stop := fun heq => hne (hp.eq_of_stop_eq hknown hknown' heq)
    exact hp.blocks.walk_apart hknown hknown' hhalts hhalts' hstop (mem_codeBlocks hmi).1 (mem_codeBlocks hmi').1

end Lawful

/-! ## Records -/

/-- The modules are those of the groups seen, as far as there is room. -/
structure Records (p : DebugProcess) (seen : List MemoryInfo) (modules : List ModuleInfo) : Prop where
  found : ∀ u ∈ seen, p.blocks.Known u ∧ halts u
  nodup : seen.Nodup
  ranges : modules.map ModuleInfo.range = ((p.codeOf seen).take moduleCountMax).map MemoryInfo.range

lemma records_nil : p.Records [] [] := ⟨fun _ hu => absurd hu List.not_mem_nil, List.nodup_nil, rfl⟩

lemma Records.length_eq (h : p.Records seen modules) : modules.length = min moduleCountMax (p.codeOf seen).length := by
  have hlen := congrArg List.length h.ranges
  rwa [List.length_map, List.length_map, List.length_take] at hlen

lemma known_of_mem_codeOf (hmi : mi ∈ p.codeOf seen) : p.blocks.Known mi := by
  obtain ⟨u, _, hmi⟩ := List.mem_flatMap.mp hmi
  exact Blocks.known_of_mem_walk (mem_codeBlocks hmi).1

/-- A module covers an address if it is taken down for a region that does. -/
def Covered (modules : List ModuleInfo) (base_address : Nat) : Prop :=
  ∃ m ∈ modules, m.start_address ≤ base_address ∧ base_address < m.end_address

lemma Records.covered_iff (h : p.Records seen modules) (base_address : Nat) :
    Covered modules base_address ↔
      ∃ mi ∈ (p.codeOf seen).take moduleCountMax, mi.addr ≤ base_address ∧ base_address < mi.stop % 2 ^ 64 := by
  have hrange : Covered modules base_address ↔
      ∃ r ∈ modules.map ModuleInfo.range, r.1 ≤ base_address ∧ base_address < r.2 := by
    simp only [Covered, List.mem_map, exists_exists_and_eq_and]
    rfl
  rw [hrange, h.ranges]
  simp only [List.mem_map, exists_exists_and_eq_and]
  rfl

section Lawful

variable (hp : p.Lawful)
include hp

lemma Records.apart (h : p.Records seen modules) : (modules.map ModuleInfo.range).Pairwise RangesApart := by
  rw [h.ranges, List.pairwise_map]
  have hpair := (hp.codeOf_pairwise h.found h.nodup).sublist (List.take_sublist moduleCountMax _)
  refine hpair.imp_of_mem fun {mi mi'} hmi hmi' hapart => ?_
  have hknown := known_of_mem_codeOf (List.mem_of_mem_take hmi)
  exact hp.range_apart hknown (known_of_mem_codeOf (List.mem_of_mem_take hmi')) hapart

/-- The start of a group is covered only by the first region of that group. -/
lemma Records.startsWithCode_of_covered (h : p.Records seen modules) (hu : p.FindsGroup guess u)
    (hcovered : Covered modules u.stop) : u ∈ seen ∧ p.StartsWithCode u := by
  obtain ⟨hknown, hhalts⟩ := hu.unmapped_region
  obtain ⟨mi, hmi, hle, hlt⟩ := (h.covered_iff u.stop).mp hcovered
  obtain ⟨u', hu', hmi⟩ := List.mem_flatMap.mp (List.mem_of_mem_take hmi)
  obtain ⟨hknown', hhalts'⟩ := h.found u' hu'
  obtain ⟨hwalk, hperm⟩ := mem_codeBlocks hmi
  have hmi := Blocks.known_of_mem_walk hwalk
  have hstart : u'.stop ≤ mi.addr := hp.blocks.le_start_of_mem_walk ⟨u', hknown', rfl⟩ hwalk
  have hpos := hp.addr_lt_stop hmi
  have hend := hp.stop_le hmi
  have heq : u' = u := by
    refine hp.eq_of_stop_eq hknown' hknown ((hstart.trans hle).antisymm (Nat.not_lt.mp fun hbefore => ?_))
    have hstop : mi.stop ≤ u.stop := hp.blocks.stop_le_of_mem_walk hknown hhalts ⟨u', hknown', rfl⟩ hbefore hwalk
    omega
  rw [heq] at hu' hstart hwalk
  exact ⟨hu', mi, hp.blocks.query_of_mem_walk ⟨u, hknown, rfl⟩ hwalk (hle.antisymm hstart), hperm, by omega⟩

/-- The first region of a group, if it is executable and there is room, is taken down and covers the start. -/
lemma Records.covered_of_startsWithCode (h : p.Records seen modules) (hu : u ∈ seen) (hcode : p.StartsWithCode u)
    (hroom : (p.codeOf seen).length < moduleCountMax) : Covered modules u.stop := by
  obtain ⟨mi, hquery, hperm, hend⟩ := hcode
  obtain ⟨hknown, -⟩ := h.found u hu
  have hstart : mi.addr = u.stop := hp.blocks.start_eq ⟨u, hknown, rfl⟩ hquery
  have hlt := hp.addr_lt_stop ⟨_, hquery⟩
  have hmem : mi ∈ p.codeBlocks u.stop :=
    List.mem_filter.mpr ⟨Blocks.mem_walk_of_query hquery, decide_eq_true hperm⟩
  rw [h.covered_iff, List.take_of_length_le hroom.le]
  refine ⟨mi, List.mem_flatMap.mpr ⟨u, hu, hmem⟩, hstart.le, ?_⟩
  rw [Nat.mod_eq_of_lt hend]
  omega

end Lawful

/-! ## Steps -/

lemma tryAddModule_none (h : p.tryFindModule guess = .ok none) : p.tryAddModule modules guess = .ok modules := by
  rw [tryAddModule, h]
  rfl

lemma tryAddModule_covered (h : p.tryFindModule guess = .ok (some u.stop)) (hcovered : Covered modules u.stop) :
    p.tryAddModule modules guess = .ok modules := by
  rw [tryAddModule, h]
  exact if_pos (by simpa [Covered] using hcovered)

lemma tryAddModule_add (h : p.tryFindModule guess = .ok (some u.stop)) (hcovered : ¬Covered modules u.stop) :
    p.tryAddModule modules guess = p.addAll modules (p.blocks.walk 64 halts u.stop) := by
  rw [tryAddModule, h, ← addModules_eq]
  exact if_neg (by simpa [Covered] using hcovered)

lemma addAll_of_no_code (h : p.codeBlocks u.stop = []) :
    p.addAll modules (p.blocks.walk 64 halts u.stop) = .ok modules := by
  have hnil : (p.blocks.walk 64 halts u.stop).filter (·.perm = .rx) = [] := h
  rw [addAll, hnil, List.take_nil, List.mapM_nil]
  exact congrArg Except.ok (List.append_nil modules)

lemma isPrefix_of_addAll {blocks : List MemoryInfo} {ms : List ModuleInfo} (h : p.addAll modules blocks = .ok ms) :
    modules <+: ms := by
  rw [addAll] at h
  cases hmap : ((blocks.filter (·.perm = .rx)).take (moduleCountMax - modules.length)).mapM p.moduleOf with
  | error e =>
    rw [hmap] at h
    cases h
  | ok new =>
    rw [hmap] at h
    cases h
    exact List.prefix_append _ _

section Lawful

variable (hp : p.Lawful)
include hp

variable {ms : List ModuleInfo}

/-- Modules are only put behind others. -/
lemma Lawful.isPrefix_of_tryAddModule (h : p.tryAddModule modules guess = .ok ms) : modules <+: ms := by
  obtain ⟨hnone, -⟩ | ⟨u, -, hfind⟩ := hp.tryFindModule_cases guess
  · rw [tryAddModule_none hnone] at h
    cases h
    exact List.prefix_refl _
  · by_cases hcovered : Covered modules u.stop
    · rw [tryAddModule_covered hfind hcovered] at h
      cases h
      exact List.prefix_refl _
    · rw [tryAddModule_add hfind hcovered] at h
      exact isPrefix_of_addAll h

lemma Lawful.isPrefix_of_foldlM (h : guesses.foldlM p.tryAddModule modules = .ok ms) : modules <+: ms := by
  induction guesses generalizing modules with
  | nil =>
    cases h
    exact List.prefix_refl _
  | cons guess guesses ih =>
    rw [List.foldlM_cons] at h
    obtain ⟨ms', hstep, hrest⟩ := bind_eq_ok h
    exact (hp.isPrefix_of_tryAddModule hstep).trans (ih hrest)

/-- Regions with paths that end are all taken down. -/
lemma Lawful.addAll_ok (h : ∀ mi ∈ (p.codeBlocks u.stop).take (moduleCountMax - modules.length), ¬p.LongPath mi) :
    ∃ new, p.addAll modules (p.blocks.walk 64 halts u.stop) = .ok (modules ++ new) ∧
      new.map ModuleInfo.range =
        ((p.codeBlocks u.stop).take (moduleCountMax - modules.length)).map MemoryInfo.range := by
  obtain ⟨new, hnew, hrange⟩ := mapM_eq_ok fun mi hmi => hp.moduleOf_ok (h mi hmi)
  exact ⟨new, congrArg _ hnew, hrange⟩

/-- A region with a path that does not end is not taken down. -/
lemma Lawful.not_longPath_of_addAll (h : p.addAll modules (p.blocks.walk 64 halts u.stop) = .ok ms) :
    ∀ mi ∈ (p.codeBlocks u.stop).take (moduleCountMax - modules.length), ¬p.LongPath mi := by
  have hadd : (modules ++ ·) <$> ((p.codeBlocks u.stop).take (moduleCountMax - modules.length)).mapM p.moduleOf =
      .ok ms := h
  intro mi hmi hlong
  cases hmap : ((p.codeBlocks u.stop).take (moduleCountMax - modules.length)).mapM p.moduleOf with
  | error e =>
    rw [hmap] at hadd
    cases hadd
  | ok new =>
    obtain ⟨m, hm⟩ := exists_of_mapM_eq_ok hmap mi hmi
    exact nomatch hm.symm.trans (hp.moduleOf_outside hlong)

/-- A group that was not seen is taken down, as far as there is room. -/
lemma Records.step_new (h : p.Records seen modules) (hu : p.FindsGroup guess u) (hseen : u ∉ seen)
    (hfind : p.tryFindModule guess = .ok (some u.stop))
    (hpaths : ∀ mi ∈ (p.codeBlocks u.stop).take (moduleCountMax - (p.codeOf seen).length), ¬p.LongPath mi) :
    ∃ ms, p.tryAddModule modules guess = .ok ms ∧ p.Records (seen ++ [u]) ms := by
  have hroom : moduleCountMax - modules.length = moduleCountMax - (p.codeOf seen).length := by
    rw [h.length_eq]
    omega
  have hcovered : ¬Covered modules u.stop := fun hcovered =>
    hseen (h.startsWithCode_of_covered hp hu hcovered).1
  obtain ⟨new, hadd, hranges⟩ := hp.addAll_ok (hroom ▸ hpaths)
  refine ⟨modules ++ new, (tryAddModule_add hfind hcovered).trans hadd, ?_, ?_, ?_⟩
  · intro v hv
    obtain hv | hv := List.mem_append.mp hv
    · exact h.found v hv
    · rw [List.mem_singleton.mp hv]
      exact hu.unmapped_region
  · exact List.Nodup.append h.nodup (List.nodup_singleton u) (List.disjoint_singleton.mpr hseen)
  · have hcode : p.codeOf (seen ++ [u]) = p.codeOf seen ++ p.codeBlocks u.stop := by
      rw [codeOf, List.flatMap_append, List.flatMap_singleton, codeOf]
    rw [List.map_append, h.ranges, hranges, hroom, hcode, List.take_append, List.map_append]

/-- A group that was seen is not taken down again if it starts with code, has none, or there is no room. -/
lemma Records.step_again (h : p.Records seen modules) (hseen : u ∈ seen)
    (hfind : p.tryFindModule guess = .ok (some u.stop))
    (hok : p.StartsWithCode u ∨ p.codeBlocks u.stop = [] ∨ moduleCountMax ≤ (p.codeOf seen).length) :
    p.tryAddModule modules guess = .ok modules := by
  by_cases hcovered : Covered modules u.stop
  · exact tryAddModule_covered hfind hcovered
  · rw [tryAddModule_add hfind hcovered]
    obtain hcode | hnone | hfull := hok
    · refine addAll_full (Nat.not_lt.mp fun hroom => hcovered ?_)
      have hlen := h.length_eq
      exact h.covered_of_startsWithCode hp hseen hcode (by omega)
    · exact addAll_of_no_code hnone
    · exact addAll_full (by rw [h.length_eq, Nat.min_eq_left hfull])

/-- Otherwise it is taken down twice, or the search stops. -/
lemma Records.step_twice (h : p.Records seen modules) (hu : p.FindsGroup guess u) (hseen : u ∈ seen)
    (hfind : p.tryFindModule guess = .ok (some u.stop)) (hcode : ¬p.StartsWithCode u)
    (hsome : p.codeBlocks u.stop ≠ []) (hroom : (p.codeOf seen).length < moduleCountMax)
    (hstep : p.tryAddModule modules guess = .ok ms) : ¬(ms.map ModuleInfo.range).Pairwise RangesApart := by
  have hcovered : ¬Covered modules u.stop := fun hcovered =>
    hcode (h.startsWithCode_of_covered hp hu hcovered).2
  have hlen : modules.length = (p.codeOf seen).length := by
    rw [h.length_eq, Nat.min_eq_right hroom.le]
  rw [tryAddModule_add hfind hcovered] at hstep
  obtain ⟨new, hadd, hranges⟩ := hp.addAll_ok (hp.not_longPath_of_addAll hstep)
  rw [hadd] at hstep
  cases hstep
  obtain ⟨mi, rest, hmi⟩ := List.exists_cons_of_ne_nil hsome
  obtain ⟨n, hn⟩ : ∃ n, moduleCountMax - modules.length = n + 1 := ⟨_, (Nat.succ_pred (by omega)).symm⟩
  have hmem : mi ∈ p.codeOf seen := List.mem_flatMap.mpr ⟨u, hseen, hmi ▸ List.mem_cons_self⟩
  have hold : mi.range ∈ modules.map ModuleInfo.range := by
    rw [h.ranges, List.take_of_length_le hroom.le]
    exact List.mem_map_of_mem hmem
  have hnew : mi.range ∈ new.map ModuleInfo.range := by
    rw [hranges, hmi, hn, List.take_succ_cons]
    exact List.mem_cons_self
  rw [List.map_append, List.pairwise_append]
  exact fun hpair => hp.not_range_apart (known_of_mem_codeOf hmem) (hpair.2.2 _ hold _ hnew)

end Lawful

/-! ## Runs -/

lemma clean_cons_nowhere (hno : ∀ u, ¬p.FindsGroup guess u) :
    p.Clean seen (guess :: guesses) ↔ p.Clean seen guesses := by
  constructor
  · intro h
    cases h with
    | nowhere _ h => exact h
    | new hu _ _ _ => exact absurd hu (hno _)
    | again hu _ _ _ => exact absurd hu (hno _)
  · exact .nowhere hno

lemma clean_cons_new (hu : p.FindsGroup guess u) (hseen : u ∉ seen) :
    p.Clean seen (guess :: guesses) ↔
      (∀ mi ∈ (p.codeBlocks u.stop).take (moduleCountMax - (p.codeOf seen).length), ¬p.LongPath mi) ∧
        p.Clean (seen ++ [u]) guesses := by
  constructor
  · intro h
    cases h with
    | nowhere hno _ => exact absurd hu (hno u)
    | new hu' _ hpaths h =>
      rw [hu.unique hu']
      exact ⟨hpaths, h⟩
    | again hu' hseen' _ _ => exact absurd (hu.unique hu' ▸ hseen') hseen
  · exact fun ⟨hpaths, h⟩ => .new hu hseen hpaths h

lemma clean_cons_again (hu : p.FindsGroup guess u) (hseen : u ∈ seen) :
    p.Clean seen (guess :: guesses) ↔
      (p.StartsWithCode u ∨ p.codeBlocks u.stop = [] ∨ moduleCountMax ≤ (p.codeOf seen).length) ∧
        p.Clean seen guesses := by
  constructor
  · intro h
    cases h with
    | nowhere hno _ => exact absurd hu (hno u)
    | new hu' hseen' _ _ => exact absurd hseen (hu.unique hu' ▸ hseen')
    | again hu' _ hok h =>
      rw [hu.unique hu']
      exact ⟨hok, h⟩
  · exact fun ⟨hok, h⟩ => .again hu hseen hok h

/-- A search ends inside of its buffers with modules that are apart. -/
def EndsApart (p : DebugProcess) (modules : List ModuleInfo) (guesses : List Nat) : Prop :=
  ∃ ms, guesses.foldlM p.tryAddModule modules = .ok ms ∧ ms.length ≤ moduleCountMax ∧
    (ms.map ModuleInfo.range).Pairwise RangesApart

lemma endsApart_cons {ms : List ModuleInfo} (h : p.tryAddModule modules guess = .ok ms) :
    p.EndsApart modules (guess :: guesses) ↔ p.EndsApart ms guesses := by
  rw [EndsApart, List.foldlM_cons, h]
  rfl

section Lawful

variable (hp : p.Lawful)
include hp

lemma Lawful.not_endsApart_cons (h : ∀ ms, p.tryAddModule modules guess = .ok ms →
    ¬(ms.map ModuleInfo.range).Pairwise RangesApart) : ¬p.EndsApart modules (guess :: guesses) := by
  rintro ⟨ms', hrun, -, hapart⟩
  rw [List.foldlM_cons] at hrun
  obtain ⟨ms, hstep, hrest⟩ := bind_eq_ok hrun
  exact h ms hstep (hapart.sublist ((hp.isPrefix_of_foldlM hrest).map _).sublist)

lemma Records.endsApart_iff (h : p.Records seen modules) : p.EndsApart modules guesses ↔ p.Clean seen guesses := by
  induction guesses generalizing seen modules with
  | nil =>
    have hlen : modules.length ≤ moduleCountMax := by
      rw [h.length_eq]
      exact Nat.min_le_left _ _
    exact iff_of_true ⟨modules, rfl, hlen, h.apart hp⟩ .nil
  | cons guess guesses ih =>
    obtain ⟨hnone, hno⟩ | ⟨u, hu, hfind⟩ := hp.tryFindModule_cases guess
    · rw [endsApart_cons (tryAddModule_none hnone), clean_cons_nowhere hno]
      exact ih h
    by_cases hseen : u ∈ seen
    · rw [clean_cons_again hu hseen]
      by_cases hok : p.StartsWithCode u ∨ p.codeBlocks u.stop = [] ∨ moduleCountMax ≤ (p.codeOf seen).length
      · rw [endsApart_cons (h.step_again hp hseen hfind hok), and_iff_right hok]
        exact ih h
      · refine iff_of_false (hp.not_endsApart_cons fun ms hstep => ?_) fun hclean => hok hclean.1
        rw [not_or, not_or, Nat.not_le] at hok
        exact h.step_twice hp hu hseen hfind hok.1 hok.2.1 hok.2.2 hstep
    · rw [clean_cons_new hu hseen]
      by_cases hpaths :
        ∀ mi ∈ (p.codeBlocks u.stop).take (moduleCountMax - (p.codeOf seen).length), ¬p.LongPath mi
      · obtain ⟨ms, hstep, hrecords⟩ := h.step_new hp hu hseen hfind hpaths
        rw [endsApart_cons hstep, and_iff_right hpaths]
        exact ih hrecords
      · refine iff_of_false (hp.not_endsApart_cons fun ms hstep => ?_) fun hclean => hpaths hclean.1
        refine absurd ?_ hpaths
        have hcovered : ¬Covered modules u.stop := fun hcovered =>
          hseen (h.startsWithCode_of_covered hp hu hcovered).1
        rw [tryAddModule_add hfind hcovered] at hstep
        have hroom : moduleCountMax - modules.length = moduleCountMax - (p.codeOf seen).length := by
          rw [h.length_eq]
          omega
        rw [← hroom]
        exact hp.not_longPath_of_addAll hstep

end Lawful

lemma findModules_eq (threads : List ThreadInfo) :
    p.findModules threads = (threads.flatMap ThreadInfo.addresses).foldlM p.tryAddModule [] := by
  have hthread : ∀ modules (thread : ThreadInfo),
      p.findModulesFromThreadInfo modules thread = thread.addresses.foldlM p.tryAddModule modules := by
    intro modules thread
    rw [findModulesFromThreadInfo, ThreadInfo.addresses, List.foldlM_cons]
    simp only [List.foldlM_cons]
  rw [findModules]
  generalize ([] : List ModuleInfo) = modules
  induction threads generalizing modules with
  | nil => rfl
  | cons thread threads ih =>
    rw [List.foldlM_cons, List.flatMap_cons, List.foldlM_append, hthread]
    congr 1
    exact funext ih

/-! ## Processes of listed regions -/

/-- A process of some regions whose memory cannot be read. -/
def ofRegions (regions : List MemoryInfo) : DebugProcess where
  svcQueryDebugProcessMemory a := regions.find? fun mi => mi.addr ≤ a ∧ a < mi.stop
  svcReadDebugProcessMemory _ _ := none

section Regions

variable {regions : List MemoryInfo}

lemma ofRegions_lawful (hfit : ∀ mi ∈ regions, mi.stop ≤ 2 ^ 64 ∧ 4 ∣ mi.addr)
    (hpair : regions.Pairwise fun mi mi' => mi.stop ≤ mi'.addr) : (ofRegions regions).Lawful := by
  have hmem : ∀ {mi}, (ofRegions regions).blocks.Known mi → mi ∈ regions :=
    fun ⟨_, h⟩ => List.mem_of_find?_eq_some h
  have hin : ∀ {a mi}, (ofRegions regions).svcQueryDebugProcessMemory a = some mi → mi.addr ≤ a ∧ a < mi.stop := by
    intro a mi h
    have hfind : regions.find? (fun mi => mi.addr ≤ a ∧ a < mi.stop) = some mi := h
    simpa using List.find?_some hfind
  have hapart : regions.Pairwise fun mi mi' => mi.stop ≤ mi'.addr ∨ mi'.stop ≤ mi.addr := hpair.imp .inl
  have : Std.Symm fun mi mi' : MemoryInfo => mi.stop ≤ mi'.addr ∨ mi'.stop ≤ mi.addr := ⟨fun _ _ => Or.symm⟩
  refine ⟨⟨fun h => (hin h).1, fun h => (hin h).2, fun h => (hfit _ (hmem h)).1, fun {mi mi'} h h' => ?_⟩,
    fun h => (hfit _ (hmem ⟨_, h⟩)).2, nofun⟩
  by_cases heq : mi = mi'
  · exact .inl heq
  · exact .inr (hapart.forall (hmem h) (hmem h') heq)

lemma ofRegions_not_longPath : ¬(ofRegions regions).LongPath mi := by
  rintro ⟨_, _, _, _, hread, _⟩
  cases hread

end Regions

/-- The search from the addresses of all threads ends, inside of its buffers and with modules that are apart, just if
the addresses are clean. -/
theorem findModules_apart_iff (hp : p.Lawful) (threads : List ThreadInfo) :
    p.FindsApart threads ↔ p.Clean [] (threads.flatMap ThreadInfo.addresses) := by
  rw [FindsApart, findModules_eq]
  exact records_nil.endsApart_iff hp

/-- A page of code. -/
def codePage : MemoryInfo := ⟨0x2000, 0x1000, .mapped, .rx⟩

/-- The memory behind it. -/
def unmappedAbove : MemoryInfo := ⟨0x3000, 2 ^ 64 - 0x3000, .unmapped, .none⟩

/-- The memory before it. -/
def unmappedBelow : MemoryInfo := ⟨0, 0x2000, .unmapped, .none⟩

/-- Nothing but a page of code, to which both addresses of a thread lead. -/
theorem findModules_apart_iff_example :
    (ofRegions [unmappedBelow, codePage, unmappedAbove]).FindsApart [⟨0x2000, 0x2000, []⟩] := by
  have hp : (ofRegions [unmappedBelow, codePage, unmappedAbove]).Lawful := ofRegions_lawful (by decide) (by decide)
  have hfound : (ofRegions [unmappedBelow, codePage, unmappedAbove]).FindsGroup 0x2000 unmappedBelow :=
    ⟨codePage, codePage, by decide, by decide, rfl, .unmapped (by decide) (by decide) rfl⟩
  have hstarts : (ofRegions [unmappedBelow, codePage, unmappedAbove]).StartsWithCode unmappedBelow :=
    ⟨codePage, by decide, rfl, by decide⟩
  refine (findModules_apart_iff hp _).mpr ?_
  refine .new hfound List.not_mem_nil (fun _ _ => ofRegions_not_longPath) ?_
  exact .again hfound List.mem_cons_self (.inl hstarts) .nil

/-- The memory before a page of data. -/
def unmappedBelowData : MemoryInfo := ⟨0, 0x1000, .unmapped, .none⟩

/-- A page of data. -/
def dataPage : MemoryInfo := ⟨0x1000, 0x1000, .mapped, .rw⟩

/-- Data right before a page of code. -/
def dataThenCode : DebugProcess := ofRegions [unmappedBelowData, dataPage, codePage, unmappedAbove]

lemma dataThenCode_lawful : dataThenCode.Lawful := ofRegions_lawful (by decide) (by decide)

lemma dataThenCode_findsGroup : dataThenCode.FindsGroup 0x2000 unmappedBelowData := by
  have hdata : dataThenCode.LeadsTo dataPage unmappedBelowData := .unmapped (by decide) (by decide) rfl
  exact ⟨codePage, codePage, by decide, by decide, rfl, .mapped (by decide) (by decide) (by decide) hdata⟩

lemma dataThenCode_codeBlocks : dataThenCode.codeBlocks 0x1000 = [codePage] := by
  have hdata : dataThenCode.blocks.query 0x1000 = some dataPage := by decide
  have hcode : dataThenCode.blocks.query 0x2000 = some codePage := by decide
  have hend : dataThenCode.blocks.query 0x3000 = some unmappedAbove := by decide
  have hlast : dataThenCode.blocks.walk 64 halts 0x3000 = [unmappedAbove] := Blocks.walk_last hend (by decide)
  have hnext : dataThenCode.blocks.walk 64 halts 0x2000 = [codePage, unmappedAbove] := by
    rw [Blocks.walk_again hcode (by decide) (by decide)]
    exact congrArg _ hlast
  rw [codeBlocks, Blocks.walk_again hdata (by decide) (by decide)]
  exact congrArg (List.filter _) (congrArg _ hnext)

/-- Code right after data is taken down twice for a thread whose `pc` and `lr` are both in it. -/
theorem findModules_not_apart : dataThenCode.Lawful ∧ ¬dataThenCode.FindsApart [⟨0x2000, 0x2000, []⟩] := by
  refine ⟨dataThenCode_lawful, ?_⟩
  rw [FindsApart, findModules_eq]
  intro h
  have hfound := dataThenCode_findsGroup
  have hclean : dataThenCode.Clean [] [0x2000, 0x2000] := (records_nil.endsApart_iff dataThenCode_lawful).mp h
  rw [clean_cons_new hfound List.not_mem_nil, List.nil_append, clean_cons_again hfound List.mem_cons_self] at hclean
  have hcode : dataThenCode.codeOf [unmappedBelowData] = [codePage] := by
    rw [codeOf, List.flatMap_singleton]
    exact dataThenCode_codeBlocks
  rw [hcode] at hclean
  obtain ⟨mi, hquery, hperm, -⟩ | hnone | hfull := hclean.2.1
  · have hdata : dataThenCode.svcQueryDebugProcessMemory unmappedBelowData.stop = some dataPage := by decide
    rw [hdata] at hquery
    cases hquery
    cases hperm
  · exact List.cons_ne_nil _ _ (dataThenCode_codeBlocks.symm.trans hnone)
  · exact absurd hfull (by decide)

end DebugProcess

end RajNX.Creport
