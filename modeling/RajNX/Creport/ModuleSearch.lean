import RajNX.Creport.Modules
import RajNX.Lib.Fallible

/-!
# The search for modules

Modules of any list of threads. The search stays inside of its buffers unless a path fills its buffer without a
terminator. Groups of regions start behind unmapped regions (`LeadsTo`), so that groups do not overlap; that a group
was found before is told by a module that covers its start.
-/

namespace RajNX.Creport

open BlockWalk CString Loop Fallible

/-! ## Names and build ids -/

section Buffers

variable {buf path pages : List UInt8} {ofs n : Nat}

lemma bytesAt_ok (h : ofs + n ≤ buf.length) : bytesAt buf ofs n = .ok ((buf.drop ofs).take n) := if_pos h

lemma nameOffset_ok (h : ofs < path.length) : ∃ k ≤ path.length, nameOffset path ofs = .ok k := by
  induction ofs with
  | zero =>
    rw [nameOffset, List.getElem?_eq_getElem h]
    dsimp only
    split
    · exact ⟨_, h, rfl⟩
    · exact ⟨_, Nat.zero_le _, rfl⟩
  | succ ofs ih =>
    rw [nameOffset, List.getElem?_eq_getElem h]
    dsimp only
    split
    · exact ⟨_, h, rfl⟩
    · exact ih (Nat.lt_of_succ_lt h)

lemma nameOffset_outside (h : path.length ≤ ofs) : nameOffset path ofs = .error .outside := by
  cases ofs <;> rw [nameOffset, List.getElem?_eq_none h]

lemma copyName_ok (hlen : path.length = modulePathLengthMax) (h : n < modulePathLengthMax) :
    ∃ name, copyName path n = .ok name := by
  obtain ⟨k, hk, hofs⟩ := nameOffset_ok (hlen ▸ h)
  have hin : k + min moduleNameLengthMax (modulePathLengthMax - k) ≤ path.length := by omega
  rw [copyName, hofs]
  dsimp only [bind, Except.bind]
  rw [bytesAt_ok hin]
  exact ⟨_, rfl⟩

lemma copyName_outside (hlen : path.length = modulePathLengthMax) :
    copyName path modulePathLengthMax = .error .outside := by
  rw [copyName, nameOffset_outside hlen.le]
  rfl

lemma findBuildId_ok (h : ofs + gnuSignature.length + moduleBuildIdLength ≤ pages.length) :
    ∃ id, findBuildId pages ofs = .ok id := by
  induction ofs with
  | zero =>
    rw [findBuildId, bytesAt_ok (by omega), bytesAt_ok (by omega)]
    dsimp only [bind, Except.bind]
    split
    · exact ⟨_, rfl⟩
    · exact ⟨_, rfl⟩
  | succ ofs ih =>
    rw [findBuildId, bytesAt_ok (by omega), bytesAt_ok (by omega)]
    dsimp only [bind, Except.bind]
    split
    · exact ⟨_, rfl⟩
    · exact ih (by omega)

end Buffers

/-- The path of a module is valid, and fills its buffer without a terminator. -/
def DebugProcess.LongPath (p : DebugProcess) (mi : MemoryInfo) : Prop :=
  ∃ ro bytes, p.svcQueryDebugProcessMemory (mi.stop % 2 ^ 64) = some ro ∧ ro.perm = .r ∧
    p.svcReadDebugProcessMemory (mi.stop % 2 ^ 64) roDataStartSize = some bytes ∧
    (mi.addr + Fields.fieldAt 8 bytes 0) % 2 ^ 64 ≠ ro.stop % 2 ^ 64 ∧ Fields.fieldAt 4 bytes 0 = 0 ∧
    Fields.fieldAt 4 bytes 4 = modulePathLengthMax ∧ 0 ∉ bytes.drop 8

/-- The addresses of a module as it is taken down: the first one and the end. -/
def ModuleInfo.range (m : ModuleInfo) : Nat × Nat := (m.start_address, m.end_address)

/-- The addresses that are taken down for a region. -/
def MemoryInfo.range (mi : MemoryInfo) : Nat × Nat := (mi.addr, mi.stop % 2 ^ 64)

namespace DebugProcess

variable {p : DebugProcess} {mi mi' u u' : MemoryInfo}

/-- The search comes from a region to an unmapped one, by regions that are mapped. -/
inductive LeadsTo (p : DebugProcess) : MemoryInfo → MemoryInfo → Prop
  | unmapped {mi u : MemoryInfo} : 0 < mi.addr → p.svcQueryDebugProcessMemory (mi.addr - 4) = some u →
      u.type = .unmapped → LeadsTo p mi u
  | mapped {mi mi' u : MemoryInfo} : 0 < mi.addr → p.svcQueryDebugProcessMemory (mi.addr - 4) = some mi' →
      mi'.type ≠ .unmapped → LeadsTo p mi' u → LeadsTo p mi u

/-- The search comes from an address to an unmapped region, behind which a group of regions starts. -/
def FindsGroup (p : DebugProcess) (guess : Nat) (u : MemoryInfo) : Prop :=
  ∃ mi code, p.svcQueryDebugProcessMemory guess = some mi ∧
    (p.regionBefore .rw mi).bind (p.regionBefore .r) = some code ∧ code.perm = .rx ∧ p.LeadsTo code u

lemma readInto_ok {bufferSize address size : Nat} (h : size ≤ bufferSize) :
    p.readInto bufferSize address size = .ok (p.svcReadDebugProcessMemory address size) := if_pos h

lemma LeadsTo.unique (h : p.LeadsTo mi u) (h' : p.LeadsTo mi u') : u = u' := by
  induction h with
  | unmapped _ hu htype =>
    cases h' with
    | unmapped _ hu' _ => exact Option.some.inj (hu.symm.trans hu')
    | mapped _ hu' htype' _ => exact absurd (Option.some.inj (hu.symm.trans hu') ▸ htype) htype'
  | mapped _ hu htype _ ih =>
    cases h' with
    | unmapped _ hu' htype' => exact absurd (Option.some.inj (hu'.symm.trans hu) ▸ htype') htype
    | mapped _ hu' _ hleads => exact ih (Option.some.inj (hu'.symm.trans hu) ▸ hleads)

lemma LeadsTo.unmapped_region (h : p.LeadsTo mi u) : p.blocks.Known u ∧ u.type = .unmapped := by
  induction h with
  | unmapped _ hu htype => exact ⟨⟨_, hu⟩, htype⟩
  | mapped _ _ _ _ ih => exact ih

lemma FindsGroup.unique {guess : Nat} (h : p.FindsGroup guess u) (h' : p.FindsGroup guess u') : u = u' := by
  obtain ⟨mi, code, hmi, hcode, _, hleads⟩ := h
  obtain ⟨mi', code', hmi', hcode', _, hleads'⟩ := h'
  rw [← Option.some.inj (hmi.symm.trans hmi'), hcode] at hcode'
  exact hleads.unique (Option.some.inj hcode' ▸ hleads')

lemma known_of_regionBefore {perm : MemoryPermission} (hmi : p.blocks.Known mi)
    (h : p.regionBefore perm mi = some mi') : p.blocks.Known mi' := by
  rw [regionBefore] at h
  split at h
  · exact ⟨_, h⟩
  · cases h
    exact hmi

section Lawful

variable (hp : p.Lawful)
include hp

lemma Lawful.getModuleBuildId_ok (ro_start_address : Nat) : ∃ id, p.getModuleBuildId ro_start_address = .ok id := by
  unfold getModuleBuildId
  dsimp only
  split
  · exact ⟨_, rfl⟩
  · next mi _ =>
    split
    · exact ⟨_, rfl⟩
    · generalize hsize : (if lastRodataPagesSize ≤ mi.size then lastRodataPagesSize else lastRodataPagesSize / 2) = n
      have hle : n ≤ lastRodataPagesSize := by
        rw [← hsize]
        split <;> decide
      have hroom : n - gnuSignature.length - moduleBuildIdLength + gnuSignature.length + moduleBuildIdLength ≤ n := by
        rw [← hsize]
        split <;> decide
      rw [readInto_ok hle]
      dsimp only [bind, Except.bind]
      split
      · exact ⟨_, rfl⟩
      · next pages hread => exact findBuildId_ok (hp.length_read hread ▸ hroom)

lemma Lawful.length_path {a : Nat} {bytes : List UInt8}
    (h : p.svcReadDebugProcessMemory a roDataStartSize = some bytes) : (bytes.drop 8).length = modulePathLengthMax := by
  rw [List.length_drop, hp.length_read h]
  rfl

lemma Lawful.getModuleName_outside (h : p.LongPath mi) :
    p.getModuleName mi.addr (mi.stop % 2 ^ 64) = .error .outside := by
  obtain ⟨ro, bytes, hro, hperm, hread, hnew, hzero, hpath, hfull⟩ := h
  have hlen := hp.length_path hread
  have hstrnlen : strnlen (bytes.drop 8) modulePathLengthMax = modulePathLengthMax := strnlen_full hlen hfull
  unfold getModuleName
  rw [hro, readInto_ok (Nat.le_refl _), hread]
  dsimp only [bind, Except.bind]
  rw [if_neg (not_not_intro hperm), if_neg hnew, hpath, hstrnlen, if_neg (by simp [hzero])]
  exact copyName_outside hlen

lemma Lawful.getModuleName_ok (h : ¬p.LongPath mi) : ∃ name, p.getModuleName mi.addr (mi.stop % 2 ^ 64) = .ok name := by
  unfold getModuleName
  dsimp only
  split
  · exact ⟨_, rfl⟩
  · next ro hro =>
    split
    · exact ⟨_, rfl⟩
    · next hperm =>
      rw [readInto_ok (Nat.le_refl _)]
      dsimp only [bind, Except.bind]
      split
      · exact ⟨_, rfl⟩
      · next bytes hread =>
        split
        · exact ⟨_, rfl⟩
        · next hnew =>
          split
          · exact ⟨_, rfl⟩
          · next hvalid =>
            rw [not_or, not_not, not_not] at hvalid
            have hlen := hp.length_path hread
            obtain hlt | hfull := strnlen_lt_or hlen
            · exact copyName_ok hlen (hvalid.2 ▸ hlt)
            · refine absurd ⟨ro, bytes, hro, not_not.mp hperm, hread, hnew, hvalid.1, ?_, hfull⟩ h
              rw [hvalid.2, strnlen_full hlen hfull]

lemma Lawful.moduleOf_outside (h : p.LongPath mi) : p.moduleOf mi = .error .outside := by
  rw [moduleOf, hp.getModuleName_outside h]
  rfl

lemma Lawful.moduleOf_ok (h : ¬p.LongPath mi) : ∃ m, p.moduleOf mi = .ok m ∧ m.range = mi.range := by
  obtain ⟨name, hname⟩ := hp.getModuleName_ok h
  obtain ⟨id, hid⟩ := hp.getModuleBuildId_ok (mi.stop % 2 ^ 64)
  rw [moduleOf, hname, hid]
  exact ⟨_, rfl, rfl⟩

/-! ## The start of a group -/

section

variable (hmi : p.blocks.Known mi)

include hmi

lemma Lawful.addr_lt_stop : mi.addr < mi.stop := by
  obtain ⟨a, ha⟩ := hmi
  exact Nat.lt_of_le_of_lt (hp.blocks.start_le ha) (hp.blocks.lt_stop ha)

lemma Lawful.stop_le : mi.stop ≤ 2 ^ 64 := hp.blocks.stop_le hmi

/-- The address that is asked for before a region does not wrap around. -/
lemma Lawful.query_before (hpos : 0 < mi.addr) :
    p.svcQueryDebugProcessMemory ((mi.addr + 2 ^ 64 - 4) % 2 ^ 64) = p.svcQueryDebugProcessMemory (mi.addr - 4) := by
  have hlt := hp.addr_lt_stop hmi
  have hle := hp.stop_le hmi
  obtain ⟨a, ha⟩ := hmi
  have haligned := hp.aligned ha
  rw [show (mi.addr + 2 ^ 64 - 4) % 2 ^ 64 = mi.addr - 4 by omega]

/-- The region that is found before another one ends before it. -/
lemma Lawful.before (hpos : 0 < mi.addr)
    (h : p.svcQueryDebugProcessMemory (mi.addr - 4) = some mi') :
    p.blocks.Known mi' ∧ mi'.addr < mi.addr ∧ mi'.stop ≤ mi.addr := by
  have hknown : p.blocks.Known mi' := ⟨_, h⟩
  have hle : mi'.addr ≤ mi.addr - 4 := hp.blocks.start_le h
  have hlt := hp.addr_lt_stop hmi
  obtain ⟨a, ha⟩ := hmi
  have haligned := hp.aligned ha
  refine ⟨hknown, by omega, ?_⟩
  obtain heq | hafter | hbefore := hp.blocks.apart hknown ⟨a, ha⟩
  · rw [heq] at hle
    omega
  · exact hafter
  · have hstop : mi.stop ≤ mi'.addr := hbefore
    omega

lemma Lawful.findTurn_leave {r : Option Nat} (h : p.findTurn mi = .leave r) (base : Nat) :
    r = some base ↔ ∃ u, p.LeadsTo mi u ∧ u.stop = base := by
  rw [findTurn] at h
  split at h
  · next hpos =>
    rw [hp.query_before hmi hpos] at h
    split at h
    · next hnone =>
      cases h
      refine iff_of_false (by rintro ⟨⟩) ?_
      rintro ⟨u, hleads, -⟩
      cases hleads with
      | unmapped _ hu _ => cases hnone.symm.trans hu
      | mapped _ hu _ _ => cases hnone.symm.trans hu
    · next mi' hbefore =>
      obtain ⟨hknown, -, hstop⟩ := hp.before hmi hpos hbefore
      have hlt := hp.addr_lt_stop hmi
      have hle := hp.stop_le hmi
      split at h
      · next hunmapped =>
        cases h
        rw [Nat.mod_eq_of_lt (by omega), Option.some_inj]
        constructor
        · exact fun heq => ⟨mi', .unmapped hpos hbefore hunmapped, heq⟩
        · rintro ⟨u, hleads, heq⟩
          cases hleads with
          | unmapped _ hu _ => rwa [Option.some.inj (hbefore.symm.trans hu)]
          | mapped _ hu htype _ =>
            rw [← Option.some.inj (hbefore.symm.trans hu)] at htype
            exact absurd hunmapped htype
      · cases h
  · next hzero =>
    cases h
    refine iff_of_false (by rintro ⟨⟩) ?_
    rintro ⟨u, hleads, -⟩
    cases hleads with
    | unmapped hpos _ _ => exact hzero hpos
    | mapped hpos _ _ _ => exact hzero hpos

lemma Lawful.findTurn_again (h : p.findTurn mi = .again mi') :
    p.blocks.Known mi' ∧ mi'.addr < mi.addr ∧ ∀ u, p.LeadsTo mi u ↔ p.LeadsTo mi' u := by
  rw [findTurn] at h
  split at h
  · next hpos =>
    rw [hp.query_before hmi hpos] at h
    split at h
    · cases h
    · next c hbefore =>
      split at h
      · cases h
      · next hmapped =>
        cases h
        obtain ⟨hknown, hlt, -⟩ := hp.before hmi hpos hbefore
        refine ⟨hknown, hlt, fun u => ⟨?_, .mapped hpos hbefore hmapped⟩⟩
        intro hleads
        cases hleads with
        | unmapped _ hu htype =>
          rw [← Option.some.inj (hbefore.symm.trans hu)] at htype
          exact absurd htype hmapped
        | mapped _ hu _ hleads => rwa [Option.some.inj (hbefore.symm.trans hu)]
  · cases h

/-- The loop of `TryFindModule` ends, with the start of the group. -/
lemma Lawful.loop_findTurn :
    ∃ r, loop p.findTurn (2 ^ 64) mi = some r ∧ ∀ base, r = some base ↔ ∃ u, p.LeadsTo mi u ∧ u.stop = base := by
  have hleave : ∀ s r, (p.blocks.Known s ∧ ∀ u, p.LeadsTo mi u ↔ p.LeadsTo s u) → p.findTurn s = .leave r →
      ∀ base, r = some base ↔ ∃ u, p.LeadsTo mi u ∧ u.stop = base := by
    intro s r hs hturn base
    simp only [hs.2]
    exact hp.findTurn_leave hs.1 hturn base
  have hagain : ∀ s s', (p.blocks.Known s ∧ ∀ u, p.LeadsTo mi u ↔ p.LeadsTo s u) → p.findTurn s = .again s' →
      (p.blocks.Known s' ∧ ∀ u, p.LeadsTo mi u ↔ p.LeadsTo s' u) ∧ s'.addr < s.addr := by
    intro s s' hs hturn
    obtain ⟨hknown, hlt, hiff⟩ := hp.findTurn_again hs.1 hturn
    exact ⟨⟨hknown, fun u => (hs.2 u).trans (hiff u)⟩, hlt⟩
  obtain ⟨r, hr, hpost⟩ := loop_ends MemoryInfo.addr hleave hagain ⟨hmi, fun _ => Iff.rfl⟩
  have hlt := hp.addr_lt_stop hmi
  have hle := hp.stop_le hmi
  exact ⟨r, hr _ (by omega), hpost⟩

end

/-- `TryFindModule` finds the end of the unmapped region that the search comes to. -/
lemma Lawful.tryFindModule_cases (guess : Nat) :
    (p.tryFindModule guess = .ok none ∧ ∀ u, ¬p.FindsGroup guess u) ∨
      ∃ u, p.FindsGroup guess u ∧ p.tryFindModule guess = .ok (some u.stop) := by
  unfold tryFindModule FindsGroup
  split
  · next hnone =>
    refine .inl ⟨rfl, ?_⟩
    rintro u ⟨mi, -, hmi, -⟩
    cases hnone.symm.trans hmi
  · next mi hmi =>
    split
    · next hnone =>
      refine .inl ⟨rfl, ?_⟩
      rintro u ⟨mi', code, hmi', hcode, -⟩
      rw [Option.some.inj (hmi.symm.trans hmi'), hcode] at hnone
      cases hnone
    · next code hcode =>
      have hsame : ∀ {mi' code'}, p.svcQueryDebugProcessMemory guess = some mi' →
          (p.regionBefore .rw mi').bind (p.regionBefore .r) = some code' → code' = code := by
        intro mi' code' hmi' hcode'
        rw [← Option.some.inj (hmi.symm.trans hmi'), hcode] at hcode'
        exact (Option.some.inj hcode').symm
      split
      · next hperm =>
        refine .inl ⟨rfl, ?_⟩
        rintro u ⟨mi', code', hmi', hcode', hperm', -⟩
        rw [hsame hmi' hcode'] at hperm'
        exact hperm hperm'
      · next hperm =>
        obtain ⟨ro, hro, hcode'⟩ := Option.bind_eq_some_iff.mp hcode
        have hknown := known_of_regionBefore (known_of_regionBefore ⟨guess, hmi⟩ hro) hcode'
        obtain ⟨r, hloop, hr⟩ := hp.loop_findTurn hknown
        rw [hloop]
        cases r with
        | none =>
          refine .inl ⟨rfl, ?_⟩
          rintro u ⟨mi', code', hmi', hcode', -, hleads⟩
          rw [hsame hmi' hcode'] at hleads
          cases (hr u.stop).mpr ⟨u, hleads, rfl⟩
        | some base =>
          obtain ⟨u, hleads, hstop⟩ := (hr base).mp rfl
          exact .inr ⟨u, ⟨mi, code, hmi, hcode, not_not.mp hperm, hleads⟩, by rw [hstop]⟩

end Lawful

/-! ## The modules of a group -/

/-- The loop of `TryAddModule` does not go past a region. -/
def halts (mi : MemoryInfo) : Bool := mi.type = .unmapped ∨ mi.type = .reserved

/-- The executable regions from an address on, up to a region that is unmapped or reserved. -/
def codeBlocks (p : DebugProcess) (cur_address : Nat) : List MemoryInfo :=
  (p.blocks.walk 64 halts cur_address).filter (·.perm = .rx)

section Record

variable {modules : List ModuleInfo} {cur_address : Nat} {blocks : List MemoryInfo}

/-- The modules with those of some regions, as far as there is room. -/
def addAll (p : DebugProcess) (modules : List ModuleInfo) (blocks : List MemoryInfo) : Except Stop (List ModuleInfo) :=
  (modules ++ ·) <$> ((blocks.filter (·.perm = .rx)).take (moduleCountMax - modules.length)).mapM p.moduleOf

lemma addAll_nil : p.addAll modules [] = .ok modules := by
  rw [addAll, List.filter_nil, List.take_nil, List.mapM_nil]
  exact congrArg Except.ok (List.append_nil modules)

lemma addAll_full (h : moduleCountMax ≤ modules.length) : p.addAll modules blocks = .ok modules := by
  rw [addAll, Nat.sub_eq_zero_of_le h, List.take_zero, List.mapM_nil]
  exact congrArg Except.ok (List.append_nil modules)

/-- A region is taken down before the others. -/
lemma addAll_cons (h : modules.length < moduleCountMax) :
    p.addAll modules (mi :: blocks) = p.addRegion modules mi >>= (p.addAll · blocks) := by
  rw [addRegion]
  split
  · next hperm =>
    obtain ⟨n, hn⟩ : ∃ n, moduleCountMax - modules.length = n + 1 := ⟨_, (Nat.succ_pred (by omega)).symm⟩
    have hfilter : (mi :: blocks).filter (·.perm = .rx) = mi :: blocks.filter (·.perm = .rx) :=
      List.filter_cons_of_pos (decide_eq_true hperm)
    rw [addAll, hfilter, hn, List.take_succ_cons, List.mapM_cons]
    cases p.moduleOf mi with
    | error e => rfl
    | ok m =>
      dsimp only [bind, Except.bind, pure, Except.pure]
      rw [addAll, List.length_append, List.length_singleton, ← Nat.sub_sub, hn, Nat.add_sub_cancel]
      cases ((blocks.filter (·.perm = .rx)).take n).mapM p.moduleOf with
      | error e => rfl
      | ok ms => exact congrArg Except.ok (List.append_cons modules m ms)
  · next hperm =>
    have hfilter : (mi :: blocks).filter (·.perm = .rx) = blocks.filter (·.perm = .rx) :=
      List.filter_cons_of_neg (by simpa using hperm)
    rw [addAll, hfilter]
    rfl

lemma addModules_full (h : moduleCountMax ≤ modules.length) : p.addModules modules cur_address = .ok modules := by
  rw [addModules, if_neg (Nat.not_lt.mpr h)]

lemma addModules_none (h : p.svcQueryDebugProcessMemory cur_address = none) :
    p.addModules modules cur_address = .ok modules := by
  rw [addModules, h]
  exact ite_self _

/-- A turn of the loop of `TryAddModule`. -/
lemma addModules_some (hroom : modules.length < moduleCountMax)
    (h : p.svcQueryDebugProcessMemory cur_address = some mi) :
    p.addModules modules cur_address = p.addRegion modules mi >>= fun modules =>
      if ¬halts mi ∧ cur_address < (cur_address + mi.size) % 2 ^ 64 then
        p.addModules modules ((cur_address + mi.size) % 2 ^ 64)
      else .ok modules := by
  have hgoes : (¬halts mi ∧ cur_address < (cur_address + mi.size) % 2 ^ 64) ↔
      ¬(mi.type = .unmapped ∨ mi.type = .reserved) ∧
        ¬(mi.size = 0 ∨ (cur_address + mi.size) % 2 ^ 64 ≤ cur_address) := by
    have hzero : mi.size = 0 → (cur_address + mi.size) % 2 ^ 64 ≤ cur_address := by
      intro hsize
      rw [hsize]
      exact Nat.mod_le _ _
    rw [halts, decide_eq_true_iff, not_or (p := mi.size = 0), Nat.not_le]
    exact and_congr_right fun _ => ⟨fun hlt => ⟨fun hsize => absurd (hzero hsize) (Nat.not_le.mpr hlt), hlt⟩, And.right⟩
  rw [addModules, if_pos hroom, h]
  dsimp only
  congr 1
  funext modules
  simp only [hgoes]
  split
  · next htype => rw [if_neg fun hgo => hgo.1 htype]
  · next htype =>
    split
    · next hend => rw [if_neg fun hgo => hgo.2 hend]
    · next hend => rw [if_pos ⟨htype, hend⟩]

/-- The loop of `TryAddModule` takes down the executable regions, as far as there is room. -/
lemma addModules_eq (modules : List ModuleInfo) (cur_address : Nat) :
    p.addModules modules cur_address = p.addAll modules (p.blocks.walk 64 halts cur_address) := by
  induction cur_address using Blocks.walk.induct p.blocks 64 halts generalizing modules with
  | case1 cur h => rw [Blocks.walk_none h, addAll_nil, addModules_none h]
  | case2 cur mi h hgo ih =>
    obtain hfull | hroom := le_or_gt moduleCountMax modules.length
    · rw [addModules_full hfull, addAll_full hfull]
    · rw [Blocks.walk_again h hgo.1 hgo.2, addAll_cons hroom, addModules_some hroom h]
      congr 1
      funext modules
      exact (if_pos hgo).trans (ih modules)
  | case3 cur mi h hstay =>
    obtain hfull | hroom := le_or_gt moduleCountMax modules.length
    · rw [addModules_full hfull, addAll_full hfull]
    · rw [Blocks.walk_last h hstay, addAll_cons hroom, addModules_some hroom h]
      congr 1
      funext modules
      exact (if_neg hstay).trans addAll_nil.symm

end Record

end DebugProcess

end RajNX.Creport
