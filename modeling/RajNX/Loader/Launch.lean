import RajNX.Loader.AddressSpaceLayout

/-!
# The launch of a process with arguments

The part of `CreateProcess` of `ldr_process_creation.cpp` that sees the arguments of a title: the layout is
decided, the kernel creates the process, and `LoadNsosIntoProcessMemory` loads the NSOs and writes the
arguments. Memory is reserved for arguments whose size is not zero, but it is written for every entry of the
table, so that a title with empty arguments is not launched.
-/

namespace RajNX.Loader

open Fallible LittleEndian Map Regions Slots

/-! ## The code -/

/-- What the launch of a process meets: the firmware, the code of the title and what the kernel answers. The
memory of the loader is the same at each search, as what is mapped for a load is unmapped after it. The search
before 2.0.0 finds space of no size, which the kernel does not map. -/
structure LaunchSystem where
  isFirmware200 : Bool
  flags : Nat
  generateRandomU64 : ∀ max : Nat, Fin (max + 1)
  headers : Fin nsoCount → NsoHeader
  hasNso : Fin nsoCount → Bool
  codeFile : Fin nsoCount → Except Nat (List UInt8)
  nsoLoader : Fin nsoCount → NsoLoader
  svcCreateProcess : Except Nat Unit
  svcGetInfo : InfoType → Except MapError UInt64
  svcQueryMemory : UInt64 → MemoryInfo
  svcMapProcessMemory : Nat → Except Nat Unit
  svcSetProcessMemoryPermission : Except Nat Unit
  refusesEmpty : isFirmware200 = false → ∃ e, svcMapProcessMemory 0 = .error e

/-- What is written for arguments, and where. -/
structure WrittenArguments where
  address : Nat
  size : Nat
  bytes : List UInt8
deriving DecidableEq

/-- `ProgramArguments` -/
def programArguments (allocatedSize : Nat) (arg : ArgumentInfo) : List UInt8 :=
  leBytes 4 allocatedSize ++ leBytes 4 arg.argsSize ++ List.replicate 0x18 0 ++ arg.args.take arg.argsSize

/-- `LocateMappableSpace`, as the launch sees it. -/
def locate (sys : LaunchSystem) (size : Nat) : Except LaunchError UInt64 :=
  match locateMappableSpace sys.isFirmware200 sys.svcGetInfo sys.svcQueryMemory (.ofNat size) with
  | none => .error .hangs
  | some (.error .kernelOutOfMemory) => .error .kernelOutOfMemory
  | some (.error (.kernel e)) => .error (.loader (.kernel e))
  | some (.ok address) => .ok address

/-- A call of the kernel. -/
def kernelCall (answer : Except Nat Unit) : Except LaunchError Unit := answer.mapError (.loader ∘ .kernel)

/-- The loop of `LoadNsosIntoProcessMemory` for an NSO. -/
def loadNso (sys : LaunchSystem) (info : ProcessInfo) (i : Fin nsoCount) : Except LaunchError Unit := do
  let f ← (sys.codeFile i).mapError (.loader ∘ .fileSystem)
  let _ ← locate sys (info.nsoSize i)
  (loadNsoIntoProcessMemory (sys.nsoLoader i) f (sys.headers i) (info.nsoSize i)).1.mapError .loader

/-- The end of `LoadNsosIntoProcessMemory`, for an entry of the table. -/
def loadArguments (sys : LaunchSystem) (info : ProcessInfo) (arg : ArgumentInfo) :
    Except LaunchError WrittenArguments := do
  let _ ← locate sys info.argsSize
  kernelCall (sys.svcMapProcessMemory info.argsSize)
  let written : WrittenArguments := ⟨info.argsAddress, info.argsSize, programArguments info.argsSize arg⟩
  kernelCall sys.svcSetProcessMemoryPermission
  return written

/-- `LoadNsosIntoProcessMemory`, with what is written for the arguments -/
def loadNsosIntoProcessMemory (sys : LaunchSystem) (info : ProcessInfo) (argInfo : Option ArgumentInfo) :
    Except LaunchError (Option WrittenArguments) := do
  ((List.finRange nsoCount).filter (sys.hasNso ·)).forM (loadNso sys info)
  match argInfo with
  | none => return none
  | some arg => return some (← loadArguments sys info arg)

/-- `CreateProcess` from its call of `CreateProcessImpl` on, with the layout and what is written -/
def createProcess (sys : LaunchSystem) (argInfo : Option ArgumentInfo) :
    Except LaunchError (ProcessInfo × Option WrittenArguments) := do
  let (info, _) ← decideAddressSpaceLayout sys.isFirmware200 sys.flags sys.generateRandomU64 sys.headers sys.hasNso
    argInfo
  kernelCall sys.svcCreateProcess
  let written ← loadNsosIntoProcessMemory sys info argInfo
  return (info, written)

/-! ## Arguments that do no harm -/

/-- The launch succeeds, and memory for arguments is written exactly if it has been reserved. -/
def Launches (sys : LaunchSystem) (argInfo : Option ArgumentInfo) : Prop :=
  ∃ info written, createProcess sys argInfo = .ok (info, written) ∧ (written.isSome ↔ info.argsSize ≠ 0)

/-- The sizes of the NSOs. -/
def codeSize (headers : Fin nsoCount → NsoHeader) (hasNso : Fin nsoCount → Bool) : Nat :=
  (((List.finRange nsoCount).filter (hasNso ·)).map fun i => nsoSize (headers i)).sum

/-- The NSOs and memory for arguments do not exceed the ASLR region. -/
def FitsAslr (sys : LaunchSystem) (size : Nat) : Prop :=
  ∃ aslr, aslrRegion sys.isFirmware200 sys.flags = some aslr ∧ codeSize sys.headers sys.hasNso + size ≤ aslr.size

/-- The loader has space for some memory of a process, and the kernel lets it map the memory and set its
permissions. -/
structure Serves (sys : LaunchSystem) (size : Nat) : Prop where
  located : ∃ address, locate sys size = .ok address
  mapped : sys.svcMapProcessMemory size = .ok ()
  permitted : sys.svcSetProcessMemoryPermission = .ok ()

section Sizes

variable {headers : Fin nsoCount → NsoHeader} {hasNso : Fin nsoCount → Bool} {argInfo : Option ArgumentInfo}

/-- The total size is that of the NSOs and of what is reserved for arguments. -/
lemma totalSize_foldl (rest : List (Fin nsoCount)) {s : Offsets} {n : Nat} (h : s.totalSize = n + s.out.argsSize) :
    (rest.foldl (placeNso headers hasNso argInfo) s).totalSize =
      n + ((rest.filter (hasNso ·)).map fun i => nsoSize (headers i)).sum +
        (rest.foldl (placeNso headers hasNso argInfo) s).out.argsSize := by
  induction rest generalizing s n with
  | nil => simpa using h
  | cons i rest ih =>
    rw [List.foldl_cons]
    by_cases hi : hasNso i = true
    · have hnext : (placeNso headers hasNso argInfo s i).totalSize =
          n + nsoSize (headers i) + (placeNso headers hasNso argInfo s i).out.argsSize := by
        rw [placeNso, if_pos hi]
        cases argInfo with
        | none =>
          simp only [placeArguments]
          omega
        | some arg =>
          simp only [placeArguments]
          split
          · next hplace =>
            have hzero : s.out.argsSize = 0 := hplace.2
            dsimp only
            omega
          · dsimp only
            omega
      rw [ih hnext, List.filter_cons_of_pos (by simpa using hi), List.map_cons, List.sum_cons, Nat.add_assoc n]
    · have hsame : placeNso headers hasNso argInfo s i = s := if_neg hi
      rw [hsame, ih h, List.filter_cons_of_neg (by simpa using hi)]

lemma totalSize_baseOffsets : (baseOffsets headers hasNso argInfo).totalSize =
    codeSize headers hasNso + (baseOffsets headers hasNso argInfo).out.argsSize := by
  have h := @totalSize_foldl headers hasNso argInfo (List.finRange nsoCount) clearedOffsets 0 rfl
  rwa [Nat.zero_add] at h

/-- What is reserved. -/
lemma argsSize_of_hasArguments {arg : ArgumentInfo} (hsome : ∃ i, hasNso i = true) (hne : arg.argsSize ≠ 0) :
    (baseOffsets headers hasNso (some arg)).out.argsSize = argumentsRegionSize arg := by
  obtain ⟨parts, hplaced, hmem⟩ := @placed_baseOffsets headers hasNso (some arg) hsome
  obtain ⟨arg', harg, -, hsize⟩ := hplaced.reserved ((hmem .arguments).mpr ⟨arg, rfl, hne⟩)
  cases harg
  exact hsize

lemma argsSize_of_not_hasArguments (hsome : ∃ i, hasNso i = true) (hnone : ¬HasArguments argInfo) :
    (baseOffsets headers hasNso argInfo).out.argsSize = 0 := by
  obtain ⟨parts, hplaced, hmem⟩ := @placed_baseOffsets headers hasNso argInfo hsome
  exact (hplaced.unreserved fun hargs => hnone ((hmem .arguments).mp hargs)).1

/-- What an NSO is given does not depend on the arguments. -/
lemma nsoSize_baseOffsets {i : Fin nsoCount} (hi : hasNso i = true) :
    (baseOffsets headers hasNso argInfo).out.nsoSize i = nsoSize (headers i) := by
  obtain ⟨parts, hplaced, hmem⟩ := @placed_baseOffsets headers hasNso argInfo ⟨i, hi⟩
  exact hplaced.nso_size i ((hmem (.nso i)).mpr hi)

end Sizes

section Launch

variable {sys : LaunchSystem} {argInfo : Option ArgumentInfo} {arg : ArgumentInfo} {info : ProcessInfo}
  {cpi : CreateProcessInfo} {written : Option WrittenArguments}

lemma kernelCall_eq_ok {answer : Except Nat Unit} : kernelCall answer = .ok () ↔ answer = .ok () := by
  cases answer with
  | error e => exact ⟨nofun, nofun⟩
  | ok u => exact ⟨fun _ => rfl, fun _ => rfl⟩

/-- The layout, as the launch asks for it. -/
lemma layout_isOk_iff :
    (∃ info cpi, decideAddressSpaceLayout sys.isFirmware200 sys.flags sys.generateRandomU64 sys.headers sys.hasNso
        argInfo = .ok (info, cpi)) ↔
      FitsAslr sys (baseOffsets sys.headers sys.hasNso argInfo).out.argsSize := by
  rw [FitsAslr, ← totalSize_baseOffsets, decideAddressSpaceLayout]
  cases haslr : aslrRegion sys.isFirmware200 sys.flags with
  | none =>
    constructor
    · rintro ⟨_, _, h⟩
      cases h
    · rintro ⟨_, h, -⟩
      cases h
  | some aslr =>
    dsimp only
    constructor
    · rintro ⟨info, cpi, h⟩
      split at h
      · cases h
      · next hfits => exact ⟨aslr, rfl, Nat.le_of_not_lt hfits⟩
    · rintro ⟨_, ⟨⟩, hfits⟩
      rw [if_neg (Nat.not_lt.mpr hfits)]
      exact ⟨_, _, rfl⟩

/-- The sizes of a layout are those of the loop. -/
lemma layout_sizes
    (h : decideAddressSpaceLayout sys.isFirmware200 sys.flags sys.generateRandomU64 sys.headers sys.hasNso argInfo =
      .ok (info, cpi)) :
    info.argsSize = (baseOffsets sys.headers sys.hasNso argInfo).out.argsSize ∧
      ∀ i, sys.hasNso i = true → info.nsoSize i = nsoSize (sys.headers i) := by
  obtain ⟨aslr, slide, -, -, -, rfl, -⟩ := decideAddressSpaceLayout_ok h
  exact ⟨rfl, fun i hi => nsoSize_baseOffsets hi⟩

/-- The load of an NSO sees the size that it is given. -/
lemma loadNso_congr {info' : ProcessInfo} {i : Fin nsoCount} (h : info.nsoSize i = info'.nsoSize i) :
    loadNso sys info i = loadNso sys info' i := by
  rw [loadNso, loadNso, h]

lemma loadArguments_isOk_iff : (∃ w, loadArguments sys info arg = .ok w) ↔ Serves sys info.argsSize := by
  constructor
  · rintro ⟨w, h⟩
    obtain ⟨address, hlocated, h⟩ := bind_eq_ok h
    obtain ⟨u, hmapped, h⟩ := bind_eq_ok h
    obtain ⟨u', hpermitted, -⟩ := bind_eq_ok h
    exact ⟨⟨address, hlocated⟩, kernelCall_eq_ok.mp hmapped, kernelCall_eq_ok.mp hpermitted⟩
  · rintro ⟨⟨address, hlocated⟩, hmapped, hpermitted⟩
    refine ⟨⟨info.argsAddress, info.argsSize, programArguments info.argsSize arg⟩, ?_⟩
    rw [loadArguments, hlocated, hmapped, hpermitted]
    rfl

/-- Memory of no size is never served: on 2.0.0 or later no space is found for it. -/
lemma not_serves_zero : ¬Serves sys 0 := by
  rintro ⟨⟨address, hlocated⟩, hmapped, -⟩
  cases hfirmware : sys.isFirmware200 with
  | false =>
    obtain ⟨e, he⟩ := sys.refusesEmpty hfirmware
    rw [he] at hmapped
    cases hmapped
  | true =>
    obtain ⟨e, he⟩ := locateMappableSpace_zero sys.svcGetInfo sys.svcQueryMemory
    rw [locate, hfirmware, show UInt64.ofNat 0 = 0 from rfl, he] at hlocated
    cases e <;> cases hlocated

/-- When the load of all that a process has succeeds. -/
lemma loadNsosIntoProcessMemory_eq_ok : loadNsosIntoProcessMemory sys info argInfo = .ok written ↔
    (∀ i, sys.hasNso i = true → loadNso sys info i = .ok ()) ∧
      match argInfo with
      | none => written = none
      | some arg => ∃ w, loadArguments sys info arg = .ok w ∧ written = some w := by
  have hall : (∀ i ∈ (List.finRange nsoCount).filter (sys.hasNso ·), loadNso sys info i = .ok ()) ↔
      ∀ i, sys.hasNso i = true → loadNso sys info i = .ok () := by
    constructor
    · exact fun h i hi => h i (List.mem_filter.mpr ⟨List.mem_finRange i, hi⟩)
    · exact fun h i hi => h i (List.mem_filter.mp hi).2
  rw [← hall, ← forM_eq_ok]
  constructor
  · intro h
    obtain ⟨u, hloads, h⟩ := bind_eq_ok h
    refine ⟨hloads, ?_⟩
    cases argInfo with
    | none =>
      cases h
      rfl
    | some arg =>
      obtain ⟨w, hw, h⟩ := bind_eq_ok h
      cases h
      exact ⟨w, hw, rfl⟩
  · rintro ⟨hloads, h⟩
    cases argInfo with
    | none =>
      cases h
      simp only [loadNsosIntoProcessMemory, hloads]
      rfl
    | some arg =>
      obtain ⟨w, hw, rfl⟩ := h
      simp only [loadNsosIntoProcessMemory, hloads, hw]
      rfl

/-- When a process is created. -/
lemma createProcess_eq_ok : createProcess sys argInfo = .ok (info, written) ↔
    (∃ cpi, decideAddressSpaceLayout sys.isFirmware200 sys.flags sys.generateRandomU64 sys.headers sys.hasNso
        argInfo = .ok (info, cpi)) ∧
      sys.svcCreateProcess = .ok () ∧ loadNsosIntoProcessMemory sys info argInfo = .ok written := by
  constructor
  · intro h
    obtain ⟨⟨info', cpi⟩, hlayout, h⟩ := bind_eq_ok h
    obtain ⟨u, hcreated, h⟩ := bind_eq_ok h
    obtain ⟨written', hloads, h⟩ := bind_eq_ok h
    cases h
    exact ⟨⟨cpi, hlayout⟩, kernelCall_eq_ok.mp hcreated, hloads⟩
  · rintro ⟨⟨cpi, hlayout⟩, hcreated, hloads⟩
    rw [createProcess, hlayout]
    have hcalled := kernelCall_eq_ok.mpr hcreated
    simp only [bind, Except.bind, hcalled, hloads]
    rfl

/-- A process that is launched without arguments is launched with the entry of its title, and memory for
arguments is written if it has been reserved, exactly if the entry, if there is one, is not empty, and there is
room for it. -/
theorem launches_iff (table : ArgumentTable) (titleId : Nat)
    (hvalid : validateNsoHeaders sys.headers sys.hasNso = .ok ()) (hlaunches : Launches sys none) :
    Launches sys (getArguments table titleId) ↔ ∀ arg, getArguments table titleId = some arg →
      arg.argsSize ≠ 0 ∧ FitsAslr sys (argumentsRegionSize arg) ∧ Serves sys (argumentsRegionSize arg) := by
  have hsome : ∃ i, sys.hasNso i = true := ⟨1, hasNso_main hvalid⟩
  obtain ⟨info₀, written₀, hcreated, hiff₀⟩ := hlaunches
  obtain ⟨⟨cpi₀, hlayout₀⟩, hprocess, hloads₀⟩ := createProcess_eq_ok.mp hcreated
  obtain ⟨hnsos, -⟩ := loadNsosIntoProcessMemory_eq_ok.mp hloads₀
  -- the NSOs are loaded whatever the arguments are
  have hload : ∀ {argInfo : Option ArgumentInfo} {info : ProcessInfo} {cpi : CreateProcessInfo},
      decideAddressSpaceLayout sys.isFirmware200 sys.flags sys.generateRandomU64 sys.headers sys.hasNso argInfo =
        .ok (info, cpi) → ∀ i, sys.hasNso i = true → loadNso sys info i = .ok () := by
    intro argInfo info cpi hlayout i hi
    rw [loadNso_congr (((layout_sizes hlayout).2 i hi).trans ((layout_sizes hlayout₀).2 i hi).symm)]
    exact hnsos i hi
  cases hentry : getArguments table titleId with
  | none => exact ⟨fun _ _ h => (nomatch h), fun _ => ⟨info₀, written₀, hcreated, hiff₀⟩⟩
  | some arg =>
    constructor
    · rintro ⟨info, written, h, -⟩ _ ⟨⟩
      obtain ⟨⟨cpi, hlayout⟩, -, hloads⟩ := createProcess_eq_ok.mp h
      obtain ⟨-, w, hw, -⟩ := loadNsosIntoProcessMemory_eq_ok.mp hloads
      have hserves := loadArguments_isOk_iff.mp ⟨w, hw⟩
      have hfits := layout_isOk_iff.mp ⟨info, cpi, hlayout⟩
      rw [(layout_sizes hlayout).1] at hserves
      by_cases hempty : arg.argsSize = 0
      · -- nothing is reserved for empty arguments, and nothing can be mapped for them
        have hnone : ¬HasArguments (some arg) := by
          rintro ⟨_, ⟨⟩, hne⟩
          exact hne hempty
        rw [argsSize_of_not_hasArguments hsome hnone] at hserves
        exact absurd hserves not_serves_zero
      · rw [argsSize_of_hasArguments hsome hempty] at hserves hfits
        exact ⟨hempty, hfits, hserves⟩
    · intro h
      obtain ⟨hne, hfits, hserves⟩ := h arg rfl
      have hsize := @argsSize_of_hasArguments sys.headers sys.hasNso arg hsome hne
      rw [← hsize] at hfits hserves
      obtain ⟨info, cpi, hlayout⟩ := layout_isOk_iff.mpr hfits
      have hargs := (layout_sizes hlayout).1
      rw [← hargs] at hserves
      obtain ⟨w, hw⟩ := (@loadArguments_isOk_iff _ arg _).mpr hserves
      refine ⟨info, some w, createProcess_eq_ok.mpr ⟨⟨cpi, hlayout⟩, hprocess, ?_⟩, ?_⟩
      · exact loadNsosIntoProcessMemory_eq_ok.mpr ⟨hload hlayout, w, hw, rfl⟩
      · have hpos := argumentsRegionSize_pos arg
        rw [hargs, hsize]
        exact ⟨fun _ => hpos.ne', fun _ => rfl⟩

end Launch

/-! ## Examples -/

/-- Two NSOs of a page each, and a system in which every call succeeds. -/
def exampleSystem : LaunchSystem where
  isFirmware200 := true
  flags := addressSpace64Bit ||| enableAslr
  generateRandomU64 := Fin.last
  headers _ := smallHeader 2
  hasNso := rtldAndMain
  codeFile _ := .ok [1, 2, 3, 4, 5]
  nsoLoader _ := plainLoader
  svcCreateProcess := .ok ()
  svcGetInfo := exampleGetInfo 0 0
  svcQueryMemory := exampleMap.query
  svcMapProcessMemory _ := .ok ()
  svcSetProcessMemoryPermission := .ok ()
  refusesEmpty h := by cases h

/-- A title. -/
def exampleTitle : Nat := 0x0100000000001000

/-- The table after `Set` for the title. -/
def exampleTable (args : List UInt8) (h : args.length < argumentSizeMax) : ArgumentTable :=
  startTable.set 0 (freeArgumentInfo.set exampleTitle args h)

lemma exampleTable_reachable (args : List UInt8) (h : args.length < argumentSizeMax) :
    ReachableTable (exampleTable args h) := by
  have hmiss : findArgumentInfo startTable exampleTitle = none := by
    refine find_eq_none.mpr fun info hinfo => ?_
    rw [List.eq_of_mem_replicate hinfo]
    decide
  have hfirst : startTable[0]? = some freeArgumentInfo := List.getElem?_replicate_of_lt (by decide)
  have hfree : findFreeArgumentInfo startTable = some (0, freeArgumentInfo) := by
    rw [findFreeArgumentInfo, findArgumentInfo, find_eq_some]
    exact ⟨hfirst, rfl, fun j y hj => absurd hj (Nat.not_lt_zero j)⟩
  refine @ReachableTable.set _ _ exampleTitle args .start ?_
  rw [setArguments, dif_pos h, hmiss, hfree]
  rfl

lemma getArguments_exampleTable (args : List UInt8) (h : args.length < argumentSizeMax) :
    getArguments (exampleTable args h) exampleTitle = some (freeArgumentInfo.set exampleTitle args h) := by
  have hlength : 0 < startTable.length := by
    rw [startTable, List.length_replicate]
    decide
  have hfirst : (exampleTable args h)[0]? = some (freeArgumentInfo.set exampleTitle args h) := by
    rw [exampleTable, List.getElem?_set_self hlength]
  have hfind : findArgumentInfo (exampleTable args h) exampleTitle =
      some (0, freeArgumentInfo.set exampleTitle args h) := by
    rw [findArgumentInfo, find_eq_some]
    exact ⟨hfirst, rfl, fun j y hj => absurd hj (Nat.not_lt_zero j)⟩
  rw [getArguments, hfind, Option.map_some]

lemma locate_nso : locate exampleSystem 0x1000 = .ok 0x10000 := by decide

lemma launches_none : Launches exampleSystem none := by
  have hfits : FitsAslr exampleSystem 0 := ⟨_, rfl, by decide⟩
  obtain ⟨info, cpi, hlayout⟩ := (@layout_isOk_iff exampleSystem none).mpr hfits
  obtain ⟨hargs, hsizes⟩ := layout_sizes hlayout
  refine ⟨info, none, createProcess_eq_ok.mpr ⟨⟨cpi, hlayout⟩, rfl, loadNsosIntoProcessMemory_eq_ok.mpr ⟨?_, rfl⟩⟩, ?_⟩
  · intro i hi
    have hpage : nsoSize (smallHeader 2) = 0x1000 := by decide
    have hload : (loadNsoIntoProcessMemory plainLoader [1, 2, 3, 4, 5] (smallHeader 2) 0x1000).1 = .ok () := rfl
    rw [loadNso, (hsizes i hi).trans hpage, locate_nso]
    simp only [exampleSystem, Except.mapError, bind, Except.bind, hload]
  · exact ⟨nofun, fun hne => absurd hargs hne⟩

/-- Five bytes of arguments. -/
theorem launches_iff_five :
    ReachableTable (exampleTable [1, 2, 3, 4, 5] (by decide)) ∧
      Launches exampleSystem (getArguments (exampleTable [1, 2, 3, 4, 5] (by decide)) exampleTitle) := by
  refine ⟨exampleTable_reachable _ _, ?_⟩
  refine (launches_iff _ exampleTitle validateNsoHeaders_rtldAndMain launches_none).mpr ?_
  rw [getArguments_exampleTable]
  rintro arg ⟨⟩
  exact ⟨by decide, ⟨_, rfl, by decide +kernel⟩, ⟨⟨0x10000, by decide +kernel⟩, rfl, rfl⟩⟩

/-- The title has empty arguments: nothing is reserved for them, and the search for space of no size fails. -/
theorem not_launches_empty :
    ReachableTable (exampleTable [] (by decide)) ∧
      (∃ arg, getArguments (exampleTable [] (by decide)) exampleTitle = some arg ∧ arg.argsSize = 0) ∧
      Launches exampleSystem none ∧
      ¬Launches exampleSystem (getArguments (exampleTable [] (by decide)) exampleTitle) := by
  refine ⟨exampleTable_reachable _ _, ⟨_, getArguments_exampleTable _ _, rfl⟩, launches_none, ?_⟩
  rw [getArguments_exampleTable]
  rintro ⟨info, written, h, -⟩
  obtain ⟨⟨cpi, hlayout⟩, -, hloads⟩ := createProcess_eq_ok.mp h
  obtain ⟨-, w, hw, -⟩ := loadNsosIntoProcessMemory_eq_ok.mp hloads
  have hserves := loadArguments_isOk_iff.mp ⟨w, hw⟩
  have hnone : ¬HasArguments (some (freeArgumentInfo.set exampleTitle [] (by decide))) := by
    rintro ⟨_, ⟨⟩, hne⟩
    exact hne rfl
  rw [(layout_sizes hlayout).1, argsSize_of_not_hasArguments ⟨1, rfl⟩ hnone] at hserves
  exact not_serves_zero hserves

end RajNX.Loader
