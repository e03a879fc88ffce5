import RajNX.Pm.ResourceManager

/-!
# Thread limits

`InitializeResourceManager` and `BoostApplicationThreadResourceLimit` of `pm_resource_manager.cpp`. The limits
of the three groups are taken from a table, which depends on the firmware. On 7.0.0 and later the threads that
the kernel has beyond those of the table are kept for the application, which is given them by a boost.

How many threads the table gives away is computed as a difference of the groups, and not as their sum.
-/

namespace RajNX.Pm.Limits

/-! ## Tables -/

/-- `LimitableResource` -/
inductive LimitableResource
  | memory
  | threads
  | events
  | transferMemories
  | sessions
deriving Repr, DecidableEq

/-- `LimitableResources` -/
def limitableResources : List LimitableResource := [.memory, .threads, .events, .transferMemories, .sessions]

/-- `MemoryArrangement` -/
inductive MemoryArrangement
  | standard
  | standardForAppletDev
  | standardForSystemDev
  | expanded
  | expandedForAppletDev
  | dynamic
deriving Repr, DecidableEq

/-- `FirmwareVersion_300` -/
def firmwareVersion300 : Nat := 2

/-- `FirmwareVersion_400` -/
def firmwareVersion400 : Nat := 3

/-- `FirmwareVersion_500` -/
def firmwareVersion500 : Nat := 4

/-- `FirmwareVersion_600` -/
def firmwareVersion600 : Nat := 5

/-- `FirmwareVersion_700` -/
def firmwareVersion700 : Nat := 6

/-- `Megabyte` -/
def megabyte : UInt64 := 0x100000

/-- `ExtraSystemThreadCount400` -/
def extraSystemThreadCount400 : UInt64 := 100

/-- `ExtraSystemMemorySize400` -/
def extraSystemMemorySize400 : UInt64 := 10 * megabyte

/-- `ExtraSystemMemorySize500` -/
def extraSystemMemorySize500 : UInt64 := 12 * megabyte

/-- `ExtraSystemEventCount600` -/
def extraSystemEventCount600 : UInt64 := 100

/-- `ExtraSystemSessionCount600` -/
def extraSystemSessionCount600 : UInt64 := 100

/-- `ReservedMemorySize600` -/
def reservedMemorySize600 : UInt64 := 5 * megabyte

/-- `ExtraSystemMemorySizeAtmosphere` -/
def extraSystemMemorySizeAtmosphere : UInt64 := 24 * megabyte

/-- Limits of the resources of each group. -/
abbrev ResourceLimits := ResourceLimitGroup → LimitableResource → UInt64

/-- Memory of each group, for the memory arrangements. -/
abbrev MemoryLimits := MemoryArrangement → ResourceLimitGroup → UInt64

/-- `g_resource_limits` at first -/
def defaultResourceLimits : ResourceLimits
  | .system => fun
    | .memory => 0
    | .threads => 508
    | .events => 600
    | .transferMemories => 128
    | .sessions => 794
  | .application => fun
    | .memory => 0
    | .threads => 96
    | .events => 0
    | .transferMemories => 32
    | .sessions => 1
  | .applet => fun
    | .memory => 0
    | .threads => 96
    | .events => 0
    | .transferMemories => 32
    | .sessions => 5

/-- `g_memory_resource_limits` at first -/
def defaultMemoryLimits : MemoryLimits
  | .standard => fun
    | .system => 269 * megabyte
    | .application => 3285 * megabyte
    | .applet => 535 * megabyte
  | .standardForAppletDev => fun
    | .system => 481 * megabyte
    | .application => 2048 * megabyte
    | .applet => 1560 * megabyte
  | .standardForSystemDev => fun
    | .system => 328 * megabyte
    | .application => 3285 * megabyte
    | .applet => 476 * megabyte
  | .expanded => fun
    | .system => 653 * megabyte
    | .application => 4916 * megabyte
    | .applet => 568 * megabyte
  | .expandedForAppletDev => fun
    | .system => 653 * megabyte
    | .application => 3285 * megabyte
    | .applet => 2199 * megabyte
  | .dynamic => fun _ => 0

/-- An entry of a table that is changed. -/
def modifyAt {α β : Type} [DecidableEq α] [DecidableEq β] (a : α) (b : β) (f : UInt64 → UInt64)
    (table : α → β → UInt64) : α → β → UInt64 :=
  Function.update table a (Function.update (table a) b (f (table a b)))

/-- Memory of a memory arrangement that is taken from the applet and given to the system. -/
def takeFromApplet (arrangement : MemoryArrangement) (size : UInt64) (table : MemoryLimits) : MemoryLimits :=
  modifyAt arrangement .applet (· - size) (modifyAt arrangement .system (· + size) table)

/-- The limits that depend on the firmware. -/
def adjustResourceLimits (firmwareVersion : Nat) (limits : ResourceLimits) : ResourceLimits :=
  let limits :=
    if firmwareVersion400 ≤ firmwareVersion then modifyAt .system .threads (· + extraSystemThreadCount400) limits
    else limits
  if firmwareVersion600 ≤ firmwareVersion then
    modifyAt .system .sessions (· + extraSystemSessionCount600)
      (modifyAt .system .events (· + extraSystemEventCount600) limits)
  else limits

/-- The memory that depends on the firmware. -/
def adjustMemoryLimits (firmwareVersion : Nat) (limits : MemoryLimits) : MemoryLimits :=
  let limits :=
    if firmwareVersion400 ≤ firmwareVersion then
      takeFromApplet .standardForSystemDev extraSystemMemorySize400
        (takeFromApplet .standard extraSystemMemorySize400 limits)
    else limits
  if firmwareVersion500 ≤ firmwareVersion then
    takeFromApplet .standardForSystemDev extraSystemMemorySize500
      (takeFromApplet .standard extraSystemMemorySize500 limits)
  else limits

/-- The memory that the system always gets. -/
def adjustForAtmosphere (firmwareVersion : Nat) (limits : MemoryLimits) : MemoryLimits := fun arrangement =>
  let giver : ResourceLimitGroup := if firmwareVersion300 ≤ firmwareVersion then .applet else .application
  let row := Function.update (limits arrangement) .system
    (limits arrangement .system + extraSystemMemorySizeAtmosphere)
  Function.update row giver (row giver - extraSystemMemorySizeAtmosphere)

/-! ## The initialization -/

/-- What the kernel and the secure monitor answer in the initialization. -/
structure InitAnswers where
  firmwareVersion : Nat
  resourceLimit : ResourceLimitGroup → Except Nat Unit
  totalThreadsAvailable : Except Nat UInt64
  totalMemory : Except Nat UInt64
  applicationSize : Except Nat UInt64
  appletSize : Except Nat UInt64
  memoryArrangement : Except Nat MemoryArrangement
  setLimit : ResourceLimitGroup → LimitableResource → Except Nat Unit

/-- The globals of the resource manager, and the limits of the kernel. -/
structure LimitState where
  resourceLimits : ResourceLimits
  memoryResourceLimits : MemoryLimits
  memoryArrangement : MemoryArrangement
  extraApplicationThreadsAvailable : UInt64
  kernelLimits : ResourceLimits

/-- `R_ASSERT`. None is the end of the process. -/
def rAssert {α : Type} (r : Except Nat α) : Option α := r.toOption

/-- `total_threads_allocated` -/
def totalThreadsAllocated (limits : ResourceLimits) : UInt64 :=
  limits .system .threads - limits .application .threads - limits .applet .threads

/-- The number of extra application threads, which is known from 7.0.0 on. -/
def extraThreads (answers : InitAnswers) (limits : ResourceLimits) : Option UInt64 :=
  if firmwareVersion700 ≤ answers.firmwareVersion then do
    let totalThreadsAvailable ← rAssert answers.totalThreadsAvailable
    if totalThreadsAvailable < totalThreadsAllocated limits then none
    else some (totalThreadsAvailable - totalThreadsAllocated limits)
  else some 0

/-- The memory arrangement, with the memory of it. From 6.0.0 on it is that of the kernel. -/
def chooseMemoryArrangement (answers : InitAnswers) (limits : MemoryLimits) :
    Option (MemoryArrangement × MemoryLimits) :=
  if firmwareVersion600 ≤ answers.firmwareVersion then do
    let totalMemory ← rAssert answers.totalMemory
    let applicationSize ← rAssert answers.applicationSize
    let appletSize ← rAssert answers.appletSize
    let reservedNonSystemSize := applicationSize + appletSize + reservedMemorySize600
    if totalMemory ≤ reservedNonSystemSize then none
    else
      some (.dynamic, Function.update limits .dynamic fun
        | .system => totalMemory - reservedNonSystemSize
        | .application => applicationSize
        | .applet => appletSize)
  else do
    let arrangement ← rAssert answers.memoryArrangement
    return (arrangement, limits)

/-- `svcSetResourceLimitLimitValue`, with a limit of the table -/
def setLimitValue (answers : InitAnswers) (group : ResourceLimitGroup) (s : LimitState)
    (resource : LimitableResource) : Option LimitState :=
  (rAssert (answers.setLimit group resource)).map fun _ =>
    { s with kernelLimits := modifyAt group resource (fun _ => s.resourceLimits group resource) s.kernelLimits }

/-- `SetResourceLimitLimitValues`, where no call of the kernel may fail. -/
def setResourceLimitLimitValues (answers : InitAnswers) (group : ResourceLimitGroup) (newMemoryLimit : UInt64)
    (s : LimitState) : Option LimitState := do
  let s ← setLimitValue answers group
    { s with resourceLimits := modifyAt group .memory (fun _ => newMemoryLimit) s.resourceLimits } .memory
  (limitableResources.filter (· ≠ .memory)).foldlM (setLimitValue answers group) s

/-- `InitializeResourceManager`, from the limits that the kernel has before it -/
def initializeResourceManager (answers : InitAnswers) (kernelLimits : ResourceLimits) : Option LimitState := do
  rAssert (answers.resourceLimit .system)
  rAssert (answers.resourceLimit .application)
  rAssert (answers.resourceLimit .applet)
  let limits := adjustResourceLimits answers.firmwareVersion defaultResourceLimits
  let memoryLimits := adjustMemoryLimits answers.firmwareVersion defaultMemoryLimits
  let extra ← extraThreads answers limits
  let (arrangement, memoryLimits) ← chooseMemoryArrangement answers memoryLimits
  let memoryLimits := adjustForAtmosphere answers.firmwareVersion memoryLimits
  let s ← setResourceLimitLimitValues answers .system (memoryLimits arrangement .system)
    ⟨limits, memoryLimits, arrangement, extra, kernelLimits⟩
  let s ← setResourceLimitLimitValues answers .application (memoryLimits arrangement .application) s
  setResourceLimitLimitValues answers .applet (memoryLimits arrangement .applet) s

/-! ## Boosts -/

/-- `BoostApplicationThreadResourceLimit`, with what the kernel answers -/
def boostApplicationThreadResourceLimit (answer : Except Nat Unit) (s : LimitState) : Except Nat Unit × LimitState :=
  let newThreadCount := s.resourceLimits .application .threads + s.extraApplicationThreadsAvailable
  match answer with
  | .error e => (.error e, s)
  | .ok () =>
    (.ok (), { s with
      kernelLimits := modifyAt .application .threads (fun _ => newThreadCount) s.kernelLimits
      resourceLimits := modifyAt .application .threads (fun _ => newThreadCount) s.resourceLimits
      extraApplicationThreadsAvailable := 0 })

/-- Boosts with what the kernel answers to them: all states from the first one on. -/
def runThreadBoosts : List (Except Nat Unit) → LimitState → List LimitState
  | [], s => [s]
  | answer :: answers, s => s :: runThreadBoosts answers (boostApplicationThreadResourceLimit answer s).2

/-- The threads that the three groups may have together. -/
def threadSum (limits : ResourceLimits) : Nat :=
  (limits .system .threads).toNat + (limits .application .threads).toNat + (limits .applet .threads).toNat

/-- No difference of numbers of threads wraps around. -/
structure NoThreadWrap (limits : ResourceLimits) (total : UInt64) : Prop where
  allocated : (limits .application .threads).toNat + (limits .applet .threads).toNat ≤ (limits .system .threads).toNat
  extra : (totalThreadsAllocated limits).toNat ≤ total.toNat

/-- What is committed is never more than what there is. -/
structure NeverOvercommitted (answers : InitAnswers) (total : UInt64) (states : List LimitState) : Prop where
  within : ∀ s ∈ states, threadSum s.kernelLimits ≤ total.toNat
  noWrap : NoThreadWrap (adjustResourceLimits answers.firmwareVersion defaultResourceLimits) total

section Init

variable {answers : InitAnswers} {s s' : LimitState} {group g : ResourceLimitGroup} {r : LimitableResource}
  {kernelLimits : ResourceLimits} {total : UInt64}

lemma modifyAt_self {α β : Type} [DecidableEq α] [DecidableEq β] (a : α) (b : β) (f : UInt64 → UInt64)
    (table : α → β → UInt64) : modifyAt a b f table a b = f (table a b) := by
  rw [modifyAt, Function.update_self, Function.update_self]

lemma modifyAt_of_ne {α β : Type} [DecidableEq α] [DecidableEq β] {a a' : α} {b b' : β} (f : UInt64 → UInt64)
    (table : α → β → UInt64) (h : a' ≠ a ∨ b' ≠ b) : modifyAt a b f table a' b' = table a' b' := by
  by_cases ha : a' = a
  · subst ha
    rw [modifyAt, Function.update_self, Function.update_of_ne (h.resolve_left (not_not.mpr rfl))]
  · rw [modifyAt, Function.update_of_ne ha]

lemma setLimitValue_eq_some (h : setLimitValue answers group s r = some s') :
    s' = { s with kernelLimits := modifyAt group r (fun _ => s.resourceLimits group r) s.kernelLimits } := by
  obtain ⟨u, -, hs⟩ := Option.map_eq_some_iff.mp h
  exact hs.symm

/-- Setting limits of other resources leaves the threads as they are. -/
structure KeepsThreads (s s' : LimitState) : Prop where
  table : ∀ g, s'.resourceLimits g .threads = s.resourceLimits g .threads
  extra : s'.extraApplicationThreadsAvailable = s.extraApplicationThreadsAvailable

/-- The limits of a group are set, those of other groups are left as they are. -/
lemma setResourceLimitLimitValues_threads {memory : UInt64}
    (h : setResourceLimitLimitValues answers group memory s = some s') :
    KeepsThreads s s' ∧ s'.kernelLimits group .threads = s.resourceLimits group .threads ∧
      ∀ g ≠ group, s'.kernelLimits g .threads = s.kernelLimits g .threads := by
  obtain ⟨s₁, h₁, h⟩ := Option.bind_eq_some_iff.mp h
  obtain ⟨s₂, h₂, h⟩ := Option.bind_eq_some_iff.mp h
  obtain ⟨s₃, h₃, h⟩ := Option.bind_eq_some_iff.mp h
  obtain ⟨s₄, h₄, h⟩ := Option.bind_eq_some_iff.mp h
  obtain ⟨s₅, h₅, h⟩ := Option.bind_eq_some_iff.mp h
  cases h
  have hs₁ := setLimitValue_eq_some h₁
  have hs₂ := setLimitValue_eq_some h₂
  have hs₃ := setLimitValue_eq_some h₃
  have hs₄ := setLimitValue_eq_some h₄
  have hs₅ := setLimitValue_eq_some h₅
  subst hs₁ hs₂ hs₃ hs₄ hs₅
  have hmemory : LimitableResource.threads ≠ .memory := nofun
  have hevents : LimitableResource.threads ≠ .events := nofun
  have htransferMemories : LimitableResource.threads ≠ .transferMemories := nofun
  have hsessions : LimitableResource.threads ≠ .sessions := nofun
  refine ⟨⟨fun g => ?_, rfl⟩, ?_, fun g hg => ?_⟩
  · dsimp only
    rw [modifyAt_of_ne _ _ (.inr hmemory)]
  · dsimp only
    rw [modifyAt_of_ne _ _ (.inr hsessions), modifyAt_of_ne _ _ (.inr htransferMemories),
      modifyAt_of_ne _ _ (.inr hevents), modifyAt_self, modifyAt_of_ne _ _ (.inr hmemory)]
  · dsimp only
    rw [modifyAt_of_ne _ _ (.inl hg), modifyAt_of_ne _ _ (.inl hg), modifyAt_of_ne _ _ (.inl hg),
      modifyAt_of_ne _ _ (.inl hg), modifyAt_of_ne _ _ (.inl hg)]

/-- After the initialization the kernel has the limits of the table. -/
lemma initializeResourceManager_threads (h : initializeResourceManager answers kernelLimits = some s) :
    extraThreads answers (adjustResourceLimits answers.firmwareVersion defaultResourceLimits) =
        some s.extraApplicationThreadsAvailable ∧
      ∀ g, s.resourceLimits g .threads = adjustResourceLimits answers.firmwareVersion defaultResourceLimits g .threads ∧
        s.kernelLimits g .threads = s.resourceLimits g .threads := by
  obtain ⟨u₁, -, h⟩ := Option.bind_eq_some_iff.mp h
  obtain ⟨u₂, -, h⟩ := Option.bind_eq_some_iff.mp h
  obtain ⟨u₃, -, h⟩ := Option.bind_eq_some_iff.mp h
  obtain ⟨extra, hextra, h⟩ := Option.bind_eq_some_iff.mp h
  obtain ⟨⟨arrangement, memoryLimits⟩, -, h⟩ := Option.bind_eq_some_iff.mp h
  obtain ⟨s₁, h₁, h⟩ := Option.bind_eq_some_iff.mp h
  obtain ⟨s₂, h₂, h₃⟩ := Option.bind_eq_some_iff.mp h
  obtain ⟨hkeeps₁, hset₁, -⟩ := setResourceLimitLimitValues_threads h₁
  obtain ⟨hkeeps₂, hset₂, hothers₂⟩ := setResourceLimitLimitValues_threads h₂
  obtain ⟨hkeeps₃, hset₃, hothers₃⟩ := setResourceLimitLimitValues_threads h₃
  refine ⟨?_, fun g => ⟨?_, ?_⟩⟩
  · rw [hextra, hkeeps₃.extra, hkeeps₂.extra, hkeeps₁.extra]
  · rw [hkeeps₃.table, hkeeps₂.table, hkeeps₁.table]
  · cases g with
    | system =>
      have happlication : ResourceLimitGroup.system ≠ .application := nofun
      have happlet : ResourceLimitGroup.system ≠ .applet := nofun
      rw [hothers₃ _ happlet, hothers₂ _ happlication, hset₁, hkeeps₃.table, hkeeps₂.table, hkeeps₁.table]
    | application =>
      have happlet : ResourceLimitGroup.application ≠ .applet := nofun
      rw [hothers₃ _ happlet, hset₂, hkeeps₃.table, hkeeps₂.table]
    | applet => rw [hset₃, hkeeps₃.table]

/-- The threads of the table on 7.0.0 and later. -/
lemma threads_of_firmware700 {firmwareVersion : Nat} (h : firmwareVersion700 ≤ firmwareVersion) :
    adjustResourceLimits firmwareVersion defaultResourceLimits .system .threads = 608 ∧
      adjustResourceLimits firmwareVersion defaultResourceLimits .application .threads = 96 ∧
      adjustResourceLimits firmwareVersion defaultResourceLimits .applet .threads = 96 := by
  have h400 : firmwareVersion400 ≤ firmwareVersion := Nat.le_trans (by decide) h
  have h600 : firmwareVersion600 ≤ firmwareVersion := Nat.le_trans (by decide) h
  rw [adjustResourceLimits, if_pos h400, if_pos h600]
  decide

/-- What is known of the threads after the initialization. -/
structure Initialized (total : UInt64) (s : LimitState) : Prop where
  system : s.kernelLimits .system .threads = 608
  application : s.kernelLimits .application .threads = 96
  applet : s.kernelLimits .applet .threads = 96
  table : s.resourceLimits .application .threads = 96
  extra : s.extraApplicationThreadsAvailable = total - 416
  enough : 416 ≤ total

/-- The table gives away 800 threads, but 416 are asked for. -/
lemma initialized (hfirmware : firmwareVersion700 ≤ answers.firmwareVersion)
    (htotal : answers.totalThreadsAvailable = .ok total)
    (h : initializeResourceManager answers kernelLimits = some s) : Initialized total s := by
  obtain ⟨hextra, hlimits⟩ := initializeResourceManager_threads h
  obtain ⟨hsystem, happlication, happlet⟩ := threads_of_firmware700 hfirmware
  have hallocated :
      totalThreadsAllocated (adjustResourceLimits answers.firmwareVersion defaultResourceLimits) = 416 := by
    rw [totalThreadsAllocated, hsystem, happlication, happlet]
    rfl
  rw [extraThreads, if_pos hfirmware, htotal, hallocated] at hextra
  have hextra : (if total < 416 then none else some (total - 416)) = some s.extraApplicationThreadsAvailable := hextra
  split at hextra
  · cases hextra
  · next henough =>
    refine ⟨?_, ?_, ?_, ?_, (Option.some.inj hextra).symm, UInt64.not_lt.mp henough⟩
    · rw [(hlimits .system).2, (hlimits .system).1, hsystem]
    · rw [(hlimits .application).2, (hlimits .application).1, happlication]
    · rw [(hlimits .applet).2, (hlimits .applet).1, happlet]
    · rw [(hlimits .application).1, happlication]

/-- No difference wraps around: the groups and the total are large enough for what is taken from them. -/
lemma Initialized.noWrap (h : Initialized total s) (hfirmware : firmwareVersion700 ≤ answers.firmwareVersion) :
    NoThreadWrap (adjustResourceLimits answers.firmwareVersion defaultResourceLimits) total := by
  obtain ⟨hsystem, happlication, happlet⟩ := threads_of_firmware700 hfirmware
  refine ⟨?_, ?_⟩
  · rw [hsystem, happlication, happlet]
    decide
  · rw [totalThreadsAllocated, hsystem, happlication, happlet]
    exact UInt64.le_iff_toNat_le.mp h.enough

end Init

section Boosts

variable {answers : InitAnswers} {s t : LimitState} {kernelLimits : ResourceLimits} {total : UInt64}
  {outcome : Except Nat Unit} {outcomes : List (Except Nat Unit)}

/-- A boost that fails changes nothing. -/
lemma boostApplicationThreadResourceLimit_of_ne_ok (h : outcome ≠ .ok ()) :
    (boostApplicationThreadResourceLimit outcome s).2 = s := by
  cases outcome with
  | ok _ => exact absurd rfl h
  | error _ => rfl

lemma mem_runThreadBoosts_self : s ∈ runThreadBoosts outcomes s := by
  cases outcomes with
  | nil => exact List.mem_singleton_self s
  | cons _ _ => exact List.mem_cons_self

/-- As long as all boosts fail the state is the first one. -/
lemma eq_of_mem_runThreadBoosts (h : ∀ o ∈ outcomes, o ≠ .ok ()) (ht : t ∈ runThreadBoosts outcomes s) : t = s := by
  induction outcomes with
  | nil => exact List.mem_singleton.mp ht
  | cons outcome outcomes ih =>
    rw [runThreadBoosts, boostApplicationThreadResourceLimit_of_ne_ok (h outcome List.mem_cons_self)] at ht
    rcases List.mem_cons.mp ht with ht | ht
    · exact ht
    · exact ih (fun o ho => h o (List.mem_cons_of_mem _ ho)) ht

/-- The first boost that goes through is visited by the run. -/
lemma boosted_mem_runThreadBoosts (h : .ok () ∈ outcomes) :
    (boostApplicationThreadResourceLimit (.ok ()) s).2 ∈ runThreadBoosts outcomes s := by
  induction outcomes with
  | nil => cases h
  | cons outcome outcomes ih =>
    refine List.mem_cons_of_mem _ ?_
    cases outcome with
    | ok _ => exact mem_runThreadBoosts_self
    | error _ =>
      rcases List.mem_cons.mp h with hok | h
      · cases hok
      · exact ih h

lemma Initialized.threadSum_eq (h : Initialized total s) : threadSum s.kernelLimits = 800 := by
  rw [threadSum, h.system, h.application, h.applet]
  rfl

/-- A boost that goes through gives the application 384 threads more than there are. -/
lemma Initialized.threadSum_boosted (h : Initialized total s) :
    threadSum (boostApplicationThreadResourceLimit (.ok ()) s).2.kernelLimits = total.toNat + 384 := by
  have hsystem : ResourceLimitGroup.system ≠ .application := nofun
  have happlet : ResourceLimitGroup.applet ≠ .application := nofun
  have henough : 416 ≤ total.toNat := UInt64.le_iff_toNat_le.mp h.enough
  have hextra : (total - 416).toNat = total.toNat - 416 := UInt64.toNat_sub_of_le _ _ h.enough
  have hcount : (96 + (total - 416)).toNat = 96 + (total.toNat - 416) := by
    have htable : (96 : UInt64).toNat = 96 := rfl
    have hlt := total.toNat_lt
    rw [UInt64.toNat_add, hextra, htable]
    exact Nat.mod_eq_of_lt (by omega)
  rw [threadSum, boostApplicationThreadResourceLimit]
  dsimp only
  rw [modifyAt_of_ne _ _ (.inl hsystem), modifyAt_self, modifyAt_of_ne _ _ (.inl happlet), h.system, h.applet,
    h.table, h.extra, hcount]
  change 608 + (96 + (total.toNat - 416)) + 96 = total.toNat + 384
  omega

end Boosts

/-- On 7.0.0 and later the threads are overcommitted from the start if the kernel has less than 800 of them, and
else as soon as a boost goes through. -/
theorem neverOvercommitted_iff {answers : InitAnswers} {kernelLimits : ResourceLimits} {total : UInt64}
    {s : LimitState} {outcomes : List (Except Nat Unit)} (hfirmware : firmwareVersion700 ≤ answers.firmwareVersion)
    (htotal : answers.totalThreadsAvailable = .ok total)
    (hinit : initializeResourceManager answers kernelLimits = some s) :
    NeverOvercommitted answers total (runThreadBoosts outcomes s) ↔
      800 ≤ total.toNat ∧ ∀ o ∈ outcomes, o ≠ .ok () := by
  have hs := initialized hfirmware htotal hinit
  constructor
  · intro h
    have hstart := h.within s mem_runThreadBoosts_self
    rw [hs.threadSum_eq] at hstart
    refine ⟨hstart, ?_⟩
    rintro o ho rfl
    have hboosted := h.within _ (boosted_mem_runThreadBoosts ho)
    rw [hs.threadSum_boosted] at hboosted
    omega
  · rintro ⟨htotal, hfailed⟩
    refine ⟨?_, hs.noWrap hfirmware⟩
    intro t ht
    rw [eq_of_mem_runThreadBoosts hfailed ht, hs.threadSum_eq]
    exact htotal

/-- A kernel that answers all calls. -/
def answersWith (total : UInt64) : InitAnswers where
  firmwareVersion := firmwareVersion700
  resourceLimit := fun _ => .ok ()
  totalThreadsAvailable := .ok total
  totalMemory := .ok (4096 * megabyte)
  applicationSize := .ok (3285 * megabyte)
  appletSize := .ok (507 * megabyte)
  memoryArrangement := .ok .standard
  setLimit := fun _ _ => .ok ()

/-- A boost that the kernel refuses. -/
theorem neverOvercommitted_failed_boost :
    ∃ s, initializeResourceManager (answersWith 800) (fun _ _ => 0) = some s ∧
      NeverOvercommitted (answersWith 800) 800 (runThreadBoosts [.error 1] s) := by
  obtain ⟨s, hs⟩ := Option.isSome_iff_exists.mp
    (show (initializeResourceManager (answersWith 800) fun _ _ => 0).isSome from rfl)
  refine ⟨s, hs, (neverOvercommitted_iff le_rfl rfl hs).mpr ⟨le_rfl, ?_⟩⟩
  rintro o ho rfl
  cases List.mem_singleton.mp ho

/-- A boost that succeeds: the limits add up to 1184 of 800 threads. -/
theorem overcommitted_boost :
    ∃ s, initializeResourceManager (answersWith 800) (fun _ _ => 0) = some s ∧
      ¬ NeverOvercommitted (answersWith 800) 800 (runThreadBoosts [.ok ()] s) := by
  obtain ⟨s, hs⟩ := Option.isSome_iff_exists.mp
    (show (initializeResourceManager (answersWith 800) fun _ _ => 0).isSome from rfl)
  refine ⟨s, hs, fun h => ?_⟩
  have hboosted := h.within _ (boosted_mem_runThreadBoosts List.mem_cons_self)
  rw [(initialized le_rfl rfl hs).threadSum_boosted] at hboosted
  exact absurd hboosted (by decide)

end RajNX.Pm.Limits
