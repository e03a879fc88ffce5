import Mathlib.Tactic

/-!
# Kernel capabilities

`ValidateCapabilities` of `ldr_capabilities.cpp`. A list of 32-bit words says which kernel capabilities a
process has. The number of ones below the lowest zero of a word says of which kind it is, and the bits
above are its value. The list that a process asks for is checked, word by word, against the restriction
that was signed.

`Grants` says what a word stands for, and what a list does: what a process asks for is part of what the
restriction grants.
-/

namespace RajNX.Loader

/-- `CapabilityId`, with the numbers that stand for nothing -/
inductive CapabilityId
  | kernelFlags
  | syscallMask
  | mapRange
  | mapPage
  | interruptPair
  | applicationType
  | kernelVersion
  | handleTable
  | debugFlags
  | empty
  | unknown (bits : Nat)
deriving Repr, DecidableEq

/-- The number of a kind. -/
def CapabilityId.bits : CapabilityId → Nat
  | .kernelFlags => 3
  | .syscallMask => 4
  | .mapRange => 6
  | .mapPage => 7
  | .interruptPair => 11
  | .applicationType => 13
  | .kernelVersion => 14
  | .handleTable => 15
  | .debugFlags => 16
  | .empty => 32
  | .unknown bits => bits

/-- The kind of a number. -/
def CapabilityId.ofBits : Nat → CapabilityId
  | 3 => .kernelFlags
  | 4 => .syscallMask
  | 6 => .mapRange
  | 7 => .mapPage
  | 11 => .interruptPair
  | 13 => .applicationType
  | 14 => .kernelVersion
  | 15 => .handleTable
  | 16 => .debugFlags
  | 32 => .empty
  | bits => .unknown bits

/-- `__builtin_ctz`, which is 32 for zero -/
def builtinCtz (v : UInt32) : Nat := ((List.range 32).find? v.toNat.testBit).getD 32

/-- `GetCapabilityId` -/
def getCapabilityId (cap : UInt32) : CapabilityId := .ofBits (builtinCtz (~~~cap))

/-- `GetValue` of a capability of some kind -/
def getValue (id : CapabilityId) (cap : UInt32) : Nat := cap.toNat >>> (id.bits + 1)

/-- Some bits of the value. -/
def getField (id : CapabilityId) (shift mask : Nat) (cap : UInt32) : Nat :=
  (getValue id cap >>> shift) &&& mask

/-! ## Checks of single words -/

/-- A loop over the restriction in which the first word of a kind decides. -/
def checkFirst (id : CapabilityId) (kac : List UInt32) (accepts : UInt32 → Bool) : Bool :=
  match kac.find? (getCapabilityId · = id) with
  | none => false
  | some restriction => accepts restriction

/-- A loop over the restriction in which any word of a kind may accept. -/
def checkAny (id : CapabilityId) (kac : List UInt32) (accepts : UInt32 → Bool) : Bool :=
  kac.any fun restriction => getCapabilityId restriction = id && accepts restriction

namespace KernelFlags

/-- `GetMaximumThreadPriority` -/
def getMaximumThreadPriority : UInt32 → Nat := getField .kernelFlags 0 0x3F

/-- `GetMinimumThreadPriority` -/
def getMinimumThreadPriority : UInt32 → Nat := getField .kernelFlags 6 0x3F

/-- `GetMinimumCoreId` -/
def getMinimumCoreId : UInt32 → Nat := getField .kernelFlags 12 0xFF

/-- `GetMaximumCoreId` -/
def getMaximumCoreId : UInt32 → Nat := getField .kernelFlags 20 0xFF

/-- `IsValid` -/
def isValid (cap : UInt32) (kac : List UInt32) : Bool :=
  checkFirst .kernelFlags kac fun restriction =>
    if getMinimumThreadPriority cap < getMinimumThreadPriority restriction ∨
        getMaximumThreadPriority cap > getMaximumThreadPriority restriction ∨
        getMinimumThreadPriority cap > getMaximumThreadPriority cap then false
    else if getMinimumCoreId cap < getMinimumCoreId restriction ∨
        getMaximumCoreId cap > getMaximumCoreId restriction ∨
        getMinimumCoreId cap > getMaximumCoreId cap then false
    else true

end KernelFlags

namespace SyscallMask

/-- `GetMask` -/
def getMask : UInt32 → Nat := getField .syscallMask 0 0xFFFFFF

/-- `GetIndex` -/
def getIndex : UInt32 → Nat := getField .syscallMask 24 0x7

/-- `IsValid` -/
def isValid (cap : UInt32) (kac : List UInt32) : Bool :=
  checkAny .syscallMask kac fun restriction =>
    getIndex cap = getIndex restriction && getMask cap = getMask restriction

end SyscallMask

namespace MapPage

/-- `GetAddress` -/
def getAddress : UInt32 → Nat := getField .mapPage 0 0xFFFFFF

/-- `IsValid` -/
def isValid (cap : UInt32) (kac : List UInt32) : Bool :=
  checkAny .mapPage kac fun restriction => getValue .mapPage cap = getValue .mapPage restriction

end MapPage

namespace InterruptPair

/-- `EmptyInterruptId` -/
def emptyInterruptId : Nat := 0x3FF

/-- `GetInterruptId0` -/
def getInterruptId0 : UInt32 → Nat := getField .interruptPair 0 0x3FF

/-- `GetInterruptId1` -/
def getInterruptId1 : UInt32 → Nat := getField .interruptPair 10 0x3FF

/-- `IsSingleIdValid` -/
def isSingleIdValid (id : Nat) (kac : List UInt32) : Bool :=
  checkAny .interruptPair kac fun restriction =>
    (getInterruptId0 restriction = emptyInterruptId && getInterruptId1 restriction = emptyInterruptId) ||
      (getInterruptId0 restriction = id || getInterruptId1 restriction = id)

/-- `IsValid` -/
def isValid (cap : UInt32) (kac : List UInt32) : Bool :=
  isSingleIdValid (getInterruptId0 cap) kac && isSingleIdValid (getInterruptId1 cap) kac

end InterruptPair

namespace ApplicationType

/-- `GetApplicationType` -/
def getApplicationType : UInt32 → Nat := getField .applicationType 0 0x3

/-- `IsValid` -/
def isValid (cap : UInt32) (kac : List UInt32) : Bool :=
  checkFirst .applicationType kac fun restriction =>
    getValue .applicationType restriction = getValue .applicationType cap

end ApplicationType

namespace KernelVersion

/-- `GetMinorVersion` -/
def getMinorVersion : UInt32 → Nat := getField .kernelVersion 0 0xF

/-- `GetMajorVersion` -/
def getMajorVersion : UInt32 → Nat := getField .kernelVersion 4 0x1FFF

/-- `IsValid` -/
def isValid (cap : UInt32) (kac : List UInt32) : Bool :=
  checkFirst .kernelVersion kac fun restriction =>
    getValue .kernelVersion restriction = getValue .kernelVersion cap

end KernelVersion

namespace HandleTable

/-- `GetSize` -/
def getSize : UInt32 → Nat := getField .handleTable 0 0x3FF

/-- `IsValid` -/
def isValid (cap : UInt32) (kac : List UInt32) : Bool :=
  checkFirst .handleTable kac fun restriction => getSize cap ≤ getSize restriction

end HandleTable

namespace DebugFlags

/-- `GetAllowDebug` -/
def getAllowDebug (cap : UInt32) : Bool := getField .debugFlags 0 1 cap ≠ 0

/-- `GetForceDebug` -/
def getForceDebug (cap : UInt32) : Bool := getField .debugFlags 1 1 cap ≠ 0

/-- `IsValid` -/
def isValid (cap : UInt32) (kac : List UInt32) : Bool :=
  checkFirst .debugFlags kac fun restriction =>
    (getValue .debugFlags restriction &&& getValue .debugFlags cap) = getValue .debugFlags cap

end DebugFlags

/-! ## Ranges of two words -/

namespace MapRange

/-- `SizeMax` -/
def sizeMax : Nat := 0x100000

/-- `GetAddressSize` -/
def getAddressSize : UInt32 → Nat := getField .mapRange 0 0xFFFFFF

/-- `GetFlag` -/
def getFlag : UInt32 → Nat := getField .mapRange 24 0x1

/-- The loop of `IsValid` over the restriction, which takes two words at a time. -/
def matchesRestriction (cap next : UInt32) : List UInt32 → Bool
  | [] => false
  | restriction :: kac =>
    if getCapabilityId restriction = .mapRange then
      match kac with
      | [] => false
      | restrictionNext :: kac =>
        if getCapabilityId restrictionNext ≠ .mapRange then false
        else
          let start := getAddressSize cap
          let last := (start + getAddressSize next) % 2 ^ 32
          let restrictionStart := getAddressSize restriction
          let restrictionSize := getAddressSize restrictionNext
          let restrictionLast := (restrictionStart + restrictionSize) % 2 ^ 32
          if restrictionSize ≥ sizeMax then matchesRestriction cap next kac
          else if getFlag cap = getFlag restriction ∧ getFlag next = getFlag restrictionNext ∧
              restrictionStart ≤ start ∧ start ≤ restrictionLast ∧ last ≤ restrictionLast then true
          else matchesRestriction cap next kac
    else matchesRestriction cap next kac

/-- `IsValid` -/
def isValid (cap next : UInt32) (kac : List UInt32) : Bool :=
  if getCapabilityId next ≠ .mapRange then false
  else if getAddressSize next ≥ sizeMax then false
  else matchesRestriction cap next kac

end MapRange

/-! ## Lists -/

/-- The results of the check. -/
inductive CapabilityResult
  | success
  | invalidCapability (id : CapabilityId)
  | unknownCapability
deriving Repr, DecidableEq

/-- `VALIDATE_CASE`, and the other cases of one word -/
def isValidWord (cap : UInt32) (kac : List UInt32) : CapabilityId → Bool
  | .kernelFlags => KernelFlags.isValid cap kac
  | .syscallMask => SyscallMask.isValid cap kac
  | .mapPage => MapPage.isValid cap kac
  | .interruptPair => InterruptPair.isValid cap kac
  | .applicationType => ApplicationType.isValid cap kac
  | .kernelVersion => KernelVersion.isValid cap kac
  | .handleTable => HandleTable.isValid cap kac
  | .debugFlags => DebugFlags.isValid cap kac
  | .mapRange => false
  | .empty => true
  | .unknown _ => false

/-- `ValidateCapabilities` -/
def validateCapabilities (acid : List UInt32) : List UInt32 → CapabilityResult
  | [] => .success
  | cur :: aci =>
    match getCapabilityId cur with
    | .mapRange =>
      match aci with
      | [] => .invalidCapability .mapRange
      | next :: aci =>
        if MapRange.isValid cur next acid then validateCapabilities acid aci
        else .invalidCapability .mapRange
    | .unknown _ => .unknownCapability
    | id => if isValidWord cur acid id then validateCapabilities acid aci else .invalidCapability id

/-- `ProgramInfoFlag_InvalidType`, which is also `ProgramInfoFlag_ApplicationTypeMask` -/
def programInfoFlagInvalidType : Nat := 3

/-- `ProgramInfoFlag_AllowDebug` -/
def programInfoFlagAllowDebug : Nat := 1 <<< 2

/-- `GetProgramInfoFlags` -/
def getProgramInfoFlags (caps : List UInt32) : Nat :=
  caps.foldl (fun flags cap =>
    match getCapabilityId cap with
    | .applicationType =>
      let appType := ApplicationType.getApplicationType cap &&& programInfoFlagInvalidType
      if appType ≠ programInfoFlagInvalidType then flags ||| appType else flags
    | .debugFlags =>
      if DebugFlags.getAllowDebug cap then flags ||| programInfoFlagAllowDebug else flags
    | _ => flags) 0

/-- The word of a kind with a value. -/
def encodeCapability (id : CapabilityId) (value : Nat) : UInt32 :=
  .ofNat ((value <<< (id.bits + 1)) ||| (1 <<< id.bits - 1))

/-- `CapabilityApplicationType::Encode` -/
def ApplicationType.encode (appType : Nat) : UInt32 := encodeCapability .applicationType (appType &&& 3)

/-- `CapabilityDebugFlags::Encode` -/
def DebugFlags.encode (allowDebug forceDebug : Bool) : UInt32 :=
  encodeCapability .debugFlags ((forceDebug.toNat <<< 1) ||| (allowDebug.toNat <<< 0))

/-- `SetProgramInfoFlags` -/
def setProgramInfoFlags (flags : Nat) (caps : List UInt32) : List UInt32 :=
  caps.map fun cap =>
    match getCapabilityId cap with
    | .applicationType => ApplicationType.encode (flags &&& programInfoFlagInvalidType)
    | .debugFlags =>
      DebugFlags.encode (flags &&& programInfoFlagAllowDebug ≠ 0) (DebugFlags.getForceDebug cap)
    | _ => cap

/-! ## What capabilities stand for -/

/-- What a process may do. -/
inductive Authority
  | thread (priority core : Nat)
  | syscall (number : Nat)
  | mapRange (page flag nextFlag : Nat)
  | mapPage (page : Nat)
  | interrupt (id : Nat)
  | applicationType (type : Nat)
  | kernelVersion (major minor : Nat)
  | handles (count : Nat)
  | allowDebug
  | forceDebug

/-- What a word stands for, of a kind that has one word. An interrupt that is empty is none. -/
inductive Grants (cap : UInt32) : Authority → Prop
  | thread {priority core : Nat} : getCapabilityId cap = .kernelFlags →
    KernelFlags.getMinimumThreadPriority cap ≤ priority →
    priority ≤ KernelFlags.getMaximumThreadPriority cap → KernelFlags.getMinimumCoreId cap ≤ core →
    core ≤ KernelFlags.getMaximumCoreId cap → Grants cap (.thread priority core)
  | syscall {bit : Nat} : getCapabilityId cap = .syscallMask → (SyscallMask.getMask cap).testBit bit →
    Grants cap (.syscall (24 * SyscallMask.getIndex cap + bit))
  | mapPage : getCapabilityId cap = .mapPage → Grants cap (.mapPage (MapPage.getAddress cap))
  | interrupt0 : getCapabilityId cap = .interruptPair →
    InterruptPair.getInterruptId0 cap ≠ InterruptPair.emptyInterruptId →
    Grants cap (.interrupt (InterruptPair.getInterruptId0 cap))
  | interrupt1 : getCapabilityId cap = .interruptPair →
    InterruptPair.getInterruptId1 cap ≠ InterruptPair.emptyInterruptId →
    Grants cap (.interrupt (InterruptPair.getInterruptId1 cap))
  | applicationType : getCapabilityId cap = .applicationType →
    Grants cap (.applicationType (ApplicationType.getApplicationType cap))
  | kernelVersion : getCapabilityId cap = .kernelVersion →
    Grants cap (.kernelVersion (KernelVersion.getMajorVersion cap) (KernelVersion.getMinorVersion cap))
  | handles {count : Nat} : getCapabilityId cap = .handleTable → count ≤ HandleTable.getSize cap →
    Grants cap (.handles count)
  | allowDebug : getCapabilityId cap = .debugFlags → DebugFlags.getAllowDebug cap = true →
    Grants cap .allowDebug
  | forceDebug : getCapabilityId cap = .debugFlags → DebugFlags.getForceDebug cap = true →
    Grants cap .forceDebug

/-- The ranges of a list, as pairs of words that follow each other. -/
def mapRanges : List UInt32 → List (UInt32 × UInt32)
  | cap :: next :: caps =>
    if getCapabilityId cap = .mapRange ∧ getCapabilityId next = .mapRange then
      (cap, next) :: mapRanges caps
    else mapRanges (next :: caps)
  | _ => []

/-- What a list stands for. -/
inductive Denotes (caps : List UInt32) : Authority → Prop
  | word {cap : UInt32} {a : Authority} : cap ∈ caps → Grants cap a → Denotes caps a
  | range {cap next : UInt32} {page : Nat} : (cap, next) ∈ mapRanges caps →
    MapRange.getAddressSize cap ≤ page →
    page < MapRange.getAddressSize cap + MapRange.getAddressSize next →
    Denotes caps (.mapRange page (MapRange.getFlag cap) (MapRange.getFlag next))

/-- What a restriction stands for. A pair of empty interrupts is any interrupt. -/
inductive Permits (acid : List UInt32) : Authority → Prop
  | denotes {a : Authority} : Denotes acid a → Permits acid a
  | anyInterrupt {cap : UInt32} {id : Nat} : cap ∈ acid → getCapabilityId cap = .interruptPair →
    InterruptPair.getInterruptId0 cap = InterruptPair.emptyInterruptId →
    InterruptPair.getInterruptId1 cap = InterruptPair.emptyInterruptId →
    Permits acid (.interrupt id)

section Soundness

variable {kac acid aci : List UInt32} {cap next : UInt32} {id : CapabilityId} {a : Authority}
  {accepts : UInt32 → Bool}

lemma checkFirst_eq_true (h : checkFirst id kac accepts = true) :
    ∃ r ∈ kac, getCapabilityId r = id ∧ accepts r = true := by
  unfold checkFirst at h
  split at h
  · cases h
  · next r hr => exact ⟨r, List.mem_of_find?_eq_some hr, by simpa using List.find?_some hr, h⟩

lemma checkAny_eq_true (h : checkAny id kac accepts = true) : ∃ r ∈ kac, getCapabilityId r = id ∧ accepts r = true := by
  obtain ⟨r, hr, haccepts⟩ := List.any_eq_true.mp h
  rw [Bool.and_eq_true, decide_eq_true_eq] at haccepts
  exact ⟨r, hr, haccepts⟩

/-- A word that stands for what another one does is enough. -/
lemma Permits.of_mem {r : UInt32} (hr : r ∈ kac) (h : Grants r a) : Permits kac a := .denotes (.word hr h)

lemma KernelFlags.permits {priority core : Nat} (h : isValid cap kac = true)
    (hmin : getMinimumThreadPriority cap ≤ priority) (hmax : priority ≤ getMaximumThreadPriority cap)
    (hminCore : getMinimumCoreId cap ≤ core) (hmaxCore : core ≤ getMaximumCoreId cap) :
    Permits kac (.thread priority core) := by
  obtain ⟨r, hr, hid, haccepts⟩ := checkFirst_eq_true h
  split at haccepts
  · cases haccepts
  · next hpriority =>
    split at haccepts
    · cases haccepts
    · next hcore => exact .of_mem hr (.thread hid (by omega) (by omega) (by omega) (by omega))

lemma SyscallMask.permits {bit : Nat} (h : isValid cap kac = true) (hbit : (getMask cap).testBit bit) :
    Permits kac (.syscall (24 * getIndex cap + bit)) := by
  obtain ⟨r, hr, hid, haccepts⟩ := checkAny_eq_true h
  rw [Bool.and_eq_true, decide_eq_true_eq, decide_eq_true_eq] at haccepts
  rw [haccepts.2] at hbit
  rw [haccepts.1]
  exact .of_mem hr (.syscall hid hbit)

lemma MapPage.permits (h : isValid cap kac = true) : Permits kac (.mapPage (getAddress cap)) := by
  obtain ⟨r, hr, hid, haccepts⟩ := checkAny_eq_true h
  have haddress : getAddress cap = getAddress r := by
    rw [getAddress, getField, getField, of_decide_eq_true haccepts]
  rw [haddress]
  exact .of_mem hr (.mapPage hid)

/-- An interrupt is permitted by a word that names it, or by an empty pair. -/
lemma InterruptPair.permits {id : Nat} (h : isSingleIdValid id kac = true) (hid : id ≠ emptyInterruptId) :
    Permits kac (.interrupt id) := by
  obtain ⟨r, hr, hkind, haccepts⟩ := checkAny_eq_true h
  simp only [Bool.or_eq_true, Bool.and_eq_true, decide_eq_true_eq] at haccepts
  rcases haccepts with ⟨h0, h1⟩ | rfl | rfl
  · exact .anyInterrupt hr hkind h0 h1
  · exact .of_mem hr (.interrupt0 hkind hid)
  · exact .of_mem hr (.interrupt1 hkind hid)

lemma ApplicationType.permits (h : isValid cap kac = true) :
    Permits kac (.applicationType (getApplicationType cap)) := by
  obtain ⟨r, hr, hid, haccepts⟩ := checkFirst_eq_true h
  have htype : getApplicationType cap = getApplicationType r := by
    rw [getApplicationType, getField, getField, of_decide_eq_true haccepts]
  rw [htype]
  exact .of_mem hr (.applicationType hid)

lemma KernelVersion.permits (h : isValid cap kac = true) :
    Permits kac (.kernelVersion (getMajorVersion cap) (getMinorVersion cap)) := by
  obtain ⟨r, hr, hid, haccepts⟩ := checkFirst_eq_true h
  have hvalue := of_decide_eq_true haccepts
  have hmajor : getMajorVersion cap = getMajorVersion r := by
    rw [getMajorVersion, getField, getField, hvalue]
  have hminor : getMinorVersion cap = getMinorVersion r := by
    rw [getMinorVersion, getField, getField, hvalue]
  rw [hmajor, hminor]
  exact .of_mem hr (.kernelVersion hid)

lemma HandleTable.permits {count : Nat} (h : isValid cap kac = true) (hcount : count ≤ getSize cap) :
    Permits kac (.handles count) := by
  obtain ⟨r, hr, hid, haccepts⟩ := checkFirst_eq_true h
  exact .of_mem hr (.handles hid (hcount.trans (of_decide_eq_true haccepts)))

/-- A flag of the value is a bit of it. -/
lemma DebugFlags.flag_eq (shift : Nat) (cap : UInt32) :
    decide (getField .debugFlags shift 1 cap ≠ 0) = (getValue .debugFlags cap).testBit shift := by
  rw [getField, Nat.testBit, Nat.and_comm, decide_not]
  rfl

/-- The flags of a word are among those of the restriction. -/
lemma DebugFlags.isValid_flags (h : isValid cap kac = true) :
    ∃ r ∈ kac, getCapabilityId r = .debugFlags ∧
      ∀ shift, (getValue .debugFlags cap).testBit shift = true →
        (getValue .debugFlags r).testBit shift = true := by
  obtain ⟨r, hr, hid, haccepts⟩ := checkFirst_eq_true h
  refine ⟨r, hr, hid, fun shift hbit => ?_⟩
  rw [← of_decide_eq_true haccepts, Nat.testBit_and, Bool.and_eq_true] at hbit
  exact hbit.1

/-- A word that passes its check is permitted all it stands for. -/
lemma permits_of_isValidWord (hid : getCapabilityId cap = id) (h : isValidWord cap kac id = true)
    (ha : Grants cap a) : Permits kac a := by
  subst hid
  cases ha with
  | thread hid hmin hmax hminCore hmaxCore =>
    rw [hid] at h
    exact KernelFlags.permits h hmin hmax hminCore hmaxCore
  | syscall hid hbit =>
    rw [hid] at h
    exact SyscallMask.permits h hbit
  | mapPage hid =>
    rw [hid] at h
    exact MapPage.permits h
  | interrupt0 hid hne =>
    rw [hid] at h
    exact InterruptPair.permits (Bool.and_eq_true_iff.mp h).1 hne
  | interrupt1 hid hne =>
    rw [hid] at h
    exact InterruptPair.permits (Bool.and_eq_true_iff.mp h).2 hne
  | applicationType hid =>
    rw [hid] at h
    exact ApplicationType.permits h
  | kernelVersion hid =>
    rw [hid] at h
    exact KernelVersion.permits h
  | handles hid hcount =>
    rw [hid] at h
    exact HandleTable.permits h hcount
  | allowDebug hid hflag =>
    rw [hid] at h
    obtain ⟨r, hr, hkind, hflags⟩ := DebugFlags.isValid_flags h
    refine .of_mem hr (.allowDebug hkind ?_)
    exact (DebugFlags.flag_eq 0 r).trans (hflags 0 ((DebugFlags.flag_eq 0 cap).symm.trans hflag))
  | forceDebug hid hflag =>
    rw [hid] at h
    obtain ⟨r, hr, hkind, hflags⟩ := DebugFlags.isValid_flags h
    refine .of_mem hr (.forceDebug hkind ?_)
    exact (DebugFlags.flag_eq 1 r).trans (hflags 1 ((DebugFlags.flag_eq 1 cap).symm.trans hflag))

/-- Addresses and sizes have 24 bits. -/
lemma MapRange.getAddressSize_le (cap : UInt32) : getAddressSize cap ≤ 0xFFFFFF := Nat.and_le_right

lemma MapRange.end_mod (cap next : UInt32) :
    (getAddressSize cap + getAddressSize next) % 2 ^ 32 = getAddressSize cap + getAddressSize next := by
  have hcap := getAddressSize_le cap
  have hnext := getAddressSize_le next
  exact Nat.mod_eq_of_lt (by omega)

lemma mapRanges_cons_of_ne (h : getCapabilityId cap ≠ .mapRange) : mapRanges (cap :: kac) = mapRanges kac := by
  cases kac with
  | nil => rfl
  | cons next kac => rw [mapRanges, if_neg fun hboth => h hboth.1]

lemma mapRanges_cons_cons (h : getCapabilityId cap = .mapRange) (hnext : getCapabilityId next = .mapRange) :
    mapRanges (cap :: next :: kac) = (cap, next) :: mapRanges kac := by
  rw [mapRanges, if_pos ⟨h, hnext⟩]

/-- A range that passes its check is inside one of the restriction, with the same flags. -/
lemma MapRange.matchesRestriction_eq_true (h : matchesRestriction cap next kac = true) :
    ∃ r r', (r, r') ∈ mapRanges kac ∧ getFlag cap = getFlag r ∧ getFlag next = getFlag r' ∧
      getAddressSize r ≤ getAddressSize cap ∧
      getAddressSize cap + getAddressSize next ≤ getAddressSize r + getAddressSize r' := by
  fun_induction matchesRestriction cap next kac with
  | case1 => cases h
  | case2 _ _ => cases h
  | case3 _ _ _ _ _ => cases h
  | case4 r hid r' kac hid' _ _ ih =>
    obtain ⟨q, q', hmem, hcovers⟩ := ih h
    rw [mapRanges_cons_cons hid (not_not.mp hid')]
    exact ⟨q, q', List.mem_cons_of_mem _ hmem, hcovers⟩
  | case5 r hid r' kac hid' start last restrictionStart restrictionSize restrictionLast _ haccepts =>
    obtain ⟨hflag, hnextFlag, hstart, -, hlast⟩ := haccepts
    rw [mapRanges_cons_cons hid (not_not.mp hid')]
    refine ⟨r, r', List.mem_cons_self, hflag, hnextFlag, hstart, ?_⟩
    rw [← end_mod cap next, ← end_mod r r']
    exact hlast
  | case6 r hid r' kac hid' _ _ _ _ _ _ _ ih =>
    obtain ⟨q, q', hmem, hcovers⟩ := ih h
    rw [mapRanges_cons_cons hid (not_not.mp hid')]
    exact ⟨q, q', List.mem_cons_of_mem _ hmem, hcovers⟩
  | case7 r kac hid ih =>
    rw [mapRanges_cons_of_ne hid]
    exact ih h

lemma MapRange.isValid_eq_true (h : isValid cap next kac = true) :
    getCapabilityId next = .mapRange ∧ matchesRestriction cap next kac = true := by
  unfold isValid at h
  split at h
  · cases h
  · next hnext =>
    split at h
    · cases h
    · exact ⟨not_not.mp hnext, h⟩

/-- A range that passes its check is permitted every page of it. -/
lemma MapRange.permits {page : Nat} (h : isValid cap next kac = true) (hstart : getAddressSize cap ≤ page)
    (hlast : page < getAddressSize cap + getAddressSize next) :
    Permits kac (.mapRange page (getFlag cap) (getFlag next)) := by
  obtain ⟨r, r', hmem, hflag, hnextFlag, hfirst, hend⟩ := matchesRestriction_eq_true (isValid_eq_true h).2
  rw [hflag, hnextFlag]
  exact .denotes (.range hmem (hfirst.trans hstart) (Nat.lt_of_lt_of_le hlast hend))

/-- A word of a range stands for nothing on its own. -/
lemma Grants.ne_mapRange (h : Grants cap a) : getCapabilityId cap ≠ .mapRange := by
  intro hrange
  cases h with
  | thread hid _ _ _ _ => cases hid.symm.trans hrange
  | syscall hid _ => cases hid.symm.trans hrange
  | mapPage hid => cases hid.symm.trans hrange
  | interrupt0 hid _ => cases hid.symm.trans hrange
  | interrupt1 hid _ => cases hid.symm.trans hrange
  | applicationType hid => cases hid.symm.trans hrange
  | kernelVersion hid => cases hid.symm.trans hrange
  | handles hid _ => cases hid.symm.trans hrange
  | allowDebug hid _ => cases hid.symm.trans hrange
  | forceDebug hid _ => cases hid.symm.trans hrange

/-- Every word of a list that passes has passed its check. -/
lemma validateCapabilities_words (h : validateCapabilities acid aci = .success) :
    ∀ cap ∈ aci, ∀ a, Grants cap a → Permits acid a := by
  fun_induction validateCapabilities acid aci with
  | case1 => exact List.forall_mem_nil _
  | case2 cap hid => cases h
  | case3 cap hid next aci hvalid ih =>
    refine List.forall_mem_cons.mpr ⟨fun a ha => absurd hid ha.ne_mapRange, ?_⟩
    refine List.forall_mem_cons.mpr ⟨fun a ha => ?_, ih h⟩
    exact absurd (MapRange.isValid_eq_true hvalid).1 ha.ne_mapRange
  | case4 cap hid next aci hvalid => cases h
  | case5 cap aci bits hid => cases h
  | case6 cap aci _ _ hvalid ih =>
    exact List.forall_mem_cons.mpr ⟨fun a ha => permits_of_isValidWord rfl hvalid ha, ih h⟩
  | case7 cap aci _ _ hvalid => cases h

/-- Every range of a list that passes has passed its check. -/
lemma validateCapabilities_ranges (h : validateCapabilities acid aci = .success) :
    ∀ range ∈ mapRanges aci, MapRange.isValid range.1 range.2 acid = true := by
  fun_induction validateCapabilities acid aci with
  | case1 => exact List.forall_mem_nil _
  | case2 cap hid => cases h
  | case3 cap hid next aci hvalid ih =>
    rw [mapRanges_cons_cons hid (MapRange.isValid_eq_true hvalid).1]
    exact List.forall_mem_cons.mpr ⟨hvalid, ih h⟩
  | case4 cap hid next aci hvalid => cases h
  | case5 cap aci bits hid => cases h
  | case6 cap aci hid _ hvalid ih =>
    rw [mapRanges_cons_of_ne hid]
    exact ih h
  | case7 cap aci _ _ hvalid => cases h

end Soundness

/-- What the capabilities of a process stand for is part of what its restriction does, if
`ValidateCapabilities` lets them pass. -/
theorem capabilities_restricted (acid aci : List UInt32) (h : validateCapabilities acid aci = .success)
    (a : Authority) (ha : Denotes aci a) : Permits acid a := by
  cases ha with
  | word hmem hgrants => exact validateCapabilities_words h _ hmem a hgrants
  | @range cap next page hmem hstart hlast =>
    have hvalid : MapRange.isValid cap next acid = true :=
      validateCapabilities_ranges h (cap, next) hmem
    exact MapRange.permits hvalid hstart hlast

/-- A process that asks for one page of a range of two, and for an interrupt where any is permitted. -/
theorem capabilities_restricted_range :
    let acid : List UInt32 := [0x8000003F, 0x0000013F, 0xFFFFF7FF]
    let aci : List UInt32 := [0x800000BF, 0x000000BF, 0xFFC057FF]
    validateCapabilities acid aci = .success ∧ Permits acid (.mapRange 1 1 0) ∧
      Permits acid (.interrupt 5) := by
  intro acid aci
  have h : validateCapabilities acid aci = .success := by decide +kernel
  have hpage : Denotes aci (.mapRange 1 (MapRange.getFlag 0x800000BF) (MapRange.getFlag 0x000000BF)) :=
    .range (by decide +kernel) (by decide +kernel) (by decide +kernel)
  have hinterrupt : Denotes aci (.interrupt (InterruptPair.getInterruptId0 0xFFC057FF)) :=
    .word (by decide +kernel) (.interrupt0 (by decide +kernel) (by decide +kernel))
  have hflag : MapRange.getFlag 0x800000BF = 1 := by decide +kernel
  have hnextFlag : MapRange.getFlag 0x000000BF = 0 := by decide +kernel
  have hid : InterruptPair.getInterruptId0 0xFFC057FF = 5 := by decide +kernel
  rw [hflag, hnextFlag] at hpage
  rw [hid] at hinterrupt
  exact ⟨h, capabilities_restricted acid aci h _ hpage, capabilities_restricted acid aci h _ hinterrupt⟩

end RajNX.Loader
