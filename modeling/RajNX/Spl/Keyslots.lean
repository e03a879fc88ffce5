import RajNX.Lib.Custody
import RajNX.Spl.CtrDrbg
import RajNX.Spl.Smc

/-!
# The AES keyslots of spl

The table of owners of `spl_api_impl.cpp`, the requests that are made with keyslots, and the event that tells when
one is available. A service is known by its address, and so is the holder of a temporary keyslot. The requests come
one after another. A session that is closed frees its keyslots with `FreeAesKeyslots`.

The secure monitor loads the keys that it is asked to load; what else it answers is any result. The log is that
of the calls of the secure monitor, and of the slots that were given and freed; the code does not keep it.
-/

namespace RajNX.Spl

open Custody

/-- `FirmwareVersion` -/
abbrev FirmwareVersion := Nat

/-- `FirmwareVersion_100` -/
def firmwareVersion100 : FirmwareVersion := 0
/-- `FirmwareVersion_200` -/
def firmwareVersion200 : FirmwareVersion := 1
/-- `FirmwareVersion_600` -/
def firmwareVersion600 : FirmwareVersion := 5

/-- `MaxAesKeyslots` -/
def maxAesKeyslots : Nat := 6
/-- `MaxAesKeyslotsDeprecated` -/
def maxAesKeyslotsDeprecated : Nat := 4
/-- `WorkBufferSizeMax` -/
def workBufferSizeMax : Nat := 0x800
/-- `CryptAesSizeMax` -/
def cryptAesSizeMax : UInt64 := 0xC0000000 - 0x90000000

/-- `GetMaxKeyslots` -/
def getMaxKeyslots (fw : FirmwareVersion) : Nat :=
  if firmwareVersion600 ≤ fw then maxAesKeyslots else maxAesKeyslotsDeprecated

/-- Who may own a keyslot: a service, or a `ScopedAesKeyslot`. -/
inductive Owner (ω : Type)
  | service (address : ω)
  | scoped
deriving DecidableEq

/-- What the secure monitor makes a key from. -/
inductive KeyInput
  | aesKey (accessKey keySource : Bytes 0x10)
  | titleKey (accessKey : Bytes 0x10)

/-- An event of a keyslot. -/
abbrev KeyslotEvent (ω : Type) := Event Nat (Owner ω) KeyInput

/-- `g_keyslot_owners` and `g_se_keyslot_available_event`, with the log. -/
structure Keyslots (ω : Type) where
  owners : Nat → Option (Owner ω)
  available : Bool
  log : List (KeyslotEvent ω)

/-- The keyslots when spl has started. -/
def Keyslots.start {ω : Type} : Keyslots ω := ⟨fun _ => none, true, []⟩

/-- What a request returns and leaves behind. -/
structure KeyslotReply (ω α : Type) where
  result : Except Nat α
  state : Keyslots ω

/-- What the secure monitor answers when it does not load a key. -/
structure SmcAnswers where
  cryptAes : SmcResult
  checkStatus : SmcResult
  computeCmac : SmcResult

/-- `s_generate_aes_key_source` -/
def generateAesKeySource : Bytes 0x10 :=
  ⟨[0x89, 0x61, 0x5E, 0xE0, 0x5C, 0x31, 0xB6, 0x80, 0x5F, 0xE5, 0x8F, 0x3D, 0xA2, 0x4F, 0x7A, 0xA8], rfl⟩

section Requests

variable {ω : Type} [DecidableEq ω]

/-- An event is put down. -/
def Keyslots.record (s : Keyslots ω) (e : KeyslotEvent ω) : Keyslots ω := { s with log := e :: s.log }

variable (fw : FirmwareVersion)

/-- `ValidateAesKeyslot` -/
def validateAesKeyslot (s : Keyslots ω) (keyslot : Nat) (owner : Owner ω) : Except Nat Unit :=
  if getMaxKeyslots fw ≤ keyslot then .error resultSplInvalidKeyslot
  else if s.owners keyslot ≠ some owner ∧ firmwareVersion100 < fw then .error resultSplInvalidKeyslot
  else .ok ()

/-- `LoadAesKey` -/
def loadAesKey (keyslot : Nat) (owner : Owner ω) (accessKey keySource : Bytes 0x10)
    (s : Keyslots ω) : KeyslotReply ω Unit :=
  match validateAesKeyslot fw s keyslot owner with
  | .error e => ⟨.error e, s⟩
  | .ok () => ⟨convertResult smcSuccess, s.record (.filled keyslot owner (.aesKey accessKey keySource))⟩

/-- `LoadTitleKey` -/
def loadTitleKey (keyslot : Nat) (owner : Owner ω) (accessKey : Bytes 0x10) (s : Keyslots ω) : KeyslotReply ω Unit :=
  match validateAesKeyslot fw s keyslot owner with
  | .error e => ⟨.error e, s⟩
  | .ok () => ⟨convertResult smcSuccess, s.record (.filled keyslot owner (.titleKey accessKey))⟩

/-- `smc::CryptAes`, and `WaitCheckStatus` behind it. -/
def cryptAndWait (smc : SmcAnswers) (keyslot : Nat) (owner : Owner ω) (s : Keyslots ω) : SmcResult × Keyslots ω :=
  (if smc.cryptAes ≠ smcSuccess then smc.cryptAes else smc.checkStatus, s.record (.used keyslot owner))

/-- The size of the pages that a buffer is in. -/
def pageAlignedSize (address size : UInt64) : UInt64 :=
  ((address + size + 0xFFF) &&& ~~~0xFFF) - (address &&& ~~~0xFFF)

/-- A buffer of a service. -/
structure Buffer where
  address : UInt64
  size : UInt64

/-- `CryptAesCtr` -/
def cryptAesCtr (smc : SmcAnswers) (dst : Buffer) (keyslot : Nat) (owner : Owner ω)
    (src : Buffer) (s : Keyslots ω) : KeyslotReply ω Unit :=
  match validateAesKeyslot fw s keyslot owner with
  | .error e => ⟨.error e, s⟩
  | .ok () =>
    if src.size = 0 then ⟨.ok (), s⟩
    else if dst.size < src.size ∨ src.size % 0x10 ≠ 0 then ⟨.error resultSplInvalidSize, s⟩
    else if cryptAesSizeMax < pageAlignedSize src.address src.size ∨
        cryptAesSizeMax < pageAlignedSize dst.address dst.size then ⟨.error resultSplInvalidSize, s⟩
    else
      let (res, s) := cryptAndWait smc keyslot owner s
      ⟨convertResult res, s⟩

/-- `ComputeCmac` -/
def computeCmac (smc : SmcAnswers) (keyslot : Nat) (owner : Owner ω) (size : Nat)
    (s : Keyslots ω) : KeyslotReply ω Unit :=
  match validateAesKeyslot fw s keyslot owner with
  | .error e => ⟨.error e, s⟩
  | .ok () =>
    if workBufferSizeMax < size then ⟨.error resultSplInvalidSize, s⟩
    else ⟨convertResult smc.computeCmac, s.record (.used keyslot owner)⟩

/-- `AllocateAesKeyslot` -/
def allocateAesKeyslot (owner : Owner ω) (s : Keyslots ω) : KeyslotReply ω Nat :=
  if fw ≤ firmwareVersion100 then ⟨.ok 0, s⟩
  else
    match (List.range (getMaxKeyslots fw)).find? fun i => s.owners i = none with
    | some i => ⟨.ok i, { s with owners := Function.update s.owners i (some owner) }.record (.given i owner)⟩
    | none => ⟨.error resultSplOutOfKeyslots, { s with available := false }⟩

/-- `FreeAesKeyslot`. The keyslot is cleared with a key of zeros. -/
def freeAesKeyslot (keyslot : Nat) (owner : Owner ω) (s : Keyslots ω) : KeyslotReply ω Unit :=
  if fw ≤ firmwareVersion100 then ⟨.ok (), s⟩
  else
    match validateAesKeyslot fw s keyslot owner with
    | .error e => ⟨.error e, s⟩
    | .ok () =>
      let s := s.record (.cleared keyslot)
      let s := { s with owners := Function.update s.owners keyslot none }.record (.released keyslot owner)
      ⟨.ok (), { s with available := true }⟩

/-- `FreeAesKeyslots` -/
def freeAesKeyslots (owner : Owner ω) (s : Keyslots ω) : KeyslotReply ω Unit :=
  ⟨.ok (), (List.range (getMaxKeyslots fw)).foldl
    (fun s i => if s.owners i = some owner then (freeAesKeyslot fw i owner s).state else s) s⟩

/-- `GenerateAesKey`. The temporary keyslot is freed on the way out. -/
def generateAesKey (smc : SmcAnswers) (accessKey : Bytes 0x10) (s : Keyslots ω) : KeyslotReply ω Unit :=
  let holder := allocateAesKeyslot fw .scoped s
  match holder.result with
  | .error e => ⟨.error e, holder.state⟩
  | .ok keyslot =>
    let s := holder.state.record (.filled keyslot .scoped (.aesKey accessKey generateAesKeySource))
    let (res, s) := cryptAndWait smc keyslot .scoped s
    ⟨convertResult res, (freeAesKeyslot fw keyslot .scoped s).state⟩

end Requests

/-- A request of a service, with what the secure monitor answers. -/
inductive KeyslotRequest (ω : Type)
  | allocateAesKeyslot (owner : ω)
  | freeAesKeyslot (keyslot : Nat) (owner : ω)
  | freeAesKeyslots (owner : ω)
  | loadAesKey (keyslot : Nat) (owner : ω) (accessKey keySource : Bytes 0x10)
  | loadTitleKey (keyslot : Nat) (owner : ω) (accessKey : Bytes 0x10)
  | cryptAesCtr (smc : SmcAnswers) (dst : Buffer) (keyslot : Nat) (owner : ω) (src : Buffer)
  | computeCmac (smc : SmcAnswers) (keyslot : Nat) (owner : ω) (size : Nat)
  | generateAesKey (smc : SmcAnswers) (accessKey : Bytes 0x10)

section Runs

variable {ω : Type} [DecidableEq ω]

/-- What a request leaves behind. -/
def Keyslots.step (fw : FirmwareVersion) (s : Keyslots ω) : KeyslotRequest ω → Keyslots ω
  | .allocateAesKeyslot owner => (allocateAesKeyslot fw (.service owner) s).state
  | .freeAesKeyslot keyslot owner => (freeAesKeyslot fw keyslot (.service owner) s).state
  | .freeAesKeyslots owner => (freeAesKeyslots fw (.service owner) s).state
  | .loadAesKey keyslot owner accessKey keySource =>
    (loadAesKey fw keyslot (.service owner) accessKey keySource s).state
  | .loadTitleKey keyslot owner accessKey => (loadTitleKey fw keyslot (.service owner) accessKey s).state
  | .cryptAesCtr smc dst keyslot owner src => (cryptAesCtr fw smc dst keyslot (.service owner) src s).state
  | .computeCmac smc keyslot owner size => (computeCmac fw smc keyslot (.service owner) size s).state
  | .generateAesKey smc accessKey => (generateAesKey fw smc accessKey s).state

/-- Requests one after another. -/
def Keyslots.run (fw : FirmwareVersion) (requests : List (KeyslotRequest ω)) (s : Keyslots ω) : Keyslots ω :=
  requests.foldl (Keyslots.step fw) s

end Runs

section Accounts

variable {ω : Type}

/-- The part of the keyslots that moves are about. -/
def Keyslots.account (s : Keyslots ω) : Account Nat (Owner ω) KeyInput := ⟨s.owners, s.log⟩

/-- No keyslot is free. -/
def Keyslots.Full (fw : FirmwareVersion) (s : Keyslots ω) : Prop := ∀ i < getMaxKeyslots fw, s.owners i ≠ none

/-- Who waits for the event is not left waiting. -/
def Keyslots.EventSound (fw : FirmwareVersion) (s : Keyslots ω) : Prop := s.available = false → s.Full fw

/-- What is kept from one state to another: every move follows the table, and the event stays sound. -/
structure Advances (fw : FirmwareVersion) (s s' : Keyslots ω) : Prop where
  moves : Moves s.account s'.account
  eventSound : s.EventSound fw → s'.EventSound fw

variable {fw : FirmwareVersion} {s s' s'' : Keyslots ω} {keyslot : Nat} {owner : Owner ω}

lemma Advances.refl : Advances fw s s := ⟨.refl, id⟩

lemma Advances.trans (h : Advances fw s s') (h' : Advances fw s' s'') : Advances fw s s'' :=
  ⟨h.moves.trans h'.moves, h'.eventSound ∘ h.eventSound⟩

lemma Advances.fill (input : KeyInput) (h : s.owners keyslot = some owner) :
    Advances fw s (s.record (.filled keyslot owner input)) :=
  ⟨.single (.fill input h), id⟩

lemma Advances.use (h : s.owners keyslot = some owner) : Advances fw s (s.record (.used keyslot owner)) :=
  ⟨.single (.use h), id⟩

lemma Advances.give {i : Nat} (owner : Owner ω) (hi : i < getMaxKeyslots fw) (hfree : s.owners i = none) :
    Advances fw s ({ s with owners := Function.update s.owners i (some owner) }.record (.given i owner)) :=
  ⟨.single (.give owner hfree), fun hsound havailable => absurd hfree (hsound havailable i hi)⟩

/-- A keyslot that was free is given, or there is none and the event is cleared. -/
lemma allocateAesKeyslot_cases (hfw : firmwareVersion100 < fw) (s : Keyslots ω) (owner : Owner ω) :
    (∃ i < getMaxKeyslots fw, s.owners i = none ∧ allocateAesKeyslot fw owner s =
        ⟨.ok i, { s with owners := Function.update s.owners i (some owner) }.record (.given i owner)⟩) ∨
      s.Full fw ∧ allocateAesKeyslot fw owner s = ⟨.error resultSplOutOfKeyslots, { s with available := false }⟩ := by
  rw [allocateAesKeyslot, if_neg hfw.not_ge]
  split
  · next i hi =>
    have hfree := List.find?_some (p := fun i => decide (s.owners i = none)) hi
    have hmem := List.mem_range.mp (List.mem_of_find?_eq_some hi)
    exact .inl ⟨i, hmem, of_decide_eq_true hfree, rfl⟩
  · next hnone =>
    refine .inr ⟨fun i hi hfree => ?_, rfl⟩
    exact List.find?_eq_none.mp hnone i (List.mem_range.mpr hi) (decide_eq_true hfree)

lemma allocateAesKeyslot_advances (hfw : firmwareVersion100 < fw) :
    Advances fw s (allocateAesKeyslot fw owner s).state := by
  rcases allocateAesKeyslot_cases hfw s owner with ⟨i, hi, hfree, hreply⟩ | ⟨hfull, hreply⟩
  · rw [hreply]
    exact .give owner hi hfree
  · rw [hreply]
    exact ⟨.refl, fun _ _ => hfull⟩

end Accounts

section Advances

variable {ω : Type} [DecidableEq ω] {fw : FirmwareVersion} {s : Keyslots ω} {keyslot : Nat} {owner : Owner ω}

section

variable (hfw : firmwareVersion100 < fw)

include hfw

/-- A keyslot that is valid for its owner. -/
lemma validateAesKeyslot_eq_ok
    (h : validateAesKeyslot fw s keyslot owner = .ok ()) : s.owners keyslot = some owner := by
  rw [validateAesKeyslot] at h
  split at h
  · cases h
  · split at h
    · cases h
    · next hno =>
      by_contra hother
      exact hno ⟨hother, hfw⟩

lemma loadAesKey_advances (accessKey keySource : Bytes 0x10) :
    Advances fw s (loadAesKey fw keyslot owner accessKey keySource s).state := by
  rw [loadAesKey]
  split
  · exact .refl
  · next hvalid => exact .fill _ (validateAesKeyslot_eq_ok hfw hvalid)

lemma loadTitleKey_advances (accessKey : Bytes 0x10) :
    Advances fw s (loadTitleKey fw keyslot owner accessKey s).state := by
  rw [loadTitleKey]
  split
  · exact .refl
  · next hvalid => exact .fill _ (validateAesKeyslot_eq_ok hfw hvalid)

lemma cryptAesCtr_advances (smc : SmcAnswers) (dst src : Buffer) :
    Advances fw s (cryptAesCtr fw smc dst keyslot owner src s).state := by
  rw [cryptAesCtr]
  split
  · exact .refl
  · next hvalid =>
    split
    · exact .refl
    · split
      · exact .refl
      · split
        · exact .refl
        · exact .use (validateAesKeyslot_eq_ok hfw hvalid)

lemma computeCmac_advances (smc : SmcAnswers) (size : Nat) :
    Advances fw s (computeCmac fw smc keyslot owner size s).state := by
  rw [computeCmac]
  split
  · exact .refl
  · next hvalid =>
    split
    · exact .refl
    · exact .use (validateAesKeyslot_eq_ok hfw hvalid)

lemma freeAesKeyslot_advances : Advances fw s (freeAesKeyslot fw keyslot owner s).state := by
  rw [freeAesKeyslot, if_neg hfw.not_ge]
  split
  · exact .refl
  · next hvalid => exact ⟨.single (.release (validateAesKeyslot_eq_ok hfw hvalid)), fun _ => nofun⟩

/-- The keyslots of a session are freed one by one. -/
lemma freeAesKeyslots_advances : Advances fw s (freeAesKeyslots fw owner s).state := by
  rw [freeAesKeyslots]
  generalize List.range (getMaxKeyslots fw) = slots
  induction slots generalizing s with
  | nil => exact .refl
  | cons i slots ih =>
    refine Advances.trans ?_ ih
    dsimp only
    split
    · exact freeAesKeyslot_advances hfw
    · exact .refl

/-- An owner frees its keyslot. -/
lemma freeAesKeyslot_owners (hslot : keyslot < getMaxKeyslots fw) (h : s.owners keyslot = some owner) :
    (freeAesKeyslot fw keyslot owner s).state.owners = Function.update s.owners keyslot none := by
  have hvalid : validateAesKeyslot fw s keyslot owner = .ok () := by
    rw [validateAesKeyslot, if_neg hslot.not_ge, if_neg fun hno => hno.1 h]
  rw [freeAesKeyslot, if_neg hfw.not_ge, hvalid]
  rfl

/-- The temporary keyslot is one that was free, and is free again. -/
lemma generateAesKey_spec (smc : SmcAnswers) (accessKey : Bytes 0x10)
    (s : Keyslots ω) : Advances fw s (generateAesKey fw smc accessKey s).state ∧
      (generateAesKey fw smc accessKey s).state.owners = s.owners := by
  rw [generateAesKey]
  rcases allocateAesKeyslot_cases hfw s .scoped with ⟨i, hi, hfree, hreply⟩ | ⟨hfull, hreply⟩
  · rw [hreply]
    dsimp only
    rw [cryptAndWait]
    dsimp only
    have howner : Function.update s.owners i (some .scoped) i = some (Owner.scoped : Owner ω) :=
      Function.update_self i _ _
    constructor
    · exact (((Advances.give .scoped hi hfree).trans (.fill _ howner)).trans (.use howner)).trans
        (freeAesKeyslot_advances hfw)
    · have hfreed := freeAesKeyslot_owners hfw hi
        (s := (((Keyslots.record { s with owners := Function.update s.owners i (some .scoped) }
          (.given i .scoped)).record
          (.filled i .scoped (.aesKey accessKey generateAesKeySource))).record (.used i .scoped))) howner
      rw [hfreed]
      show Function.update (Function.update s.owners i (some .scoped)) i none = s.owners
      rw [Function.update_idem, ← hfree, Function.update_eq_self]
  · rw [hreply]
    exact ⟨⟨.refl, fun _ _ => hfull⟩, rfl⟩

/-- One request. -/
lemma step_advances (s : Keyslots ω) (request : KeyslotRequest ω) : Advances fw s (s.step fw request) := by
  cases request with
  | allocateAesKeyslot owner => exact allocateAesKeyslot_advances hfw
  | freeAesKeyslot keyslot owner => exact freeAesKeyslot_advances hfw
  | freeAesKeyslots owner => exact freeAesKeyslots_advances hfw
  | loadAesKey keyslot owner accessKey keySource => exact loadAesKey_advances hfw accessKey keySource
  | loadTitleKey keyslot owner accessKey => exact loadTitleKey_advances hfw accessKey
  | cryptAesCtr smc dst keyslot owner src => exact cryptAesCtr_advances hfw smc dst src
  | computeCmac smc keyslot owner size => exact computeCmac_advances hfw smc size
  | generateAesKey smc accessKey => exact (generateAesKey_spec hfw smc accessKey s).1

/-- All requests. -/
lemma run_advances (requests : List (KeyslotRequest ω)) (s : Keyslots ω) : Advances fw s (s.run fw requests) := by
  induction requests generalizing s with
  | nil => exact .refl
  | cons request requests ih => exact (step_advances hfw s request).trans (ih _)

end

/-- After every sequence of requests no keyslot has two owners, every use was one of a keyslot that its owner holds
and of a key that it loaded itself, or that the last release left, or that was there from the start. `GenerateAesKey`
leaves the table as it was, and no keyslot is free while the event is not signalled. -/
theorem keyslots_isolated (hfw : firmwareVersion100 < fw) (requests : List (KeyslotRequest ω)) :
    (∀ slot owner owner', Holds slot owner (Keyslots.start.run fw requests).log →
        Holds slot owner' (Keyslots.start.run fw requests).log → owner = owner') ∧
      UsesOwn (Keyslots.start.run fw requests).log ∧
      (∀ smc accessKey, (generateAesKey fw smc accessKey (Keyslots.start.run fw requests)).state.owners =
        (Keyslots.start.run fw requests).owners) ∧
      (Keyslots.start.run fw requests).EventSound fw := by
  obtain ⟨hmoves, hevent⟩ := run_advances hfw requests Keyslots.start
  have hconsistent := hmoves.consistent .empty
  refine ⟨fun _ _ _ => hconsistent.holds_unique, hconsistent.usesOwn, fun smc accessKey => ?_, hevent nofun⟩
  exact (generateAesKey_spec hfw smc accessKey _).2

end Advances

/-- A service that uses its keyslot at once. -/
def firstUse : List (KeyslotRequest Nat) :=
  [.allocateAesKeyslot 7, .cryptAesCtr ⟨0, 0, 0⟩ ⟨0x1000, 0x10⟩ 0 7 ⟨0x2000, 0x10⟩]

/-- The keyslot that is used is its own. -/
theorem keyslots_isolated_firstUse : UsesOwn (Keyslots.start.run firmwareVersion200 firstUse).log :=
  (keyslots_isolated (by decide) firstUse).2.1

/-- The key of a keyslot that nobody has used is neither one that its owner loaded nor one that a release left. -/
theorem firstUse_key : ∃ before, (Keyslots.start.run firmwareVersion200 firstUse).log = .used 0 (.service 7) :: before ∧
    ¬(FilledSince 0 (.service 7) before ∨ Cleared 0 before) := by
  refine ⟨[.given 0 (.service 7)], rfl, ?_⟩
  rintro (hfilled | hcleared)
  · exact hfilled.1 rfl
  · exact hcleared

end RajNX.Spl
