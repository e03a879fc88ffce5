import RajNX.Updater.Repair

/-!
# The verification flags

`VerifyBootImagesAndRepairIfNeeded` of `updater_api.cpp` and `updater_bis_save.cpp`. A flag in the save area says for
each boot mode whether its images need to be verified. In every run of calls, a flag is only cleared when the images of
its mode are those of the boot image package, and nothing else in the save area changes.
-/

namespace RajNX.Updater

open AddressSpace Interruptible Regions

namespace BisSave

/-- `SaveSize` -/
def saveSize : Nat := bctSize

/-- `GetVerificationFlagOffset` -/
def getVerificationFlagOffset : BootModeType → Nat
  | .normal => 0
  | .safe => 1

/-- `BisSave::Initialize` -/
def openSave (c : Console) : BisProc Unit :=
  if c.workBufferSize < saveSize ∨ c.workBuffer % 0x1000 ≠ 0 ∨ c.workBufferSize % 0x200 ≠ 0 then .fail .abort
  else fsOpenBisStorage .boot0

/-- `BisSave::Load` -/
def load : BisProc (List UInt8) := PartitionAccessor.read Boot0Partition.bctSave.area saveSize

/-- `BisSave::Save` -/
def save (saveBuffer : List UInt8) : BisProc Unit :=
  PartitionAccessor.write Boot0Partition.bctSave.area saveBuffer

/-- `BisSave::GetNeedsVerification` -/
def getNeedsVerification (saveBuffer : List UInt8) (mode : BootModeType) : Bool :=
  saveBuffer.getD (getVerificationFlagOffset mode) 0 ≠ 0

/-- `BisSave::SetNeedsVerification` -/
def setNeedsVerification (saveBuffer : List UInt8) (mode : BootModeType) (needsVerification : Bool) : List UInt8 :=
  saveBuffer.set (getVerificationFlagOffset mode) (if needsVerification then 1 else 0)

end BisSave

/-- `VerificationState` -/
structure VerificationState where
  needsVerifyNormal : Bool
  needsVerifySafe : Bool

/-- The loop over the records, of which the first one is taken if none is for exFAT. -/
def firstExfat (default : Nat) : List NcmMetaRecord → BisProc Nat
  | [] => pure default
  | record :: later => do
    request
    if record.isExfat then pure record.titleId else firstExfat default later

section Api

variable (c : Console)

/-- `GetBootImagePackageDataId`, with at most 0x40 records of 0x10 bytes. -/
def getBootImagePackageDataId (mode : BootModeType) : BisProc Nat :=
  if c.workBufferSize < 0x10 * 0x40 then .fail .abort
  else do
    request
    request
    match c.contentMetas mode with
    | [] => .fail .bootImagePackageNotFound
    | first :: later =>
      if 0x40 < later.length + 1 then .fail .abort
      else if 1 < later.length + 1 then firstExfat first.titleId (first :: later)
      else pure first.titleId

/-- `GetVerificationState` -/
def getVerificationState : BisProc VerificationState := do
  validateWorkBuffer c
  BisSave.openSave c
  let saveBuffer ← BisSave.load
  pure ⟨BisSave.getNeedsVerification saveBuffer .normal, BisSave.getNeedsVerification saveBuffer .safe⟩

/-- `SetVerificationNeeded` -/
def setVerificationNeeded (mode : BootModeType) (needed : Bool) : BisProc Unit := do
  validateWorkBuffer c
  BisSave.openSave c
  let saveBuffer ← BisSave.load
  BisSave.save (BisSave.setNeedsVerification saveBuffer mode needed)

/-- The verification of a boot mode, and its repair if that is needed. -/
def verifyOrRepair (mode : BootModeType) : BisProc Unit := do
  let dataId ← getBootImagePackageDataId c mode
  (verifyBootImages c dataId mode).catchOnly .needsRepairBootImages (updateBootImages c dataId mode)

/-- `VerifyBootImagesAndRepairIfNeeded` of one boot mode. -/
def verifyModeAndRepairIfNeeded (mode : BootModeType) : BisProc Unit := do
  verifyOrRepair c mode
  setVerificationNeeded c mode false

/-- A boot mode whose flag may be set. That there is no package counts as success. -/
def repairIfNeeded (needed : Bool) (mode : BootModeType) : BisProc Unit :=
  if needed then (verifyModeAndRepairIfNeeded c mode).catchOnly .bootImagePackageNotFound (pure ()) else pure ()

/-- `VerifyBootImagesAndRepairIfNeeded` -/
def verifyBootImagesAndRepairIfNeeded : BisProc Unit := do
  validateWorkBuffer c
  let state ← getVerificationState c
  if !state.needsVerifyNormal && !state.needsVerifySafe then pure ()
  else do
    request.mapError fun _ => .abort
    repairIfNeeded c state.needsVerifyNormal .normal
    repairIfNeeded c state.needsVerifySafe .safe

end Api

/-! ## What the flags say -/

/-- The images of a boot mode match its boot image package in the sense of `verifyBootImages`. -/
def Matches (c : Console) (mode : BootModeType) (t : Nand) : Prop :=
  ∃ dataId, ((getBootImagePackageDataId c mode).run t).result = .ok dataId ∧
    ((verifyBootImages c dataId mode).run t).result = .ok ()

/-- Where the flag of a boot mode is. -/
def flagAddress (mode : BootModeType) : Nat :=
  Boot0Partition.bctSave.area.region.start + BisSave.getVerificationFlagOffset mode

/-- In the save area, a step changes nothing but the flag of a boot mode, and that only to clear it when the images
match. -/
def JustifiedFor (c : Console) (mode : BootModeType) (s t : Nand) : Prop :=
  (∀ x, Boot0Partition.bctSave.area.region.Contains x → x ≠ flagAddress mode → t .boot0 x = s .boot0 x) ∧
    (t .boot0 (flagAddress mode) ≠ s .boot0 (flagAddress mode) → t .boot0 (flagAddress mode) = 0 ∧ Matches c mode t)

section Flags

variable {look : Nand → Nand → Prop} {c : Console} {mode : BootModeType} {s t u : Nand}

lemma justifiedFor_of_agrees (h : Agrees Boot0Partition.bctSave.area s t)
    (h' : Agrees Boot0Partition.bctSave.area s u) : JustifiedFor c mode t u := by
  have hsame (x : Nat) (hx : Boot0Partition.bctSave.area.region.Contains x) : u .boot0 x = t .boot0 x :=
    (h' x hx).symm.trans (h x hx)
  have hflag : Boot0Partition.bctSave.area.region.Contains (flagAddress mode) := by
    cases mode <;> decide
  exact ⟨fun x hx _ => hsame x hx, fun hne => absurd (hsame _ hflag) hne⟩

lemma justifiedFor_refl : JustifiedFor c mode s s :=
  justifiedFor_of_agrees (agrees_of_eq rfl) (agrees_of_eq rfl)

lemma readOnly_firstExfat {default : Nat} (records : List NcmMetaRecord) :
    Proc.ReadOnly look (firstExfat default records) := by
  induction records with
  | nil => exact Proc.readOnly_pure _
  | cons record later ih =>
    refine Proc.readOnly_bind readOnly_request fun _ => ?_
    split
    · exact Proc.readOnly_pure _
    · exact ih

lemma readOnly_getBootImagePackageDataId : Proc.ReadOnly look (getBootImagePackageDataId c mode) := by
  rw [getBootImagePackageDataId]
  split
  · exact Proc.readOnly_fail _
  refine Proc.readOnly_bind readOnly_request fun _ => Proc.readOnly_bind readOnly_request fun _ => ?_
  split
  · exact Proc.readOnly_fail _
  split
  · exact Proc.readOnly_fail _
  split
  · exact readOnly_firstExfat _
  · exact Proc.readOnly_pure _

/-- A match does not depend on the save area. -/
lemma Matches.of_unchanged (h : Matches c mode s) (hsame : UnchangedOutside [Boot0Partition.bctSave.area] s t) :
    Matches c mode t := by
  obtain ⟨dataId, hid, hverify⟩ := h
  have hlook : mode.images.LooksAt (UnchangedOutside [Boot0Partition.bctSave.area]) := by
    intro s t h
    have hapart (b : Area) (hb : Boot0Partition.bctSave.area.Apart b) : Agrees b s t :=
      fun x hx => (h.apply_eq (fun a ha => by rw [List.mem_singleton.mp ha]; exact hb) hx).symm
    exact ⟨fun i => hapart _ (by cases mode <;> cases i <;> decide), hapart _ (by decide)⟩
  refine ⟨dataId, ?_, ?_⟩
  · rw [← hid]
    exact ((@readOnly_getBootImagePackageDataId (UnchangedOutside [Boot0Partition.bctSave.area]) c mode).result_eq
      hsame).symm
  · rw [← hverify, verifyBootImages_eq]
    exact ((readOnly_verifyImages hlook).result_eq hsame).symm

/-- Verification and repair leave the save area alone, and the images match if they succeed. -/
lemma verifyOrRepair_guards (s : Nand) : (verifyOrRepair c mode).Guards s
    (fun _ t => Agrees Boot0Partition.bctSave.area s t) fun r t =>
      Agrees Boot0Partition.bctSave.area s t ∧ (r = .ok () → Matches c mode t) := by
  have hhere : Agrees Boot0Partition.bctSave.area s s := agrees_of_eq rfl
  refine (show Proc.ReadOnly Eq _ from readOnly_getBootImagePackageDataId).bind_guards hhere
    (fun _ => ⟨hhere, nofun⟩) fun dataId hid => ?_
  have hverify : Proc.ReadOnly Eq (verifyBootImages c dataId mode) := by
    rw [verifyBootImages_eq]
    exact readOnly_verifyImages looksAt_eq
  refine Proc.guards_catchOnly ((hverify.guards_ok s).mono (fun _ _ h => agrees_of_eq h.symm) ?_)
  rintro r t ⟨rfl, hr⟩
  refine ⟨fun hok => ⟨hhere, fun _ => ⟨dataId, hid, hr () hok⟩⟩, fun _ => ?_, fun _ _ _ => ⟨hhere, nofun⟩⟩
  -- the repair writes the images only
  have hkept {u : Nand} (hu : InProgress mode.images (newVersion c (packageOf c dataId) t mode.images) t u) :
      Agrees Boot0Partition.bctSave.area t u := by
    obtain ⟨step, -, hsame, -⟩ := hu
    refine fun x hx => (hsame.apply_eq (fun a ha => ?_) hx).symm
    obtain ⟨i, -, rfl⟩ := List.mem_map.mp ha
    cases mode <;> cases i <;> decide
  rw [updateBootImages_eq]
  refine (updateImages_guards (images_layout mode) t).mono (fun _ _ hu => hkept hu) ?_
  rintro r u ⟨hu, hok⟩
  refine ⟨hkept hu, fun hr => ⟨dataId, ?_, ?_⟩⟩
  · rw [← hid]
    exact ((@readOnly_getBootImagePackageDataId (fun _ _ => True) c mode).result_eq trivial).symm
  · rw [verifyBootImages_eq]
    exact (hok hr).verified (images_layout mode)

/-- A byte of an area, after the first bytes of a buffer have been written to it. -/
lemma write_take_apply {id : FsBisStorageId} {offset i n : Nat} {src : List UInt8} {byte : UInt8}
    (hbyte : src[i]? = some byte) :
    (s.write id offset (src.take n)) id (offset + i) = if i < n then byte else s id (offset + i) := by
  rw [Nand.write_apply_self]
  split
  · next hlt => exact AddressSpace.write_inside ((List.getElem?_take_of_lt hlt).trans hbyte)
  · next hge =>
    refine AddressSpace.write_outside fun hin => hge ?_
    have hstop : offset + i < offset + (src.take n).length := hin.2
    rw [List.length_take] at hstop
    omega

/-- Clearing a flag where the images match. -/
lemma setVerificationNeeded_guards (h : Matches c mode s) :
    (setVerificationNeeded c mode false).Guards s (JustifiedFor c mode) fun _ _ => True := by
  have hopen : Proc.ReadOnly Eq (BisSave.openSave c) := by
    rw [BisSave.openSave]
    split
    · exact Proc.readOnly_fail _
    · exact readOnly_request
  refine (show Proc.ReadOnly Eq _ from readOnly_validateWorkBuffer).bind_guards justifiedFor_refl (fun _ => trivial)
    fun _ _ => ?_
  refine hopen.bind_guards justifiedFor_refl (fun _ => trivial) fun _ _ => ?_
  refine (show Proc.ReadOnly Eq _ from PartitionAccessor.readOnly_read fun _ _ => agrees_of_eq).bind_guards
    justifiedFor_refl (fun _ => trivial) fun saveBuffer hload => ?_
  have hbuffer : s.content Boot0Partition.bctSave.area = saveBuffer :=
    Except.ok.inj ((PartitionAccessor.read_result boot0_aligned (Nat.le_refl _)).symm.trans hload)
  rw [BisSave.save, PartitionAccessor.write]
  split
  · exact Proc.guards_fail trivial
  · refine BisAccessor.write_guards.mono ?_ fun _ _ _ => trivial
    rintro t u (⟨rfl, rfl⟩ | ⟨n, hn, rfl, rfl⟩)
    · exact justifiedFor_refl
    · have hbyte {i : Nat} (hi : i < bctSize) :
          saveBuffer[i]? = some (s .boot0 (Boot0Partition.bctSave.area.region.start + i)) := by
        rw [← hbuffer]
        exact read_getElem hi
      constructor
      · intro x hx hne
        obtain ⟨i, rfl⟩ := Nat.exists_eq_add_of_le hx.1
        have hi : i < bctSize := Nat.lt_of_add_lt_add_left hx.2
        have hset : (BisSave.setNeedsVerification saveBuffer mode false)[i]? =
            some (s .boot0 (Boot0Partition.bctSave.area.region.start + i)) := by
          rw [BisSave.setNeedsVerification, List.getElem?_set_ne fun heq => hne (congrArg _ heq.symm)]
          exact hbyte hi
        exact (write_take_apply hset).trans (((ite_self _).trans (ite_self _).symm).trans (write_take_apply hset).symm)
      · intro hne
        have hoffset : BisSave.getVerificationFlagOffset mode < saveBuffer.length := by
          rw [← hbuffer, Nand.content, length_read]
          cases mode <;> decide
        have hset : (BisSave.setNeedsVerification saveBuffer mode false)[BisSave.getVerificationFlagOffset mode]? =
            some 0 := List.getElem?_set_self hoffset
        refine ⟨?_, h.of_unchanged (Nand.write_unchanged (Nat.le_refl _) ?_)⟩
        · have hafter := @write_take_apply s .boot0 Boot0Partition.bctSave.area.region.start _ (n + 1) _ _ hset
          have hbefore := @write_take_apply s .boot0 Boot0Partition.bctSave.area.region.start _ n _ _ hset
          rcases Nat.lt_or_ge (BisSave.getVerificationFlagOffset mode) (n + 1) with hlt | hge
          · exact hafter.trans (if_pos hlt)
          · rw [if_neg (by omega)] at hafter hbefore
            exact absurd (hafter.trans hbefore.symm) hne
        · rw [List.length_take, BisSave.setNeedsVerification, List.length_set, ← hbuffer, Nand.content, length_read]
          exact Nat.add_le_add_left (Nat.min_le_right _ _) _

/-- The verification and repair of one boot mode. -/
lemma verifyModeAndRepairIfNeeded_guards (s : Nand) :
    (verifyModeAndRepairIfNeeded c mode).Guards s (JustifiedFor c mode) fun _ _ => True := by
  have hpairs := (@verifyOrRepair_guards c mode s).before (agrees_of_eq rfl)
  refine Proc.guards_bind (hpairs.mono (fun t u h => justifiedFor_of_agrees h.1 h.2) ?_)
  rintro r t ⟨-, hok⟩
  exact ⟨fun _ hr => setVerificationNeeded_guards (hok hr), fun _ _ => trivial⟩

end Flags

/-! ## Runs -/

/-- A step that changes nothing in the save area but one flag, which it clears where the images match. -/
def Justified (c : Console) (s t : Nand) : Prop := ∃ mode, JustifiedFor c mode s t

section Runs

variable {c : Console} {s : Nand}

lemma repairIfNeeded_guards (needed : Bool) (mode : BootModeType) (s : Nand) :
    (repairIfNeeded c needed mode).Guards s (Justified c) fun _ _ => True := by
  rw [repairIfNeeded]
  split
  · refine Proc.guards_catchOnly ((verifyModeAndRepairIfNeeded_guards s).mono (fun _ _ h => ⟨mode, h⟩) ?_)
    exact fun _ _ _ => ⟨fun _ => trivial, fun _ => Proc.guards_pure trivial, fun _ _ _ => trivial⟩
  · exact Proc.guards_pure trivial

lemma justified_refl : Justified c s s := ⟨.normal, justifiedFor_refl⟩

/-- One call. -/
lemma verifyBootImagesAndRepairIfNeeded_guards (s : Nand) :
    (verifyBootImagesAndRepairIfNeeded c).Guards s (Justified c) fun _ _ => True := by
  have hstate : Proc.ReadOnly Eq (getVerificationState c) := by
    refine Proc.readOnly_bind readOnly_validateWorkBuffer fun _ => Proc.readOnly_bind ?_ fun _ =>
      Proc.readOnly_bind (PartitionAccessor.readOnly_read fun _ _ => agrees_of_eq) fun _ => Proc.readOnly_pure _
    rw [BisSave.openSave]
    split
    · exact Proc.readOnly_fail _
    · exact readOnly_request
  refine (show Proc.ReadOnly Eq _ from readOnly_validateWorkBuffer).bind_guards justified_refl (fun _ => trivial)
    fun _ _ => ?_
  refine hstate.bind_guards justified_refl (fun _ => trivial) fun state _ => ?_
  split
  · exact Proc.guards_pure trivial
  · refine (show Proc.ReadOnly Eq _ from readOnly_unmount).bind_guards justified_refl (fun _ => trivial) fun _ _ => ?_
    refine Proc.guards_bind ((repairIfNeeded_guards _ .normal s).mono (fun _ _ h => h) ?_)
    exact fun _ t _ => ⟨fun _ _ => repairIfNeeded_guards _ .safe t, fun _ _ => trivial⟩

end Runs

/-- A call: the console, and what fails in it until it ends or the power is lost. -/
structure Call where
  console : Console
  schedule : List (Option Failure)

/-- The states of NAND in each call of a run. -/
def runCalls : List Call → Nand → List (Call × List Nand)
  | [], _ => []
  | call :: later, s =>
    let play := (verifyBootImagesAndRepairIfNeeded call.console).play call.schedule s
    (call, s :: play.visited) :: runCalls later play.final

lemma runCalls_justified (calls : List Call) (s : Nand) :
    ∀ run ∈ runCalls calls s, run.2.IsChain (Justified run.1.console) := by
  induction calls generalizing s with
  | nil => exact fun _ h => nomatch h
  | cons call later ih =>
    intro run hrun
    rcases List.mem_cons.mp hrun with rfl | hrun
    · exact ((verifyBootImagesAndRepairIfNeeded_guards s).play call.schedule).1
    · exact ih _ run hrun

/-- In every run of calls, a step changes nothing in the save area but the flag of one boot mode, and this only to clear
it where the images of the mode match its package. In the part of a call that is about a mode, the flag is of this mode,
and it is kept, like all of the save area, if the verification or the repair fails or is cut off. -/
theorem flags_justified (calls : List Call) (s : Nand) :
    (∀ run ∈ runCalls calls s, run.2.IsChain (Justified run.1.console)) ∧
      ∀ (c : Console) (mode : BootModeType) (t : Nand) (schedule : List (Option Failure)),
        (t :: ((verifyModeAndRepairIfNeeded c mode).play schedule t).visited).IsChain (JustifiedFor c mode) ∧
        (((verifyOrRepair c mode).play schedule t).result = some (.ok ()) ∨
          ∀ u ∈ ((verifyModeAndRepairIfNeeded c mode).play schedule t).visited,
            Agrees Boot0Partition.bctSave.area t u) := by
  refine ⟨runCalls_justified calls s, fun c mode t schedule => ?_⟩
  refine ⟨((verifyModeAndRepairIfNeeded_guards t).play schedule).1, ?_⟩
  refine or_iff_not_imp_left.mpr fun hfail u hu => ?_
  rw [verifyModeAndRepairIfNeeded, Proc.play_bind_of_not_ok fun _ => hfail] at hu
  exact (verifyOrRepair_guards t).visited schedule u hu

end RajNX.Updater
