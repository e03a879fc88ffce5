import RajNX.Updater.Update

/-!
# Updates that are cut off

Wherever an update is cut off, NAND has a set of images that boots: if the main BCT is complete, copies of the packages
of its version are, and if it is not, the sub images are complete and new.
-/

namespace RajNX.Updater

open Interruptible

/-- Complete copies of both packages of a version. -/
def HasCopies (images : BootImages) (v : Version) (t : Nand) : Prop :=
  (Complete images v .package1Main t ∨ Complete images v .package1Sub t) ∧
    (Complete images v .package2Main t ∨ Complete images v .package2Sub t)

/-- A set of images that boots. Two versions with the same main BCT cannot be told apart by it, and it is one of them
that has its copies. -/
structure Bootable (images : BootImages) (old new : Version) (t : Nand) : Prop where
  complete : Complete images old .bctMain t ∨ Complete images new .bctMain t →
    ∃ v, (v = old ∨ v = new) ∧ Complete images v .bctMain t ∧ HasCopies images v t
  distinct : old.bctMain ≠ new.bctMain → ∀ v, v = old ∨ v = new → Complete images v .bctMain t → HasCopies images v t
  incomplete : ¬Complete images old .bctMain t → ¬Complete images new .bctMain t →
    Complete images new .bctSub t ∧ Complete images new .package1Sub t ∧ Complete images new .package2Sub t

variable {images : BootImages} {old new : Version} {s t : Nand}

/-- A main BCT is of one version only, if the versions differ in it. -/
lemma bctMain_inj {v v' : Version} (h : Complete images v .bctMain t) (h' : Complete images v' .bctMain t) :
    v.bctMain = v'.bctMain := by
  have hextent : images.extent v .bctMain = images.extent v' .bctMain := by
    rw [BootImages.extent, BootImages.extent]
    show Area.mk _ ⟨_, v.bctMain.length⟩ = ⟨_, ⟨_, v'.bctMain.length⟩⟩
    rw [v.length_bctMain, v'.length_bctMain]
  have hcontent := h.2
  rw [hextent, h'.2] at hcontent
  exact hcontent.symm

/-- One version that has its BCT and its copies is enough. -/
lemma bootable_of_version {v : Version} (hv : v = old ∨ v = new) (hbct : Complete images v .bctMain t)
    (hcopies : HasCopies images v t) : Bootable images old new t where
  complete _ := ⟨v, hv, hbct, hcopies⟩
  distinct hne v' hv' hbct' := by
    have hsame := bctMain_inj hbct hbct'
    rcases hv with rfl | rfl
    · rcases hv' with rfl | rfl
      · exact hcopies
      · exact absurd hsame hne
    · rcases hv' with rfl | rfl
      · exact absurd hsame.symm hne
      · exact hcopies
  incomplete hold hnew := by
    rcases hv with rfl | rfl
    · exact absurd hbct hold
    · exact absurd hbct hnew

/-- While the main BCT is being written, both versions have their copies. -/
lemma bootable_of_both (hold : HasCopies images old t) (hpackage1 : Complete images new .package1Sub t)
    (hpackage2 : Complete images new .package2Sub t) (hbct : Complete images new .bctSub t) :
    Bootable images old new t where
  complete h := by
    rcases h with h | h
    · exact ⟨old, .inl rfl, h, hold⟩
    · exact ⟨new, .inr rfl, h, .inr hpackage1, .inr hpackage2⟩
  distinct _ v hv _ := by
    rcases hv with rfl | rfl
    · exact hold
    · exact ⟨.inr hpackage1, .inr hpackage2⟩
  incomplete _ _ := ⟨hbct, hpackage1, hpackage2⟩

/-- At each step of an update. -/
lemma InProgress.bootable (h : InProgress images new s t) (hlayout : images.Layout)
    (hold : ∀ i, Complete images old i s) : Bootable images old new t := by
  obtain ⟨step, hstep, hsame, hnew⟩ := h
  have hkept {i : BootImage} (hi : i ∉ step.1 ++ [step.2]) : Complete images old i t :=
    (hold i).of_unchanged hsame hlayout hi
  simp only [updateSteps, List.mem_cons, List.not_mem_nil, or_false] at hstep
  -- the old BCT is there until the sub images are, and the new one is when the main packages are written
  rcases hstep with rfl | rfl | rfl | rfl | rfl | rfl
  · exact bootable_of_version (.inl rfl) (hkept (by decide)) ⟨.inl (hkept (by decide)), .inl (hkept (by decide))⟩
  · exact bootable_of_version (.inl rfl) (hkept (by decide)) ⟨.inl (hkept (by decide)), .inl (hkept (by decide))⟩
  · exact bootable_of_version (.inl rfl) (hkept (by decide)) ⟨.inl (hkept (by decide)), .inl (hkept (by decide))⟩
  · exact bootable_of_both ⟨.inl (hkept (by decide)), .inl (hkept (by decide))⟩ (hnew _ (by decide))
      (hnew _ (by decide)) (hnew _ (by decide))
  · exact bootable_of_version (.inr rfl) (hnew _ (by decide))
      ⟨.inr (hnew _ (by decide)), .inr (hnew _ (by decide))⟩
  · exact bootable_of_version (.inr rfl) (hnew _ (by decide))
      ⟨.inr (hnew _ (by decide)), .inr (hnew _ (by decide))⟩

/-- The update of a boot mode. -/
lemma updateBootImages_eq (c : Console) (dataId : Nat) (mode : BootModeType) :
    updateBootImages c dataId mode = updateImages c mode.images dataId := by
  cases mode with
  | normal => rfl
  | safe => rfl

/-- Wherever an update of consistent images is cut off, and whatever fails, NAND has a set of images that boots. -/
theorem updateBootImages_bootable (c : Console) (dataId : Nat) (mode : BootModeType) (old : Version) (s : Nand)
    (hold : ∀ i, Complete mode.images old i s) (schedule : List (Option Failure)) :
    ∀ t ∈ s :: ((updateBootImages c dataId mode).play schedule s).visited,
      Bootable mode.images old (newVersion c (packageOf c dataId) s mode.images) t := by
  have hlayout := images_layout mode
  have hbegin : Between mode.images (newVersion c (packageOf c dataId) s mode.images) s [] s :=
    ⟨unchangedOutside_refl, fun _ h => nomatch h⟩
  have hstart := hbegin.inProgress (i := .package1Sub) (by decide)
  rw [updateBootImages_eq]
  intro t ht
  rcases List.mem_cons.mp ht with rfl | ht
  · exact hstart.bootable hlayout hold
  · exact ((updateImages_guards hlayout s).visited schedule t ht).bootable hlayout hold

/-! ## An update of zeros -/

/-- A BCT of zeros, but for its first and its last byte. -/
def exampleBct : List UInt8 := 3 :: (List.replicate 0x3FFE 0 ++ [3])

/-- A console whose boot image package has a BCT, a package1 and a package2 of one byte each. -/
def exampleConsole : Console where
  sha256 data := data.take 0x20
  contentMetas _ := [⟨0x0100000000000819, false⟩]
  archives dataId :=
    if dataId = 0x0100000000000819 then some fun path =>
      if path = "bip:/nx/bct" then some exampleBct else if path = "bip:/nx/package1" then some [1]
      else if path = "bip:/nx/package2" then some [2] else none
    else none
  isRcmBugPatched := false
  workBuffer := 0
  workBufferSize := 0x10000
  bootImageUpdateType := .erista

/-- A version of zeros. -/
def exampleVersion : Version where
  bctMain := List.replicate bctSize 0
  bctSub := List.replicate bctSize 0
  package1 := [0]
  package2 := [0]
  length_bctMain := List.length_replicate
  length_bctSub := List.length_replicate

/-- All zeros. -/
def exampleNand : Nand := fun _ _ => 0

lemma exampleNand_complete (mode : BootModeType) (i : BootImage) :
    Complete mode.images exampleVersion i exampleNand := by
  have hread (a : Area) : exampleNand.content a = List.replicate a.region.size 0 := by
    rw [Nand.content, AddressSpace.read]
    show List.map (fun _ => 0) _ = _
    rw [List.map_const', List.length_range]
  have hbct : (List.replicate bctSize (0 : UInt8)).length ≤ bctSize := by rw [List.length_replicate]
  have hzeros (n : Nat) : List.replicate (List.replicate n (0 : UInt8)).length (0 : UInt8) = List.replicate n 0 := by
    rw [List.length_replicate]
  cases i with
  | package1Sub | package2Sub => exact ⟨by cases mode <;> decide, hread _⟩
  | bctSub | bctMain => exact ⟨by cases mode <;> exact hbct, (hread _).trans (hzeros bctSize)⟩
  | package2Main | package1Main => exact ⟨by cases mode <;> decide, hread _⟩

/-- The BCTs of the versions differ, and the update is cut off after `0x300` bytes of the main one. -/
theorem updateBootImages_bootable_example :
    (∀ i, Complete normalImages exampleVersion i exampleNand) ∧
      exampleVersion.bctMain ≠
        (newVersion exampleConsole (packageOf exampleConsole 0x0100000000000819) exampleNand normalImages).bctMain ∧
      ∀ t ∈ exampleNand :: ((updateBootImages exampleConsole 0x0100000000000819 .normal).play
        (List.replicate (279572 + 0x300) none) exampleNand).visited,
      Bootable normalImages exampleVersion
        (newVersion exampleConsole (packageOf exampleConsole 0x0100000000000819) exampleNand normalImages) t := by
  refine ⟨exampleNand_complete .normal, fun heq => ?_, updateBootImages_bootable exampleConsole 0x0100000000000819
    .normal
    exampleVersion exampleNand (exampleNand_complete .normal) (List.replicate (279572 + 0x300) none)⟩
  have hhead : (0 : UInt8) = 3 := congrArg (List.headD · 0) heq
  cases hhead

end RajNX.Updater
