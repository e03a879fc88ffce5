import RajNX.Updater.BootImages

/-!
# Updates of boot images

The images of a boot mode are written one after the other: first the sub copies, then the main ones, and package1 last.
`updateImages_guards` says that at any time those that have been written are complete, and that but for the one that is
being written, the rest is as it was.
-/

namespace RajNX.Updater

open Interruptible LittleEndian Regions Splice

/-! ## The accessors -/

section Accessors

variable {look : Nand → Nand → Prop} {a : Area} {s t : Nand} {c : Console} {bip : BootImagePackage}
  {bct src : List UInt8} {which : Boot0Partition} {size workBufferSize : Nat} {sha256 : List UInt8 → List UInt8}

/-- Two states of NAND with the same bytes in an area. -/
def Agrees (a : Area) (s t : Nand) : Prop := ∀ x, a.region.Contains x → s a.id x = t a.id x

lemma agrees_of_eq (h : s = t) : Agrees a s t := fun _ _ => h ▸ rfl

namespace PartitionAccessor

lemma readOnly_read (h : ∀ s t, look s t → Agrees a s t) : Proc.ReadOnly look (read a size) := by
  rw [read]
  split
  · exact Proc.readOnly_fail _
  · exact BisAccessor.readOnly_read h

lemma readOnly_getHash (h : ∀ s t, look s t → Agrees a s t) :
    Proc.ReadOnly look (getHash sha256 a size workBufferSize) :=
  BisAccessor.readOnly_getHash h

lemma read_result (haligned : a.region.start % BisAccessor.sectorAlignment = 0) (hsize : a.region.size ≤ size) :
    ((read a size).run s).result = .ok (s.content a) := by
  rw [read, if_neg (Nat.not_lt.mpr hsize)]
  exact BisAccessor.read_result haligned

/-- A write to an area leaves the buffer at its start if it succeeds. -/
lemma write_guards : (write a src).Guards s (fun _ t => UnchangedOutside [a] s t) fun r t =>
    UnchangedOutside [a] s t ∧
      (r = .ok () → src.length ≤ a.region.size ∧ t.content ⟨a.id, ⟨a.region.start, src.length⟩⟩ = src) := by
  rw [write]
  split
  · exact Proc.guards_fail ⟨unchangedOutside_refl, nofun⟩
  · next hfits =>
    have hle : src.length ≤ a.region.size := by omega
    refine (BisAccessor.write_guards_inside (Nat.le_refl _) (Nat.add_le_add_left hle _)).mono (fun _ _ h => h) ?_
    rintro r t ⟨ht, hok⟩
    refine ⟨ht, fun hr => ⟨hle, ?_⟩⟩
    rw [hok hr, Nand.content, Nand.write_apply_self]
    exact AddressSpace.read_write _ _ _

lemma clear_guards : (clear a workBufferSize).Guards s (fun _ t => UnchangedOutside [a] s t)
    fun _ t => UnchangedOutside [a] s t :=
  BisAccessor.clear_guards

lemma writeFile_guards {path : String} (hsize : a.region.size % BisAccessor.sectorAlignment = 0) :
    (writeFile a bip path workBufferSize).Guards s (fun _ t => UnchangedOutside [a] s t) fun r t =>
      UnchangedOutside [a] s t ∧ (r = .ok () → ∃ file, bip path = some file ∧ file.length ≤ a.region.size ∧
        t.content ⟨a.id, ⟨a.region.start, file.length⟩⟩ = file) :=
  BisAccessor.writeFile_guards hsize

end PartitionAccessor

lemma boot0_aligned : (which.area).region.start % BisAccessor.sectorAlignment = 0 := by
  cases which <;> decide

lemma readFile_ok {path : String} {data : List UInt8} (h : ((readFile bip size path).run s).result = .ok data) :
    ∃ file, bip path = some file ∧ data = paddedFile file size := by
  cases hpath : bip path with
  | none =>
    have hopen : ((fopen bip path).run s).result = .error .invalidBootImagePackage :=
      congrArg (fun file => Option.elim file _ Except.ok) hpath
    rw [readFile, Proc.run_bind_error hopen] at h
    cases h
  | some file =>
    rw [readFile_result hpath] at h
    exact ⟨file, rfl, (Except.ok.inj h).symm⟩

/-- A BCT with the EKS of its version, if the hardware has EKS. -/
def withEks (c : Console) (s : Nand) (bct : List UInt8) : List UInt8 :=
  if hasEks c.bootImageUpdateType then
    Boot0Accessor.copyEks bct (s.content Boot0Partition.eks.area)
      (Boot0Accessor.getEksIndex (Boot0Accessor.bctVersion bct))
  else bct

/-- The version is checked if the hardware has EKS. -/
def VersionFits (c : Console) (bct : List UInt8) : Prop :=
  hasEks c.bootImageUpdateType = true → Boot0Accessor.bctVersion bct ≤ Boot0Accessor.bctVersionMax

lemma readOnly_updateEks (h : ∀ s t, look s t → Agrees Boot0Partition.eks.area s t) :
    Proc.ReadOnly look (Boot0Accessor.updateEks bct) := by
  refine Proc.readOnly_bind (PartitionAccessor.readOnly_read h) fun eks => ?_
  rw [Boot0Accessor.updateEksManually]
  split
  · exact Proc.readOnly_fail _
  · exact Proc.readOnly_pure _

lemma updateEks_result : ((Boot0Accessor.updateEks bct).run s).result =
    ((Boot0Accessor.updateEksManually bct (s.content Boot0Partition.eks.area)).run s).result :=
  ((show Proc.ReadOnly Eq _ from PartitionAccessor.readOnly_read fun _ _ => agrees_of_eq).result_bind
    (PartitionAccessor.read_result boot0_aligned (Nat.le_refl _))).1

lemma readOnly_insertEks (h : ∀ s t, look s t → Agrees Boot0Partition.eks.area s t) :
    Proc.ReadOnly look (insertEks c bct) := by
  rw [insertEks]
  split
  · exact readOnly_updateEks h
  · exact Proc.readOnly_pure _

lemma insertEks_result (h : VersionFits c bct) : ((insertEks c bct).run s).result = .ok (withEks c s bct) := by
  rw [insertEks, withEks]
  split
  · next heks =>
    rw [updateEks_result, Boot0Accessor.updateEksManually, if_neg (Nat.not_lt.mpr (h heks))]
    rfl
  · rfl

lemma insertEks_ok {bct' : List UInt8} (h : ((insertEks c bct).run s).result = .ok bct') :
    VersionFits c bct ∧ bct' = withEks c s bct := by
  have hfits : VersionFits c bct := by
    intro heks
    rw [insertEks, if_pos heks, updateEks_result, Boot0Accessor.updateEksManually] at h
    split at h
    · cases h
    · next hle => exact Nat.not_lt.mp hle
  rw [insertEks_result hfits] at h
  exact ⟨hfits, (Except.ok.inj h).symm⟩

lemma readOnly_preserveAutoRcm (h : ∀ s t, look s t → Agrees which.area s t) :
    Proc.ReadOnly look (Boot0Accessor.preserveAutoRcm bct which) :=
  Proc.readOnly_bind (PartitionAccessor.readOnly_read h) fun _ => Proc.readOnly_pure _

lemma preserveAutoRcm_result (hsize : which.area.region.size ≤ bctSize) :
    ((Boot0Accessor.preserveAutoRcm bct which).run s).result =
      .ok (Boot0Accessor.copyPubk bct (s.content which.area)) := by
  rw [Boot0Accessor.preserveAutoRcm, ((show Proc.ReadOnly Eq _ from
    PartitionAccessor.readOnly_read fun _ _ => agrees_of_eq).result_bind
      (PartitionAccessor.read_result boot0_aligned hsize)).1]
  rfl

end Accessors

/-! ## Versions of the images -/

/-- The images of a boot mode, in the order in which they are written. -/
inductive BootImage
  | package1Sub
  | package2Sub
  | bctSub
  | bctMain
  | package2Main
  | package1Main
deriving Repr, DecidableEq

/-- Where an image is. -/
def BootImages.area (images : BootImages) : BootImage → Area
  | .package1Sub => images.package1Sub
  | .package2Sub => images.package2Sub.area .package2
  | .bctSub => images.bctSub.area
  | .bctMain => images.bctMain.area
  | .package2Main => images.package2Main.area .package2
  | .package1Main => images.package1Main

/-- The images are apart from each other and from the EKS, and have whole sectors. -/
structure BootImages.Layout (images : BootImages) : Prop where
  apart (i j : BootImage) : i ≠ j → (images.area i).Apart (images.area j)
  eks (i : BootImage) : (images.area i).Apart Boot0Partition.eks.area
  start_aligned (i : BootImage) : (images.area i).region.start % BisAccessor.sectorAlignment = 0
  size_aligned (i : BootImage) : (images.area i).region.size % BisAccessor.sectorAlignment = 0
  bctMain : images.bctMain.area.region.size = bctSize
  bctSub : images.bctSub.area.region.size = bctSize

/-- The partitions of a boot mode. -/
def BootModeType.images : BootModeType → BootImages
  | .normal => normalImages
  | .safe => safeImages

lemma images_layout (mode : BootModeType) : mode.images.Layout where
  apart i j := by cases mode <;> cases i <;> cases j <;> decide
  eks i := by cases mode <;> cases i <;> decide
  start_aligned i := by cases mode <;> cases i <;> decide
  size_aligned i := by cases mode <;> cases i <;> decide
  bctMain := by cases mode <;> decide
  bctSub := by cases mode <;> decide

/-- The images of one version. The two BCTs may differ, the copies of the packages do not. -/
structure Version where
  bctMain : List UInt8
  bctSub : List UInt8
  package1 : List UInt8
  package2 : List UInt8
  length_bctMain : bctMain.length = bctSize
  length_bctSub : bctSub.length = bctSize

namespace Version

/-- The contents of an image. -/
def image (v : Version) : BootImage → List UInt8
  | .package1Sub => v.package1
  | .package2Sub => v.package2
  | .bctSub => v.bctSub
  | .bctMain => v.bctMain
  | .package2Main => v.package2
  | .package1Main => v.package1

end Version

/-- The part of an area that an image takes. -/
def BootImages.extent (images : BootImages) (v : Version) (i : BootImage) : Area :=
  ⟨(images.area i).id, ⟨(images.area i).region.start, (v.image i).length⟩⟩

/-- An image of a version is complete. -/
def Complete (images : BootImages) (v : Version) (i : BootImage) (t : Nand) : Prop :=
  (v.image i).length ≤ (images.area i).region.size ∧ t.content (images.extent v i) = v.image i

section Versions

variable {images : BootImages} {v : Version} {i j : BootImage} {s t : Nand} {is : List BootImage}

/-- An image that has not been changed. -/
lemma Complete.of_unchanged (h : Complete images v i s) (hsame : UnchangedOutside (is.map images.area) s t)
    (hlayout : images.Layout) (hi : i ∉ is) : Complete images v i t := by
  obtain ⟨hlength, hcontent⟩ := h
  refine ⟨hlength, (hsame.content_eq ?_).trans hcontent⟩
  intro a ha
  obtain ⟨j, hj, rfl⟩ := List.mem_map.mp ha
  rcases hlayout.apart j i (fun heq => hi (heq ▸ hj)) with hid | hregion
  · exact .inl hid
  · have hinside : (images.extent v i).region.stop ≤ (images.area i).region.stop := Nat.add_le_add_left hlength _
    have hpart : (images.extent v i).region.Apart (images.area j).region :=
      hregion.symm.of_inside (Nat.le_refl _) hinside
    exact .inr hpart.symm

end Versions

/-! ## The new version -/

section New

variable (c : Console) (bip : BootImagePackage) (s : Nand)

/-- The BCT of a package, with the EKS. -/
def packageBct : List UInt8 :=
  withEks c s (paddedFile ((bip (getBctPath bip c.bootImageUpdateType)).getD []) bctSize)

/-- Whether the keys of the BCTs are preserved. -/
def preservesPubk : Bool := hasAutoRcmPreserve c.bootImageUpdateType && !c.isRcmBugPatched

/-- The BCT that is written to a partition. -/
def newBct (which : Boot0Partition) : List UInt8 :=
  if preservesPubk c then Boot0Accessor.copyPubk (packageBct c bip s) (s.content which.area) else packageBct c bip s

variable {c bip s}

@[simp] lemma length_copyPubk {bct src : List UInt8} (h : bct.length = bctSize) :
    (Boot0Accessor.copyPubk bct src).length = bctSize := by
  have hslice : (slice src Boot0Accessor.bctPubkOffset Boot0Accessor.bctPubkSize).length ≤ 0x100 :=
    List.length_take_le _ _
  rw [Boot0Accessor.copyPubk, length_splice, h]
  rw [h, Boot0Accessor.bctPubkOffset, bctSize]
  rw [Boot0Accessor.bctPubkOffset] at hslice
  omega

lemma length_copyEks {bct eks : List UInt8} {index : Nat} (h : bct.length = bctSize) :
    (Boot0Accessor.copyEks bct eks index).length = bctSize := by
  have hslice : (slice eks (index * eksEntrySize) eksBlobSize).length ≤ 0xB0 := List.length_take_le _ _
  rw [Boot0Accessor.copyEks, length_splice, h]
  rw [h, Boot0Accessor.bctEksOffset, bctSize]
  omega

lemma length_withEks {bct : List UInt8} (h : bct.length = bctSize) : (withEks c s bct).length = bctSize := by
  rw [withEks]
  split
  · exact length_copyEks h
  · exact h

lemma length_packageBct : (packageBct c bip s).length = bctSize := length_withEks length_paddedFile

lemma length_newBct (which : Boot0Partition) : (newBct c bip s which).length = bctSize := by
  rw [newBct]
  split
  · exact length_copyPubk length_packageBct
  · exact length_packageBct

/-- Only the last keys that are copied count. -/
lemma copyPubk_copyPubk {bct src src' : List UInt8} (hbct : bct.length = bctSize) (hsrc : src.length = bctSize)
    (hsrc' : src'.length = bctSize) :
    Boot0Accessor.copyPubk (Boot0Accessor.copyPubk bct src) src' = Boot0Accessor.copyPubk bct src' := by
  have hslice {src : List UInt8} (h : src.length = bctSize) :
      (slice src Boot0Accessor.bctPubkOffset Boot0Accessor.bctPubkSize).length = Boot0Accessor.bctPubkSize :=
    length_slice (by rw [h]; decide)
  refine splice_splice_self ?_ ((hslice hsrc').trans (hslice hsrc).symm)
  rw [hslice hsrc, hbct]
  decide

variable (c bip s)

/-- The images of a package, for the keys and the EKS in NAND. -/
def newVersion (images : BootImages) : Version where
  bctMain := newBct c bip s images.bctMain
  bctSub := newBct c bip s images.bctSub
  package1 := (bip (getPackage1Path bip c.bootImageUpdateType)).getD []
  package2 := (bip (getPackage2Path bip c.bootImageUpdateType)).getD []
  length_bctMain := length_newBct _
  length_bctSub := length_newBct _

end New

/-! ## The order of an update -/

/-- What has been written before each image. -/
def updateSteps : List (List BootImage × BootImage) := [
  ([], .package1Sub),
  ([.package1Sub], .package2Sub),
  ([.package1Sub, .package2Sub], .bctSub),
  ([.package1Sub, .package2Sub, .bctSub], .bctMain),
  ([.package1Sub, .package2Sub, .bctSub, .bctMain], .package2Main),
  ([.package1Sub, .package2Sub, .bctSub, .bctMain, .package2Main], .package1Main)]

lemma updateSteps_fresh : ∀ step ∈ updateSteps, step.2 ∉ step.1 := by decide

/-- Some images are those of a version, and the rest of NAND is as it was. -/
structure Between (images : BootImages) (v : Version) (s : Nand) (written : List BootImage) (t : Nand) : Prop where
  unchanged : UnchangedOutside (written.map images.area) s t
  complete (i : BootImage) : i ∈ written → Complete images v i t

/-- An image is being written, those before it are those of a version, and the rest of NAND is as it was. -/
def InProgress (images : BootImages) (v : Version) (s t : Nand) : Prop :=
  ∃ step ∈ updateSteps, UnchangedOutside ((step.1 ++ [step.2]).map images.area) s t ∧
    ∀ i ∈ step.1, Complete images v i t

section Steps

variable {images : BootImages} {v : Version} {i : BootImage} {s t : Nand} {written : List BootImage} {c : Console}
  {bip : BootImagePackage}

lemma Between.inProgress (h : Between images v s written t) (hstep : (written, i) ∈ updateSteps) :
    InProgress images v s t := by
  refine ⟨_, hstep, h.unchanged.mono ?_, h.complete⟩
  rw [List.map_append]
  exact List.subset_append_left _ _

/-- An image that has not been written. -/
lemma Between.content_eq (h : Between images v s written t) (hlayout : images.Layout) (hi : i ∉ written) :
    t.content (images.area i) = s.content (images.area i) := by
  refine h.unchanged.content_eq fun a ha => ?_
  obtain ⟨j, hj, rfl⟩ := List.mem_map.mp ha
  exact hlayout.apart j i fun heq => hi (heq ▸ hj)

/-- Writing the next image. -/
lemma Between.step_guards {p : BisProc Unit} {P : Prop} (h : Between images v s written t)
    (hlayout : images.Layout) (hstep : (written, i) ∈ updateSteps)
    (hp : p.Guards t (fun _ u => UnchangedOutside [images.area i] t u) fun r u =>
      UnchangedOutside [images.area i] t u ∧ (r = .ok () → Complete images v i u ∧ P)) :
    p.Guards t (fun _ u => InProgress images v s u) fun r u =>
      InProgress images v s u ∧ (r = .ok () → Between images v s (written ++ [i]) u ∧ P) := by
  have hsame {u : Nand} (hu : UnchangedOutside [images.area i] t u) :
      UnchangedOutside ((written ++ [i]).map images.area) s u := by
    rw [List.map_append]
    exact (h.unchanged.mono (List.subset_append_left _ _)).trans (hu.mono (List.subset_append_right _ _))
  have hkept {u : Nand} (hu : UnchangedOutside [images.area i] t u) (j : BootImage) (hj : j ∈ written) :
      Complete images v j u := by
    refine @Complete.of_unchanged images v j t u [i] (h.complete j hj) hu hlayout fun hji => ?_
    rw [List.mem_singleton.mp hji] at hj
    exact updateSteps_fresh _ hstep hj
  refine hp.mono (fun _ u hu => ⟨_, hstep, hsame hu, hkept hu⟩) ?_
  rintro r u ⟨hu, hok⟩
  refine ⟨⟨_, hstep, hsame hu, hkept hu⟩, fun hr => ⟨⟨hsame hu, fun j hj => ?_⟩, (hok hr).2⟩⟩
  rcases List.mem_append.mp hj with hj | hj
  · exact hkept hu j hj
  · rw [List.mem_singleton.mp hj]
    exact (hok hr).1

lemma writePackage1_guards {a : Area} (haligned : a.region.size % BisAccessor.sectorAlignment = 0) :
    (writePackage1 c bip a).Guards s (fun _ t => UnchangedOutside [a] s t) fun r t =>
      UnchangedOutside [a] s t ∧ (r = .ok () → ∃ file, bip (getPackage1Path bip c.bootImageUpdateType) = some file ∧
        file.length ≤ a.region.size ∧ t.content ⟨a.id, ⟨a.region.start, file.length⟩⟩ = file) := by
  refine Proc.guards_seq (P := fun _ => True) (PartitionAccessor.clear_guards.mono (fun _ _ h => h) ?_) ?_
  · exact fun _ _ h => ⟨h, fun _ => trivial⟩
  · intro t ht _
    refine (PartitionAccessor.writeFile_guards haligned).mono (fun _ _ h => ht.trans h) ?_
    rintro r u ⟨hu, hok⟩
    exact ⟨ht.trans hu, hok⟩

lemma writePackage2_guards {which : Package2Type} :
    (writePackage2 c bip which).Guards s (fun _ t => UnchangedOutside [which.area .package2] s t) fun r t =>
      UnchangedOutside [which.area .package2] s t ∧
        (r = .ok () → ∃ file, bip (getPackage2Path bip c.bootImageUpdateType) = some file ∧
          file.length ≤ (which.area .package2).region.size ∧
          t.content ⟨(which.area .package2).id, ⟨(which.area .package2).region.start, file.length⟩⟩ = file) := by
  have haligned : (which.area .package2).region.size % BisAccessor.sectorAlignment = 0 :=
    show 0x7FC000 % 0x200 = 0 by decide
  refine (show Proc.ReadOnly Eq _ from readOnly_request).bind_guards unchangedOutside_refl
    (fun _ => ⟨unchangedOutside_refl, nofun⟩) fun _ _ => ?_
  exact PartitionAccessor.writeFile_guards haligned

/-- Writing a copy of package1 of the new version. -/
lemma Between.package1_guards (h : Between images (newVersion c bip s images) s written t) (hlayout : images.Layout)
    (hstep : (written, i) ∈ updateSteps) (hi : i = .package1Sub ∨ i = .package1Main) :
    (writePackage1 c bip (images.area i)).Guards t
      (fun _ u => InProgress images (newVersion c bip s images) s u) fun r u =>
        InProgress images (newVersion c bip s images) s u ∧ (r = .ok () →
          Between images (newVersion c bip s images) s (written ++ [i]) u ∧
            ∃ file, bip (getPackage1Path bip c.bootImageUpdateType) = some file) := by
  refine h.step_guards hlayout hstep ((writePackage1_guards (hlayout.size_aligned i)).mono (fun _ _ h => h) ?_)
  rintro r u ⟨hu, hok⟩
  refine ⟨hu, fun hr => ?_⟩
  obtain ⟨file, hpath, hlength, hcontent⟩ := hok hr
  have himage : (newVersion c bip s images).image i = file := by
    have hfile : (newVersion c bip s images).package1 = file := by rw [newVersion, hpath, Option.getD_some]
    rcases hi with rfl | rfl
    · exact hfile
    · exact hfile
  rw [Complete, BootImages.extent, himage]
  exact ⟨⟨hlength, hcontent⟩, file, hpath⟩

/-- Writing a copy of package2 of the new version. -/
lemma Between.package2_guards (h : Between images (newVersion c bip s images) s written t) (hlayout : images.Layout)
    (hstep : (written, i) ∈ updateSteps) {which : Package2Type} (hwhich : images.area i = which.area .package2)
    (hi : i = .package2Sub ∨ i = .package2Main) :
    (writePackage2 c bip which).Guards t
      (fun _ u => InProgress images (newVersion c bip s images) s u) fun r u =>
        InProgress images (newVersion c bip s images) s u ∧ (r = .ok () →
          Between images (newVersion c bip s images) s (written ++ [i]) u ∧
            ∃ file, bip (getPackage2Path bip c.bootImageUpdateType) = some file) := by
  refine h.step_guards hlayout hstep ?_
  rw [hwhich]
  refine writePackage2_guards.mono (fun _ _ h => h) ?_
  rintro r u ⟨hu, hok⟩
  refine ⟨hu, fun hr => ?_⟩
  obtain ⟨file, hpath, hlength, hcontent⟩ := hok hr
  have himage : (newVersion c bip s images).image i = file := by
    have hfile : (newVersion c bip s images).package2 = file := by rw [newVersion, hpath, Option.getD_some]
    rcases hi with rfl | rfl
    · exact hfile
    · exact hfile
  rw [Complete, BootImages.extent, himage, hwhich]
  exact ⟨⟨hlength, hcontent⟩, file, hpath⟩

/-- Writing a BCT of the new version. -/
lemma Between.bct_guards (h : Between images v s written t) (hlayout : images.Layout)
    (hstep : (written, i) ∈ updateSteps) :
    (PartitionAccessor.write (images.area i) (v.image i)).Guards t (fun _ u => InProgress images v s u) fun r u =>
      InProgress images v s u ∧ (r = .ok () → Between images v s (written ++ [i]) u) := by
  have hwrite := h.step_guards (P := True) hlayout hstep
    (@PartitionAccessor.write_guards (images.area i) t (v.image i) |>.mono (fun _ _ h => h) ?_)
  · refine hwrite.mono (fun _ _ h => h) ?_
    rintro r u ⟨hu, hok⟩
    exact ⟨hu, fun hr => (hok hr).1⟩
  · rintro r u ⟨hu, hok⟩
    exact ⟨hu, fun hr => ⟨hok hr, trivial⟩⟩

/-- Writing the BCTs. -/
lemma writeBcts_guards (hlayout : images.Layout)
    (h : Between images (newVersion c bip s images) s [.package1Sub, .package2Sub] t) :
    (writeBcts c bip images.bctSub images.bctMain).Guards t
      (fun _ u => InProgress images (newVersion c bip s images) s u) fun r u =>
        InProgress images (newVersion c bip s images) s u ∧
          (r = .ok () → Between images (newVersion c bip s images) s
            [.package1Sub, .package2Sub, .bctSub, .bctMain] u ∧
            ∃ file, bip (getBctPath bip c.bootImageUpdateType) = some file ∧
              VersionFits c (paddedFile file bctSize)) := by
  have hprogress := h.inProgress (i := .bctSub) (by decide)
  refine (show Proc.ReadOnly Eq _ from
    @readOnly_readFile _ bip (getBctPath bip c.bootImageUpdateType) bctSize).bind_guards hprogress
    (fun _ => ⟨hprogress, nofun⟩) fun data hdata => ?_
  obtain ⟨file, hpath, rfl⟩ := readFile_ok hdata
  refine (show Proc.ReadOnly Eq _ from
    @readOnly_insertEks _ c (paddedFile file bctSize) fun _ _ => agrees_of_eq).bind_guards hprogress
    (fun _ => ⟨hprogress, nofun⟩) fun bct hbct => ?_
  obtain ⟨hfits, rfl⟩ := insertEks_ok hbct
  have hpackage : withEks c t (paddedFile file bctSize) = packageBct c bip s := by
    have hcontent : t.content Boot0Partition.eks.area = s.content Boot0Partition.eks.area := by
      refine h.unchanged.content_eq fun a ha => ?_
      obtain ⟨j, -, rfl⟩ := List.mem_map.mp ha
      exact hlayout.eks j
    rw [packageBct, hpath, withEks, withEks, hcontent]
    rfl
  rw [hpackage]
  have hsub := h.content_eq hlayout (show BootImage.bctSub ∉ _ by decide)
  split
  · next hpreserve =>
    -- the keys of each BCT are read from NAND before it is written
    have hnew (which : Boot0Partition) :
        newBct c bip s which = Boot0Accessor.copyPubk (packageBct c bip s) (s.content which.area) := if_pos hpreserve
    refine (show Proc.ReadOnly Eq _ from @readOnly_preserveAutoRcm _ (packageBct c bip s) images.bctSub
      fun _ _ => agrees_of_eq).bind_guards hprogress
      (fun _ => ⟨hprogress, nofun⟩) fun bct hbct => ?_
    have hresult := hbct
    rw [preserveAutoRcm_result hlayout.bctSub.le, show t.content images.bctSub.area = s.content images.bctSub.area
      from hsub, ← hnew] at hresult
    obtain rfl := Except.ok.inj hresult
    refine Proc.guards_seq (h.bct_guards hlayout (i := .bctSub) (by decide)) fun u _ hbetween => ?_
    have hprogress' := hbetween.inProgress (i := .bctMain) (by decide)
    have hmain := hbetween.content_eq hlayout (show BootImage.bctMain ∉ _ by decide)
    refine (show Proc.ReadOnly Eq _ from @readOnly_preserveAutoRcm _ (newBct c bip s images.bctSub)
      images.bctMain fun _ _ => agrees_of_eq).bind_guards hprogress'
      (fun _ => ⟨hprogress', nofun⟩) fun bct hbct => ?_
    have hresult := hbct
    rw [preserveAutoRcm_result hlayout.bctMain.le, show u.content images.bctMain.area = s.content images.bctMain.area
      from hmain, hnew, copyPubk_copyPubk length_packageBct, ← hnew] at hresult
    · obtain rfl := Except.ok.inj hresult
      refine (hbetween.bct_guards hlayout (i := .bctMain) (by decide)).mono (fun _ _ h => h) ?_
      rintro r v ⟨hv, hok⟩
      exact ⟨hv, fun hr => ⟨hok hr, file, hpath, hfits⟩⟩
    · rw [Nand.content, AddressSpace.length_read, hlayout.bctSub]
    · rw [Nand.content, AddressSpace.length_read, hlayout.bctMain]
  · next hpreserve =>
    have hnew (which : Boot0Partition) : newBct c bip s which = packageBct c bip s := if_neg hpreserve
    rw [← hnew images.bctSub]
    refine Proc.guards_seq (h.bct_guards hlayout (i := .bctSub) (by decide)) fun u _ hbetween => ?_
    rw [hnew images.bctSub, ← hnew images.bctMain]
    refine (hbetween.bct_guards hlayout (i := .bctMain) (by decide)).mono (fun _ _ h => h) ?_
    rintro r v ⟨hv, hok⟩
    exact ⟨hv, fun hr => ⟨hok hr, file, hpath, hfits⟩⟩

end Steps

/-! ## A whole update -/

/-- What `validateWorkBuffer` accepts. -/
structure WorkBufferFits (c : Console) : Prop where
  size : bctSize + eksSize ≤ c.workBufferSize
  buffer_aligned : c.workBuffer % 0x1000 = 0
  size_aligned : c.workBufferSize % 0x200 = 0

/-- All the images in that order. -/
def allImages : List BootImage := [.package1Sub, .package2Sub, .bctSub, .bctMain, .package2Main, .package1Main]

/-- The package that is mounted, if there is one. -/
def packageOf (c : Console) (dataId : Nat) : BootImagePackage := (c.archives dataId).getD fun _ => none

/-- The images have all been written, from the files of the package that is there. -/
structure Updated (c : Console) (images : BootImages) (dataId : Nat) (s t : Nand) : Prop where
  work : WorkBufferFits c
  archive : c.archives dataId = some (packageOf c dataId)
  between : Between images (newVersion c (packageOf c dataId) s images) s allImages t
  bct : ∃ file, packageOf c dataId (getBctPath (packageOf c dataId) c.bootImageUpdateType) = some file ∧
    VersionFits c (paddedFile file bctSize)
  package1 : ∃ file, packageOf c dataId (getPackage1Path (packageOf c dataId) c.bootImageUpdateType) = some file
  package2 : ∃ file, packageOf c dataId (getPackage2Path (packageOf c dataId) c.bootImageUpdateType) = some file

section Whole

variable {look : Nand → Nand → Prop} {c : Console} {images : BootImages} {dataId : Nat} {s t : Nand}
  {body : BootImagePackage → BisProc Unit}

lemma readOnly_validateWorkBuffer : Proc.ReadOnly look (validateWorkBuffer c) := by
  rw [validateWorkBuffer]
  split
  · exact Proc.readOnly_fail _
  split
  · exact Proc.readOnly_fail _
  split
  · exact Proc.readOnly_fail _
  · exact Proc.readOnly_pure _

lemma validateWorkBuffer_result : ((validateWorkBuffer c).run s).result = .ok () ↔ WorkBufferFits c := by
  constructor
  · intro h
    rw [validateWorkBuffer] at h
    split at h
    · cases h
    next hsize =>
    split at h
    · cases h
    next hbuffer =>
    split at h
    · cases h
    next haligned =>
    exact ⟨Nat.not_lt.mp hsize, not_not.mp hbuffer, not_not.mp haligned⟩
  · intro h
    rw [validateWorkBuffer, if_neg (Nat.not_lt.mpr h.size), if_neg (not_not.mpr h.buffer_aligned),
      if_neg (not_not.mpr h.size_aligned)]
    rfl

lemma readOnly_openStorages (ids : List FsBisStorageId) : Proc.ReadOnly look (openStorages ids) := by
  induction ids with
  | nil => exact Proc.readOnly_pure _
  | cons id later ih => exact Proc.readOnly_bind readOnly_request fun _ => ih

lemma openStorages_result (ids : List FsBisStorageId) : ((openStorages ids).run s).result = .ok () := by
  induction ids with
  | nil => rfl
  | cons id later ih =>
    exact ((show Proc.ReadOnly Eq request from readOnly_request).result_bind rfl).1.trans ih

/-- The mount as it is done in `withPackage`. -/
def mountPackage (c : Console) (dataId : Nat) : BisProc BootImagePackage :=
  (romfsMountFromDataArchive c dataId).mapError fun e => if e = .fsTargetNotFound then .bootImagePackageNotFound else e

lemma readOnly_mountPackage : Proc.ReadOnly look (mountPackage c dataId) :=
  Proc.readOnly_mapError (Proc.readOnly_atomic fun _ _ _ => rfl)

lemma mountPackage_result {bip : BootImagePackage} :
    ((mountPackage c dataId).run s).result = .ok bip ↔ c.archives dataId = some bip := by
  rw [mountPackage, (Proc.run_mapError _ _ s).1, romfsMountFromDataArchive]
  show Except.mapError _ ((c.archives dataId).elim (.error Failure.fsTargetNotFound) .ok) = _ ↔ _
  cases c.archives dataId with
  | none => exact ⟨nofun, nofun⟩
  | some bip' =>
    constructor
    · intro h
      exact congrArg some (Except.ok.inj h)
    · intro h
      exact congrArg Except.ok (Option.some.inj h)

lemma withPackage_eq : withPackage c dataId body =
    mountPackage c dataId >>= fun bip => (body bip).followedBy (request.mapError fun _ => .abort) := rfl

lemma readOnly_unmount : Proc.ReadOnly look (request.mapError fun _ => .abort) :=
  Proc.readOnly_mapError readOnly_request

/-- The rule for what is done while a package is mounted. -/
lemma withPackage_guards {I P : Nand → Prop} (hs : I s)
    (hbody : ∀ bip, c.archives dataId = some bip →
      (body bip).Guards s (fun _ t => I t) fun r t => I t ∧ (r = .ok () → P t)) :
    (withPackage c dataId body).Guards s (fun _ t => I t) fun r t => I t ∧ (r = .ok () → P t) := by
  rw [withPackage_eq]
  refine (show Proc.ReadOnly Eq _ from @readOnly_mountPackage _ c dataId).bind_guards hs
    (fun _ => ⟨hs, nofun⟩) fun bip hbip => ?_
  have harchive := mountPackage_result.mp hbip
  refine Proc.guards_followedBy ((hbody bip harchive).mono (fun _ _ h => h) ?_)
  rintro r t ⟨ht, hok⟩
  have hunmount := (show Proc.ReadOnly Eq _ from readOnly_unmount).guards_ok t
  refine hunmount.mono (fun _ _ h => h ▸ ht) ?_
  rintro r' u ⟨rfl, -⟩
  exact ⟨fun _ => ⟨ht, hok⟩, fun _ _ => ⟨ht, nofun⟩⟩

/-- At any time of an update, the images are in progress, and they have been updated if it succeeds. -/
theorem updateImages_guards (hlayout : images.Layout) (s : Nand) :
    (updateImages c images dataId).Guards s
      (fun _ t => InProgress images (newVersion c (packageOf c dataId) s images) s t) fun r t =>
        InProgress images (newVersion c (packageOf c dataId) s images) s t ∧
          (r = .ok () → Updated c images dataId s t) := by
  have hstart : Between images (newVersion c (packageOf c dataId) s images) s [] s :=
    ⟨unchangedOutside_refl, fun _ h => nomatch h⟩
  have hprogress := hstart.inProgress (i := .package1Sub) (by decide)
  refine (show Proc.ReadOnly Eq _ from @readOnly_validateWorkBuffer _ c).bind_guards hprogress
    (fun _ => ⟨hprogress, nofun⟩) fun _ hok => ?_
  have hfits := validateWorkBuffer_result.mp hok
  refine withPackage_guards hprogress fun bip harchive => ?_
  have hbip : packageOf c dataId = bip := by rw [packageOf, harchive, Option.getD_some]
  refine (show Proc.ReadOnly Eq _ from readOnly_openStorages images.storages).bind_guards hprogress
    (fun _ => ⟨hprogress, nofun⟩) fun _ _ => ?_
  rw [← hbip]
  refine Proc.guards_seq (hstart.package1_guards hlayout (by decide) (.inl rfl)) fun t _ ⟨hpackage1, hfile1⟩ => ?_
  refine Proc.guards_seq (hpackage1.package2_guards hlayout (i := .package2Sub) (by decide) rfl (.inl rfl))
    fun t _ ⟨hpackage2, hfile2⟩ => ?_
  refine Proc.guards_seq (writeBcts_guards hlayout hpackage2) fun t _ ⟨hbct, hfile⟩ => ?_
  refine Proc.guards_seq (hbct.package2_guards hlayout (i := .package2Main) (by decide) rfl (.inr rfl))
    fun t _ ⟨hpackage2', _⟩ => ?_
  refine (hpackage2'.package1_guards hlayout (i := .package1Main) (by decide) (.inr rfl)).mono (fun _ _ h => h) ?_
  rintro r u ⟨hu, hok⟩
  refine ⟨hu, fun hr => ?_⟩
  exact ⟨hfits, harchive.trans (congrArg some hbip.symm), (hok hr).1, hfile, hfile1, hfile2⟩

end Whole

end RajNX.Updater
