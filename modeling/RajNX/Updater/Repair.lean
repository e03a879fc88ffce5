import RajNX.Updater.Bootable

/-!
# Repairs are accepted

After an update of boot images succeeds, the verification of the same boot image package does. The BCT that is verified
has the keys that are in NAND, whether the update has preserved them or not.
-/

namespace RajNX.Updater

open AddressSpace Interruptible Regions Splice

section Verification

variable {look : Nand → Nand → Prop} {c : Console} {bip : BootImagePackage} {which : Boot0Partition} {s t : Nand}
  {file hash hash' : List UInt8} {a main sub : Area} {images : BootImages} {dataId : Nat}

/-- The images that a verification reads, and the EKS. -/
def BootImages.LooksAt (images : BootImages) (look : Nand → Nand → Prop) : Prop :=
  ∀ s t, look s t → (∀ i, Agrees (images.area i) s t) ∧ Agrees Boot0Partition.eks.area s t

lemma readOnly_compareHashes : Proc.ReadOnly look (compareHashes hash hash') := by
  rw [compareHashes]
  split
  · exact Proc.readOnly_fail _
  · exact Proc.readOnly_pure _

lemma readOnly_insertPubk {bct : List UInt8} (h : ∀ s t, look s t → Agrees which.area s t) :
    Proc.ReadOnly look (insertPubk c bct which) := by
  rw [insertPubk]
  split
  · exact readOnly_preserveAutoRcm h
  · exact Proc.readOnly_pure _

lemma readOnly_verifyBct (hwhich : ∀ s t, look s t → Agrees which.area s t)
    (heks : ∀ s t, look s t → Agrees Boot0Partition.eks.area s t) : Proc.ReadOnly look (verifyBct c bip which) := by
  refine Proc.readOnly_bind (PartitionAccessor.readOnly_getHash hwhich) fun nandHash => ?_
  refine Proc.readOnly_bind readOnly_validateWorkBuffer fun _ => ?_
  refine Proc.readOnly_bind readOnly_readFile fun bct => ?_
  refine Proc.readOnly_bind (readOnly_insertEks heks) fun bct => ?_
  exact Proc.readOnly_bind (readOnly_insertPubk hwhich) fun bct => readOnly_compareHashes

lemma readOnly_verifyPackage1 (hmain : ∀ s t, look s t → Agrees main s t) (hsub : ∀ s t, look s t → Agrees sub s t) :
    Proc.ReadOnly look (verifyPackage1 c bip main sub) := by
  refine Proc.readOnly_bind readOnly_getFileHash fun (size, fileHash) => ?_
  refine Proc.readOnly_bind (PartitionAccessor.readOnly_getHash hmain) fun nandHash => ?_
  refine Proc.readOnly_bind readOnly_compareHashes fun _ => ?_
  exact Proc.readOnly_bind (PartitionAccessor.readOnly_getHash hsub) fun nandHash => readOnly_compareHashes

lemma readOnly_getPackage2Hash {which : Package2Type} {size : Nat}
    (h : ∀ s t, look s t → Agrees (which.area .package2) s t) : Proc.ReadOnly look (getPackage2Hash c which size) :=
  Proc.readOnly_bind readOnly_request fun _ => PartitionAccessor.readOnly_getHash h

lemma readOnly_verifyPackage2 {main sub : Package2Type} (hmain : ∀ s t, look s t → Agrees (main.area .package2) s t)
    (hsub : ∀ s t, look s t → Agrees (sub.area .package2) s t) :
    Proc.ReadOnly look (verifyPackage2 c bip main sub) := by
  refine Proc.readOnly_bind readOnly_getFileHash fun (size, fileHash) => ?_
  refine Proc.readOnly_bind (readOnly_getPackage2Hash hmain) fun nandHash => ?_
  refine Proc.readOnly_bind readOnly_compareHashes fun _ => ?_
  exact Proc.readOnly_bind (readOnly_getPackage2Hash hsub) fun nandHash => readOnly_compareHashes

/-- The comparisons that are made while a package is mounted. -/
def verifyMounted (c : Console) (images : BootImages) (bip : BootImagePackage) : BisProc Unit := do
  openStorages images.storages
  verifyBct c bip images.bctMain
  verifyBct c bip images.bctSub
  verifyPackage1 c bip images.package1Main images.package1Sub
  verifyPackage2 c bip images.package2Main images.package2Sub

lemma readOnly_verifyMounted (h : images.LooksAt look) : Proc.ReadOnly look (verifyMounted c images bip) := by
  have hlook (i : BootImage) (s t : Nand) (hst : look s t) : Agrees (images.area i) s t := (h s t hst).1 i
  have heks (s t : Nand) (hst : look s t) : Agrees Boot0Partition.eks.area s t := (h s t hst).2
  refine Proc.readOnly_bind (readOnly_openStorages _) fun _ => ?_
  refine Proc.readOnly_bind (readOnly_verifyBct (hlook .bctMain) heks) fun _ => ?_
  refine Proc.readOnly_bind (readOnly_verifyBct (hlook .bctSub) heks) fun _ => ?_
  refine Proc.readOnly_bind (readOnly_verifyPackage1 (hlook .package1Main) (hlook .package1Sub)) fun _ => ?_
  exact readOnly_verifyPackage2 (hlook .package2Main) (hlook .package2Sub)

lemma verifyImages_eq : verifyImages c images dataId = validateWorkBuffer c >>= fun _ =>
    mountPackage c dataId >>= fun bip => (verifyMounted c images bip).followedBy (request.mapError fun _ => .abort) :=
  rfl

/-- A verification changes nothing, and depends on the images and the EKS only. -/
theorem readOnly_verifyImages (h : images.LooksAt look) : Proc.ReadOnly look (verifyImages c images dataId) := by
  rw [verifyImages_eq]
  refine Proc.readOnly_bind readOnly_validateWorkBuffer fun _ => ?_
  exact Proc.readOnly_bind readOnly_mountPackage fun bip =>
    Proc.readOnly_followedBy (readOnly_verifyMounted h) readOnly_unmount

/-! ## Verifications that succeed -/

lemma looksAt_eq : images.LooksAt Eq := fun _ _ h => ⟨fun _ => agrees_of_eq h, agrees_of_eq h⟩

lemma compareHashes_result (h : hash = hash') : ((compareHashes hash hash').run s).result = .ok () := by
  rw [compareHashes, if_neg (not_not.mpr h)]
  rfl

lemma getHash_area_result {size : Nat} (hwork : WorkBufferFits c)
    (hstart : a.region.start % BisAccessor.sectorAlignment = 0) (hsize : size ≤ a.region.size) :
    ((PartitionAccessor.getHash c.sha256 a size c.workBufferSize).run s).result =
      .ok (c.sha256 (s.content ⟨a.id, ⟨a.region.start, size⟩⟩)) := by
  have hpos : 0 < c.workBufferSize := Nat.lt_of_lt_of_le (by decide) hwork.size
  exact BisAccessor.getHash_result hstart hwork.size_aligned hpos hsize

/-- A BCT with the keys that are in NAND, if the hardware preserves them. -/
def withPubk (c : Console) (s : Nand) (which : Boot0Partition) (bct : List UInt8) : List UInt8 :=
  if hasAutoRcmPreserve c.bootImageUpdateType then Boot0Accessor.copyPubk bct (s.content which.area) else bct

lemma insertPubk_result {bct : List UInt8} (hsize : which.area.region.size ≤ bctSize) :
    ((insertPubk c bct which).run s).result = .ok (withPubk c s which bct) := by
  rw [insertPubk, withPubk]
  split
  · exact preserveAutoRcm_result hsize
  · rfl

/-- A BCT that is the one of the package, but for the keys. -/
lemma verifyBct_result (hwork : WorkBufferFits c) (hsize : which.area.region.size = bctSize)
    (hpath : bip (getBctPath bip c.bootImageUpdateType) = some file) (hfits : VersionFits c (paddedFile file bctSize))
    (hcontent : withPubk c s which (withEks c s (paddedFile file bctSize)) = s.content which.area) :
    ((verifyBct c bip which).run s).result = .ok () := by
  have hhash := @getHash_area_result c s which.area bctSize hwork boot0_aligned hsize.ge
  rw [← hsize] at hhash
  rw [verifyBct, ← hsize, ((show Proc.ReadOnly Eq _ from
    PartitionAccessor.readOnly_getHash fun _ _ => agrees_of_eq).result_bind hhash).1]
  rw [validateBctFileHash, ((show Proc.ReadOnly Eq _ from readOnly_validateWorkBuffer).result_bind
      (validateWorkBuffer_result.mpr hwork)).1,
    ((show Proc.ReadOnly Eq _ from readOnly_readFile).result_bind (readFile_result hpath)).1,
    ((show Proc.ReadOnly Eq _ from readOnly_insertEks fun _ _ => agrees_of_eq).result_bind (insertEks_result hfits)).1,
    ((show Proc.ReadOnly Eq _ from readOnly_insertPubk fun _ _ => agrees_of_eq).result_bind
      (insertPubk_result hsize.le)).1]
  exact compareHashes_result (congrArg c.sha256 hcontent)

/-- The hash of a complete image. -/
lemma getHash_complete_result {v : Version} {i : BootImage} (hwork : WorkBufferFits c) (hlayout : images.Layout)
    (h : Complete images v i s) :
    ((PartitionAccessor.getHash c.sha256 (images.area i) (v.image i).length c.workBufferSize).run s).result =
      .ok (c.sha256 (v.image i)) := by
  rw [getHash_area_result hwork (hlayout.start_aligned i) h.1]
  exact congrArg (fun bytes => Except.ok (c.sha256 bytes)) h.2

/-- The comparison of package1, if both hashes are that of the file. -/
lemma verifyPackage1_result (hwork : WorkBufferFits c)
    (hpath : bip (getPackage1Path bip c.bootImageUpdateType) = some file)
    (hmain : ((PartitionAccessor.getHash c.sha256 main file.length c.workBufferSize).run s).result =
      .ok (c.sha256 file))
    (hsub : ((PartitionAccessor.getHash c.sha256 sub file.length c.workBufferSize).run s).result =
      .ok (c.sha256 file)) : ((verifyPackage1 c bip main sub).run s).result = .ok () := by
  have hpos : 0 < c.workBufferSize := Nat.lt_of_lt_of_le (by decide) hwork.size
  rw [verifyPackage1, ((show Proc.ReadOnly Eq _ from readOnly_getFileHash).result_bind
      (getFileHash_result hpos hpath)).1]
  dsimp only
  rw [((show Proc.ReadOnly Eq _ from PartitionAccessor.readOnly_getHash fun _ _ => agrees_of_eq).result_bind hmain).1,
    ((show Proc.ReadOnly Eq _ from readOnly_compareHashes).result_bind (compareHashes_result rfl)).1,
    ((show Proc.ReadOnly Eq _ from PartitionAccessor.readOnly_getHash fun _ _ => agrees_of_eq).result_bind hsub).1]
  exact compareHashes_result rfl

/-- The comparison of package2, if both hashes are that of the file. -/
lemma verifyPackage2_result {main sub : Package2Type} (hwork : WorkBufferFits c)
    (hpath : bip (getPackage2Path bip c.bootImageUpdateType) = some file)
    (hmain : ((PartitionAccessor.getHash c.sha256 (main.area .package2) file.length c.workBufferSize).run s).result =
      .ok (c.sha256 file))
    (hsub : ((PartitionAccessor.getHash c.sha256 (sub.area .package2) file.length c.workBufferSize).run s).result =
      .ok (c.sha256 file)) : ((verifyPackage2 c bip main sub).run s).result = .ok () := by
  have hpos : 0 < c.workBufferSize := Nat.lt_of_lt_of_le (by decide) hwork.size
  have hopen {which : Package2Type} {size : Nat} : ((getPackage2Hash c which size).run s).result =
      ((PartitionAccessor.getHash c.sha256 (which.area .package2) size c.workBufferSize).run s).result :=
    ((show Proc.ReadOnly Eq request from readOnly_request).result_bind rfl).1
  rw [verifyPackage2, ((show Proc.ReadOnly Eq _ from readOnly_getFileHash).result_bind
      (getFileHash_result hpos hpath)).1]
  dsimp only
  rw [((show Proc.ReadOnly Eq _ from readOnly_getPackage2Hash fun _ _ => agrees_of_eq).result_bind
      (hopen.trans hmain)).1,
    ((show Proc.ReadOnly Eq _ from readOnly_compareHashes).result_bind (compareHashes_result rfl)).1,
    ((show Proc.ReadOnly Eq _ from readOnly_getPackage2Hash fun _ _ => agrees_of_eq).result_bind
      (hopen.trans hsub)).1]
  exact compareHashes_result rfl

/-- The result of a verification is that of the comparisons. -/
lemma verifyImages_result (hwork : WorkBufferFits c) (harchive : c.archives dataId = some bip) :
    ((verifyImages c images dataId).run s).result = ((verifyMounted c images bip).run s).result := by
  rw [verifyImages_eq, ((show Proc.ReadOnly Eq _ from readOnly_validateWorkBuffer).result_bind
      (validateWorkBuffer_result.mpr hwork)).1,
    ((show Proc.ReadOnly Eq _ from readOnly_mountPackage).result_bind (mountPackage_result.mpr harchive)).1,
    (Proc.run_followedBy (readOnly_verifyMounted looksAt_eq)).1]
  rfl

/-! ## After an update -/

/-- The keys that are verified are those in NAND. -/
lemma withPubk_newBct {bct : List UInt8} (hbct : bct.length = bctSize)
    (hcontent : t.content which.area =
      if preservesPubk c then Boot0Accessor.copyPubk bct (s.content which.area) else bct)
    (hsize : which.area.region.size = bctSize) : withPubk c t which bct = t.content which.area := by
  have hkeys : (slice (s.content which.area) Boot0Accessor.bctPubkOffset Boot0Accessor.bctPubkSize).length =
      Boot0Accessor.bctPubkSize := by
    refine length_slice ?_
    rw [Nand.content, length_read, hsize]
    decide
  have hroom : Boot0Accessor.bctPubkOffset + Boot0Accessor.bctPubkSize ≤ bct.length := by
    rw [hbct]
    decide
  rw [withPubk, hcontent]
  cases hhas : hasAutoRcmPreserve c.bootImageUpdateType with
  | false =>
    rw [preservesPubk, hhas]
    rfl
  | true =>
    rw [if_pos rfl]
    split
    · -- the keys that have been preserved
      have hpart := slice_splice_self (hkeys.symm ▸ hroom)
      rw [hkeys] at hpart
      rw [Boot0Accessor.copyPubk, Boot0Accessor.copyPubk, hpart]
    · exact splice_slice_self hroom

/-- A BCT that takes its whole area. -/
lemma content_of_complete {v : Version} {i : BootImage} (h : Complete images v i t)
    (hlength : (v.image i).length = (images.area i).region.size) : t.content (images.area i) = v.image i := by
  have hextent : images.extent v i = images.area i := by
    rw [BootImages.extent, hlength]
  have hcontent := h.2
  rw [hextent] at hcontent
  exact hcontent

/-- A BCT of the new version is verified. -/
lemma Updated.verifyBct_result (h : Updated c images dataId s t) (hlayout : images.Layout)
    (hsize : which.area.region.size = bctSize)
    (hcontent : t.content which.area = newBct c (packageOf c dataId) s which) :
    ((verifyBct c (packageOf c dataId) which).run t).result = .ok () := by
  obtain ⟨file, hpath, hfits⟩ := h.bct
  refine RajNX.Updater.verifyBct_result h.work hsize hpath hfits ?_
  have heks : t.content Boot0Partition.eks.area = s.content Boot0Partition.eks.area := by
    refine h.between.unchanged.content_eq fun a ha => ?_
    obtain ⟨j, -, rfl⟩ := List.mem_map.mp ha
    exact hlayout.eks j
  have hpackage : packageBct c (packageOf c dataId) s = withEks c t (paddedFile file bctSize) := by
    rw [packageBct, hpath, withEks, withEks, heks]
    rfl
  rw [newBct, hpackage] at hcontent
  exact withPubk_newBct (length_withEks length_paddedFile) hcontent hsize

/-- What has been updated is verified. -/
theorem Updated.verified (h : Updated c images dataId s t) (hlayout : images.Layout) :
    ((verifyImages c images dataId).run t).result = .ok () := by
  have hcomplete (i : BootImage) : Complete images (newVersion c (packageOf c dataId) s images) i t :=
    h.between.complete i (by cases i <;> decide)
  obtain ⟨file1, hfile1⟩ := h.package1
  obtain ⟨file2, hfile2⟩ := h.package2
  have hpackage1 : (newVersion c (packageOf c dataId) s images).package1 = file1 := by
    rw [newVersion, hfile1, Option.getD_some]
  have hpackage2 : (newVersion c (packageOf c dataId) s images).package2 = file2 := by
    rw [newVersion, hfile2, Option.getD_some]
  have hmain := content_of_complete (hcomplete .bctMain)
    ((length_newBct images.bctMain).trans hlayout.bctMain.symm)
  have hsub := content_of_complete (hcomplete .bctSub)
    ((length_newBct images.bctSub).trans hlayout.bctSub.symm)
  have hhash (i : BootImage) := getHash_complete_result h.work hlayout (hcomplete i)
  rw [verifyImages_result h.work h.archive, verifyMounted,
    ((show Proc.ReadOnly Eq _ from readOnly_openStorages _).result_bind (openStorages_result _)).1,
    ((show Proc.ReadOnly Eq _ from readOnly_verifyBct (fun _ _ => agrees_of_eq) fun _ _ => agrees_of_eq).result_bind
      (h.verifyBct_result hlayout hlayout.bctMain hmain)).1,
    ((show Proc.ReadOnly Eq _ from readOnly_verifyBct (fun _ _ => agrees_of_eq) fun _ _ => agrees_of_eq).result_bind
      (h.verifyBct_result hlayout hlayout.bctSub hsub)).1]
  have hfirst : ((verifyPackage1 c (packageOf c dataId) images.package1Main images.package1Sub).run t).result =
      .ok () := by
    have hcopy := hhash .package1Main
    have hcopy' := hhash .package1Sub
    simp only [Version.image, hpackage1] at hcopy hcopy'
    exact verifyPackage1_result h.work hfile1 hcopy hcopy'
  have hsecond : ((verifyPackage2 c (packageOf c dataId) images.package2Main images.package2Sub).run t).result =
      .ok () := by
    have hcopy := hhash .package2Main
    have hcopy' := hhash .package2Sub
    simp only [Version.image, hpackage2] at hcopy hcopy'
    exact verifyPackage2_result h.work hfile2 hcopy hcopy'
  rw [((show Proc.ReadOnly Eq _ from readOnly_verifyPackage1 (fun _ _ => agrees_of_eq)
    fun _ _ => agrees_of_eq).result_bind hfirst).1]
  exact hsecond

end Verification

/-! ## Areas that a repair leaves alone -/

/-- The other boot mode. -/
def BootModeType.other : BootModeType → BootModeType
  | .normal => .safe
  | .safe => .normal

/-- The areas that an update of a boot mode leaves alone. -/
def keptAreas (mode : BootModeType) : List Area :=
  allImages.map mode.other.images.area ++ [Boot0Partition.bctSave.area, Boot0Partition.eks.area] ++
    [Package2Type.normalMain, .normalSub, .safeMain, .safeSub, .repairMain, .repairSub].map fun which =>
      which.area .bootConfig

lemma keptAreas_apart (mode : BootModeType) :
    ∀ b ∈ keptAreas mode, ∀ a ∈ allImages.map mode.images.area, a.Apart b := by
  cases mode with
  | normal => decide
  | safe => decide

lemma verifyBootImages_eq (c : Console) (dataId : Nat) (mode : BootModeType) :
    verifyBootImages c dataId mode = verifyImages c mode.images dataId := by
  cases mode with
  | normal => rfl
  | safe => rfl

/-- After an update that returns success, in spite of whatever may fail, the verification of the same package returns
success, and the images of the other boot mode, the save area, the EKS and the boot configurations are as they were. -/
theorem updateBootImages_verified (c : Console) (dataId : Nat) (mode : BootModeType) (s : Nand)
    (schedule : List (Option Failure)) (h : ((updateBootImages c dataId mode).play schedule s).result = some (.ok ())) :
    ((verifyBootImages c dataId mode).run ((updateBootImages c dataId mode).play schedule s).final).result = .ok () ∧
      ∀ b ∈ keptAreas mode,
        ((updateBootImages c dataId mode).play schedule s).final.content b = s.content b := by
  rw [updateBootImages_eq] at h ⊢
  rw [verifyBootImages_eq]
  have hlayout := images_layout mode
  have hupdated := (((updateImages_guards hlayout s).play schedule).2 _ h).2 rfl
  exact ⟨hupdated.verified hlayout, fun b hb => hupdated.between.unchanged.content_eq (keptAreas_apart mode b hb)⟩

/-! ## Updates that succeed -/

section Success

variable {c : Console} {bip : BootImagePackage} {images : BootImages} {dataId : Nat} {id : FsBisStorageId}
  {offset size workBufferSize : Nat} {src file : List UInt8} {path : String} {a : Area}

lemma storeBytes_yields : (storeBytes id offset src).Yields fun _ => True := by
  induction src generalizing offset with
  | nil => exact Proc.yields_pure trivial
  | cons byte later ih =>
    exact Proc.yields_bind (P := fun _ => True) (Proc.yields_atomic fun _ => ⟨(), rfl, trivial⟩) fun _ _ => ih

lemma request_yields : request.Yields fun _ => True := Proc.yields_atomic fun _ => ⟨(), rfl, trivial⟩

namespace BisAccessor

lemma write_yields (h : offset % sectorAlignment = 0) : (write id offset src).Yields fun _ => True := by
  rw [write, if_neg (not_not.mpr h)]
  exact Proc.yields_bind request_yields fun _ _ => storeBytes_yields

lemma clearLoop_yields (hoffset : offset % sectorAlignment = 0) (hwork : workBufferSize % sectorAlignment = 0)
    (hpos : 0 < workBufferSize) {fuel written : Nat} (haligned : written % sectorAlignment = 0 ∨ size ≤ written)
    (hfuel : size ≤ written + fuel) : (clearLoop id offset size workBufferSize fuel written).Yields fun _ => True := by
  induction fuel generalizing written with
  | zero =>
    rw [clearLoop, if_neg (by omega)]
    exact Proc.yields_pure trivial
  | succ fuel ih =>
    rw [clearLoop]
    split
    · next hlt =>
      have haligned' := haligned.resolve_right (by omega)
      refine Proc.yields_bind (write_yields ?_) fun _ _ => ih ?_ (by omega)
      · rw [Nat.add_mod, hoffset, haligned']
        rfl
      · rcases Nat.le_total workBufferSize (size - written) with hwhole | hlast
        · rw [Nat.min_eq_left hwhole, Nat.add_mod, haligned', hwork]
          exact .inl rfl
        · rw [Nat.min_eq_right hlast]
          exact .inr (by omega)
    · exact Proc.yields_pure trivial

lemma writeFileLoop_yields (hoffset : offset % sectorAlignment = 0) (hwork : workBufferSize % sectorAlignment = 0)
    (hpos : 0 < workBufferSize) (hfits : file.length ≤ size) {fuel written : Nat}
    (haligned : written % sectorAlignment = 0) (hle : written ≤ file.length) (hfuel : file.length < written + fuel) :
    (writeFileLoop id offset size file workBufferSize fuel written).Yields fun _ => True := by
  induction fuel generalizing written with
  | zero => omega
  | succ fuel ih =>
    refine Proc.yields_bind (Proc.yields_atomic fun _ => ⟨_, rfl, rfl⟩) fun data hdata => ?_
    have hlength : data.length = min workBufferSize (file.length - written) := by
      rw [← hdata, slice, List.length_take, List.length_drop]
    rw [if_neg (by omega)]
    refine Proc.yields_bind (write_yields ?_) fun _ _ => ?_
    · rw [Nat.add_mod, hoffset, haligned]
      rfl
    · split
      · exact Proc.yields_pure trivial
      · next hwhole =>
        rw [not_not] at hwhole
        refine ih ?_ (by omega) (by omega)
        rw [Nat.add_mod, haligned, hwhole, hwork]
        rfl

end BisAccessor

/-- A package whose files fit their partitions, with a version of the BCT that is known. -/
structure PackageFits (c : Console) (bip : BootImagePackage) : Prop where
  bct : ∃ file, bip (getBctPath bip c.bootImageUpdateType) = some file ∧ VersionFits c (paddedFile file bctSize)
  package1 : ∃ file, bip (getPackage1Path bip c.bootImageUpdateType) = some file ∧ file.length ≤ 0x40000
  package2 : ∃ file, bip (getPackage2Path bip c.bootImageUpdateType) = some file ∧ file.length ≤ 0x7FC000

lemma writeFile_yields (hwork : WorkBufferFits c) (hstart : a.region.start % BisAccessor.sectorAlignment = 0)
    (hpath : bip path = some file) (hfits : file.length ≤ a.region.size) :
    (PartitionAccessor.writeFile a bip path c.workBufferSize).Yields fun _ => True := by
  have haligned : c.workBufferSize % BisAccessor.sectorAlignment = 0 := hwork.size_aligned
  have hpos : 0 < c.workBufferSize := Nat.lt_of_lt_of_le (by decide) hwork.size
  rw [PartitionAccessor.writeFile, BisAccessor.writeFile, if_neg (by omega)]
  have hopen : (fopen bip path).Yields fun found => found = file :=
    Proc.yields_atomic fun _ => ⟨file, congrArg (fun found => Option.elim found _ Except.ok) hpath, rfl⟩
  refine Proc.yields_bind hopen ?_
  rintro found rfl
  exact BisAccessor.writeFileLoop_yields hstart haligned hpos hfits (Nat.zero_mod _) (Nat.zero_le _) (by omega)

lemma writePackage1_yields (hwork : WorkBufferFits c) (hfits : PackageFits c bip)
    (hstart : a.region.start % BisAccessor.sectorAlignment = 0) (hsize : a.region.size = 0x40000) :
    (writePackage1 c bip a).Yields fun _ => True := by
  obtain ⟨file, hpath, hlength⟩ := hfits.package1
  have haligned : c.workBufferSize % BisAccessor.sectorAlignment = 0 := hwork.size_aligned
  have hpos : 0 < c.workBufferSize := Nat.lt_of_lt_of_le (by decide) hwork.size
  refine Proc.yields_bind (P := fun _ => True) ?_ fun _ _ =>
    writeFile_yields hwork hstart hpath (hlength.trans hsize.ge)
  rw [PartitionAccessor.clear, BisAccessor.clear, if_neg (by omega)]
  exact BisAccessor.clearLoop_yields hstart haligned hpos (.inl (Nat.zero_mod _)) (by omega)

lemma writePackage2_yields (hwork : WorkBufferFits c) (hfits : PackageFits c bip) (which : Package2Type) :
    (writePackage2 c bip which).Yields fun _ => True := by
  obtain ⟨file, hpath, hlength⟩ := hfits.package2
  refine Proc.yields_bind request_yields fun _ _ => writeFile_yields hwork ?_ hpath hlength
  show 0x4000 % 0x200 = 0
  decide

lemma writeBct_yields {which : Boot0Partition} (hlength : src.length = bctSize)
    (hsize : which.area.region.size = bctSize) : (PartitionAccessor.write which.area src).Yields fun _ => True := by
  rw [PartitionAccessor.write, hlength, hsize, if_neg (by decide)]
  exact BisAccessor.write_yields boot0_aligned

lemma preserveAutoRcm_yields {bct : List UInt8} {which : Boot0Partition} (hbct : bct.length = bctSize)
    (hsize : which.area.region.size = bctSize) :
    (Boot0Accessor.preserveAutoRcm bct which).Yields fun bct' => bct'.length = bctSize :=
  fun _ => ⟨_, preserveAutoRcm_result hsize.le, length_copyPubk hbct⟩

lemma writeBcts_yields (hfits : PackageFits c bip) {sub main : Boot0Partition} (hsub : sub.area.region.size = bctSize)
    (hmain : main.area.region.size = bctSize) : (writeBcts c bip sub main).Yields fun _ => True := by
  obtain ⟨file, hpath, hversion⟩ := hfits.bct
  have hread : (readFile bip bctSize (getBctPath bip c.bootImageUpdateType)).Yields fun data =>
      data = paddedFile file bctSize := fun _ => ⟨_, readFile_result hpath, rfl⟩
  refine Proc.yields_bind hread ?_
  rintro _ rfl
  have heks : (insertEks c (paddedFile file bctSize)).Yields fun bct => bct.length = bctSize :=
    fun _ => ⟨_, insertEks_result hversion, length_withEks length_paddedFile⟩
  refine Proc.yields_bind heks fun bct hbct => ?_
  split
  · refine Proc.yields_bind (preserveAutoRcm_yields hbct hsub) fun bct' hbct' => ?_
    refine Proc.yields_bind (writeBct_yields hbct' hsub) fun _ _ => ?_
    exact Proc.yields_bind (preserveAutoRcm_yields hbct' hmain) fun bct'' hbct'' => writeBct_yields hbct'' hmain
  · exact Proc.yields_bind (writeBct_yields hbct hsub) fun _ _ => writeBct_yields hbct hmain

/-- An update succeeds if nothing fails, the work buffer is accepted and the files of the package fit. -/
theorem updateBootImages_yields (mode : BootModeType) (hwork : WorkBufferFits c)
    (harchive : c.archives dataId = some bip) (hfits : PackageFits c bip) :
    (updateBootImages c dataId mode).Yields fun _ => True := by
  have hlayout := images_layout mode
  have hpackage1 (i : BootImage) (hsize : (mode.images.area i).region.size = 0x40000) :=
    writePackage1_yields hwork hfits (hlayout.start_aligned i) hsize
  rw [updateBootImages_eq]
  have hvalid : (validateWorkBuffer c).Yields fun _ => True :=
    fun _ => ⟨(), validateWorkBuffer_result.mpr hwork, trivial⟩
  have hmount : (mountPackage c dataId).Yields fun found => found = bip :=
    fun _ => ⟨bip, mountPackage_result.mpr harchive, rfl⟩
  have hopen : (openStorages mode.images.storages).Yields fun _ => True :=
    fun _ => ⟨(), openStorages_result _, trivial⟩
  refine Proc.yields_bind hvalid fun _ _ => ?_
  refine Proc.yields_bind hmount ?_
  rintro _ rfl
  refine Proc.yields_followedBy ?_ (Proc.yields_mapError request_yields)
  refine Proc.yields_bind hopen fun _ _ => ?_
  refine Proc.yields_bind (hpackage1 .package1Sub (by cases mode <;> decide)) fun _ _ => ?_
  refine Proc.yields_bind (writePackage2_yields hwork hfits _) fun _ _ => ?_
  refine Proc.yields_bind (writeBcts_yields hfits hlayout.bctSub hlayout.bctMain) fun _ _ => ?_
  refine Proc.yields_bind (writePackage2_yields hwork hfits _) fun _ _ => ?_
  exact hpackage1 .package1Main (by cases mode <;> decide)

end Success

lemma exampleConsole_fits : WorkBufferFits exampleConsole := ⟨by decide, by decide, by decide⟩

lemma examplePackage_fits : PackageFits exampleConsole (packageOf exampleConsole 0x0100000000000819) := by
  refine ⟨⟨exampleBct, rfl, fun _ => ?_⟩, ⟨[1], rfl, by decide⟩, ⟨[2], rfl, by decide⟩⟩
  have hlength : exampleBct.length = bctSize := by
    rw [exampleBct, List.length_cons, List.length_append, List.length_replicate]
    rfl
  have hversion : slice (paddedFile exampleBct bctSize) Boot0Accessor.bctVersionOffset 4 = List.replicate 4 0 := by
    rw [paddedFile, ← hlength, List.take_length, Nat.sub_self, List.replicate_zero, List.append_nil]
    show slice (3 :: (List.replicate 0x3FFE 0 ++ [3])) (0x232F + 1) 4 = _
    rw [slice, List.drop_succ_cons, List.drop_append_of_le_length (by rw [List.length_replicate]; decide),
      List.drop_replicate, List.take_append_of_le_length (by rw [List.length_replicate]; decide), List.take_replicate]
    rfl
  rw [Boot0Accessor.bctVersion, hversion]
  decide

/-- An update that succeeds. -/
theorem updateBootImages_verified_example : ∃ schedule,
    ((updateBootImages exampleConsole 0x0100000000000819 .normal).play schedule exampleNand).result = some (.ok ()) ∧
    ((verifyBootImages exampleConsole 0x0100000000000819 .normal).run
      ((updateBootImages exampleConsole 0x0100000000000819 .normal).play schedule exampleNand).final).result =
        .ok () := by
  have harchive : exampleConsole.archives 0x0100000000000819 = some (packageOf exampleConsole 0x0100000000000819) := rfl
  obtain ⟨_, hresult, -⟩ :=
    updateBootImages_yields .normal exampleConsole_fits harchive examplePackage_fits exampleNand
  have hplay := Proc.play_replicate (updateBootImages exampleConsole 0x0100000000000819 .normal) exampleNand
  rw [hresult] at hplay
  have hok := congrArg Play.result hplay
  exact ⟨_, hok, (updateBootImages_verified _ _ _ _ _ hok).1⟩

end RajNX.Updater
