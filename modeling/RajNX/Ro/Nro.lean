import RajNX.Ro.Nrr

/-!
# NROs

`MapNro`, `SetNroPerms` and `UnmapNro` of `ro_nro_utils.cpp`, and `ValidateNro`, `LoadNro` and `UnloadNro` of
`ro_service_impl.cpp`. A NRO is mapped in two pieces and unmapped in three.

Whether one of the NRRs has the hash of a NRO is one of the answers. The patches that are applied to a NRO
leave its header alone.
-/

namespace RajNX.Ro

open AddressMap Interruptible LittleEndian Splice

/-- `NroHeader`, with the fields that are read. -/
structure NroHeader where
  magic : Nat
  size : Nat
  textOffset : Nat
  textSize : Nat
  roOffset : Nat
  roSize : Nat
  rwOffset : Nat
  rwSize : Nat
  bssSize : Nat
  moduleId : ModuleId
deriving Repr, DecidableEq

/-- The fields in their places. -/
def NroHeader.ofBytes (contents : List UInt8) : NroHeader where
  magic := leValue (slice contents 0x10 4)
  size := leValue (slice contents 0x18 4)
  textOffset := leValue (slice contents 0x20 4)
  textSize := leValue (slice contents 0x24 4)
  roOffset := leValue (slice contents 0x28 4)
  roSize := leValue (slice contents 0x2C 4)
  rwOffset := leValue (slice contents 0x30 4)
  rwSize := leValue (slice contents 0x34 4)
  bssSize := leValue (slice contents 0x38 4)
  moduleId := slice contents 0x40 0x20

/-! ## Mapping -/

/-- The loop of `MapNro`, with the retries that are left. -/
def mapNroLoop {κ : Type} (nroHeapAddress nroHeapSize bssHeapAddress bssHeapSize : Nat) : Nat → RoProc κ Nat
  | 0 => .fail .insufficientAddressSpace
  | retries + 1 => do
    let nro ← mapCodeMemoryInProcess nroHeapAddress nroHeapSize
    if 0 < bssHeapSize then
      let bss : Piece := ⟨add64 nro.dst nroHeapSize, bssHeapAddress, bssHeapSize⟩
      match ← (svcMapProcessCodeMemory bss.dst bss.src bss.size).attempt with
      | .error (.kernel .invalidMemoryState) => do
        closeMapped nro
        mapNroLoop nroHeapAddress nroHeapSize bssHeapAddress bssHeapSize retries
      | .error e => do
        closeMapped nro
        .fail e
      | .ok _ => do
        let canAdd ← canAddGuardRegionsInProcess
        if canAdd then return nro.dst
        else
          closeMapped bss
          closeMapped nro
          mapNroLoop nroHeapAddress nroHeapSize bssHeapAddress bssHeapSize retries
    else
      let canAdd ← canAddGuardRegionsInProcess
      if canAdd then return nro.dst
      else
        closeMapped nro
        mapNroLoop nroHeapAddress nroHeapSize bssHeapAddress bssHeapSize retries

/-- `MapNro`, with the base address that it returns. -/
def mapNro {κ : Type} (nroHeapAddress nroHeapSize bssHeapAddress bssHeapSize : Nat) : RoProc κ Nat :=
  mapNroLoop nroHeapAddress nroHeapSize bssHeapAddress bssHeapSize 0x200

/-- `SetNroPerms`, three calls of the kernel. -/
def setNroPerms {κ : Type} : RoProc κ Unit := do
  kernelQuery
  kernelQuery
  kernelQuery

/-- The part of `UnmapNro` for a piece that may have no size. -/
def unmapPart {κ : Type} (dst src size : Nat) : RoProc κ Unit :=
  if 0 < size then svcUnmapProcessCodeMemory dst src size else pure ()

/-- `UnmapNro` -/
def unmapNro {κ : Type} (baseAddress nroHeapAddress bssHeapAddress bssHeapSize codeSize rwSize : Nat) :
    RoProc κ Unit := do
  unmapPart (add64 (add64 baseAddress codeSize) rwSize) bssHeapAddress bssHeapSize
  unmapPart (add64 baseAddress codeSize) (add64 nroHeapAddress codeSize) rwSize
  svcUnmapProcessCodeMemory baseAddress nroHeapAddress codeSize

/-! ## Loading and unloading -/

/-- The checks of `ValidateNro` on the header. -/
def validateNroHeader (header : NroHeader) (expectedNroSize expectedBssSize : Nat) : Except RoError Unit :=
  if header.magic ≠ 0x304F524E then .error .invalidNro
  else if header.size ≠ expectedNroSize ∨ header.bssSize ≠ expectedBssSize then .error .invalidNro
  else if header.textSize % 0x1000 ≠ 0 ∨ header.roSize % 0x1000 ≠ 0 ∨ header.rwSize % 0x1000 ≠ 0 ∨
      header.bssSize % 0x1000 ≠ 0 then .error .invalidNro
  else if header.roOffset < header.textOffset ∨ header.rwOffset < header.roOffset then .error .invalidNro
  else if header.textOffset ≠ 0 ∨ header.textOffset + header.textSize ≠ header.roOffset ∨
      header.roOffset + header.roSize ≠ header.rwOffset ∨ header.rwOffset + header.rwSize ≠ header.size then
    .error .invalidNro
  else .ok ()

/-- `GetNroInfoByModuleId`, as an index -/
def getNroInfoByModuleId (infos : List NroInfo) (moduleId : ModuleId) : Option Nat :=
  infos.findIdx? fun info => info.inUse && info.moduleId = moduleId

/-- `GetNroInfoByAddress`, as an index -/
def getNroInfoByAddress (infos : List NroInfo) (nroAddress : Nat) : Option Nat :=
  infos.findIdx? fun info => info.inUse && info.baseAddress = nroAddress

/-- `GetFreeNroInfo`, as an index -/
def getFreeNroInfo (infos : List NroInfo) : Option Nat := infos.findIdx? (!·.inUse)

/-- `ValidateNro`, for a NRO with some contents. -/
def validateNro (contents : List UInt8) (expectedBssSize : Nat) : RoProc ProcessContext NroHeader := do
  let header := NroHeader.ofBytes contents
  mapIntoService
  .done (validateNroHeader header contents.length expectedBssSize)
  let hasNroHash ← askValue
  if hasNroHash = 0 then .fail .notAuthorized
  else
    let context ← getContext
    match getNroInfoByModuleId context.nroInfos header.moduleId with
    | some _ => .fail .alreadyLoaded
    | none => return header

/-- `R_TRY_CLEANUP` -/
def tryCleanup {κ α : Type} (p : RoProc κ α) (cleanup : RoProc κ Unit) : RoProc κ α :=
  p.attempt >>= fun
    | .ok a => pure a
    | .error e => do
      let _ ← cleanup.attempt
      .fail e

/-- The checks of `LoadNro` on its arguments. -/
def validateLoadNroArgs (nroAddress nroSize bssAddress bssSize : Nat) : Except RoError Unit := do
  validateAddressAndSize nroAddress nroSize
  if bssAddress % 0x1000 ≠ 0 then throw .invalidAddress
  if bssSize % 0x1000 ≠ 0 ∨ 0 < bssSize ∧ ¬bssAddress < add64 bssAddress bssSize then throw .invalidSize
  if add64 nroSize bssSize < nroSize ∨ add64 nroSize bssSize < bssSize then throw .invalidSize

/-- Change one of the infos. -/
def modifyNroInfo (i : Nat) (f : NroInfo → NroInfo) : RoProc ProcessContext Unit :=
  modifyContext fun context => { context with nroInfos := context.nroInfos.modify i f }

/-- `LoadNro`, for a NRO with some contents at an address of the heap. It returns the base address. -/
def loadNro (nroAddress : Nat) (contents : List UInt8) (bssAddress bssSize : Nat) : RoProc ProcessContext Nat := do
  let nroSize := contents.length
  .done (validateLoadNroArgs nroAddress nroSize bssAddress bssSize)
  let context ← getContext
  match getFreeNroInfo context.nroInfos with
  | none => .fail .tooManyNro
  | some i => do
    modifyNroInfo i fun info => { info with
      nroHeapAddress := nroAddress, nroHeapSize := nroSize, bssHeapAddress := bssAddress, bssHeapSize := bssSize }
    let baseAddress ← mapNro nroAddress nroSize bssAddress bssSize
    modifyNroInfo i fun info => { info with baseAddress := baseAddress }
    let header ← tryCleanup (validateNro contents bssSize)
      (unmapNro baseAddress nroAddress bssAddress bssSize nroSize 0)
    modifyNroInfo i fun info => { info with moduleId := header.moduleId }
    let codeSize := header.textSize + header.roSize
    tryCleanup setNroPerms (unmapNro baseAddress nroAddress bssAddress bssSize codeSize header.rwSize)
    modifyNroInfo i fun info => { info with codeSize := codeSize, rwSize := header.rwSize, inUse := true }
    return baseAddress

/-- `UnloadNro` -/
def unloadNro (nroAddress : Nat) : RoProc ProcessContext Unit := do
  if nroAddress % 0x1000 ≠ 0 then .fail .invalidAddress
  else
    let context ← getContext
    match getNroInfoByAddress context.nroInfos nroAddress with
    | none => .fail .notLoaded
    | some i => do
      let backup := context.nroInfos.getD i .zero
      modifyNroInfo i fun _ => .zero
      unmapNro backup.baseAddress backup.nroHeapAddress backup.bssHeapAddress backup.bssHeapSize backup.codeSize
        backup.rwSize

/-! ## What the procedures do -/

/-- Where a NRO is mapped, as two pieces that follow each other. -/
structure NroPlace where
  baseAddress : Nat
  nroHeapAddress : Nat
  nroHeapSize : Nat
  bssHeapAddress : Nat
  bssHeapSize : Nat

namespace NroPlace

/-- The text, the read-only data and the data. -/
def nro (p : NroPlace) : Piece := ⟨p.baseAddress, p.nroHeapAddress, p.nroHeapSize⟩

/-- What is behind them. -/
def bss (p : NroPlace) : Piece := ⟨p.baseAddress + p.nroHeapSize, p.bssHeapAddress, p.bssHeapSize⟩

/-- A mapping with both pieces put in. -/
def place (p : NroPlace) (m : Nat → Option Nat) : Nat → Option Nat := p.bss.place (p.nro.place m)

/-- There is room for both pieces. -/
structure Fits (p : NroPlace) (m : Nat → Option Nat) : Prop where
  nro_free : p.nro.Free m
  bss_free : p.bss.Free (p.nro.place m)
  bss_lt : p.baseAddress + p.nroHeapSize + p.bssHeapSize < 2 ^ 64
  src_lt : p.nroHeapAddress + p.nroHeapSize < 2 ^ 64

end NroPlace

section Ends

open Proc

variable {κ : Type} {mapping : Nat → Option Nat} {context : κ} {nroAddress nroSize bssAddress bssSize : Nat}
  {Q : Except RoError Nat → (Nat → Option Nat) → κ → Prop}

lemma ends_mapNroLoop {retries : Nat}
    (hok : ∀ baseAddress, (NroPlace.mk baseAddress nroAddress nroSize bssAddress bssSize).Fits mapping →
      Q (.ok baseAddress) ((NroPlace.mk baseAddress nroAddress nroSize bssAddress bssSize).place mapping) context)
    (herror : ∀ e, Q (.error e) mapping context) :
    Ends (mapNroLoop nroAddress nroSize bssAddress bssSize retries) mapping context Q := by
  induction retries with
  | zero => exact ends_fail (herror _)
  | succ retries ih =>
    refine ends_bind (ends_mapCodeMemoryInProcess (fun mcm hmcm => ⟨fun _ ha => ?_, nofun⟩)
      fun e => ⟨nofun, fun e' _ => herror e'⟩)
    cases ha
    obtain ⟨base, src, size⟩ := mcm
    obtain ⟨rfl, rfl, hfree, hdst, hsrc⟩ := hmcm
    split
    · next hpos =>
      dsimp only
      rw [add64_eq hdst]
      refine ends_bind (ends_attempt (ends_svcMapProcessCodeMemory ?_ ?_))
      · intro hdst' _ hfree'
        refine ⟨fun _ ha => ?_, nofun⟩
        cases ha
        refine ends_bind (ends_canAddGuardRegionsInProcess fun canAdd => ⟨fun _ ha => ?_, nofun⟩)
        cases ha
        cases canAdd with
        | true => exact ends_pure (hok base ⟨hfree, hfree', hdst', hsrc⟩)
        | false =>
          refine ends_bind (ends_closeMapped hfree' ⟨fun _ _ => ?_, nofun⟩)
          exact ends_bind (ends_closeMapped hfree ⟨fun _ _ => ih, nofun⟩)
      · intro e
        refine ⟨fun _ ha => ?_, nofun⟩
        cases ha
        cases e with
        | invalidMemoryState => exact ends_bind (ends_closeMapped hfree ⟨fun _ _ => ih, nofun⟩)
        | other code =>
          exact ends_bind (ends_closeMapped hfree ⟨fun _ _ => ends_fail (herror _), nofun⟩)
    · next hzero =>
      have hbss : bssSize = 0 := Nat.eq_zero_of_not_pos hzero
      subst hbss
      refine ends_bind (ends_canAddGuardRegionsInProcess fun canAdd => ⟨fun _ ha => ?_, nofun⟩)
      cases ha
      cases canAdd with
      | true =>
        have hok := hok base ⟨hfree, nofun, hdst, hsrc⟩
        rw [NroPlace.place, Piece.place_of_size_zero rfl] at hok
        exact ends_pure hok
      | false => exact ends_bind (ends_closeMapped hfree ⟨fun _ _ => ih, nofun⟩)

lemma ends_mapNro
    (hok : ∀ baseAddress, (NroPlace.mk baseAddress nroAddress nroSize bssAddress bssSize).Fits mapping →
      Q (.ok baseAddress) ((NroPlace.mk baseAddress nroAddress nroSize bssAddress bssSize).place mapping) context)
    (herror : ∀ e, Q (.error e) mapping context) :
    Ends (mapNro nroAddress nroSize bssAddress bssSize) mapping context Q :=
  ends_mapNroLoop hok herror

variable {Q : Except RoError Unit → (Nat → Option Nat) → κ → Prop}

lemma ends_setNroPerms (hok : Q (.ok ()) mapping context)
    (herror : ∀ e, Q (.error e) mapping context) : Ends setNroPerms mapping context Q := by
  refine ends_bind (ends_kernelQuery ⟨fun _ _ => ?_, nofun⟩ fun _ => ⟨nofun, fun e _ => herror e⟩)
  refine ends_bind (ends_kernelQuery ⟨fun _ _ => ?_, nofun⟩ fun _ => ⟨nofun, fun e _ => herror e⟩)
  exact ends_kernelQuery hok fun _ => herror _

/-- A piece that is there is unmapped, also if it has no size. -/
lemma ends_unmapPart {dst src size : Nat}
    (hfree : (Piece.mk dst src size).Free mapping) (hok : Q (.ok ()) mapping context) :
    Ends (unmapPart dst src size) ((Piece.mk dst src size).place mapping) context Q := by
  rw [unmapPart]
  split
  · next hpos => exact ends_svcUnmapProcessCodeMemory hpos hfree hok
  · next hzero =>
    rw [Piece.place_of_size_zero (Nat.eq_zero_of_not_pos hzero)]
    exact ends_pure hok

/-- A NRO that is mapped is unmapped in three pieces, however it is split. -/
lemma ends_unmapNro {p : NroPlace} {codeSize rwSize : Nat}
    (hp : p.Fits mapping) (hsize : codeSize + rwSize = p.nroHeapSize) (hQ : ∀ r, Q r mapping context) :
    Ends (unmapNro p.baseAddress p.nroHeapAddress p.bssHeapAddress p.bssHeapSize codeSize rwSize)
      (p.place mapping) context Q := by
  obtain ⟨base, nroAddress, nroSize, bssAddress, bssSize⟩ := p
  obtain ⟨hnro, hbss, hlt, hsrc⟩ := hp
  dsimp only at hsize hlt hsrc ⊢
  subst hsize
  let front : Piece := ⟨base, nroAddress, codeSize⟩
  let back : Piece := ⟨base + codeSize, nroAddress + codeSize, rwSize⟩
  have hfront : front.Free mapping := hnro.front (Nat.le_add_right codeSize rwSize)
  have hback : back.Free (front.place mapping) := by
    have hback := hnro.back (Nat.le_add_right codeSize rwSize)
    rwa [Piece.back, NroPlace.nro, Nat.add_sub_cancel_left] at hback
  have hsplit : (Piece.mk base nroAddress (codeSize + rwSize)).place mapping = back.place (front.place mapping) := by
    rw [Piece.place_front_back (Nat.le_add_right codeSize rwSize), Piece.back, Nat.add_sub_cancel_left]
    rfl
  rw [unmapNro, add64_eq (a := base) (by omega), add64_eq (by omega), add64_eq (by omega), Nat.add_assoc]
  refine ends_bind (ends_unmapPart hbss ⟨fun _ _ => ?_, by rintro _ ⟨⟩⟩)
  rw [NroPlace.nro, hsplit]
  refine ends_bind (ends_unmapPart hback ⟨fun _ _ => ?_, by rintro _ ⟨⟩⟩)
  rcases Nat.eq_zero_or_pos codeSize with rfl | hpos
  · rw [Piece.place_of_size_zero rfl]
    exact ends_svcUnmapProcessCodeMemory_zero (hQ _)
  · exact ends_svcUnmapProcessCodeMemory hpos hfront (hQ _)

lemma validateNroHeader_ok {header : NroHeader} {expectedNroSize expectedBssSize : Nat}
    (h : validateNroHeader header expectedNroSize expectedBssSize = .ok ()) :
    header.textSize + header.roSize + header.rwSize = expectedNroSize ∧ header.bssSize = expectedBssSize := by
  rw [validateNroHeader] at h
  split_ifs at h with _ hsize _ _ hparts
  simp only [not_or, not_not] at hsize hparts
  omega

/-- A NRO that is accepted has a module id that no other has. Nothing is changed. -/
lemma ends_validateNro {context : ProcessContext} {contents : List UInt8}
    {Q : Except RoError NroHeader → (Nat → Option Nat) → ProcessContext → Prop}
    (hok : validateNroHeader (.ofBytes contents) contents.length bssSize = .ok () →
      getNroInfoByModuleId context.nroInfos (NroHeader.ofBytes contents).moduleId = none →
      Q (.ok (.ofBytes contents)) mapping context)
    (herror : ∀ e, Q (.error e) mapping context) : Ends (validateNro contents bssSize) mapping context Q := by
  refine ends_bind (ends_mapIntoService ⟨fun _ _ => ?_, nofun⟩ fun e => ⟨nofun, fun _ _ => herror _⟩)
  refine ends_bind (ends_done ⟨fun _ hvalid => ?_, fun _ _ => herror _⟩)
  refine ends_bind (ends_askValue fun hasNroHash => ⟨fun _ ha => ?_, nofun⟩)
  cases ha
  split
  · exact ends_fail (herror _)
  · refine ends_bind (ends_getContext ⟨fun _ ha => ?_, nofun⟩)
    cases ha
    split
    · exact ends_fail (herror _)
    · next hnone => exact ends_pure (hok hvalid hnone)

/-- The cleanup runs where the procedure has failed, and its own result is dropped. -/
lemma ends_tryCleanup {α : Type} {p : RoProc κ α} {cleanup : RoProc κ Unit}
    {Q : Except RoError α → (Nat → Option Nat) → κ → Prop}
    (h : Ends p mapping context fun r m c => (∀ a, r = .ok a → Q (.ok a) m c) ∧
      ∀ e, r = .error e → Ends cleanup m c fun _ => Q (.error e)) :
    Ends (tryCleanup p cleanup) mapping context Q := by
  refine ends_bind (ends_attempt (h.mono fun r m c hr => ⟨fun r' hr' => ?_, nofun⟩))
  cases hr'
  cases r with
  | ok a => exact ends_pure (hr.1 a rfl)
  | error e =>
    refine ends_bind (ends_attempt ((hr.2 e rfl).mono fun r m c hQ => ⟨fun _ _ => ends_fail hQ, nofun⟩))

end Ends

end RajNX.Ro
