import RajNX.Lib.LittleEndian
import RajNX.Lib.LowerBound
import RajNX.Lib.Splice
import RajNX.Ro.ProcessContext

/-!
# NRRs

`ValidateNrr` and `MapAndValidateNrr` of `ro_nrr_utils.cpp`, and `LoadNrr` and `ValidateHasNroHash` of
`ro_service_impl.cpp`. The place and the number of the hashes of a NRR are fields of its header that
`ValidateNrr` does not look at. A binary search over them may read behind the end of the NRR.
-/

namespace RajNX.Ro

open AddressMap Interruptible LittleEndian LowerBound Splice

/-! ## The hashes -/

/-- `Sha256Hash` -/
abbrev Sha256Hash := { bytes : List UInt8 // bytes.length = 0x20 }

/-- `memcmp` below zero, for bytes of one length. -/
def memcmpLt : List UInt8 → List UInt8 → Bool
  | a :: as, b :: bs => if a < b then true else if a = b then memcmpLt as bs else false
  | _, _ => false

/-- `Sha256Hash::operator<` -/
def Sha256Hash.lt (a b : Sha256Hash) : Bool := memcmpLt a.val b.val

/-- The hash that no other is greater than. -/
def Sha256Hash.top : Sha256Hash := ⟨List.replicate 0x20 0xFF, List.length_replicate⟩

/-! ## The header -/

/-- `ModuleType`, with `ModuleType::Count` for the values that are none. -/
inductive ModuleType
  | forSelf | forOthers | count
deriving Repr, DecidableEq

/-- `NrrHeader`, with the fields that are read. -/
structure NrrHeader where
  magic : Nat
  titleIdMask : UInt64
  titleIdPattern : UInt64
  titleId : UInt64
  size : Nat
  type : UInt8
  hashesOffset : Nat
  numHashes : Nat
deriving Repr, DecidableEq

namespace NrrHeader

/-- The fields in their places. -/
def ofBytes (contents : List UInt8) : NrrHeader where
  magic := leValue (slice contents 0 4)
  titleIdMask := .ofNat (leValue (slice contents 0x10 8))
  titleIdPattern := .ofNat (leValue (slice contents 0x18 8))
  titleId := .ofNat (leValue (slice contents 0x330 8))
  size := leValue (slice contents 0x338 4)
  type := contents.getD 0x33C 0
  hashesOffset := leValue (slice contents 0x340 4)
  numHashes := leValue (slice contents 0x344 4)

/-- `IsMagicValid` -/
def isMagicValid (header : NrrHeader) : Bool := header.magic = 0x3052524E

/-- `IsTitleIdValid` -/
def isTitleIdValid (header : NrrHeader) : Bool := header.titleId &&& header.titleIdMask = header.titleIdPattern

/-- `GetType`, which aborts for a value that is no type. -/
def getType (header : NrrHeader) : Except RoError ModuleType :=
  if header.type = 0 then .ok .forSelf
  else if header.type = 1 then .ok .forOthers
  else .error .abort

end NrrHeader

/-- What the service is told about the system. -/
structure RoConfig where
  easeNroRestriction : Bool
  isFirmware700 : Bool

/-- `ValidateNrrSignature` -/
def validateNrrSignature (header : NrrHeader) : Except RoError Unit :=
  if header.isTitleIdValid then .ok () else .error .notAuthorized

/-- `ValidateNrr` -/
def validateNrr (config : RoConfig) (header : NrrHeader) (size : Nat) (titleId : UInt64)
    (expectedType : ModuleType) (enforceType : Bool) : Except RoError Unit :=
  if !header.isMagicValid then .error .invalidNrr
  else if header.size ≠ size then .error .invalidSize
  else if config.easeNroRestriction then .ok ()
  else do
    validateNrrSignature header
    if titleId ≠ header.titleId then throw .invalidNrr
    if config.isFirmware700 ∧ enforceType then
      let type ← header.getType
      if expectedType ≠ type then throw .invalidNrrType

/-! ## Searching for a hash -/

namespace NrrInfo

/-- `header` -/
def header (info : NrrInfo) : NrrHeader := .ofBytes info.contents

/-- A hash, if it lies in the mapping of the NRR. -/
def hash (info : NrrInfo) (i : Nat) : Option Sha256Hash :=
  if h : info.header.hashesOffset + 0x20 * i + 0x20 ≤ info.contents.length then
    some ⟨slice info.contents (info.header.hashesOffset + 0x20 * i) 0x20, length_slice h⟩
  else none

/-- `std::binary_search` over the hashes, or `none` if it reads outside of the mapping. -/
def search (info : NrrInfo) (hash : Sha256Hash) : Option Bool :=
  binarySearch Sha256Hash.lt info.hash info.header.numHashes hash

end NrrInfo

/-- The loop of `ValidateHasNroHash`, given the hash of the NRO. -/
def validateHasNroHash (hash : Sha256Hash) : List NrrInfo → Option (Except RoError Unit)
  | [] => some (.error .notAuthorized)
  | info :: infos =>
    if info.inUse then
      match info.search hash with
      | none => none
      | some true => some (.ok ())
      | some false => validateHasNroHash hash infos
    else validateHasNroHash hash infos

/-! ## Loading -/

/-- A procedure in the scope of a mapping, which is taken away if it fails. -/
def withMapped {κ α : Type} (mcm : Piece) (p : RoProc κ α) : RoProc κ α :=
  p.attempt >>= fun
    | .ok a => pure a
    | .error .abort => .fail .abort
    | .error e => do
      closeMapped mcm
      .fail e

/-- `LocateMappableSpace` and an `AutoCloseMap`, which map memory of the process into the service. -/
def mapIntoService {κ : Type} : RoProc κ Unit :=
  kernelQuery.attempt >>= fun
    | .ok _ => kernelQuery
    | .error _ => .fail .insufficientAddressSpace

/-- `MapAndValidateNrr`, with the mapping that is kept. -/
def mapAndValidateNrr (config : RoConfig) (titleId : UInt64) (nrrHeapAddress : Nat) (contents : List UInt8)
    (expectedType : ModuleType) (enforceType : Bool) : RoProc ProcessContext Piece := do
  let mcm ← mapCodeMemoryInProcess nrrHeapAddress contents.length
  withMapped mcm do
    mapIntoService
    .done (validateNrr config (.ofBytes contents) contents.length titleId expectedType enforceType)
  return mcm

/-- `LoadNrr`, for a NRR with some contents at an address of the heap. -/
def loadNrr (config : RoConfig) (titleId : UInt64) (nrrAddress : Nat) (contents : List UInt8)
    (expectedType : ModuleType) (enforceType : Bool) : RoProc ProcessContext Unit := do
  .done (validateAddressAndSize nrrAddress contents.length)
  let context ← getContext
  match context.nrrInfos.findIdx? (!·.inUse) with
  | none => .fail .tooManyNrr
  | some i => do
    let mcm ← mapAndValidateNrr config titleId nrrAddress contents expectedType enforceType
    modifyContext fun context => { context with
      nrrInfos := context.nrrInfos.set i ⟨contents, nrrAddress, contents.length, mcm.dst, true⟩ }

section Hashes

variable {info : NrrInfo}

/-- A last byte is not below another one. -/
lemma not_top_lt (b : UInt8) : ¬(0xFF : UInt8) < b := by
  rw [UInt8.lt_iff_toNat_lt]
  exact Nat.not_lt_of_le (Nat.le_of_lt_succ b.toNat_lt)

lemma memcmpLt_top (n : Nat) (bs : List UInt8) : memcmpLt (List.replicate n 0xFF) bs = false := by
  induction n generalizing bs with
  | zero => rw [List.replicate_zero, memcmpLt]; exact nofun
  | succ n ih =>
    cases bs with
    | nil => rfl
    | cons b bs =>
      rw [List.replicate_succ, memcmpLt, if_neg (not_top_lt b), ih]
      exact ite_self _

lemma eq_top_of_memcmpLt {as : List UInt8} (h : memcmpLt as (List.replicate as.length 0xFF) = false) :
    as = List.replicate as.length 0xFF := by
  induction as with
  | nil => rfl
  | cons a as ih =>
    rw [List.length_cons, List.replicate_succ, memcmpLt] at h
    split at h
    · cases h
    · next hge =>
      have ha : a = 0xFF := by
        have hle := not_top_lt a
        rw [UInt8.lt_iff_toNat_lt] at hge hle
        exact UInt8.toNat_inj.mp (by omega)
      rw [if_pos ha] at h
      rw [List.length_cons, List.replicate_succ, ← ih h, ha]

lemma Sha256Hash.lt_top (key : Sha256Hash) : Sha256Hash.lt .top key = false := memcmpLt_top _ _

lemma Sha256Hash.eq_top {a : Sha256Hash} (h : Sha256Hash.lt a .top = false) : a = .top := by
  have hlt : memcmpLt a.val (List.replicate a.val.length 0xFF) = false := by
    rw [a.property]
    exact h
  have heq := eq_top_of_memcmpLt hlt
  rw [a.property] at heq
  exact Subtype.ext heq

/-- How many hashes lie in the mapping. -/
lemma NrrInfo.hash_isSome (i : Nat) :
    (info.hash i).isSome ↔ i < (info.contents.length - info.header.hashesOffset) / 0x20 := by
  rw [hash, ← Nat.succ_le_iff, Nat.le_div_iff_mul_le (by decide)]
  split
  · next h => exact iff_of_true rfl (by omega)
  · next h => exact iff_of_false (by decide) (by omega)

/-- No search reads outside of the mapping just when there are no hashes, the hashes end in the mapping, or one
that is there, in the middle of one of the upper halves, is not below any other. -/
lemma NrrInfo.search_isSome_iff : (∀ hash, (info.search hash).isSome) ↔ info.header.numHashes = 0 ∨
      info.header.hashesOffset + 0x20 * info.header.numHashes ≤ info.contents.length ∨
      ∃ i ∈ upperPath info.header.numHashes 0 info.header.numHashes, info.hash i = some .top := by
  refine (binarySearch_isSome_iff hash_isSome Sha256Hash.lt_top fun _ => Sha256Hash.eq_top).trans ?_
  rw [Nat.le_div_iff_mul_le (by decide), ← or_assoc, ← or_assoc]
  exact or_congr (by omega) Iff.rfl

end Hashes

section Loading

open Proc

variable {κ : Type} {mapping : Nat → Option Nat}

lemma ends_mapIntoService {context : κ} {Q : Except RoError Unit → (Nat → Option Nat) → κ → Prop}
    (hok : Q (.ok ()) mapping context) (herror : ∀ e, Q (.error e) mapping context) :
    Ends mapIntoService mapping context Q := by
  refine ends_bind (ends_attempt (ends_kernelQuery ⟨fun _ ha => ?_, nofun⟩ fun e => ⟨fun _ ha => ?_, nofun⟩))
  · cases ha
    exact ends_kernelQuery hok fun _ => herror _
  · cases ha
    exact ends_fail (herror _)

/-- In the scope of a mapping: it is kept if the procedure returns. -/
lemma ends_withMapped {α : Type} {context : κ} {mcm : Piece} {p : RoProc κ α}
    {Q : Except RoError α → (Nat → Option Nat) → κ → Prop}
    (h : Ends p (mcm.place mapping) context fun r m c =>
      (∀ a, r = .ok a → Q (.ok a) m c) ∧ ∀ e, r = .error e → e ≠ .abort → m = mcm.place mapping ∧ c = context)
    (hfree : mcm.Free mapping) (herror : ∀ e, e ≠ .abort → Q (.error e) mapping context)
    (habort : ∀ m c, Q (.error .abort) m c) : Ends (withMapped mcm p) (mcm.place mapping) context Q := by
  refine ends_bind (ends_attempt (h.mono fun r m c hr => ⟨fun r' hr' => ?_, nofun⟩))
  cases hr'
  split
  · exact ends_pure (hr.1 _ rfl)
  · exact ends_fail (habort _ _)
  · next e habort =>
    obtain ⟨rfl, rfl⟩ := hr.2 e rfl habort
    exact ends_bind (ends_closeMapped hfree ⟨fun _ _ => ends_fail (herror e habort), nofun⟩)

/-- The NRR is mapped if it is accepted. -/
lemma ends_mapAndValidateNrr {config : RoConfig} {titleId : UInt64} {nrrAddress : Nat} {contents : List UInt8}
    {expectedType : ModuleType} {enforceType : Bool} {context : ProcessContext}
    {Q : Except RoError Piece → (Nat → Option Nat) → ProcessContext → Prop}
    (hok : ∀ mcm, Mapped nrrAddress contents.length mapping mcm →
      validateNrr config (.ofBytes contents) contents.length titleId expectedType enforceType = .ok () →
      Q (.ok mcm) (mcm.place mapping) context)
    (herror : ∀ e, e ≠ .abort → Q (.error e) mapping context) (habort : ∀ m c, Q (.error .abort) m c) :
    Ends (mapAndValidateNrr config titleId nrrAddress contents expectedType enforceType) mapping context Q := by
  have herror' : ∀ e, Q (.error e) mapping context := by
    intro e
    by_cases he : e = .abort
    · exact he ▸ habort _ _
    · exact herror e he
  refine ends_bind (ends_mapCodeMemoryInProcess (fun mcm hmcm => ⟨fun _ ha => ?_, nofun⟩) fun e =>
    ⟨nofun, fun _ he => Except.error.inj he ▸ herror' e⟩)
  cases ha
  refine ends_bind (ends_withMapped (ends_bind
    (ends_mapIntoService ⟨fun _ _ => ends_done ?_, nofun⟩ ?_)) hmcm.free ?_ ?_)
  · refine ⟨fun a ha => ⟨fun _ _ => ends_pure (hok mcm hmcm ha), nofun⟩, fun e he hne => ⟨rfl, rfl⟩⟩
  · exact fun e => ⟨nofun, fun e' he => ⟨nofun, fun _ _ _ => ⟨rfl, rfl⟩⟩⟩
  · exact fun e he => ⟨nofun, fun _ he' => Except.error.inj he' ▸ herror e he⟩
  · exact fun m c => ⟨nofun, fun _ he => Except.error.inj he ▸ habort m c⟩

/-- A NRR that is loaded has been accepted and is kept with its contents. -/
lemma ends_loadNrr {config : RoConfig} {titleId : UInt64} {nrrAddress : Nat} {contents : List UInt8}
    {expectedType : ModuleType} {enforceType : Bool} {context : ProcessContext} :
    Ends (loadNrr config titleId nrrAddress contents expectedType enforceType) mapping context fun r _ c =>
      r = .ok () → validateNrr config (.ofBytes contents) contents.length titleId expectedType enforceType = .ok () ∧
        ∃ info ∈ c.nrrInfos, info.inUse = true ∧ info.contents = contents ∧
          info.nrrHeapSize = contents.length := by
  refine ends_bind (ends_done ⟨fun _ _ => ?_, fun _ _ => nofun⟩)
  refine ends_bind (ends_getContext ⟨fun _ ha => ?_, nofun⟩)
  cases ha
  split
  · exact ends_fail nofun
  · next i hi =>
    obtain ⟨hlt, -⟩ := List.findIdx?_eq_some_iff_getElem.mp hi
    refine ends_bind (ends_mapAndValidateNrr (fun mcm hmcm hvalid => ⟨fun _ ha => ?_, nofun⟩) ?_ ?_)
    · cases ha
      exact ends_modifyContext fun _ => ⟨hvalid, _, List.mem_set hlt _, rfl, rfl, rfl⟩
    · exact fun _ _ => ⟨nofun, fun _ _ h => nomatch h⟩
    · exact fun _ _ => ⟨nofun, fun _ _ h => nomatch h⟩

end Loading

/-- A NRR that is loaded: no search reads a hash outside of its mapping just when it has no hashes, the hashes
end in the mapping, or the greatest hash is in the mapping in the middle of one of the upper halves. -/
theorem loadNrr_search_isSome_iff {config : RoConfig} {titleId : UInt64} {nrrAddress : Nat} {contents : List UInt8}
    {expectedType : ModuleType} {enforceType : Bool} {s : RoState ProcessContext}
    (h : ((loadNrr config titleId nrrAddress contents expectedType enforceType).run s).result = .ok ()) :
    ∃ info ∈ ((loadNrr config titleId nrrAddress contents expectedType enforceType).run s).final.context.nrrInfos,
      info.inUse = true ∧ info.contents = contents ∧ info.nrrHeapSize = contents.length ∧
        ((∀ hash, (info.search hash).isSome) ↔ (NrrHeader.ofBytes contents).numHashes = 0 ∨
            (NrrHeader.ofBytes contents).hashesOffset + 0x20 * (NrrHeader.ofBytes contents).numHashes ≤
              contents.length ∨
            ∃ i ∈ upperPath (NrrHeader.ofBytes contents).numHashes 0 (NrrHeader.ofBytes contents).numHashes,
              info.hash i = some .top) := by
  obtain ⟨-, hfinal⟩ := (ends_loadNrr s rfl rfl).run
  obtain ⟨-, info, hinfo, hinUse, rfl, hsize⟩ := hfinal h
  exact ⟨info, hinfo, hinUse, rfl, hsize, NrrInfo.search_isSome_iff⟩

/-- A NRR of one page with some hashes at an offset. -/
def exampleNrr (hashesOffset numHashes : Nat) : List UInt8 :=
  leBytes 4 0x3052524E ++ List.replicate 0x334 0 ++ leBytes 4 0x1000 ++ List.replicate 4 0 ++
    leBytes 4 hashesOffset ++ leBytes 4 numHashes ++ List.replicate 0xCB8 0

/-- A process without mappings, where the first random address is free. -/
def exampleRoState : RoState ProcessContext where
  mapping _ := none
  context := .empty
  answers := [⟨none, 0⟩, ⟨none, 0x7FF8000000⟩, ⟨none, 0x8000000⟩, ⟨none, 0⟩, ⟨none, 1⟩]

/-- A NRR of one page that is accepted is loaded in that process. -/
lemma returns_loadNrr_example {config : RoConfig} {titleId : UInt64} {contents : List UInt8}
    {expectedType : ModuleType} {enforceType : Bool} (hlen : contents.length = 0x1000)
    (hvalid : validateNrr config (.ofBytes contents) 0x1000 titleId expectedType enforceType = .ok ()) :
    Returns (loadNrr config titleId 0x70000000 contents expectedType enforceType) exampleRoState ()
      ⟨(Piece.mk 0x8000000 0x70000000 0x1000).place fun _ => none, ⟨ProcessContext.empty.nroInfos,
        ProcessContext.empty.nrrInfos.set 0 ⟨contents, 0x70000000, contents.length, 0x8000000, true⟩⟩, []⟩ := by
  have hmap : Returns (mapCodeMemoryInProcess 0x70000000 0x1000) exampleRoState ⟨0x8000000, 0x70000000, 0x1000⟩
      ⟨(Piece.mk 0x8000000 0x70000000 0x1000).place fun _ => none, .empty, []⟩ := by
    refine Returns.bind (a := ()) (t := ⟨fun _ => none, .empty, exampleRoState.answers.tail⟩) ⟨rfl, rfl⟩ ?_
    refine Returns.bind (a := 0x7FF8000000) (t := ⟨fun _ => none, .empty, exampleRoState.answers.tail.tail⟩)
      ⟨rfl, rfl⟩ ?_
    rw [if_neg (by decide)]
    refine Returns.bind (a := 0x8000000) (t := ⟨fun _ => none, .empty, [⟨none, 0⟩, ⟨none, 1⟩]⟩) ⟨rfl, rfl⟩ ?_
    refine Returns.bind (returns_svcMapProcessCodeMemory rfl (by decide) (by decide) fun _ _ => rfl).attempt ?_
    exact ⟨rfl, rfl⟩
  have hscope : Returns (mapAndValidateNrr config titleId 0x70000000 contents expectedType enforceType) exampleRoState
      ⟨0x8000000, 0x70000000, 0x1000⟩ ⟨(Piece.mk 0x8000000 0x70000000 0x1000).place fun _ => none, .empty, []⟩ := by
    rw [mapAndValidateNrr, hlen]
    refine hmap.bind (Returns.bind (a := ()) ?_ ⟨rfl, rfl⟩)
    rw [hvalid]
    exact ⟨rfl, rfl⟩
  rw [loadNrr, hlen]
  refine Returns.bind (a := ()) (t := exampleRoState) ⟨rfl, rfl⟩ ?_
  exact Returns.bind (a := .empty) (t := exampleRoState) ⟨rfl, rfl⟩ (hscope.bind ⟨rfl, rfl⟩)

lemma length_exampleNrr (hashesOffset numHashes : Nat) : (exampleNrr hashesOffset numHashes).length = 0x1000 := by
  simp only [exampleNrr, List.length_append, length_leBytes, List.length_replicate]

/-- One hash behind the header. -/
theorem loadNrr_search_isSome_iff_example :
    ∃ info ∈ ((loadNrr ⟨false, true⟩ 0 0x70000000 (exampleNrr 0x350 1) .forSelf true).run
        exampleRoState).final.context.nrrInfos,
      info.inUse = true ∧ info.contents = exampleNrr 0x350 1 ∧ info.nrrHeapSize = (exampleNrr 0x350 1).length ∧
        ((∀ hash, (info.search hash).isSome) ↔ (NrrHeader.ofBytes (exampleNrr 0x350 1)).numHashes = 0 ∨
            (NrrHeader.ofBytes (exampleNrr 0x350 1)).hashesOffset +
              0x20 * (NrrHeader.ofBytes (exampleNrr 0x350 1)).numHashes ≤ (exampleNrr 0x350 1).length ∨
            ∃ i ∈ upperPath (NrrHeader.ofBytes (exampleNrr 0x350 1)).numHashes 0
                (NrrHeader.ofBytes (exampleNrr 0x350 1)).numHashes, info.hash i = some .top) :=
  loadNrr_search_isSome_iff (returns_loadNrr_example (length_exampleNrr _ _) (by decide +kernel)).1

/-- One hash that starts where the NRR ends: the NRR is loaded, with its restrictions checked, and every search
for a hash reads it. -/
theorem loadNrr_search_reads_behind :
    ∃ info ∈ ((loadNrr ⟨false, true⟩ 0 0x70000000 (exampleNrr 0x1000 1) .forSelf true).run
        exampleRoState).final.context.nrrInfos,
      ((loadNrr ⟨false, true⟩ 0 0x70000000 (exampleNrr 0x1000 1) .forSelf true).run exampleRoState).result = .ok () ∧
        info.inUse = true ∧ info.nrrHeapSize = 0x1000 ∧ ∀ hash, info.search hash = none := by
  obtain ⟨hresult, hfinal⟩ := returns_loadNrr_example (length_exampleNrr 0x1000 1)
    (show validateNrr ⟨false, true⟩ _ 0x1000 0 .forSelf true = .ok () by decide +kernel)
  refine ⟨⟨exampleNrr 0x1000 1, 0x70000000, (exampleNrr 0x1000 1).length, 0x8000000, true⟩, ?_, hresult, rfl,
    length_exampleNrr _ _, fun hash => ?_⟩
  · rw [hfinal]
    exact .head _
  · have hnum : (NrrHeader.ofBytes (exampleNrr 0x1000 1)).numHashes = 1 := by decide +kernel
    have hoffset : (NrrHeader.ofBytes (exampleNrr 0x1000 1)).hashesOffset = 0x1000 := by decide +kernel
    have hhash : NrrInfo.hash
        ⟨exampleNrr 0x1000 1, 0x70000000, (exampleNrr 0x1000 1).length, 0x8000000, true⟩ 0 = none := by
      refine dif_neg fun hle => ?_
      have hle : (NrrHeader.ofBytes (exampleNrr 0x1000 1)).hashesOffset + 0x20 * 0 + 0x20 ≤
        (exampleNrr 0x1000 1).length := hle
      rw [hoffset, length_exampleNrr] at hle
      exact absurd hle (by decide)
    show binarySearch _ _ (NrrHeader.ofBytes (exampleNrr 0x1000 1)).numHashes hash = none
    rw [hnum, binarySearch, searchIn, if_pos (by decide), Nat.div_eq_of_lt (by decide), Nat.add_zero, hhash]
    rfl

end RajNX.Ro
