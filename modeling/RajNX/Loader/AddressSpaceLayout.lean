import RajNX.Loader.Arguments
import RajNX.Loader.NsoLoad
import RajNX.Map.MappableSpace

/-!
# The layout of a process

`DecideAddressSpaceLayout` of `ldr_process_creation.cpp`. The NSOs that are there are put one behind the other,
with the arguments behind the first of them, and all of them are moved to a random place of the ASLR region.
The layout is right if they are a row without a gap that lies in the ASLR region.
-/

namespace RajNX.Loader

open Map Regions

attribute [local instance] neZero_nsoCount

/-! ## The code -/

/-- How the creation of a process ends without one. A search that does not come to an end hangs. -/
inductive LaunchError
  | abort
  | hangs
  | kernelOutOfMemory
  | loader (error : LoaderError)
deriving Repr, DecidableEq

/-- The parts of `ProcessInfo` that the layout decides. -/
structure ProcessInfo where
  argsAddress : Nat
  argsSize : Nat
  nsoAddress : Fin nsoCount → Nat
  nsoSize : Fin nsoCount → Nat

/-- The parts of `CreateProcessInfo` that the layout decides. -/
structure CreateProcessInfo where
  codeAddress : Nat
  codeNumPages : Nat
deriving Repr, DecidableEq

/-- `BaseAddressAlignment` -/
def baseAddressAlignment : Nat := 0x200000

/-- `CreateProcessFlag_AddressSpaceMask` -/
def addressSpaceMask : Nat := 7 <<< 1

/-- `CreateProcessFlag_AddressSpace32Bit` -/
def addressSpace32Bit : Nat := 0 <<< 1

/-- `CreateProcessFlag_AddressSpace64BitDeprecated` -/
def addressSpace64BitDeprecated : Nat := 1 <<< 1

/-- `CreateProcessFlag_AddressSpace32BitWithoutAlias` -/
def addressSpace32BitWithoutAlias : Nat := 2 <<< 1

/-- `CreateProcessFlag_AddressSpace64Bit` -/
def addressSpace64Bit : Nat := 3 <<< 1

/-- `CreateProcessFlag_EnableAslr` -/
def enableAslr : Nat := 1 <<< 5

/-- The memory that is reserved for arguments. -/
def argumentsRegionSize (info : ArgumentInfo) : Nat :=
  (2 * info.argsSize + argumentSizeMax + 2 * 4 + 0xFFF) / 0x1000 * 0x1000

/-- What the loop over the NSOs has placed, and `total_size`. -/
structure Offsets where
  out : ProcessInfo
  totalSize : Nat

/-- The arguments are placed if there are some, and they have not been placed. -/
def placeArguments (argInfo : Option ArgumentInfo) (s : Offsets) : Offsets :=
  match argInfo with
  | none => s
  | some info =>
    if info.argsSize ≠ 0 ∧ s.out.argsSize = 0 then
      { out := { s.out with argsAddress := s.totalSize, argsSize := argumentsRegionSize info }
        totalSize := s.totalSize + argumentsRegionSize info }
    else s

/-- An NSO is placed, with the arguments behind it. -/
def placeNso (headers : Fin nsoCount → NsoHeader) (hasNso : Fin nsoCount → Bool) (argInfo : Option ArgumentInfo)
    (s : Offsets) (i : Fin nsoCount) : Offsets :=
  if hasNso i then
    placeArguments argInfo
      { out := { s.out with
          nsoAddress := Function.update s.out.nsoAddress i s.totalSize
          nsoSize := Function.update s.out.nsoSize i (nsoSize (headers i)) }
        totalSize := s.totalSize + nsoSize (headers i) }
  else s

/-- The output when it is cleared. -/
def clearedOffsets : Offsets := ⟨⟨0, 0, fun _ => 0, fun _ => 0⟩, 0⟩

/-- The loop over the NSOs. -/
def baseOffsets (headers : Fin nsoCount → NsoHeader) (hasNso : Fin nsoCount → Bool)
    (argInfo : Option ArgumentInfo) : Offsets :=
  (List.finRange nsoCount).foldl (placeNso headers hasNso argInfo) clearedOffsets

/-- The ASLR region of an address space type. A type that there is not ends in `std::abort`. -/
def aslrRegion (isFirmware200 : Bool) (flags : Nat) : Option Region :=
  let region32Bit : Region := ⟨aslrBase32Bit.toNat, aslrSize32Bit.toNat⟩
  let region64BitDeprecated : Region := ⟨aslrBase64BitDeprecated.toNat, aslrSize64BitDeprecated.toNat⟩
  if isFirmware200 then
    let type := flags &&& addressSpaceMask
    if type = addressSpace32Bit ∨ type = addressSpace32BitWithoutAlias then some region32Bit
    else if type = addressSpace64BitDeprecated then some region64BitDeprecated
    else if type = addressSpace64Bit then some ⟨aslrBase64Bit.toNat, aslrSize64Bit.toNat⟩
    else none
  else if flags &&& addressSpace64BitDeprecated ≠ 0 then some region64BitDeprecated
  else some region32Bit

/-- What was placed, moved to an address. -/
def ProcessInfo.moveTo (hasNso : Fin nsoCount → Bool) (start : Nat) (out : ProcessInfo) : ProcessInfo :=
  { out with
    nsoAddress := fun i => if hasNso i then out.nsoAddress i + start else out.nsoAddress i
    argsAddress := if out.argsAddress ≠ 0 then out.argsAddress + start else out.argsAddress }

/-- `DecideAddressSpaceLayout`. `GenerateRandomU64` gives a number that is not above the one that it is
given. -/
def decideAddressSpaceLayout (isFirmware200 : Bool) (flags : Nat) (generateRandomU64 : ∀ max : Nat, Fin (max + 1))
    (headers : Fin nsoCount → NsoHeader) (hasNso : Fin nsoCount → Bool) (argInfo : Option ArgumentInfo) :
    Except LaunchError (ProcessInfo × CreateProcessInfo) :=
  let s := baseOffsets headers hasNso argInfo
  match aslrRegion isFirmware200 flags with
  | none => .error .abort
  | some aslr =>
    if aslr.size < s.totalSize then .error .kernelOutOfMemory
    else
      let unusedSize := aslr.size - s.totalSize
      let aslrSlide :=
        if flags &&& enableAslr ≠ 0 then
          (generateRandomU64 (unusedSize / baseAddressAlignment)).val * baseAddressAlignment
        else 0
      let aslrStart := aslr.start + aslrSlide
      .ok (s.out.moveTo hasNso aslrStart, ⟨aslrStart, s.totalSize / 0x1000 % 2 ^ 32⟩)

/-! ## What is placed -/

/-- The parts of the code of a process. -/
inductive Part
  | nso (i : Fin nsoCount)
  | arguments
deriving Repr, DecidableEq

/-- Where a part is. -/
def ProcessInfo.region (info : ProcessInfo) : Part → Region
  | .nso i => ⟨info.nsoAddress i, info.nsoSize i⟩
  | .arguments => ⟨info.argsAddress, info.argsSize⟩

/-- There are arguments. -/
def HasArguments (argInfo : Option ArgumentInfo) : Prop := ∃ info, argInfo = some info ∧ info.argsSize ≠ 0

/-- The parts that a process has. -/
def Part.Present (hasNso : Fin nsoCount → Bool) (argInfo : Option ArgumentInfo) : Part → Prop
  | .nso i => hasNso i = true
  | .arguments => HasArguments argInfo

/-- The segment ends of a header do not exceed 32 bits. -/
structure EndsIn32Bits (h : NsoHeader) : Prop where
  text : h.text.dstOffset.toNat + h.text.size.toNat < 2 ^ 32
  ro : h.ro.dstOffset.toNat + h.ro.size.toNat < 2 ^ 32
  rw : h.rw.dstOffset.toNat + h.rw.size.toNat + h.bssSize.toNat < 2 ^ 32

/-- The code of a process. -/
def CreateProcessInfo.code (cpi : CreateProcessInfo) : Region := ⟨cpi.codeAddress, 0x1000 * cpi.codeNumPages⟩

/-- The size of `ProgramArguments`. -/
def programArgumentsSize : Nat := 0x20

/-- A layout that is right. -/
structure SoundLayout (headers : Fin nsoCount → NsoHeader) (hasNso : Fin nsoCount → Bool)
    (argInfo : Option ArgumentInfo) (aslr : Region) (info : ProcessInfo) (cpi : CreateProcessInfo) : Prop where
  aligned : ∀ p : Part, p.Present hasNso argInfo → 0x1000 ∣ (info.region p).start ∧ 0x1000 ∣ (info.region p).size
  disjoint : ∀ p q : Part, p.Present hasNso argInfo → q.Present hasNso argInfo → p ≠ q →
    ∀ a, (info.region p).Contains a → ¬(info.region q).Contains a
  segments : ∀ i, hasNso i = true → (headers i).text.dstOffset.toNat + (headers i).text.size.toNat ≤ info.nsoSize i ∧
      (headers i).ro.dstOffset.toNat + (headers i).ro.size.toNat ≤ info.nsoSize i ∧
      (headers i).rw.dstOffset.toNat + (headers i).rw.size.toNat + (headers i).bssSize.toNat ≤ info.nsoSize i
  arguments : ∀ arg, argInfo = some arg → arg.argsSize ≠ 0 → programArgumentsSize + arg.argsSize ≤ info.argsSize
  unreserved : ¬HasArguments argInfo → info.argsSize = 0
  tiled : ∀ a, cpi.code.Contains a ↔ ∃ p : Part, p.Present hasNso argInfo ∧ (info.region p).Contains a
  inside : aslr.start ≤ cpi.code.start ∧ cpi.code.stop ≤ aslr.stop

/-- The first NSO that there is is not empty. -/
def FirstNonEmpty (headers : Fin nsoCount → NsoHeader) (hasNso : Fin nsoCount → Bool) : Prop :=
  ∀ i, (List.finRange nsoCount).find? hasNso = some i → 0 < nsoSize (headers i)

/-! ## The loop -/

/-- What holds in the loop behind some NSOs: the parts are in a row, and the arguments are there or not. -/
structure Placed (headers : Fin nsoCount → NsoHeader) (hasNso : Fin nsoCount → Bool)
    (argInfo : Option ArgumentInfo) (done : List (Fin nsoCount)) (parts : List Part) (s : Offsets) : Prop where
  row : Row s.out.region parts 0 s.totalSize
  nso_mem : ∀ i, .nso i ∈ parts ↔ i ∈ done ∧ hasNso i = true
  nso_size : ∀ i, .nso i ∈ parts → s.out.nsoSize i = nsoSize (headers i)
  reserved : .arguments ∈ parts →
    ∃ info, argInfo = some info ∧ info.argsSize ≠ 0 ∧ s.out.argsSize = argumentsRegionSize info
  unreserved : .arguments ∉ parts → s.out.argsSize = 0 ∧ s.out.argsAddress = 0
  positive : FirstNonEmpty headers hasNso → (∃ i ∈ done, hasNso i = true) → 0 < s.totalSize
  behind : FirstNonEmpty headers hasNso → .arguments ∈ parts → 0 < s.out.argsAddress

section Loop

variable {headers : Fin nsoCount → NsoHeader} {hasNso : Fin nsoCount → Bool} {argInfo : Option ArgumentInfo}
  {done rest : List (Fin nsoCount)} {parts : List Part} {s : Offsets} {i : Fin nsoCount}

lemma argumentsRegionSize_pos (info : ArgumentInfo) : 0 < argumentsRegionSize info := by
  simp only [argumentsRegionSize, argumentSizeMax]
  omega

lemma placed_cleared : Placed headers hasNso argInfo [] [] clearedOffsets where
  row := .nil _ 0
  nso_mem i := by simp
  nso_size i h := nomatch h
  reserved h := nomatch h
  unreserved _ := ⟨rfl, rfl⟩
  positive _ h := by
    obtain ⟨i, hi, -⟩ := h
    cases hi
  behind _ h := nomatch h

/-- An NSO with none in front of it is the first one. -/
lemma find?_first (hlist : done ++ i :: rest = List.finRange nsoCount) (hi : hasNso i = true)
    (hnone : ¬∃ j ∈ done, hasNso j = true) : (List.finRange nsoCount).find? hasNso = some i := by
  have hbefore : done.find? hasNso = none := by
    rw [List.find?_eq_none]
    exact fun j hj hhas => hnone ⟨j, hj, hhas⟩
  rw [← hlist, List.find?_append, hbefore, List.find?_cons_of_pos hi]
  rfl

/-- An NSO is put behind the parts. -/
lemma Placed.nso (h : Placed headers hasNso argInfo done parts s)
    (hlist : done ++ i :: rest = List.finRange nsoCount) (hi : hasNso i = true) :
    Placed headers hasNso argInfo (done ++ [i]) (parts ++ [.nso i])
      { out := { s.out with
          nsoAddress := Function.update s.out.nsoAddress i s.totalSize
          nsoSize := Function.update s.out.nsoSize i (nsoSize (headers i)) }
        totalSize := s.totalSize + nsoSize (headers i) } := by
  have hnodup : (done ++ i :: rest).Nodup := hlist ▸ List.nodup_finRange nsoCount
  have hnew : Part.nso i ∉ parts := by
    intro hmem
    exact List.disjoint_of_nodup_append hnodup ((h.nso_mem i).mp hmem).1 (.head _)
  have hne : ∀ j, Part.nso j ∈ parts → j ≠ i := by
    rintro j hj rfl
    exact hnew hj
  refine ⟨h.row.snoc hnew ?_ ?_, ?_, ?_, ?_, ?_, ?_, ?_⟩
  · simp [ProcessInfo.region]
  · intro p hp
    cases p with
    | nso j => simp [ProcessInfo.region, Function.update_of_ne (hne j hp)]
    | arguments => rfl
  · intro j
    rw [List.mem_append, List.mem_append, h.nso_mem j, List.mem_singleton, List.mem_singleton, Part.nso.injEq]
    constructor
    · rintro (⟨hj, hhas⟩ | rfl)
      · exact ⟨.inl hj, hhas⟩
      · exact ⟨.inr rfl, hi⟩
    · rintro ⟨hj | rfl, hhas⟩
      · exact .inl ⟨hj, hhas⟩
      · exact .inr rfl
  · intro j hj
    rcases List.mem_append.mp hj with hj | hj
    · exact (Function.update_of_ne (hne j hj) _ _).trans (h.nso_size j hj)
    · cases List.mem_singleton.mp hj
      exact Function.update_self _ _ _
  · intro hargs
    exact h.reserved ((List.mem_append.mp hargs).resolve_right (by simp))
  · intro hargs
    exact h.unreserved fun hmem => hargs (List.mem_append_left _ hmem)
  · intro hfirst _
    dsimp only
    by_cases hbefore : ∃ j ∈ done, hasNso j = true
    · exact Nat.add_pos_left (h.positive hfirst hbefore) _
    · exact Nat.add_pos_right _ (hfirst i (find?_first hlist hi hbefore))
  · intro hfirst hargs
    exact h.behind hfirst ((List.mem_append.mp hargs).resolve_right (by simp))

/-- The arguments are put behind the parts, if there are some and they are not there. -/
lemma Placed.arguments (h : Placed headers hasNso argInfo done parts s) (hdone : ∃ i ∈ done, hasNso i = true) :
    ∃ parts', Placed headers hasNso argInfo done parts' (placeArguments argInfo s) ∧
      (HasArguments argInfo → .arguments ∈ parts') := by
  cases hinfo : argInfo with
  | none =>
    subst hinfo
    refine ⟨parts, h, ?_⟩
    rintro ⟨info, hinfo, -⟩
    cases hinfo
  | some info =>
    subst hinfo
    rw [placeArguments]
    by_cases hplace : info.argsSize ≠ 0 ∧ s.out.argsSize = 0
    · have hnew : Part.arguments ∉ parts := by
        intro hmem
        obtain ⟨info', -, -, hsize⟩ := h.reserved hmem
        have hpos := argumentsRegionSize_pos info'
        omega
      rw [if_pos hplace]
      refine ⟨parts ++ [.arguments], ⟨h.row.snoc hnew rfl ?_, ?_, ?_, ?_, ?_, ?_, ?_⟩, ?_⟩
      · intro p hp
        cases p with
        | nso j => rfl
        | arguments => exact absurd hp hnew
      · intro j
        rw [List.mem_append, h.nso_mem j]
        simp
      · intro j hj
        exact h.nso_size j ((List.mem_append.mp hj).resolve_right (by simp))
      · exact fun _ => ⟨info, rfl, hplace.1, rfl⟩
      · exact fun hargs => absurd (List.mem_append_right _ (.head _)) hargs
      · exact fun hfirst _ => Nat.add_pos_left (h.positive hfirst hdone) _
      · exact fun hfirst _ => h.positive hfirst hdone
      · exact fun _ => List.mem_append_right _ (.head _)
    · rw [if_neg hplace]
      refine ⟨parts, h, ?_⟩
      rintro ⟨info', ⟨⟩, hsize⟩
      by_contra hargs
      exact hplace ⟨hsize, (h.unreserved hargs).1⟩

/-- The loop over the NSOs that are left. -/
lemma Placed.foldl (h : Placed headers hasNso argInfo done parts s)
    (hargs : HasArguments argInfo → (∃ i ∈ done, hasNso i = true) → .arguments ∈ parts)
    (hlist : done ++ rest = List.finRange nsoCount) :
    ∃ parts', Placed headers hasNso argInfo (List.finRange nsoCount) parts'
        (rest.foldl (placeNso headers hasNso argInfo) s) ∧
      (HasArguments argInfo → (∃ i, hasNso i = true) → .arguments ∈ parts') := by
  induction rest generalizing done parts s with
  | nil =>
    rw [List.append_nil] at hlist
    subst hlist
    refine ⟨parts, h, fun hhas ⟨i, hi⟩ => hargs hhas ⟨i, List.mem_finRange i, hi⟩⟩
  | cons i rest ih =>
    have hnext : done ++ [i] ++ rest = List.finRange nsoCount := by
      rw [List.append_assoc]
      exact hlist
    rw [List.foldl_cons, placeNso]
    by_cases hi : hasNso i = true
    · rw [if_pos hi]
      obtain ⟨parts', hplaced, hargs'⟩ :=
        (h.nso hlist hi).arguments ⟨i, List.mem_append_right _ (.head _), hi⟩
      exact ih hplaced (fun hhas _ => hargs' hhas) hnext
    · rw [if_neg hi]
      have hsame : (∃ j ∈ done ++ [i], hasNso j = true) → ∃ j ∈ done, hasNso j = true := by
        rintro ⟨j, hj, hhas⟩
        rcases List.mem_append.mp hj with hj | hj
        · exact ⟨j, hj, hhas⟩
        · cases List.mem_singleton.mp hj
          exact absurd hhas hi
      refine ih ⟨h.row, ?_, h.nso_size, h.reserved, h.unreserved, ?_, h.behind⟩
        (fun hhas hex => hargs hhas (hsame hex)) hnext
      · intro j
        rw [h.nso_mem j]
        constructor
        · exact fun ⟨hj, hhas⟩ => ⟨List.mem_append_left _ hj, hhas⟩
        · rintro ⟨hj, hhas⟩
          refine ⟨(List.mem_append.mp hj).resolve_right fun hj => ?_, hhas⟩
          cases List.mem_singleton.mp hj
          exact hi hhas
      · exact fun hfirst hex => h.positive hfirst (hsame hex)

/-- What the loop places are the parts of the process. -/
lemma placed_baseOffsets (hsome : ∃ i, hasNso i = true) :
    ∃ parts, Placed headers hasNso argInfo (List.finRange nsoCount) parts (baseOffsets headers hasNso argInfo) ∧
      ∀ p : Part, p ∈ parts ↔ p.Present hasNso argInfo := by
  obtain ⟨parts, hplaced, hargs⟩ := (@placed_cleared headers hasNso argInfo).foldl
    (fun _ ⟨i, hi, _⟩ => nomatch hi) (List.nil_append (List.finRange nsoCount))
  refine ⟨parts, hplaced, fun p => ?_⟩
  cases p with
  | nso i => exact (hplaced.nso_mem i).trans ⟨fun h => h.2, fun h => ⟨List.mem_finRange i, h⟩⟩
  | arguments =>
    refine ⟨fun hmem => ?_, fun hhas => hargs hhas hsome⟩
    obtain ⟨info, hinfo, hsize, -⟩ := hplaced.reserved hmem
    exact ⟨info, hinfo, hsize⟩

end Loop

/-! ## The layout -/

section Layout

variable {isFirmware200 : Bool} {flags : Nat} {generateRandomU64 : ∀ max : Nat, Fin (max + 1)}
  {headers : Fin nsoCount → NsoHeader} {hasNso : Fin nsoCount → Bool} {argInfo : Option ArgumentInfo}
  {info : ProcessInfo} {cpi : CreateProcessInfo} {aslr : Region}

/-- The ASLR regions start at a page, and their pages can be counted with 32 bits. -/
lemma aslrRegion_bounds (h : aslrRegion isFirmware200 flags = some aslr) :
    0x1000 ∣ aslr.start ∧ aslr.size < 0x1000 * 2 ^ 32 := by
  rw [aslrRegion] at h
  dsimp only at h
  split at h
  · split at h
    · cases h
      decide
    · split at h
      · cases h
        decide
      · split at h
        · cases h
          decide
        · cases h
  · split at h <;> cases h <;> decide

/-- A layout that was decided on lies at a multiple of the base address alignment from the start of the ASLR
region, and does not go beyond its end. -/
lemma decideAddressSpaceLayout_ok
    (h : decideAddressSpaceLayout isFirmware200 flags generateRandomU64 headers hasNso argInfo = .ok (info, cpi)) :
    ∃ aslr slide, aslrRegion isFirmware200 flags = some aslr ∧ baseAddressAlignment ∣ slide ∧
      slide + (baseOffsets headers hasNso argInfo).totalSize ≤ aslr.size ∧
      info = (baseOffsets headers hasNso argInfo).out.moveTo hasNso (aslr.start + slide) ∧
      cpi = ⟨aslr.start + slide, (baseOffsets headers hasNso argInfo).totalSize / 0x1000 % 2 ^ 32⟩ := by
  rw [decideAddressSpaceLayout] at h
  cases haslr : aslrRegion isFirmware200 flags with
  | none =>
    rw [haslr] at h
    cases h
  | some aslr =>
    rw [haslr] at h
    dsimp only at h
    split at h
    · cases h
    · next hfits =>
      cases h
      refine ⟨aslr, _, rfl, ?_, ?_, rfl, rfl⟩
      · split
        · exact Nat.dvd_mul_left _ _
        · exact Nat.dvd_zero _
      · split
        · have hle := Nat.le_of_lt_succ (generateRandomU64
            ((aslr.size - (baseOffsets headers hasNso argInfo).totalSize) / baseAddressAlignment)).isLt
          have hmul := (Nat.le_div_iff_mul_le (by decide)).mp hle
          omega
        · omega

/-- An NSO is as large as its segments. -/
lemma nsoSize_segments {h : NsoHeader} (hends : EndsIn32Bits h) :
    h.text.dstOffset.toNat + h.text.size.toNat ≤ nsoSize h ∧ h.ro.dstOffset.toNat + h.ro.size.toNat ≤ nsoSize h ∧
      h.rw.dstOffset.toNat + h.rw.size.toNat + h.bssSize.toNat ≤ nsoSize h := by
  obtain ⟨htext, hro, hrw⟩ := hends
  simp only [nsoSize, UInt32.toNat_add]
  omega

/-- There is always a main NSO. -/
lemma hasNso_main (hvalid : validateNsoHeaders headers hasNso = .ok ()) : hasNso 1 = true := by
  rw [validateNsoHeaders] at hvalid
  split at hvalid
  · cases hvalid
  · next hmain => exact not_not.mp hmain

lemma dvd_nsoSize (h : NsoHeader) : 0x1000 ∣ nsoSize h := Nat.dvd_mul_left _ _

/-- All parts have whole pages. -/
lemma Placed.dvd_size {done : List (Fin nsoCount)} {parts : List Part} {s : Offsets}
    (h : Placed headers hasNso argInfo done parts s) : ∀ p ∈ parts, 0x1000 ∣ (s.out.region p).size := by
  intro p hp
  cases p with
  | nso i =>
    rw [ProcessInfo.region, h.nso_size i hp]
    exact dvd_nsoSize _
  | arguments =>
    obtain ⟨arg, -, -, hsize⟩ := h.reserved hp
    rw [ProcessInfo.region, hsize]
    exact Nat.dvd_mul_left _ _

/-- Moved parts are the parts, moved. -/
lemma Placed.region_moveTo {done : List (Fin nsoCount)} {parts : List Part} {s : Offsets}
    (h : Placed headers hasNso argInfo done parts s) (hfirst : FirstNonEmpty headers hasNso) (start : Nat) :
    ∀ p ∈ parts,
      (s.out.moveTo hasNso start).region p = ⟨start + (s.out.region p).start, (s.out.region p).size⟩ := by
  intro p hp
  cases p with
  | nso i =>
    have hi := ((h.nso_mem i).mp hp).2
    simp only [ProcessInfo.region, ProcessInfo.moveTo, if_pos hi, Nat.add_comm]
  | arguments =>
    have hpos := h.behind hfirst hp
    simp only [ProcessInfo.region, ProcessInfo.moveTo, if_pos hpos.ne', Nat.add_comm]

/-- `DecideAddressSpaceLayout` decides on a layout that is right, for all NSOs that are accepted, all arguments
and every random number. -/
theorem decideAddressSpaceLayout_sound (hvalid : validateNsoHeaders headers hasNso = .ok ())
    (hends : ∀ i, hasNso i = true → EndsIn32Bits (headers i)) (hfirst : FirstNonEmpty headers hasNso)
    (h : decideAddressSpaceLayout isFirmware200 flags generateRandomU64 headers hasNso argInfo = .ok (info, cpi)) :
    ∃ aslr, aslrRegion isFirmware200 flags = some aslr ∧ SoundLayout headers hasNso argInfo aslr info cpi := by
  obtain ⟨aslr, slide, haslr, hslide, hfits, rfl, rfl⟩ := decideAddressSpaceLayout_ok h
  obtain ⟨parts, hplaced, hmem⟩ := @placed_baseOffsets headers hasNso argInfo ⟨1, hasNso_main hvalid⟩
  obtain ⟨hbase, hpages⟩ := aslrRegion_bounds haslr
  generalize baseOffsets headers hasNso argInfo = s at hfits hplaced
  have hrow := hplaced.row.move (hplaced.region_moveTo hfirst (aslr.start + slide))
  have hsize : ∀ p ∈ parts, 0x1000 ∣ ((s.out.moveTo hasNso (aslr.start + slide)).region p).size := by
    intro p hp
    rw [hplaced.region_moveTo hfirst _ p hp]
    exact hplaced.dvd_size p hp
  have hpage : 0x1000 ∣ baseAddressAlignment := by decide
  have hstart : 0x1000 ∣ aslr.start + slide + 0 := Nat.dvd_add (Nat.dvd_add hbase (hpage.trans hslide)) (Nat.dvd_zero _)
  -- the pages of the code are counted without a remainder
  have htotal : 0x1000 ∣ s.totalSize := by
    rw [hplaced.row.stop_eq, Nat.zero_add]
    refine List.dvd_sum fun n hn => ?_
    obtain ⟨p, hp, rfl⟩ := List.mem_map.mp hn
    exact hplaced.dvd_size p hp
  have hcode : 0x1000 * (s.totalSize / 0x1000 % 2 ^ 32) = s.totalSize := by
    rw [Nat.mod_eq_of_lt (Nat.div_lt_of_lt_mul (by omega)), Nat.mul_div_cancel' htotal]
  refine ⟨aslr, haslr, ?_, ?_, ?_, ?_, ?_, ?_, ?_⟩
  · intro p hp
    exact ⟨hrow.dvd_start hstart hsize ((hmem p).mpr hp), hsize p ((hmem p).mpr hp)⟩
  · intro p q hp hq hne a ha
    exact (hrow.apart ((hmem p).mpr hp) ((hmem q).mpr hq) hne).not_contains ha
  · intro i hi
    have hsize : (s.out.moveTo hasNso (aslr.start + slide)).nsoSize i = nsoSize (headers i) :=
      hplaced.nso_size i ((hmem (.nso i)).mpr hi)
    rw [hsize]
    exact nsoSize_segments (hends i hi)
  · intro arg harg hne
    obtain ⟨arg', harg', -, hsize⟩ := hplaced.reserved ((hmem .arguments).mpr ⟨arg, harg, hne⟩)
    cases harg.symm.trans harg'
    have hsize : (s.out.moveTo hasNso (aslr.start + slide)).argsSize = argumentsRegionSize arg := hsize
    have hlt := arg.argsSize_lt
    rw [hsize]
    simp only [programArgumentsSize, argumentsRegionSize, argumentSizeMax] at hlt ⊢
    omega
  · intro hnone
    exact (hplaced.unreserved fun hargs => hnone ((hmem .arguments).mp hargs)).1
  · intro a
    have hcontains := @Row.contains_iff _ _ _ _ _ a hrow
    simp only [CreateProcessInfo.code, Region.Contains, Region.stop, hcode, Nat.add_zero] at hcontains ⊢
    rw [hcontains]
    exact exists_congr fun p => and_congr_left' (hmem p)
  · simp only [CreateProcessInfo.code, Region.stop, hcode]
    omega

end Layout

/-! ## Examples -/

/-- There are `rtld` and `main`. -/
def rtldAndMain (i : Fin nsoCount) : Bool := i < 2

/-- Arguments of some size. -/
def exampleArguments (size : Nat) (h : size < argumentSizeMax) : ArgumentInfo :=
  ⟨0x0100000000001000, size, List.replicate argumentSizeMax 0x61, h, List.length_replicate⟩

lemma validateNsoHeaders_rtldAndMain : validateNsoHeaders (fun _ => smallHeader 2) rtldAndMain = .ok () := by
  have hmain : rtldAndMain 1 := rfl
  have hrtld : rtldAndMain 0 := rfl
  have htext : ¬∃ _ : Fin nsoCount, (smallHeader 2).text.dstOffset ≠ 0 := fun h => h.elim fun _ h => h rfl
  simp only [validateNsoHeaders, hmain, hrtld, htext]
  simp

/-- Two NSOs of a page each in a 64-bit address space, with arguments between them, at the last place that a
random number can lead to. -/
theorem decideAddressSpaceLayout_sound_last :
    ∃ info cpi, decideAddressSpaceLayout true (addressSpace64Bit ||| enableAslr) Fin.last (fun _ => smallHeader 2)
        rtldAndMain (some (exampleArguments 5 (by decide))) = .ok (info, cpi) ∧
      info.argsAddress = 0x7FFFE01000 ∧
      ∃ aslr, aslrRegion true (addressSpace64Bit ||| enableAslr) = some aslr ∧
        SoundLayout (fun _ => smallHeader 2) rtldAndMain (some (exampleArguments 5 (by decide))) aslr info cpi := by
  have hok : ∃ info cpi, decideAddressSpaceLayout true (addressSpace64Bit ||| enableAslr) Fin.last
      (fun _ => smallHeader 2) rtldAndMain (some (exampleArguments 5 (by decide))) = .ok (info, cpi) ∧
      info.argsAddress = 0x7FFFE01000 := ⟨_, _, rfl, by decide +kernel⟩
  obtain ⟨info, cpi, hok, haddress⟩ := hok
  refine ⟨info, cpi, hok, haddress, ?_⟩
  refine decideAddressSpaceLayout_sound validateNsoHeaders_rtldAndMain ?_ ?_ hok
  · exact fun _ _ => ⟨by decide, by decide, by decide⟩
  · exact fun _ _ => by decide

end RajNX.Loader
