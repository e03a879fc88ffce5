import RajNX.Ro.Nro

/-!
# Runs of the NRO requests

What is mapped into a process over any run of `LoadNro` and `UnloadNro` requests, whatever the kernel answers:
the pieces of the infos in use and nothing else.
-/

namespace RajNX.Ro

open AddressMap Interruptible

/-- One of the infos, which is in use. -/
def InUse (infos : List NroInfo) (i : Nat) (info : NroInfo) : Prop := infos[i]? = some info ∧ info.inUse = true

namespace NroInfo

/-- Where the NRO of an info is mapped. -/
def toPlace (info : NroInfo) : NroPlace :=
  ⟨info.baseAddress, info.nroHeapAddress, info.nroHeapSize, info.bssHeapAddress, info.bssHeapSize⟩

/-- Where the NRO of an info takes an address from: first the NRO, and the bss directly after it. -/
def lookup (info : NroInfo) (a : Nat) : Option Nat := (info.toPlace.bss.lookup a).or (info.toPlace.nro.lookup a)

/-- The sizes of an info fit together, and no address wraps around. -/
structure WellSized (info : NroInfo) : Prop where
  size_eq : info.codeSize + info.rwSize = info.nroHeapSize
  pos : 0 < info.nroHeapSize
  end_lt : info.baseAddress + info.nroHeapSize + info.bssHeapSize < 2 ^ 64
  src_lt : info.nroHeapAddress + info.nroHeapSize < 2 ^ 64

end NroInfo

/-- The mapping is that of the infos in use, which do not overlap and have module ids of their own. -/
structure Balanced (mapping : Nat → Option Nat) (infos : List NroInfo) : Prop where
  lookup_iff : ∀ a b, mapping a = some b ↔ ∃ i info, InUse infos i info ∧ info.lookup a = some b
  apart : ∀ i j info info', InUse infos i info → InUse infos j info' → i ≠ j →
    ∀ a, (info.lookup a).isSome → info'.lookup a = none
  moduleId_inj : ∀ i j info info', InUse infos i info → InUse infos j info' → info.moduleId = info'.moduleId → i = j
  wellSized : ∀ i info, InUse infos i info → info.WellSized

/-- An info has come into use, and its pieces have been mapped where nothing was. -/
structure Loaded (i : Nat) (info : NroInfo) (mapping mapping' : Nat → Option Nat) (infos infos' : List NroInfo) :
    Prop where
  free : ∀ info', ¬InUse infos i info'
  inUse : ∀ j info', InUse infos' j info' ↔ InUse infos j info' ∨ j = i ∧ info' = info
  mapped : ∀ a, mapping' a = (info.lookup a).or (mapping a)
  unmapped : ∀ a, (info.lookup a).isSome → mapping a = none
  wellSized : info.WellSized
  moduleId_ne : ∀ j info', InUse infos j info' → info'.moduleId ≠ info.moduleId

/-- An info is no longer in use, and its pieces are no longer mapped. -/
structure Unloaded (i : Nat) (info : NroInfo) (mapping mapping' : Nat → Option Nat) (infos infos' : List NroInfo) :
    Prop where
  inUse : InUse infos i info
  inUse_iff : ∀ j info', InUse infos' j info' ↔ InUse infos j info' ∧ j ≠ i
  mapped : ∀ a, mapping' a = if (info.lookup a).isSome then none else mapping a

/-! ## Changing infos -/

section Infos

variable {infos infos' : List NroInfo} {mapping mapping' : Nat → Option Nat} {i j : Nat} {info info' : NroInfo}

lemma InUse.unique (h : InUse infos i info) (h' : InUse infos i info') : info = info' :=
  Option.some.inj (h.1.symm.trans h'.1)

/-- Writing a whole info. -/
lemma inUse_modify_all {f : NroInfo → NroInfo} (hi : i < infos.length) (hf : ∀ old, f old = info) :
    InUse (infos.modify i f) j info' ↔
      (InUse infos j info' ∧ j ≠ i) ∨ j = i ∧ info' = info ∧ info.inUse = true := by
  rcases eq_or_ne i j with rfl | hij
  · rw [InUse, List.getElem?_modify_eq, List.getElem?_eq_getElem hi, Option.map_eq_map, Option.map_some, hf,
      Option.some_inj]
    constructor
    · rintro ⟨rfl, h⟩
      exact .inr ⟨rfl, rfl, h⟩
    · rintro (⟨-, hne⟩ | ⟨-, rfl, h⟩)
      · exact absurd rfl hne
      · exact ⟨rfl, h⟩
  · rw [InUse, InUse, List.getElem?_modify_ne _ _ hij]
    constructor
    · exact fun h => .inl ⟨h, hij.symm⟩
    · rintro (⟨h, -⟩ | ⟨rfl, -⟩)
      · exact h
      · exact absurd rfl hij

/-- Writing to an info that is not in use. -/
lemma inUse_modify {f : NroInfo → NroInfo} (hf : ∀ old, (f old).inUse = old.inUse) (hfree : ∀ old, ¬InUse infos i old) :
    InUse (infos.modify i f) j info ↔ InUse infos j info := by
  rcases eq_or_ne i j with rfl | hij
  · rw [InUse, List.getElem?_modify_eq]
    constructor
    · rintro ⟨hget, hinUse⟩
      obtain ⟨old, hold, rfl⟩ := Option.map_eq_some_iff.mp hget
      rw [hf] at hinUse
      exact absurd ⟨hold, hinUse⟩ (hfree old)
    · exact fun h => absurd h (hfree info)
  · rw [InUse, InUse, List.getElem?_modify_ne _ _ hij]

lemma getFreeNroInfo_some (h : getFreeNroInfo infos = some i) : i < infos.length ∧ ∀ info, ¬InUse infos i info := by
  obtain ⟨hlt, hfree, -⟩ := List.findIdx?_eq_some_iff_getElem.mp h
  refine ⟨hlt, fun info hinfo => ?_⟩
  rw [InUse, List.getElem?_eq_getElem hlt] at hinfo
  obtain ⟨heq, hinUse⟩ := hinfo
  rw [Option.some.inj heq, hinUse] at hfree
  cases hfree

lemma getNroInfoByAddress_some {nroAddress : Nat} (h : getNroInfoByAddress infos nroAddress = some i) :
    i < infos.length ∧ InUse infos i (infos.getD i .zero) ∧ (infos.getD i .zero).baseAddress = nroAddress := by
  obtain ⟨hlt, hfound, -⟩ := List.findIdx?_eq_some_iff_getElem.mp h
  rw [Bool.and_eq_true, decide_eq_true_eq] at hfound
  rw [InUse, List.getD_eq_getElem?_getD, List.getElem?_eq_getElem hlt]
  exact ⟨hlt, ⟨rfl, hfound.1⟩, hfound.2⟩

lemma getNroInfoByAddress_none {nroAddress : Nat} (h : getNroInfoByAddress infos nroAddress = none)
    (hinfo : InUse infos i info) : info.baseAddress ≠ nroAddress := by
  intro hbase
  have hfalse := List.findIdx?_eq_none_iff.mp h info (List.mem_of_getElem? hinfo.1)
  rw [hinfo.2, Bool.true_and, decide_eq_false_iff_not] at hfalse
  exact hfalse hbase

lemma getNroInfoByModuleId_none {moduleId : ModuleId} (h : getNroInfoByModuleId infos moduleId = none)
    (hinfo : InUse infos i info) : info.moduleId ≠ moduleId := by
  intro hid
  have hfalse := List.findIdx?_eq_none_iff.mp h info (List.mem_of_getElem? hinfo.1)
  rw [hinfo.2, Bool.true_and, decide_eq_false_iff_not] at hfalse
  exact hfalse hid

end Infos

/-! ## Keeping the balance -/

section Balance

variable {infos infos' : List NroInfo} {mapping mapping' : Nat → Option Nat} {i j : Nat} {info info' : NroInfo}

lemma balanced_empty : Balanced (fun _ => none) ProcessContext.empty.nroInfos := by
  have hfree : ∀ i info, ¬InUse ProcessContext.empty.nroInfos i info := by
    rintro i info ⟨hget, hinUse⟩
    rw [List.eq_of_mem_replicate (List.mem_of_getElem? hget)] at hinUse
    cases hinUse
  constructor
  · exact fun a b => ⟨nofun, fun ⟨i, info, hinfo, _⟩ => absurd hinfo (hfree i info)⟩
  · exact fun i _ info _ hinfo => absurd hinfo (hfree i info)
  · exact fun i _ info _ hinfo => absurd hinfo (hfree i info)
  · exact fun i info hinfo => absurd hinfo (hfree i info)

variable (h : Balanced mapping infos)

include h

/-- The balance is about the infos in use. -/
lemma Balanced.congr (hinUse : ∀ j info, InUse infos' j info ↔ InUse infos j info) :
    Balanced mapping infos' := by
  obtain ⟨hlookup, hapart, hid, hsized⟩ := h
  constructor <;> simpa only [hinUse]

lemma Balanced.isSome_iff (a : Nat) :
    (mapping a).isSome ↔ ∃ i info, InUse infos i info ∧ (info.lookup a).isSome := by
  rw [Option.isSome_iff_exists]
  constructor
  · rintro ⟨b, hb⟩
    obtain ⟨i, info, hinfo, hlookup⟩ := (h.lookup_iff a b).mp hb
    exact ⟨i, info, hinfo, Option.isSome_iff_exists.mpr ⟨b, hlookup⟩⟩
  · rintro ⟨i, info, hinfo, hlookup⟩
    obtain ⟨b, hb⟩ := Option.isSome_iff_exists.mp hlookup
    exact ⟨b, (h.lookup_iff a b).mpr ⟨i, info, hinfo, hb⟩⟩

/-- The mapping is that of an info where it has one. -/
lemma Balanced.eq_lookup (hinfo : InUse infos i info) {a : Nat}
    (ha : (info.lookup a).isSome) : mapping a = info.lookup a := by
  obtain ⟨b, hb⟩ := Option.isSome_iff_exists.mp ha
  rw [hb]
  exact (h.lookup_iff a b).mpr ⟨i, info, hinfo, hb⟩

/-- The pieces of an info in use, and the mapping without them. -/
lemma Balanced.exists_fits (hinfo : InUse infos i info) :
    ∃ rest, info.toPlace.Fits rest ∧ mapping = info.toPlace.place rest ∧
      ∀ a, rest a = if (info.lookup a).isSome then none else mapping a := by
  let place := info.toPlace
  obtain ⟨-, -, hend, hsrc⟩ := h.wellSized i info hinfo
  have hbss : place.bss.Holds mapping := by
    intro k hk
    have hlookup : info.lookup (place.bss.dst + k) = some (place.bss.src + k) := by
      rw [NroInfo.lookup, Piece.lookup_add hk, Option.some_or]
    rw [h.eq_lookup hinfo (by rw [hlookup]; rfl), hlookup]
  have hnro : place.nro.Holds (place.bss.clear mapping) := by
    intro k hk
    have hk : k < info.nroHeapSize := hk
    have hnone : place.bss.lookup (place.nro.dst + k) = none := by
      refine if_neg fun ⟨hle, _⟩ => ?_
      have hle : info.baseAddress + info.nroHeapSize ≤ info.baseAddress + k := hle
      omega
    have hlookup : info.lookup (place.nro.dst + k) = some (place.nro.src + k) := by
      rw [NroInfo.lookup, hnone, Option.none_or, Piece.lookup_add hk]
    rw [Piece.clear, hnone, if_neg (by decide), h.eq_lookup hinfo (by rw [hlookup]; rfl), hlookup]
  refine ⟨place.nro.clear (place.bss.clear mapping), ⟨Piece.free_clear _ _, ?_, hend, hsrc⟩, ?_, fun a => ?_⟩
  · rw [Piece.place_clear hnro]
    exact Piece.free_clear _ _
  · rw [NroPlace.place, Piece.place_clear hnro, Piece.place_clear hbss]
  · rw [NroInfo.lookup, Option.isSome_or, Piece.clear, Piece.clear]
    cases (place.bss.lookup a).isSome <;> cases (place.nro.lookup a).isSome <;> rfl

theorem Loaded.balanced (hload : Loaded i info mapping mapping' infos infos') :
    Balanced mapping' infos' := by
  have hother : ∀ j info' a, InUse infos j info' → (info.lookup a).isSome → info'.lookup a = none := by
    intro j info' a hinfo' ha
    by_contra hne
    have hsome := (h.isSome_iff a).mpr ⟨j, info', hinfo', Option.isSome_iff_ne_none.mpr hne⟩
    rw [hload.unmapped a ha] at hsome
    cases hsome
  constructor
  · intro a b
    rw [hload.mapped]
    constructor
    · intro hb
      rcases hlookup : info.lookup a with _ | b'
      · rw [hlookup, Option.none_or] at hb
        obtain ⟨j, info', hinfo', hb'⟩ := (h.lookup_iff a b).mp hb
        exact ⟨j, info', (hload.inUse j info').mpr (.inl hinfo'), hb'⟩
      · rw [hlookup, Option.some_or] at hb
        exact ⟨i, info, (hload.inUse i info).mpr (.inr ⟨rfl, rfl⟩), hlookup.trans hb⟩
    · rintro ⟨j, info', hinfo', hb⟩
      rcases (hload.inUse j info').mp hinfo' with hinfo' | ⟨-, rfl⟩
      · have hnone : info.lookup a = none := by
          by_contra hne
          rw [hother j info' a hinfo' (Option.isSome_iff_ne_none.mpr hne)] at hb
          cases hb
        rw [hnone, Option.none_or]
        exact (h.lookup_iff a b).mpr ⟨j, info', hinfo', hb⟩
      · rw [hb, Option.some_or]
  · intro j k info₁ info₂ h₁ h₂ hne a ha
    rcases (hload.inUse j info₁).mp h₁ with h₁ | ⟨rfl, rfl⟩
    · rcases (hload.inUse k info₂).mp h₂ with h₂ | ⟨rfl, rfl⟩
      · exact h.apart j k info₁ info₂ h₁ h₂ hne a ha
      · by_contra hne
        rw [hother j info₁ a h₁ (Option.isSome_iff_ne_none.mpr hne)] at ha
        cases ha
    · rcases (hload.inUse k info₂).mp h₂ with h₂ | ⟨rfl, rfl⟩
      · exact hother k info₂ a h₂ ha
      · exact absurd rfl hne
  · intro j k info₁ info₂ h₁ h₂ hid
    rcases (hload.inUse j info₁).mp h₁ with h₁ | ⟨rfl, rfl⟩
    · rcases (hload.inUse k info₂).mp h₂ with h₂ | ⟨rfl, rfl⟩
      · exact h.moduleId_inj j k info₁ info₂ h₁ h₂ hid
      · exact absurd hid (hload.moduleId_ne j info₁ h₁)
    · rcases (hload.inUse k info₂).mp h₂ with h₂ | ⟨rfl, rfl⟩
      · exact absurd hid.symm (hload.moduleId_ne k info₂ h₂)
      · rfl
  · intro j info' hinfo'
    rcases (hload.inUse j info').mp hinfo' with hinfo' | ⟨-, rfl⟩
    · exact h.wellSized j info' hinfo'
    · exact hload.wellSized

theorem Unloaded.balanced (hunload : Unloaded i info mapping mapping' infos infos') :
    Balanced mapping' infos' := by
  constructor
  · intro a b
    rw [hunload.mapped]
    constructor
    · intro hb
      split at hb
      · cases hb
      · next hnone =>
        obtain ⟨j, info', hinfo', hb'⟩ := (h.lookup_iff a b).mp hb
        refine ⟨j, info', (hunload.inUse_iff j info').mpr ⟨hinfo', fun hj => hnone ?_⟩, hb'⟩
        subst hj
        rw [hunload.inUse.unique hinfo', hb']
        rfl
    · rintro ⟨j, info', hinfo', hb⟩
      obtain ⟨hinfo', hne⟩ := (hunload.inUse_iff j info').mp hinfo'
      have hsome : (info'.lookup a).isSome := by rw [hb]; rfl
      rw [h.apart j i info' info hinfo' hunload.inUse hne a hsome, if_neg (by decide)]
      exact (h.lookup_iff a b).mpr ⟨j, info', hinfo', hb⟩
  · intro j k info₁ info₂ h₁ h₂
    exact h.apart j k info₁ info₂ ((hunload.inUse_iff j info₁).mp h₁).1 ((hunload.inUse_iff k info₂).mp h₂).1
  · intro j k info₁ info₂ h₁ h₂
    exact h.moduleId_inj j k info₁ info₂ ((hunload.inUse_iff j info₁).mp h₁).1 ((hunload.inUse_iff k info₂).mp h₂).1
  · exact fun j info' hinfo' => h.wellSized j info' ((hunload.inUse_iff j info').mp hinfo').1

end Balance

/-! ## The requests -/

section Requests

variable {mapping : Nat → Option Nat} {context : ProcessContext}

/-- The pieces of an info as one lookup. -/
lemma NroInfo.lookup_or (info : NroInfo) (a : Nat) : (info.lookup a).or (mapping a) = info.toPlace.place mapping a := by
  rw [lookup, Option.or_assoc]
  rfl

/-- Nothing was mapped where the pieces of an info fit. -/
lemma NroPlace.Fits.eq_none {info : NroInfo} (h : info.toPlace.Fits mapping) {a : Nat} (ha : (info.lookup a).isSome) :
    mapping a = none := by
  rcases hnro : info.toPlace.nro.lookup a with _ | b
  · rw [NroInfo.lookup, hnro, Option.or_none] at ha
    have hnone := h.bss_free.eq_none ha
    rwa [Piece.place, hnro, Option.none_or] at hnone
  · exact h.nro_free.eq_none (by rw [hnro]; rfl)

lemma validateLoadNroArgs_ok {nroAddress nroSize bssAddress bssSize : Nat}
    (h : validateLoadNroArgs nroAddress nroSize bssAddress bssSize = .ok ()) : 0 < nroSize := by
  by_contra hzero
  have hzero : nroSize = 0 := Nat.eq_zero_of_not_pos hzero
  subst hzero
  have herror : ∃ e, validateAddressAndSize nroAddress 0 = .error e := by
    rw [validateAddressAndSize]
    split
    · exact ⟨_, rfl⟩
    · exact ⟨_, if_pos (.inl rfl)⟩
  obtain ⟨e, he⟩ := herror
  rw [validateLoadNroArgs, he] at h
  cases h

/-- A NRO is loaded as a whole, or nothing that is in use is changed. -/
lemma ends_loadNro {nroAddress : Nat} {contents : List UInt8} {bssAddress bssSize : Nat} :
    Ends (loadNro nroAddress contents bssAddress bssSize) mapping context fun r m c =>
      (∀ e, r = .error e → m = mapping ∧ ∀ j info, InUse c.nroInfos j info ↔ InUse context.nroInfos j info) ∧
      ∀ baseAddress, r = .ok baseAddress → ∃ i info,
        info.toPlace = ⟨baseAddress, nroAddress, contents.length, bssAddress, bssSize⟩ ∧
        Loaded i info mapping m context.nroInfos c.nroInfos := by
  refine ends_bind (ends_done ⟨fun _ hvalid => ?_, fun e _ => ⟨fun _ _ => ⟨rfl, fun _ _ => Iff.rfl⟩, nofun⟩⟩)
  refine ends_bind (ends_getContext ⟨fun _ ha => ?_, nofun⟩)
  cases ha
  split
  · exact ends_fail ⟨fun _ _ => ⟨rfl, fun _ _ => Iff.rfl⟩, nofun⟩
  · next i hi =>
    obtain ⟨hlt, hfree⟩ := getFreeNroInfo_some hi
    have hkept : ∀ f : NroInfo → NroInfo, (∀ old, (f old).inUse = old.inUse) → ∀ j info,
        InUse (context.nroInfos.modify i f) j info ↔ InUse context.nroInfos j info :=
      fun f hf j info => inUse_modify hf hfree
    refine ends_bind (ends_modifyContext ⟨fun _ _ => ?_, nofun⟩)
    refine ends_bind (ends_mapNro (fun baseAddress hfits => ⟨fun _ ha => ?_, nofun⟩)
      fun e => ⟨nofun, fun _ _ => ⟨fun _ _ => ⟨rfl, hkept _ fun _ => rfl⟩, nofun⟩⟩)
    cases ha
    refine ends_bind (ends_modifyContext ⟨fun _ _ => ?_, nofun⟩)
    rw [List.modify_modify_eq]
    refine ends_bind (ends_tryCleanup (ends_validateNro (fun hheader hnew =>
      ⟨fun _ ha => ⟨fun _ ha' => ?_, nofun⟩, nofun⟩)
      fun e => ⟨nofun, fun e' _ => (ends_unmapNro hfits (Nat.add_zero _) fun r =>
        ⟨nofun, fun _ _ => ⟨fun _ _ => ⟨rfl, hkept _ fun _ => rfl⟩, nofun⟩⟩)⟩))
    cases ha
    cases ha'
    obtain ⟨hsize, -⟩ := validateNroHeader_ok hheader
    refine ends_bind (ends_modifyContext ⟨fun _ _ => ?_, nofun⟩)
    rw [List.modify_modify_eq]
    refine ends_bind (ends_tryCleanup (ends_setNroPerms ⟨fun _ _ => ⟨fun _ _ => ?_, nofun⟩, nofun⟩
      fun e => ⟨nofun, fun e' _ => (ends_unmapNro hfits hsize fun r =>
        ⟨nofun, fun _ _ => ⟨fun _ _ => ⟨rfl, hkept _ fun _ => rfl⟩, nofun⟩⟩)⟩))
    refine ends_bind (ends_modifyContext ⟨fun _ _ => ?_, nofun⟩)
    rw [List.modify_modify_eq]
    let header := NroHeader.ofBytes contents
    let info : NroInfo := ⟨baseAddress, nroAddress, contents.length, bssAddress, bssSize,
      header.textSize + header.roSize, header.rwSize, header.moduleId, true⟩
    refine ends_pure ⟨nofun, fun _ ha => ⟨i, info, Except.ok.inj ha ▸ rfl, hfree, fun j info' => ?_, fun a => ?_,
      fun a ha => ?_, ⟨hsize, validateLoadNroArgs_ok hvalid, hfits.bss_lt, hfits.src_lt⟩, fun j info' hinfo' => ?_⟩⟩
    · refine (inUse_modify_all hlt fun _ => (rfl : info = info)).trans (or_congr (and_iff_left_of_imp ?_) ?_)
      · rintro hinfo' rfl
        exact hfree info' hinfo'
      · exact and_congr_right fun _ => and_iff_left rfl
    · exact (info.lookup_or a).symm
    · have hinfo : info.toPlace.Fits mapping := hfits
      exact hinfo.eq_none ha
    · exact getNroInfoByModuleId_none hnew ((hkept _ (fun _ => by rfl) j info').mpr hinfo')

/-- An info in use is taken out with exactly its pieces, or nothing changes and there is no such info. -/
lemma ends_unloadNro {nroAddress : Nat} (h : Balanced mapping context.nroInfos) :
    Ends (unloadNro nroAddress) mapping context fun r m c =>
      (m = mapping ∧ c = context ∧ (r = .error .invalidAddress ∧ nroAddress % 0x1000 ≠ 0 ∨
        r = .error .notLoaded ∧ ∀ i info, InUse context.nroInfos i info → info.baseAddress ≠ nroAddress)) ∨
      ∃ i info, info.baseAddress = nroAddress ∧ Unloaded i info mapping m context.nroInfos c.nroInfos := by
  rw [unloadNro]
  split
  · next haligned => exact ends_fail (.inl ⟨rfl, rfl, .inl ⟨rfl, haligned⟩⟩)
  · refine ends_bind (ends_getContext ⟨fun _ ha => ?_, nofun⟩)
    cases ha
    split
    · next hnone => exact ends_fail (.inl ⟨rfl, rfl, .inr ⟨rfl, fun i info => getNroInfoByAddress_none hnone⟩⟩)
    · next i hi =>
      obtain ⟨hlt, hinfo, hbase⟩ := getNroInfoByAddress_some hi
      generalize context.nroInfos.getD i .zero = info at hinfo hbase ⊢
      obtain ⟨rest, hfits, hplace, hrest⟩ := h.exists_fits hinfo
      refine ends_bind (ends_modifyContext ⟨fun _ _ => ?_, nofun⟩)
      rw [hplace]
      refine ends_unmapNro hfits (h.wellSized i info hinfo).size_eq fun r =>
        .inr ⟨i, info, hbase, hinfo, fun j info' => ?_, ?_⟩
      · refine (inUse_modify_all hlt fun _ => rfl).trans (or_iff_left ?_)
        rintro ⟨-, -, hinUse⟩
        cases hinUse
      · rw [← hplace]
        exact hrest

end Requests

/-! ## Runs -/

/-- A request about the NROs of a process. -/
inductive NroRequest
  | load (nroAddress : Nat) (contents : List UInt8) (bssAddress bssSize : Nat)
  | unload (nroAddress : Nat)

/-- The state after a request. -/
def NroRequest.next (s : RoState ProcessContext) : NroRequest → RoState ProcessContext
  | .load nroAddress contents bssAddress bssSize => ((loadNro nroAddress contents bssAddress bssSize).run s).final
  | .unload nroAddress => ((unloadNro nroAddress).run s).final

/-- The state after some requests, from a process without mappings. -/
def runRequests (answers : List Answer) (requests : List NroRequest) : RoState ProcessContext :=
  requests.foldl NroRequest.next ⟨fun _ => none, .empty, answers⟩

lemma NroRequest.balanced_next {s : RoState ProcessContext} (request : NroRequest)
    (h : Balanced s.mapping s.context.nroInfos) :
    Balanced (request.next s).mapping (request.next s).context.nroInfos := by
  cases request with
  | load nroAddress contents bssAddress bssSize =>
    obtain ⟨-, herror, hok⟩ := (ends_loadNro s rfl rfl).run
    rw [next]
    rcases hresult : ((loadNro nroAddress contents bssAddress bssSize).run s).result with e | baseAddress
    · obtain ⟨hmapping, hinUse⟩ := herror e hresult
      rw [hmapping]
      exact h.congr hinUse
    · obtain ⟨i, info, -, hload⟩ := hok baseAddress hresult
      exact hload.balanced h
  | unload nroAddress =>
    obtain ⟨-, ⟨hmapping, hcontext, -⟩ | ⟨i, info, -, hunload⟩⟩ := (ends_unloadNro h s rfl rfl).run
    · rw [next, hmapping, hcontext]
      exact h
    · exact hunload.balanced h

lemma balanced_runRequests (answers : List Answer) (requests : List NroRequest) :
    Balanced (runRequests answers requests).mapping (runRequests answers requests).context.nroInfos := by
  rw [runRequests]
  induction requests using List.reverseRecOn with
  | nil => exact balanced_empty
  | append_singleton requests request ih =>
    rw [List.foldl_append]
    exact request.balanced_next ih

/-- After any requests, whatever has been answered: what is mapped are the pieces of the infos in use, which do
not overlap and have module ids of their own. A `LoadNro` that fails leaves the mapping and the infos in use as
they were, one that succeeds adds one info and its pieces, and an `UnloadNro` takes an info out with just its
pieces, or changes nothing where there is no info for it. -/
theorem nroRequests_balanced (answers : List Answer) (requests : List NroRequest) :
    let s := runRequests answers requests
    Balanced s.mapping s.context.nroInfos ∧
      (∀ nroAddress contents bssAddress bssSize, let run := (loadNro nroAddress contents bssAddress bssSize).run s
        (∀ e, run.result = .error e → run.final.mapping = s.mapping ∧
          ∀ j info, InUse run.final.context.nroInfos j info ↔ InUse s.context.nroInfos j info) ∧
        ∀ baseAddress, run.result = .ok baseAddress → ∃ i info,
          info.toPlace = ⟨baseAddress, nroAddress, contents.length, bssAddress, bssSize⟩ ∧
          Loaded i info s.mapping run.final.mapping s.context.nroInfos run.final.context.nroInfos) ∧
      ∀ nroAddress, let run := (unloadNro nroAddress).run s
        (run.final.mapping = s.mapping ∧ run.final.context = s.context ∧
          (run.result = .error .invalidAddress ∧ nroAddress % 0x1000 ≠ 0 ∨ run.result = .error .notLoaded ∧
            ∀ i info, InUse s.context.nroInfos i info → info.baseAddress ≠ nroAddress)) ∨
        ∃ i info, info.baseAddress = nroAddress ∧
          Unloaded i info s.mapping run.final.mapping s.context.nroInfos run.final.context.nroInfos := by
  have hbalanced := balanced_runRequests answers requests
  refine ⟨hbalanced, fun nroAddress contents bssAddress bssSize => ?_, fun nroAddress => ?_⟩
  · exact (ends_loadNro _ rfl rfl).run.2
  · exact (ends_unloadNro hbalanced _ rfl rfl).run.2

end RajNX.Ro
