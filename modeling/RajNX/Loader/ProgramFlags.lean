import RajNX.Loader.Capabilities

/-!
# Program flags that are set in both lists

`SetProgramInfoFlags` puts the same flags into the capabilities of a process and into their restriction. It
changes the words of two kinds, and no word's kind, so a list that `ValidateCapabilities` lets pass still
passes: the two application types are the same one then, and a process that is debugged by force is still
allowed to be.
-/

namespace RajNX.Loader

/-- `SetProgramInfoFlags` on a word. -/
def setProgramInfoWord (flags : Nat) (cap : UInt32) : UInt32 :=
  match getCapabilityId cap with
  | .applicationType => ApplicationType.encode (flags &&& programInfoFlagInvalidType)
  | .debugFlags => DebugFlags.encode (flags &&& programInfoFlagAllowDebug ≠ 0) (DebugFlags.getForceDebug cap)
  | _ => cap

lemma setProgramInfoFlags_eq (flags : Nat) (caps : List UInt32) :
    setProgramInfoFlags flags caps = caps.map (setProgramInfoWord flags) := rfl

section Words

variable {flags : Nat} {cap next : UInt32} {kac acid aci : List UInt32} {id : CapabilityId}
  {accepts accepts' : UInt32 → Bool}

lemma ApplicationType.id_encode (type : Nat) : getCapabilityId (encode type) = .applicationType := by
  have hid : ∀ t < 4, getCapabilityId (encodeCapability .applicationType t) = .applicationType := by
    decide
  exact hid _ (Nat.lt_succ_of_le Nat.and_le_right)

lemma DebugFlags.id_encode (allow force : Bool) : getCapabilityId (encode allow force) = .debugFlags := by
  revert allow force
  decide

/-- The value of a word has the two flags, and no other bits. -/
lemma DebugFlags.value_encode (allow force : Bool) :
    getValue .debugFlags (encode allow force) = force.toNat * 2 + allow.toNat := by
  revert allow force
  decide

lemma setProgramInfoWord_applicationType (h : getCapabilityId cap = .applicationType) :
    setProgramInfoWord flags cap = ApplicationType.encode (flags &&& programInfoFlagInvalidType) := by
  rw [setProgramInfoWord, h]

lemma setProgramInfoWord_debugFlags (h : getCapabilityId cap = .debugFlags) :
    setProgramInfoWord flags cap =
      DebugFlags.encode (flags &&& programInfoFlagAllowDebug ≠ 0) (DebugFlags.getForceDebug cap) := by
  rw [setProgramInfoWord, h]

/-- A word of another kind is left as it is. -/
lemma setProgramInfoWord_of_ne (happlication : getCapabilityId cap ≠ .applicationType)
    (hdebug : getCapabilityId cap ≠ .debugFlags) : setProgramInfoWord flags cap = cap := by
  unfold setProgramInfoWord
  split
  · next h => exact absurd h happlication
  · next h => exact absurd h hdebug
  · rfl

/-- Every word keeps its kind. -/
lemma id_setProgramInfoWord (flags : Nat) (cap : UInt32) :
    getCapabilityId (setProgramInfoWord flags cap) = getCapabilityId cap := by
  by_cases happlication : getCapabilityId cap = .applicationType
  · rw [setProgramInfoWord_applicationType happlication, ApplicationType.id_encode, happlication]
  · by_cases hdebug : getCapabilityId cap = .debugFlags
    · rw [setProgramInfoWord_debugFlags hdebug, DebugFlags.id_encode, hdebug]
    · rw [setProgramInfoWord_of_ne happlication hdebug]

/-! ## Checks against the changed restriction -/

/-- A check against the first word of a kind goes on to be against the same word. -/
lemma checkFirst_setProgramInfoFlags :
    checkFirst id (setProgramInfoFlags flags kac) accepts =
      checkFirst id kac fun r => accepts (setProgramInfoWord flags r) := by
  rw [checkFirst, checkFirst, setProgramInfoFlags_eq, List.find?_map]
  have hkind : ((fun r => decide (getCapabilityId r = id)) ∘ setProgramInfoWord flags) =
      fun r => decide (getCapabilityId r = id) := by
    funext r
    rw [Function.comp_apply, id_setProgramInfoWord]
  rw [hkind]
  cases kac.find? fun r => decide (getCapabilityId r = id) with
  | none => rfl
  | some r => rfl

lemma checkAny_setProgramInfoFlags :
    checkAny id (setProgramInfoFlags flags kac) accepts =
      checkAny id kac fun r => accepts (setProgramInfoWord flags r) := by
  rw [checkAny, checkAny, setProgramInfoFlags_eq, List.any_map]
  congr 1
  funext r
  rw [Function.comp_apply, id_setProgramInfoWord]

/-- A check against a kind that is left as it is. -/
lemma checkFirst_of_ne (happlication : id ≠ .applicationType) (hdebug : id ≠ .debugFlags) :
    checkFirst id (setProgramInfoFlags flags kac) accepts = checkFirst id kac accepts := by
  rw [checkFirst_setProgramInfoFlags, checkFirst, checkFirst]
  cases hr : kac.find? fun r => decide (getCapabilityId r = id) with
  | none => rfl
  | some r =>
    have hid : getCapabilityId r = id := by simpa using List.find?_some hr
    subst hid
    exact congrArg accepts (setProgramInfoWord_of_ne happlication hdebug)

lemma checkAny_of_ne (happlication : id ≠ .applicationType) (hdebug : id ≠ .debugFlags) :
    checkAny id (setProgramInfoFlags flags kac) accepts = checkAny id kac accepts := by
  rw [checkAny_setProgramInfoFlags, checkAny, checkAny]
  congr 1
  funext r
  by_cases hr : getCapabilityId r = id
  · subst hr
    rw [setProgramInfoWord_of_ne happlication hdebug]
  · rw [decide_eq_false hr, Bool.false_and, Bool.false_and]

/-- Two application types that are set are the same. -/
lemma ApplicationType.isValid_setProgramInfoWord (hid : getCapabilityId cap = .applicationType)
    (h : isValid cap kac = true) : isValid (setProgramInfoWord flags cap) (setProgramInfoFlags flags kac) = true := by
  rw [isValid, checkFirst] at h
  rw [isValid, checkFirst_setProgramInfoFlags, checkFirst]
  cases hr : kac.find? fun r => decide (getCapabilityId r = .applicationType) with
  | none =>
    rw [hr] at h
    cases h
  | some r =>
    have hkind : getCapabilityId r = .applicationType := by simpa using List.find?_some hr
    dsimp only
    rw [setProgramInfoWord_applicationType hkind, setProgramInfoWord_applicationType hid]
    exact decide_eq_true rfl

/-- A process that is debugged by force is so in the restriction, with the same flag beside it. -/
lemma DebugFlags.isValid_setProgramInfoWord (hid : getCapabilityId cap = .debugFlags) (h : isValid cap kac = true) :
    isValid (setProgramInfoWord flags cap) (setProgramInfoFlags flags kac) = true := by
  rw [isValid, checkFirst] at h
  rw [isValid, checkFirst_setProgramInfoFlags, checkFirst]
  cases hr : kac.find? fun r => decide (getCapabilityId r = .debugFlags) with
  | none =>
    rw [hr] at h
    cases h
  | some r =>
    rw [hr] at h
    have hkind : getCapabilityId r = .debugFlags := by simpa using List.find?_some hr
    have hforce : getForceDebug cap = true → getForceDebug r = true := by
      intro hcap
      have hbits := of_decide_eq_true h
      rw [getForceDebug, flag_eq] at hcap ⊢
      rw [← hbits, Nat.testBit_and, Bool.and_eq_true] at hcap
      exact hcap.1
    dsimp only
    rw [setProgramInfoWord_debugFlags hkind, setProgramInfoWord_debugFlags hid, value_encode, value_encode]
    apply decide_eq_true
    revert hforce
    generalize decide (flags &&& programInfoFlagAllowDebug ≠ 0) = allow
    generalize getForceDebug cap = forced
    generalize getForceDebug r = mayForce
    revert allow forced mayForce
    decide

/-- A word that passes its check passes it with the flags set. -/
lemma isValidWord_setProgramInfoWord (hid : getCapabilityId cap = id) (h : isValidWord cap kac id = true) :
    isValidWord (setProgramInfoWord flags cap) (setProgramInfoFlags flags kac) id = true := by
  by_cases happlication : id = .applicationType
  · subst happlication
    exact ApplicationType.isValid_setProgramInfoWord hid h
  · by_cases hdebug : id = .debugFlags
    · subst hdebug
      exact DebugFlags.isValid_setProgramInfoWord hid h
    · have hfirst := fun accepts => @checkFirst_of_ne flags kac id accepts happlication hdebug
      have hany := fun accepts => @checkAny_of_ne flags kac id accepts happlication hdebug
      have hsame : setProgramInfoWord flags cap = cap := by
        subst hid
        exact setProgramInfoWord_of_ne happlication hdebug
      rw [hsame]
      cases id with
      | kernelFlags => exact (hfirst _).trans h
      | syscallMask => exact (hany _).trans h
      | mapPage => exact (hany _).trans h
      | interruptPair =>
        obtain ⟨h0, h1⟩ := Bool.and_eq_true_iff.mp h
        exact Bool.and_eq_true_iff.mpr ⟨(hany _).trans h0, (hany _).trans h1⟩
      | kernelVersion => exact (hfirst _).trans h
      | handleTable => exact (hfirst _).trans h
      | empty => rfl
      | applicationType => exact absurd rfl happlication
      | debugFlags => exact absurd rfl hdebug
      | mapRange => cases h
      | unknown bits => cases h

/-- A word of a range is left as it is. -/
lemma MapRange.setProgramInfoWord_eq (h : getCapabilityId cap = .mapRange) : setProgramInfoWord flags cap = cap := by
  apply setProgramInfoWord_of_ne <;> rw [h] <;> nofun

/-- The words of ranges are where they were. -/
lemma MapRange.matchesRestriction_setProgramInfoFlags :
    matchesRestriction cap next (setProgramInfoFlags flags kac) = matchesRestriction cap next kac := by
  rw [setProgramInfoFlags_eq]
  fun_induction matchesRestriction cap next kac with
  | case1 => rfl
  | case2 r hid =>
    rw [List.map_cons, matchesRestriction.eq_def]
    dsimp only
    rw [id_setProgramInfoWord, if_pos hid]
    rfl
  | case3 r hid r' kac hid' =>
    rw [List.map_cons, List.map_cons, matchesRestriction, id_setProgramInfoWord, if_pos hid]
    dsimp only
    rw [id_setProgramInfoWord, if_pos hid']
  | case4 r hid r' kac hid' restrictionSize hsize ih =>
    rw [List.map_cons, List.map_cons, setProgramInfoWord_eq hid, setProgramInfoWord_eq (not_not.mp hid'),
      matchesRestriction, if_pos hid]
    dsimp only
    rw [if_neg hid', if_pos hsize]
    exact ih
  | case5 r hid r' kac hid' start last restrictionStart restrictionSize restrictionLast hsize haccepts =>
    rw [List.map_cons, List.map_cons, setProgramInfoWord_eq hid, setProgramInfoWord_eq (not_not.mp hid'),
      matchesRestriction, if_pos hid]
    dsimp only
    rw [if_neg hid', if_neg hsize, if_pos haccepts]
  | case6 r hid r' kac hid' start last restrictionStart restrictionSize restrictionLast hsize haccepts ih =>
    rw [List.map_cons, List.map_cons, setProgramInfoWord_eq hid, setProgramInfoWord_eq (not_not.mp hid'),
      matchesRestriction, if_pos hid]
    dsimp only
    rw [if_neg hid', if_neg hsize, if_neg haccepts]
    exact ih
  | case7 r kac hid ih =>
    rw [List.map_cons, matchesRestriction.eq_def]
    dsimp only
    rw [id_setProgramInfoWord, if_neg hid]
    exact ih

lemma MapRange.isValid_setProgramInfoFlags :
    isValid cap next (setProgramInfoFlags flags kac) = isValid cap next kac := by
  rw [isValid, isValid, matchesRestriction_setProgramInfoFlags]

end Words

/-- A list that `ValidateCapabilities` lets pass still passes when `SetProgramInfoFlags` has set the same flags
in the list and in its restriction. -/
theorem validateCapabilities_setProgramInfoFlags {acid aci : List UInt32} (flags : Nat)
    (h : validateCapabilities acid aci = .success) :
    validateCapabilities (setProgramInfoFlags flags acid) (setProgramInfoFlags flags aci) = .success := by
  rw [setProgramInfoFlags_eq flags aci]
  fun_induction validateCapabilities acid aci with
  | case1 => rfl
  | case2 cap hid => cases h
  | case3 cap hid next aci hvalid ih =>
    obtain ⟨hnext, -⟩ := MapRange.isValid_eq_true hvalid
    rw [List.map_cons, List.map_cons, validateCapabilities, id_setProgramInfoWord, hid]
    dsimp only
    rw [MapRange.setProgramInfoWord_eq hid, MapRange.setProgramInfoWord_eq hnext,
      MapRange.isValid_setProgramInfoFlags, if_pos hvalid]
    exact ih h
  | case4 cap hid next aci hvalid => cases h
  | case5 cap aci bits hid => cases h
  | case6 cap aci hrange hknown hvalid ih =>
    have hvalid' := @isValidWord_setProgramInfoWord flags cap acid _ rfl hvalid
    rw [List.map_cons, validateCapabilities.eq_def]
    dsimp only
    rw [id_setProgramInfoWord]
    split
    · next hid => exact absurd hid hrange
    · next bits hid => exact absurd hid (hknown bits)
    · rw [if_pos hvalid']
      exact ih h
  | case7 cap aci _ _ hvalid => cases h

/-- Two lists of an application that become those of an applet that may be debugged. -/
theorem validateCapabilities_setProgramInfoFlags_applet :
    let acid : List UInt32 := [ApplicationType.encode 1, DebugFlags.encode true true, 0xFFFFF7FF]
    let aci : List UInt32 := [ApplicationType.encode 1, DebugFlags.encode false true, 0xFFC057FF]
    validateCapabilities acid aci = .success ∧
      validateCapabilities (setProgramInfoFlags 6 acid) (setProgramInfoFlags 6 aci) = .success ∧
      setProgramInfoFlags 6 aci = [ApplicationType.encode 2, DebugFlags.encode true true, 0xFFC057FF] := by
  intro acid aci
  have h : validateCapabilities acid aci = .success := by decide +kernel
  exact ⟨h, validateCapabilities_setProgramInfoFlags 6 h, by decide +kernel⟩

end RajNX.Loader
