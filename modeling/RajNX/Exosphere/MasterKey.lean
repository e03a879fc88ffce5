import RajNX.Exosphere.Monitor
import RajNX.Exosphere.Package2Header
import RajNX.Lib.Block

/-!
# Master key detection

`check_mkey_revision` and `mkey_detect_revision` of `masterkey.c`. Of each master key but the first one the table of
the unit holds the one before, encrypted with it; of the first one it holds the zeros. A revision is tried by
decrypting from the master key down to the first one. The old keys are written to a table, and each of them to a key
slot for the next step.

The last step of the check takes the entry of the retail table, on development units as well.
-/

namespace RajNX.Exosphere

/-- `mkey_vectors_dev` -/
def mkeyVectorsDev : List (Block 0x10) :=
  [![0x46, 0x22, 0xB4, 0x51, 0x9A, 0x7E, 0xA7, 0x7F, 0x62, 0xA1, 0x1F, 0x8F, 0xC5, 0x3A, 0xDB, 0xFE],
   ![0x39, 0x33, 0xF9, 0x31, 0xBA, 0xE4, 0xA7, 0x21, 0x2C, 0xDD, 0xB7, 0xD8, 0xB4, 0x4E, 0x37, 0x23],
   ![0x97, 0x29, 0xB0, 0x32, 0x43, 0x14, 0x8C, 0xA6, 0x85, 0xE9, 0x5A, 0x94, 0x99, 0x39, 0xAC, 0x5D],
   ![0x2C, 0xCA, 0x9C, 0x31, 0x1E, 0x07, 0xB0, 0x02, 0x97, 0x0A, 0xD8, 0x03, 0xA2, 0x76, 0x3F, 0xA3],
   ![0x9B, 0x84, 0x76, 0x14, 0x72, 0x94, 0x52, 0xCB, 0x54, 0x92, 0x9B, 0xC4, 0x8C, 0x5B, 0x0F, 0xBA],
   ![0x78, 0xD5, 0xF1, 0x20, 0x3D, 0x16, 0xE9, 0x30, 0x32, 0x27, 0x34, 0x6F, 0xCF, 0xE0, 0x27, 0xDC],
   ![0x6F, 0xD2, 0x84, 0x1D, 0x05, 0xEC, 0x40, 0x94, 0x5F, 0x18, 0xB3, 0x81, 0x09, 0x98, 0x8D, 0x4E],
   ![0x37, 0xAF, 0xAB, 0x35, 0x79, 0x09, 0xD9, 0x48, 0x29, 0xD2, 0xDB, 0xA5, 0xA5, 0xF5, 0x30, 0x19],
   ![0x00, 0x00, 0x00, 0x00, 0x00, 0x00, 0x00, 0x00, 0x00, 0x00, 0x00, 0x00, 0x00, 0x00, 0x00, 0x00],
   ![0x00, 0x00, 0x00, 0x00, 0x00, 0x00, 0x00, 0x00, 0x00, 0x00, 0x00, 0x00, 0x00, 0x00, 0x00, 0x00]]

/-- `mkey_vectors` -/
def mkeyVectors : List (Block 0x10) :=
  [![0x0C, 0xF0, 0x59, 0xAC, 0x85, 0xF6, 0x26, 0x65, 0xE1, 0xE9, 0x19, 0x55, 0xE6, 0xF2, 0x67, 0x3D],
   ![0x29, 0x4C, 0x04, 0xC8, 0xEB, 0x10, 0xED, 0x9D, 0x51, 0x64, 0x97, 0xFB, 0xF3, 0x4D, 0x50, 0xDD],
   ![0xDE, 0xCF, 0xEB, 0xEB, 0x10, 0xAE, 0x74, 0xD8, 0xAD, 0x7C, 0xF4, 0x9E, 0x62, 0xE0, 0xE8, 0x72],
   ![0x0A, 0x0D, 0xDF, 0x34, 0x22, 0x06, 0x6C, 0xA4, 0xE6, 0xB1, 0xEC, 0x71, 0x85, 0xCA, 0x4E, 0x07],
   ![0x6E, 0x7D, 0x2D, 0xC3, 0x0F, 0x59, 0xC8, 0xFA, 0x87, 0xA8, 0x2E, 0xD5, 0x89, 0x5E, 0xF3, 0xE9],
   ![0xEB, 0xF5, 0x6F, 0x83, 0x61, 0x9E, 0xF8, 0xFA, 0xE0, 0x87, 0xD7, 0xA1, 0x4E, 0x25, 0x36, 0xEE],
   ![0x1E, 0x1E, 0x22, 0xC0, 0x5A, 0x33, 0x3C, 0xB9, 0x0B, 0xA9, 0x03, 0x04, 0xBA, 0xDB, 0x07, 0x57],
   ![0xA4, 0xD4, 0x52, 0x6F, 0xD1, 0xE4, 0x36, 0xAA, 0x9F, 0xCB, 0x61, 0x27, 0x1C, 0x67, 0x65, 0x1F],
   ![0xEA, 0x60, 0xB3, 0xEA, 0xCE, 0x8F, 0x24, 0x46, 0x7D, 0x33, 0x9C, 0xD1, 0xBC, 0x24, 0x98, 0x29],
   ![0x4D, 0xD9, 0x98, 0x42, 0x45, 0x0D, 0xB1, 0x3C, 0x52, 0x0C, 0x9A, 0x44, 0xBB, 0xAD, 0xAF, 0x80]]

/-- An entry of the table of the unit. -/
def mkeyVector (isRetail : Bool) (i : Nat) : Block 0x10 :=
  (if isRetail then mkeyVectors else mkeyVectorsDev).getD i (.zeros 0x10)

/-- The keys of the key slots, the variables and the table of old master keys. -/
structure MasterKeys where
  keyslots : Nat → Block 0x10
  oldMasterkeys : Nat → Block 0x10
  mkeyRevision : Nat
  determinedMkeyRevision : Bool

namespace MasterKeys

section Detection

variable (aes : Block 0x10 → Equiv.Perm (Block 0x10)) (isRetail : Bool)

/-- `se_aes_ecb_decrypt_block` -/
def decryptBlock (m : MasterKeys) (keyslot : Nat) (src : Block 0x10) : Block 0x10 :=
  (aes (m.keyslots keyslot)).symm src

/-- The loop of `check_mkey_revision`: the key slot to check with, behind the old keys from `i` down. -/
def generateOld : Nat → Nat → MasterKeys → Nat × MasterKeys
  | 0, checkKeyslot, m => (checkKeyslot, m)
  | i + 1, checkKeyslot, m =>
    let key := m.decryptBlock aes checkKeyslot (mkeyVector isRetail (i + 1))
    generateOld i keyslotTempkey
      { m with
        oldMasterkeys := Function.update m.oldMasterkeys i key
        keyslots := Function.update m.keyslots keyslotTempkey key }

/-- `check_mkey_revision` -/
def checkMkeyRevision (revision : Nat) (m : MasterKeys) : Bool × MasterKeys :=
  let (checkKeyslot, m) := generateOld aes isRetail revision keyslotMasterkey m
  (m.decryptBlock aes checkKeyslot (mkeyVector true 0) = .zeros 0x10, m)

/-- The loop of `mkey_detect_revision`, with the revisions to be tried. It ends in a panic if none is left. -/
def tryRevisions : List Nat → MasterKeys → Option MasterKeys
  | [], _ => none
  | rev :: revs, m =>
    let (found, m) := checkMkeyRevision aes isRetail rev m
    if found then some { m with determinedMkeyRevision := true, mkeyRevision := rev } else tryRevisions revs m

/-- `mkey_detect_revision` -/
def mkeyDetectRevision (m : MasterKeys) : Option MasterKeys :=
  if m.determinedMkeyRevision then none else tryRevisions aes isRetail (List.range masterkeyRevisionMax.toNat) m

/-- Keys of which each one but the first encrypts the one before to the entry of the table, and the first one the
zeros. -/
structure Chain (r : Nat) (k : Nat → Block 0x10) : Prop where
  first : mkeyVector isRetail 0 = aes (k 0) (.zeros 0x10)
  step : ∀ i < r, mkeyVector isRetail (i + 1) = aes (k (i + 1)) (k i)

/-- The detection gives the revision, and the table has the keys before it. -/
def Detects (m : MasterKeys) (r : Nat) (k : Nat → Block 0x10) : Prop :=
  ∃ m', mkeyDetectRevision aes isRetail m = some m' ∧ m'.determinedMkeyRevision = true ∧ m'.mkeyRevision = r ∧
    (∀ i < r, m'.oldMasterkeys i = k i) ∧ ∀ i, r ≤ i → m'.oldMasterkeys i = m.oldMasterkeys i

end Detection

section Lemmas

variable {aes : Block 0x10 → Equiv.Perm (Block 0x10)} {isRetail : Bool} {m m' : MasterKeys} {r n checkKeyslot : Nat}
  {k : Nat → Block 0x10}

/-- The first key that the loop comes to depends on the key that it begins with, and on nothing else. -/
lemma generateOld_congr {slot : Nat} (h : m.keyslots checkKeyslot = m'.keyslots slot) :
    (generateOld aes isRetail n checkKeyslot m).2.keyslots (generateOld aes isRetail n checkKeyslot m).1 =
      (generateOld aes isRetail n slot m').2.keyslots (generateOld aes isRetail n slot m').1 := by
  induction n generalizing m m' checkKeyslot slot with
  | zero => exact h
  | succ n ih =>
    apply ih
    simp only [Function.update_self, decryptBlock, h]

/-- What the loop leaves as it was. -/
lemma generateOld_frame :
    (generateOld aes isRetail n checkKeyslot m).2.keyslots keyslotMasterkey = m.keyslots keyslotMasterkey ∧
      (generateOld aes isRetail n checkKeyslot m).2.determinedMkeyRevision = m.determinedMkeyRevision ∧
      ∀ i, n ≤ i → (generateOld aes isRetail n checkKeyslot m).2.oldMasterkeys i = m.oldMasterkeys i := by
  induction n generalizing m checkKeyslot with
  | zero => exact ⟨rfl, rfl, fun _ _ => rfl⟩
  | succ n ih =>
    obtain ⟨hmaster, hdetermined, hold⟩ := ih
    refine ⟨hmaster.trans ?_, hdetermined, fun i hi => (hold i (by omega)).trans ?_⟩
    · dsimp only
      rw [Function.update_of_ne (show keyslotMasterkey ≠ keyslotTempkey by decide)]
    · dsimp only
      rw [Function.update_of_ne (by omega)]

/-- From a key of the chain the loop comes to the first one, and writes the ones between to the table. -/
lemma generateOld_chain (hchain : Chain aes isRetail r k) (hn : n ≤ r) (hkey : m.keyslots checkKeyslot = k n) :
    (generateOld aes isRetail n checkKeyslot m).2.keyslots (generateOld aes isRetail n checkKeyslot m).1 = k 0 ∧
      ∀ i < n, (generateOld aes isRetail n checkKeyslot m).2.oldMasterkeys i = k i := by
  induction n generalizing m checkKeyslot with
  | zero => exact ⟨hkey, fun i hi => absurd hi (Nat.not_lt_zero i)⟩
  | succ n ih =>
    have hdecrypt : m.decryptBlock aes checkKeyslot (mkeyVector isRetail (n + 1)) = k n := by
      rw [decryptBlock, hkey, hchain.step n hn, Equiv.symm_apply_apply]
    have htemp : Function.update m.keyslots keyslotTempkey (k n) keyslotTempkey = k n := Function.update_self _ _ _
    rw [generateOld, hdecrypt]
    obtain ⟨hfirst, hold⟩ := @ih ⟨Function.update m.keyslots keyslotTempkey (k n),
      Function.update m.oldMasterkeys n (k n), m.mkeyRevision, m.determinedMkeyRevision⟩ keyslotTempkey
      (Nat.le_of_succ_le hn) htemp
    refine ⟨hfirst, fun i hi => ?_⟩
    rcases Nat.lt_succ_iff_lt_or_eq.mp hi with hlt | rfl
    · exact hold i hlt
    · rw [generateOld_frame.2.2 i le_rfl]
      exact Function.update_self _ _ _

/-- The check depends on the master key. -/
lemma checkMkeyRevision_congr (h : m.keyslots keyslotMasterkey = m'.keyslots keyslotMasterkey) (rev : Nat) :
    (checkMkeyRevision aes isRetail rev m).1 = (checkMkeyRevision aes isRetail rev m').1 := by
  rw [checkMkeyRevision, checkMkeyRevision]
  apply decide_eq_decide.mpr
  rw [decryptBlock, decryptBlock, generateOld_congr h]

/-- The revision of the chain passes the check if the first entries of the tables are the same. -/
lemma checkMkeyRevision_chain (hchain : Chain aes isRetail r k) (hmaster : m.keyslots keyslotMasterkey = k r) :
    (checkMkeyRevision aes isRetail r m).1 = true ↔ mkeyVector true 0 = mkeyVector isRetail 0 := by
  obtain ⟨hfirst, -⟩ := generateOld_chain hchain le_rfl hmaster
  rw [checkMkeyRevision]
  simp only [decryptBlock, hfirst, decide_eq_true_eq]
  rw [Equiv.symm_apply_eq, ← hchain.first]

lemma mkeyVector_zero_iff : mkeyVector true 0 = mkeyVector isRetail 0 ↔ isRetail = true := by
  cases isRetail with
  | true => exact iff_of_true rfl rfl
  | false => exact iff_of_false (by decide) Bool.false_ne_true

/-- A revision that does not pass leaves the master key, and the keys from the revision on. -/
lemma checkMkeyRevision_frame (rev : Nat) (m : MasterKeys) :
    (checkMkeyRevision aes isRetail rev m).2.keyslots keyslotMasterkey = m.keyslots keyslotMasterkey ∧
      (checkMkeyRevision aes isRetail rev m).2.determinedMkeyRevision = m.determinedMkeyRevision ∧
      ∀ i, rev ≤ i → (checkMkeyRevision aes isRetail rev m).2.oldMasterkeys i = m.oldMasterkeys i :=
  generateOld_frame

/-- The revisions in front of the one of the chain are tried and do not pass. -/
lemma tryRevisions_append {before after : List Nat} (hbefore : ∀ rev ∈ before, rev ≤ r ∧
    (checkMkeyRevision aes isRetail rev m).1 = false) :
    ∃ m', tryRevisions aes isRetail (before ++ after) m = tryRevisions aes isRetail after m' ∧
      m'.keyslots keyslotMasterkey = m.keyslots keyslotMasterkey ∧
      ∀ i, r ≤ i → m'.oldMasterkeys i = m.oldMasterkeys i := by
  induction before generalizing m with
  | nil => exact ⟨m, rfl, rfl, fun _ _ => rfl⟩
  | cons rev before ih =>
    obtain ⟨⟨hrev, hfails⟩, hbefore⟩ := List.forall_mem_cons.mp hbefore
    obtain ⟨hmaster, -, hold⟩ := @checkMkeyRevision_frame aes isRetail rev m
    obtain ⟨m', htry, hmaster', hold'⟩ := @ih (checkMkeyRevision aes isRetail rev m).2 fun rev' hrev' =>
      ⟨(hbefore rev' hrev').1, (checkMkeyRevision_congr hmaster rev').trans (hbefore rev' hrev').2⟩
    refine ⟨m', ?_, hmaster'.trans hmaster, fun i hi => (hold' i hi).trans (hold i (hrev.trans hi))⟩
    rw [List.cons_append, tryRevisions, ← htry]
    simp only [hfails, Bool.false_eq_true, if_false]

/-- A revision that is found has passed the check. -/
lemma tryRevisions_found {revs : List Nat} (h : tryRevisions aes isRetail revs m = some m') :
    (checkMkeyRevision aes isRetail m'.mkeyRevision m).1 = true := by
  induction revs generalizing m with
  | nil => cases h
  | cons rev revs ih =>
    rw [tryRevisions] at h
    dsimp only at h
    split at h
    · next hfound =>
      cases h
      exact hfound
    · obtain ⟨hmaster, -⟩ := @checkMkeyRevision_frame aes isRetail rev m
      exact (checkMkeyRevision_congr hmaster _).symm.trans (ih h)

/-- The revision is not detected where it does not pass the check. -/
lemma not_detects (hfails : (checkMkeyRevision aes isRetail r m).1 = false) : ¬Detects aes isRetail m r k := by
  rintro ⟨m', hdetect, -, rfl, -⟩
  rw [mkeyDetectRevision] at hdetect
  split at hdetect
  · cases hdetect
  · exact Bool.false_ne_true (hfails.symm.trans (tryRevisions_found hdetect))

/-- The first revision that passes the check is detected. -/
lemma detects (hchain : Chain aes isRetail r k) (hmaster : m.keyslots keyslotMasterkey = k r)
    (hr : r < masterkeyRevisionMax.toNat) (hfirst : ∀ rev < r, (checkMkeyRevision aes isRetail rev m).1 = false)
    (hpasses : (checkMkeyRevision aes isRetail r m).1 = true) (hfresh : m.determinedMkeyRevision = false) :
    Detects aes isRetail m r k := by
  obtain ⟨rest, hrange⟩ : ∃ rest, List.range masterkeyRevisionMax.toNat = List.range r ++ r :: rest := by
    obtain ⟨n, hn⟩ := Nat.exists_eq_add_of_lt hr
    refine ⟨(List.range n).map (r + 1 + ·), ?_⟩
    rw [hn, Nat.add_right_comm, List.range_add, List.range_succ, List.append_assoc]
    rfl
  obtain ⟨m₁, htry, hmaster₁, hold₁⟩ := @tryRevisions_append aes isRetail m r (List.range r) (r :: rest)
    fun rev hrev => ⟨(List.mem_range.mp hrev).le, hfirst rev (List.mem_range.mp hrev)⟩
  have hpasses₁ := (checkMkeyRevision_congr hmaster₁ r).trans hpasses
  obtain ⟨-, hold⟩ := generateOld_chain (m := m₁) hchain le_rfl (hmaster₁.trans hmaster)
  obtain ⟨-, -, hframe⟩ := @checkMkeyRevision_frame aes isRetail r m₁
  refine ⟨{ (checkMkeyRevision aes isRetail r m₁).2 with determinedMkeyRevision := true, mkeyRevision := r }, ?_, rfl,
    rfl, hold, fun i hi => (hframe i hi).trans (hold₁ i hi)⟩
  rw [mkeyDetectRevision, hfresh, if_neg Bool.false_ne_true, hrange, htry, tryRevisions]
  simp only [hpasses₁, if_true]

end Lemmas

/-- The revision of the chain is detected and the table has the keys before it, exactly on retail units. -/
theorem mkeyDetectRevision_iff (aes : Block 0x10 → Equiv.Perm (Block 0x10)) (isRetail : Bool) (m : MasterKeys)
    (r : Nat) (k : Nat → Block 0x10) (hr : r < masterkeyRevisionMax.toNat) (hchain : Chain aes isRetail r k)
    (hmaster : m.keyslots keyslotMasterkey = k r)
    (hfirst : ∀ rev < r, (checkMkeyRevision aes isRetail rev m).1 = false)
    (hfresh : m.determinedMkeyRevision = false) : Detects aes isRetail m r k ↔ isRetail = true := by
  rw [← mkeyVector_zero_iff, ← checkMkeyRevision_chain hchain hmaster]
  constructor
  · intro h
    by_contra hfails
    exact not_detects (Bool.not_eq_true _ ▸ hfails) h
  · intro hpasses
    exact detects hchain hmaster hr hfirst hpasses hfresh

/-- Keys of which each masks the one before to the entry of the table. -/
def maskChain (isRetail : Bool) : Nat → Block 0x10
  | 0 => mkeyVector isRetail 0
  | i + 1 => (mkeyVector isRetail (i + 1)).xor (maskChain isRetail i)

lemma chain_maskChain (isRetail : Bool) (r : Nat) : Chain Block.maskWith isRetail r (maskChain isRetail) where
  first := ((Block.xor_comm _ _).trans (Block.xor_zeros _)).symm
  step i _ := by
    change _ = (maskChain isRetail i).xor ((mkeyVector isRetail (i + 1)).xor (maskChain isRetail i))
    rw [Block.xor_comm, Block.xor_xor_self]

/-- A unit of which a master key masks. -/
def maskUnit (isRetail : Bool) (r : Nat) : MasterKeys where
  keyslots _ := maskChain isRetail r
  oldMasterkeys _ := .zeros 0x10
  mkeyRevision := 0
  determinedMkeyRevision := false

/-- The second master key of a retail unit. -/
theorem mkeyDetectRevision_iff_second :
    Detects Block.maskWith true (maskUnit true 1) 1 (maskChain true) ↔ true = true :=
  mkeyDetectRevision_iff Block.maskWith true (maskUnit true 1) 1 (maskChain true) (by decide) (chain_maskChain true 1)
    rfl (by decide) rfl

/-- The first master key of a development unit is not detected. -/
theorem mkeyDetectRevision_development :
    ¬∀ aes isRetail m r k, r < masterkeyRevisionMax.toNat → Chain aes isRetail r k → m.keyslots keyslotMasterkey = k r →
      (∀ rev < r, (checkMkeyRevision aes isRetail rev m).1 = false) → m.determinedMkeyRevision = false →
      Detects aes isRetail m r k := by
  intro h
  have hdetects := h Block.maskWith false (maskUnit false 0) 0 (maskChain false) (by decide)
    (chain_maskChain false 0) rfl (fun _ hrev => absurd hrev (Nat.not_lt_zero _)) rfl
  exact not_detects (by decide) hdetects

end MasterKeys

end RajNX.Exosphere
