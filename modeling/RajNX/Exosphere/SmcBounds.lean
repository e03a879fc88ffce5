import RajNX.Exosphere.SmcApi

/-!
# What user calls may touch

User calls read and write user memory in the one page that was registered first, and secure memory in their own
buffers. They write the keys of the user key slots and of the temporary key slot, and they process user data with
user key slots.

Every function of the model keeps the relation `Guarantee`, which says this of the state before and after it.
-/

namespace RajNX.Exosphere

open Command

/-! ## The relation -/

/-- A page of DRAM. -/
def IsUserPage (page : UInt64) : Prop :=
  page.toNat % 0x1000 = 0 ∧ 0x80000000 ≤ page.toNat ∧ page.toNat < 0x80000000 + 6 * 2 ^ 30

/-- No page is registered, or one of DRAM. -/
def Monitor.PageOk (s : Monitor) : Prop := s.userPageUserAddress = 0 ∨ IsUserPage s.userPageUserAddress

/-- An access of user memory is inside of the page. One of a buffer is inside of the buffer, except for the value of
GetConfig. -/
def Access.Inside (page : UInt64) : Access → Prop
  | .user address size => IsUserPage page ∧ page.toNat ≤ address.toNat ∧ address.toNat + size ≤ page.toNat + 0x1000
  | .buffer dst offset size => dst ≠ .outItem → offset + size ≤ dst.capacity
  | .cryptAes _ => True
  | .computeCmac _ => True

/-- User data is processed with a user key slot. -/
def Access.UsesUserKeyslot (fw : TargetFirmware) : Access → Prop
  | .cryptAes keyslot => isUserKeyslotValid fw keyslot = true
  | .computeCmac keyslot => isUserKeyslotValid fw keyslot = true
  | .user _ _ => True
  | .buffer _ _ _ => True

/-- What is there after a part of a user call, as against before. -/
structure Bounded (fw : TargetFirmware) (s s' : Monitor) : Prop where
  keys : ∀ keyslot, isUserKeyslotValid fw keyslot = false → keyslot ≠ keyslotTempkey →
    (s'.keyslots keyslot).key = (s.keyslots keyslot).key
  page : s.userPageUserAddress ≠ 0 → s'.userPageUserAddress = s.userPageUserAddress
  newPage : s'.userPageUserAddress = s.userPageUserAddress ∨ IsUserPage s'.userPageUserAddress
  trace : ∃ accesses, s'.trace = s.trace ++ accesses ∧
    ∀ a ∈ accesses, a.Inside s'.userPageUserAddress ∧ a.UsesUserKeyslot fw

/-- A handler also leaves the lock and the callback as they are. -/
structure Guarantee (fw : TargetFirmware) (s s' : Monitor) : Prop extends Bounded fw s s' where
  lock : s'.isUserSmcInProgress = s.isUserSmcInProgress
  callback : s'.smcCallback = s.smcCallback
  callbackKey : s'.smcCallbackKey = s.smcCallbackKey

section Relation

variable {fw : TargetFirmware} {s s' s'' : Monitor} {a : Access} {page : UInt64}

/-- The page of DRAM is not the null address, which stands for no page. -/
lemma IsUserPage.ne_zero (h : IsUserPage page) : page ≠ 0 := by
  rintro rfl
  exact absurd h.2.1 (by decide)

/-- An access that is inside of a page stays inside if the page is the same or there was none. -/
lemma Access.Inside.mono (h : a.Inside page) {page' : UInt64} (hpage : page ≠ 0 → page' = page) : a.Inside page' := by
  cases a with
  | user address size =>
    have heq := hpage h.1.ne_zero
    rw [heq]
    exact h
  | buffer dst offset size => exact h
  | cryptAes keyslot => trivial
  | computeCmac keyslot => trivial

/-- Nothing has changed. -/
lemma Bounded.same : Bounded fw s s :=
  ⟨fun _ _ _ => rfl, fun _ => rfl, .inl rfl, [], (List.append_nil _).symm, fun _ h => by cases h⟩

/-- One part of a call after another. Accesses of the first stay inside, since the page stays. -/
lemma Bounded.trans (h : Bounded fw s s') (h' : Bounded fw s' s'') : Bounded fw s s'' := by
  obtain ⟨accesses, htrace, hall⟩ := h.trace
  obtain ⟨accesses', htrace', hall'⟩ := h'.trace
  refine ⟨?_, ?_, ?_, accesses ++ accesses', ?_, ?_⟩
  · intro keyslot huser htemp
    rw [h'.keys keyslot huser htemp, h.keys keyslot huser htemp]
  · intro hne
    have heq := h.page hne
    rw [h'.page (by rw [heq]; exact hne), heq]
  · rcases h'.newPage with heq | hnew
    · rw [heq]
      exact h.newPage
    · exact .inr hnew
  · rw [htrace', htrace, List.append_assoc]
  · intro a ha
    rcases List.mem_append.mp ha with ha | ha
    · exact ⟨(hall a ha).1.mono h'.page, (hall a ha).2⟩
    · exact hall' a ha

/-- A page that is registered on the way is one of DRAM. -/
lemma Bounded.pageOk (h : Bounded fw s s') (hs : s.PageOk) : s'.PageOk := by
  rcases h.newPage with heq | hnew
  · rw [Monitor.PageOk, heq]
    exact hs
  · exact .inr hnew

instance : IsPreorder Monitor (Bounded fw) where
  refl _ := .same
  trans _ _ _ := .trans

instance : IsPreorder Monitor (Guarantee fw) where
  refl _ := ⟨.same, rfl, rfl, rfl⟩
  trans _ _ _ h h' :=
    ⟨h.toBounded.trans h'.toBounded, h'.lock.trans h.lock, h'.callback.trans h.callback,
      h'.callbackKey.trans h.callbackKey⟩

end Relation

/-! ## The security engine and the keys -/

section Keys

variable {fw : TargetFirmware} {p : Platform} {s s' : Monitor} {keyslot : Nat}

/-- Nothing changes that the relation is about. -/
lemma Bounded.frame (hkeys : ∀ keyslot, (s'.keyslots keyslot).key = (s.keyslots keyslot).key)
    (hpage : s'.userPageUserAddress = s.userPageUserAddress) (htrace : s'.trace = s.trace) : Bounded fw s s' :=
  ⟨fun keyslot _ _ => hkeys keyslot, fun _ => hpage, .inl hpage, [], by rw [htrace, List.append_nil],
    fun _ h => by cases h⟩

/-- Nothing changes that the stronger relation is about. -/
lemma Guarantee.frame (hkeys : ∀ keyslot, (s'.keyslots keyslot).key = (s.keyslots keyslot).key)
    (hpage : s'.userPageUserAddress = s.userPageUserAddress) (htrace : s'.trace = s.trace)
    (hlock : s'.isUserSmcInProgress = s.isUserSmcInProgress) (hcallback : s'.smcCallback = s.smcCallback)
    (hkey : s'.smcCallbackKey = s.smcCallbackKey) : Guarantee fw s s' :=
  ⟨.frame hkeys hpage htrace, hlock, hcallback, hkey⟩

/-- Accesses that do not depend on the page. -/
lemma access_keeps {accesses : List Access}
    (h : ∀ a ∈ accesses, ∀ page, a.Inside page ∧ a.UsesUserKeyslot fw) : Keeps (Guarantee fw) (access accesses) :=
  .update fun _ =>
    ⟨⟨fun _ _ _ => rfl, fun _ => rfl, .inl rfl, accesses, rfl, fun a ha => h a ha _⟩, rfl, rfl, rfl⟩

/-- The key slots whose keys are written. -/
def MayWriteKey (fw : TargetFirmware) (keyslot : Nat) : Prop :=
  isUserKeyslotValid fw keyslot = true ∨ keyslot = keyslotTempkey

/-- The temporary key slot may be written. -/
lemma MayWriteKey.tempkey : MayWriteKey fw keyslotTempkey := .inr rfl

/-- A key that may be written leaves the others as they are. -/
lemma writeKey_guarantee (h : MayWriteKey fw keyslot) (key : List UInt8) : Guarantee fw s (s.writeKey keyslot key) := by
  refine ⟨⟨?_, fun _ => rfl, .inl rfl, [], (List.append_nil _).symm, fun _ h => by cases h⟩, rfl, rfl, rfl⟩
  intro other huser htemp
  have hne : other ≠ keyslot := by
    rintro rfl
    rcases h with h | h
    · rw [huser] at h
      cases h
    · exact htemp h
  exact congrArg Keyslot.key (Function.update_of_ne hne _ _)

/-- `set_aes_keyslot` writes the key of its slot. -/
lemma setAesKeyslot_keeps (h : MayWriteKey fw keyslot) {key : List UInt8} :
    Keeps (Guarantee fw) (setAesKeyslot keyslot key) :=
  .bind (.panicIf _) fun _ => .update fun _ => writeKey_guarantee h key

/-- The initialization vector is not the key. -/
lemma setAesKeyslotIv_keeps {iv : List UInt8} : Keeps (Guarantee fw) (setAesKeyslotIv keyslot iv) := by
  refine .bind (.panicIf _) fun _ => .update fun s => .frame (fun other => ?_) rfl rfl rfl rfl rfl
  by_cases heq : other = keyslot
  · subst heq
    show (Function.update s.keyslots other { s.keyslots other with iv := iv } other).key = _
    rw [Function.update_self]
  · exact congrArg Keyslot.key (Function.update_of_ne heq _ _)

/-- The RSA key slots are not among the slots of the relation. -/
lemma setRsaKeyslot_keeps {modulus exponent : List UInt8} :
    Keeps (Guarantee fw) (setRsaKeyslot keyslot modulus exponent) :=
  .bind (.panicIf _) fun _ => .update fun _ => .frame (fun _ => rfl) rfl rfl rfl rfl rfl

/-- An operation of the engine is started. -/
lemma setSecurityEngineCallback_keeps {operation : SeOperation} :
    Keeps (Guarantee fw) (setSecurityEngineCallback operation) :=
  .bind (.look _) fun _ => .bind (.panicIf _) fun _ =>
    .update fun _ => .frame (fun _ => rfl) rfl rfl rfl rfl rfl

/-- `decrypt_data_into_keyslot` writes the key of its destination. -/
lemma decryptDataIntoKeyslot_keeps (h : MayWriteKey fw keyslot) {keyslotSrc : Nat} {wrappedKey : List UInt8} :
    Keeps (Guarantee fw) (decryptDataIntoKeyslot p keyslot keyslotSrc wrappedKey) :=
  .bind (.panicIf _) fun _ => .update fun _ => writeKey_guarantee h _

variable {src : List UInt8}

/-- One block is decrypted with a key that is not changed. -/
lemma seAesEcbDecryptBlock_keeps : Keeps (Guarantee fw) (seAesEcbDecryptBlock p keyslot src) :=
  .bind (.panicIf _) fun _ => .look _

/-- The cipher of a key slot is only looked up. -/
lemma keyslotCipher_keeps : Keeps (Guarantee fw) (keyslotCipher p keyslot) :=
  .bind (.panicIf _) fun _ => .look _

/-- One block is encrypted with a key that is not changed. -/
lemma seAes128EcbEncryptBlock_keeps : Keeps (Guarantee fw) (seAes128EcbEncryptBlock p keyslot src) :=
  .bind (.panicIf _) fun _ => .bind keyslotCipher_keeps fun _ => .pure _

/-- Random numbers advance the generator, which the relation is not about. -/
lemma seGenerateRandom_keeps {size : Nat} : Keeps (Guarantee fw) (seGenerateRandom p keyslot size) :=
  .bind (.panicIf _) fun _ => .bind (.look _) fun _ =>
    .bind (.update fun _ => .frame (fun _ => rfl) rfl rfl rfl rfl rfl) fun _ => .pure _

/-- `se_exp_mod` starts the engine. -/
lemma seExpMod_keeps {input : List UInt8} : Keeps (Guarantee fw) (seExpMod p keyslot input) :=
  .bind (.panicIf _) fun _ => .bind (.look _) fun _ => setSecurityEngineCallback_keeps

/-- User data is processed with a slot that has been checked. -/
lemma seAesCryptInsecureInternal_keeps (h : isUserKeyslotValid fw keyslot = true) {size : Nat} :
    Keeps (Guarantee fw) (seAesCryptInsecureInternal keyslot size) := by
  refine .bind (.panicIf _) fun _ => ?_
  split
  · exact .pure _
  · refine .bind (access_keeps fun a ha page => ?_) fun _ => setSecurityEngineCallback_keeps
    cases List.mem_singleton.mp ha
    exact ⟨trivial, h⟩

/-- The MAC of user data is made with a slot that has been checked. -/
lemma seComputeAes128Cmac_keeps (h : isUserKeyslotValid fw keyslot = true) {data : List UInt8} :
    Keeps (Guarantee fw) (seComputeAes128Cmac p keyslot data) := by
  refine .bind keyslotCipher_keeps fun _ => .bind (access_keeps fun a ha page => ?_) fun _ =>
    .bind setAesKeyslotIv_keeps fun _ => .pure _
  cases List.mem_singleton.mp ha
  exact ⟨trivial, h⟩

/-- A key is sealed by way of the temporary key slot. -/
lemma sealKeyInternal_keeps {src source : List UInt8} : Keeps (Guarantee fw) (sealKeyInternal p src source) :=
  .bind (decryptDataIntoKeyslot_keeps .tempkey) fun _ => seAes128EcbEncryptBlock_keeps

/-- A key is unsealed into a slot that may be written. -/
lemma unsealKeyInternal_keeps (h : MayWriteKey fw keyslot) {src source : List UInt8} :
    Keeps (Guarantee fw) (unsealKeyInternal p keyslot src source) :=
  .bind (decryptDataIntoKeyslot_keeps .tempkey) fun _ => decryptDataIntoKeyslot_keeps h

/-- `seal_titlekey` -/
lemma sealTitlekey_keeps : Keeps (Guarantee fw) (sealTitlekey p src) :=
  .bind (.panicIf _) fun _ => sealKeyInternal_keeps

/-- `unseal_titlekey`, into a slot that may be written -/
lemma unsealTitlekey_keeps (h : MayWriteKey fw keyslot) : Keeps (Guarantee fw) (unsealTitlekey p keyslot src) :=
  .bind (.panicIf _) fun _ => unsealKeyInternal_keeps h

/-- `seal_key` -/
lemma sealKey_keeps {usecase : Nat} : Keeps (Guarantee fw) (sealKey p src usecase) :=
  .bind (.panicIf _) fun _ => sealKeyInternal_keeps

/-- `unseal_key`, into a slot that may be written -/
lemma unsealKey_keeps (h : MayWriteKey fw keyslot) {usecase : Nat} :
    Keeps (Guarantee fw) (unsealKey p keyslot src usecase) :=
  .bind (.panicIf _) fun _ => unsealKeyInternal_keeps h

/-- The revision is only looked up. -/
lemma mkeyGetRevision_keeps : Keeps (Guarantee fw) (mkeyGetRevision p) :=
  .bind (.panicIf _) fun _ => .pure _

/-- An old master key is put into the temporary key slot. -/
lemma mkeyGetKeyslot_keeps {revision : Nat} : Keeps (Guarantee fw) (mkeyGetKeyslot p revision) := by
  refine .bind (.panicIf _) fun _ => .bind (.panicIf _) fun _ => ?_
  split
  · exact .pure _
  · exact .bind (setAesKeyslot_keeps .tempkey) fun _ => .pure _

/-- So is an old device key. -/
lemma devkeyGetKeyslot_keeps {revision : Nat} : Keeps (Guarantee fw) (devkeyGetKeyslot p revision) := by
  refine .bind (.panicIf _) fun _ => ?_
  split
  · exact .pure _
  · split
    · exact .bind (setAesKeyslot_keeps .tempkey) fun _ => .pure _
    · exact .pure _

/-- The key slot of the device, for each of the firmware versions. -/
lemma deviceKeyslot_keeps {masterKeyRev : Nat} : Keeps (Guarantee fw) (deviceKeyslot p masterKeyRev) := by
  unfold deviceKeyslot
  split
  · exact devkeyGetKeyslot_keeps
  · split
    · split
      · exact .pure _
      · exact .pure _
    · exact .pure _

/-- The key slot of a kek, of the device or of the master key. -/
lemma kekKeyslot_keeps {isPersonalized : Bool} {masterKeyRev : Nat} :
    Keeps (Guarantee fw) (kekKeyslot p isPersonalized masterKeyRev) := by
  unfold kekKeyslot
  split
  · exact deviceKeyslot_keeps
  · exact mkeyGetKeyslot_keeps

/-- The label hash is kept in the context of the title key. -/
lemma tkeySetExpectedLabelHash_keeps {labelHash : LabelHash} :
    Keeps (Guarantee fw) (tkeySetExpectedLabelHash labelHash) :=
  .update fun _ => .frame (fun _ => rfl) rfl rfl rfl rfl rfl

/-- So is the revision of the master key. -/
lemma tkeySetMasterKeyRev_keeps {masterKeyRev : Nat} : Keeps (Guarantee fw) (tkeySetMasterKeyRev masterKeyRev) :=
  .bind (.panicIf _) fun _ => .update fun _ => .frame (fun _ => rfl) rfl rfl rfl rfl rfl

/-- So is the type of the title key. -/
lemma tkeySetType_keeps {type : Nat} : Keeps (Guarantee fw) (tkeySetType p type) :=
  .bind (.panicIf _) fun _ => .update fun _ => .frame (fun _ => rfl) rfl rfl rfl rfl rfl

/-- `tkey_aes_unwrap` goes by way of the temporary key slot. -/
lemma tkeyAesUnwrap_keeps : Keeps (Guarantee fw) (tkeyAesUnwrap p src) :=
  .bind (.look _) fun _ => .bind (.look _) fun _ => .bind (.panicIf _) fun _ =>
    .bind mkeyGetKeyslot_keeps fun _ => .bind (decryptDataIntoKeyslot_keeps .tempkey) fun _ =>
      seAesEcbDecryptBlock_keeps

end Keys

/-! ## The user page -/

section Page

variable {fw : TargetFirmware} {s s' : Monitor} {ref : UpageRef} {address : UInt64} {size : Nat}

/-- The page of an address, as a number. -/
lemma toNat_getPageForAddress (address : UInt64) :
    (getPageForAddress address).toNat = address.toNat / 0x1000 * 0x1000 := by
  have hlt := address.toNat_lt
  have hmask : (~~~(0xFFF : UInt64)).toNat = (2 ^ 52 - 1) * 2 ^ 12 := by decide
  rw [getPageForAddress, UInt64.toNat_and, hmask]
  apply Nat.eq_of_testBit_eq
  intro i
  rw [Nat.testBit_and, Nat.testBit_mul_two_pow, Nat.testBit_two_pow_sub_one,
    show (0x1000 : Nat) = 2 ^ 12 by rfl, Nat.testBit_mul_two_pow, Nat.testBit_div_two_pow]
  by_cases hlow : 12 ≤ i
  · have hsub : i - 12 + 12 = i := by omega
    rw [hsub]
    by_cases hhigh : i < 64
    · have hbit : i - 12 < 52 := by omega
      simp [hlow, hbit]
    · have hzero : address.toNat.testBit i = false :=
        Nat.testBit_lt_two_pow (hlt.trans_le (Nat.pow_le_pow_right (by decide) (by omega)))
      simp [hzero]
  · simp [hlow]

/-- The reference is to the page that is registered. -/
def IsRef (s : Monitor) (ref : UpageRef) : Prop :=
  s.userPageUserAddress = ref.userAddress ∧ IsUserPage ref.userAddress

/-- A reference stays one while the call goes on. -/
lemma IsRef.mono (h : IsRef s ref) (hs : Bounded fw s s') : IsRef s' ref := by
  have hne : s.userPageUserAddress ≠ 0 := by
    rw [h.1]
    exact h.2.ne_zero
  exact ⟨(hs.page hne).trans h.1, h.2⟩

/-- A page is registered, or it is the one that was. -/
lemma upageInit_ensures (hs : s.PageOk) : Ensures (Guarantee fw) s (upageInit address) fun ref s' => IsRef s' ref := by
  unfold upageInit
  refine .bind .look fun registered s' _ hlook => ?_
  obtain ⟨rfl, rfl⟩ := hlook
  split
  · next hne =>
    refine .bind_panicIf fun heq => ?_
    refine .pure ⟨not_not.mp heq, ?_⟩
    rw [← not_not.mp heq]
    exact hs.resolve_left hne
  · next hzero =>
    refine .bind_panicIf fun hvalid => ?_
    have hpage : IsUserPage (getPageForAddress address) := by
      have hsub := UInt64.lt_iff_toNat_lt.mp (not_not.mp hvalid).1
      have hnat := toNat_getPageForAddress address
      have hlt := address.toNat_lt
      rw [UInt64.toNat_sub, show dramSizeMax.toNat = 6 * 2 ^ 30 by decide,
        show (0x80000000 : UInt64).toNat = 0x80000000 by rfl] at hsub
      refine ⟨?_, ?_, ?_⟩
      all_goals omega
    refine .bind (.update ?_ (Q := fun _ s' => s'.userPageUserAddress = getPageForAddress address) rfl)
      fun _ s' _ heq => .pure ⟨heq, hpage⟩
    exact ⟨⟨fun _ _ _ => rfl, fun hne => absurd (not_not.mp hzero) hne, .inr hpage, [],
      (List.append_nil _).symm, fun _ h => by cases h⟩, rfl, rfl, rfl⟩

/-- A range whose first byte and whose last byte are in a page. -/
lemma inside_of_checked (hpage : IsUserPage ref.userAddress) (hsize : size ≤ 0x1000)
    (hfirst : getPageForAddress address = ref.userAddress)
    (hlast : getPageForAddress (address + .ofNat size - 1) = ref.userAddress) (_hpos : size ≠ 0) :
    (Access.user address size).Inside ref.userAddress := by
  have hlt := address.toNat_lt
  have hfirst := (toNat_getPageForAddress address).symm.trans (congrArg UInt64.toNat hfirst)
  have hlast := (toNat_getPageForAddress _).symm.trans (congrArg UInt64.toNat hlast)
  rw [UInt64.toNat_sub, UInt64.toNat_add, UInt64.toNat_ofNat', show (1 : UInt64).toNat = 1 by rfl] at hlast
  obtain ⟨haligned, hlow, hhigh⟩ := hpage
  refine ⟨⟨haligned, hlow, hhigh⟩, ?_, ?_⟩
  · omega
  · omega

/-- A range that passes the checks is inside of the page. -/
lemma checkUserRange_ensures (h : IsRef s ref) (hsize : size ≤ 0x1000) :
    Ensures (Guarantee fw) s (checkUserRange ref address size) fun _ s' =>
      s' = s ∧ (size ≠ 0 → (Access.user address size).Inside s.userPageUserAddress) := by
  refine .bind_stopIf fun hfirst => ?_
  refine Ensures.stopIf.mono fun _ s' _ hno => ?_
  obtain ⟨hlast, rfl⟩ := hno
  refine ⟨rfl, fun hpos => ?_⟩
  rw [h.1]
  exact inside_of_checked h.2 hsize (not_not.mp hfirst) (not_not.mp fun hne => hlast ⟨hpos, hne⟩) hpos

/-- Accesses that are inside of the page that is registered. -/
lemma access_ensures {accesses : List Access}
    (h : ∀ a ∈ accesses, a.Inside s.userPageUserAddress ∧ a.UsesUserKeyslot fw) :
    Ensures (Guarantee fw) s (access accesses) fun _ _ => True :=
  .update ⟨⟨fun _ _ _ => rfl, fun _ => rfl, .inl rfl, accesses, rfl, h⟩, rfl, rfl, rfl⟩ trivial

/-- As much is read as is asked for. -/
lemma length_readDram (dram : UInt64 → UInt8) (address : UInt64) (size : Nat) :
    (readDram dram address size).length = size := by
  rw [readDram, List.length_map, List.length_range]

/-- No buffer is larger than the one for user data. -/
lemma Buffer.capacity_le (dst : Buffer) : dst.capacity ≤ 0x400 := by
  unfold Buffer.capacity
  split
  all_goals decide

/-- A copy from the user stays inside of the page and of its buffer. -/
lemma userCopyToSecure_ensures (h : IsRef s ref) {dst : Buffer} (hsize : size ≤ dst.capacity) :
    Ensures (Guarantee fw) s (userCopyToSecure ref dst address size) fun bytes s' =>
      bytes.length = size ∧ IsRef s' ref := by
  have hle := dst.capacity_le
  refine .bind (checkUserRange_ensures h (by omega)) fun _ s' _ hinside => ?_
  obtain ⟨rfl, hinside⟩ := hinside
  refine .bind (access_ensures fun a ha => ?_) fun _ s' h' _ => ?_
  · split at ha
    · next hpos =>
      rcases List.mem_pair.mp ha with rfl | rfl
      · exact ⟨hinside hpos, trivial⟩
      · exact ⟨fun _ => by omega, trivial⟩
    · cases ha
  · refine Ensures.look.mono fun bytes s'' _ heq => ?_
    obtain ⟨rfl, rfl⟩ := heq
    exact ⟨length_readDram _ _ _, h.mono h'.toBounded⟩

/-- A copy to the user stays inside of the page and of its buffer. -/
lemma secureCopyToUser_ensures (h : IsRef s ref) {src : Buffer} {bytes : List UInt8} (hsize : size ≤ src.capacity) :
    Ensures (Guarantee fw) s (secureCopyToUser ref address src bytes size) fun _ _ => True := by
  have hle := src.capacity_le
  refine .bind (checkUserRange_ensures h (by omega)) fun _ s' _ hinside => ?_
  obtain ⟨rfl, hinside⟩ := hinside
  refine .bind (access_ensures fun a ha => ?_) fun _ s' _ _ =>
    .update (.frame (fun _ => rfl) rfl rfl rfl rfl rfl) trivial
  split at ha
  · next hpos =>
    rcases List.mem_pair.mp ha with rfl | rfl
    · exact ⟨fun _ => by omega, trivial⟩
    · exact ⟨hinside hpos, trivial⟩
  · cases ha

end Page

/-! ## Wrapped RSA keys -/

section Gcm

variable {fw : TargetFirmware} {p : Platform} {sealedKek wrappedKey : List UInt8} {usecase : Nat}

/-- An access of a buffer that is inside of it. -/
def Access.InBuffer : Access → Prop
  | .buffer dst offset size => offset + size ≤ dst.capacity
  | .user _ _ => False
  | .cryptAes _ => False
  | .computeCmac _ => False

/-- Accesses that are inside of their buffers. -/
lemma accessBuffers_keeps {accesses : List Access} (h : ∀ a ∈ accesses, a.InBuffer) :
    Keeps (Guarantee fw) (access accesses) :=
  access_keeps fun a ha page => by
    have hin := h a ha
    cases a with
    | buffer dst offset size => exact ⟨fun _ => hin, trivial⟩
    | user address size => exact hin.elim
    | cryptAes keyslot => exact hin.elim
    | computeCmac keyslot => exact hin.elim

/-- Counter mode stays inside of its destination. -/
lemma ctrCryptAccesses_inBuffer {dst : Buffer} {offset dstSize srcSize : Nat}
    (h : offset + dstSize ≤ dst.capacity) (hsize : srcSize ≤ dstSize) :
    ∀ a ∈ ctrCryptAccesses dst offset dstSize srcSize, a.InBuffer := by
  have hdiv := Nat.div_mul_le_self srcSize 0x10
  intro a ha
  rw [ctrCryptAccesses] at ha
  rcases List.mem_append.mp ha with ha | ha
  · rcases List.mem_append.mp ha with ha | ha
    · cases List.mem_singleton.mp ha
      exact h
    · split at ha
      · cases List.mem_singleton.mp ha
        show offset + srcSize / 0x10 * 0x10 ≤ dst.capacity
        omega
      · cases ha
  · split at ha
    · next hlast =>
      cases List.mem_singleton.mp ha
      show offset + srcSize / 0x10 * 0x10 + (if srcSize < dstSize then srcSize - srcSize / 0x10 * 0x10
        else dstSize - srcSize / 0x10 * 0x10) ≤ dst.capacity
      split
      all_goals omega
    · cases ha

/-- The key of a wrapped key is unwrapped into the temporary key slot. -/
lemma unwrapKeyIntoTempkey_keeps : Keeps (Guarantee fw) (unwrapKeyIntoTempkey p sealedKek wrappedKey usecase) :=
  .bind (unsealKey_keeps .tempkey) fun _ => decryptDataIntoKeyslot_keeps .tempkey

/-- `gcm_decrypt_key` in place stays inside of its buffer if that is not larger than the work buffer. -/
lemma gcmDecryptUserData_keeps {src : List UInt8} {isPersonalized : Bool} (hsize : src.length ≤ 0x400) :
    Keeps (Guarantee fw) (gcmDecryptUserData p src.length src sealedKek wrappedKey usecase isPersonalized) := by
  refine .bind (.panicIf _) fun _ => fun s => .bind_panicIf fun hpersonalized => ?_
  refine Keeps.bind unwrapKeyIntoTempkey_keeps (fun _ => .bind keyslotCipher_keeps fun cipher =>
    .bind (accessBuffers_keeps ?_) fun _ => ?_) s
  · rintro a (_ | ⟨_, ha⟩)
    · exact le_rfl
    · exact ctrCryptAccesses_inBuffer (by rw [Buffer.capacity]; omega) (Nat.sub_le _ _) a ha
  · split
    · refine .bind (accessBuffers_keeps ?_) fun _ => .pure _
      simp [Access.InBuffer, Buffer.capacity]
      omega
    · next hpers =>
      have hlong : 0x30 < src.length := by
        by_contra hshort
        exact hpersonalized ⟨by simpa using hpers, .inl (by omega)⟩
      refine .bind (accessBuffers_keeps ?_) fun _ => ?_
      · simp [Access.InBuffer, Buffer.capacity]
        omega
      · dsimp only
        split
        · exact .pure _
        · refine .bind (accessBuffers_keeps ?_) fun _ => ?_
          · simp [Access.InBuffer, Buffer.capacity]
            omega
          · split
            · exact .pure _
            · refine .bind (accessBuffers_keeps ?_) fun _ => .pure _
              simp [Access.InBuffer, Buffer.capacity]
              omega

/-- `gcm_encrypt_key` stays inside of its buffers if the wrapped key is not larger than they are. -/
lemma gcmEncryptUserData_keeps {dst : List UInt8} {dstSize srcSize deviceidHigh : Nat}
    (hsize : srcSize + 0x30 ≤ 0x400) :
    Keeps (Guarantee fw)
      (gcmEncryptUserData p dst dstSize srcSize sealedKek wrappedKey usecase deviceidHigh) := by
  refine .bind (accessBuffers_keeps ?_) fun _ => .bind (.panicIf _) fun _ =>
    .bind unwrapKeyIntoTempkey_keeps fun _ => .bind keyslotCipher_keeps fun _ =>
    .bind seGenerateRandom_keeps fun _ => .bind (accessBuffers_keeps ?_) fun _ =>
    .bind (accessBuffers_keeps ?_) fun _ => .bind (accessBuffers_keeps ?_) fun _ =>
    .bind (accessBuffers_keeps ?_) fun _ => .pure _
  · simp [Access.InBuffer, Buffer.capacity]
  · simp [Access.InBuffer, Buffer.capacity]
    omega
  · simp [Access.InBuffer, Buffer.capacity]
    omega
  · rintro a (_ | ⟨_, ha⟩)
    · show 0x10 + (srcSize + 0x10) ≤ 0x400
      omega
    · exact ctrCryptAccesses_inBuffer (by rw [Buffer.capacity]; omega) le_rfl a ha
  · simp [Access.InBuffer, Buffer.capacity]
    omega

end Gcm

/-! ## The handlers -/

section Handlers

variable {p : Platform}

/-- A handler keeps the relation from every state whose page is in order. -/
def Behaves (p : Platform) (handler : Args → SmcM Args) : Prop :=
  ∀ s args, s.PageOk → Ensures (Guarantee p.targetFirmware) s (handler args) fun _ _ => True

/-- A handler that has no need of the page. -/
lemma Behaves.of_keeps {handler : Args → SmcM Args} (h : ∀ args, Keeps (Guarantee p.targetFirmware) (handler args)) :
    Behaves p handler :=
  fun s args _ => h args s

/-- A register that is not larger than a bound. -/
lemma toNat_le_of_not_lt {x y : UInt64} (h : ¬y < x) : x.toNat ≤ y.toNat :=
  Nat.le_of_not_lt fun hlt => h (UInt64.lt_iff_toNat_lt.mpr hlt)

/-- The exponent is the one size that the user chooses, and it is checked. -/
lemma userExpMod_behaves : Behaves p (userExpMod p) := by
  intro s args hs
  refine .bind_stopIf fun hsize => ?_
  have hexponent : (args 4).toNat ≤ 0x100 := toNat_le_of_not_lt fun hlt => hsize (.inr (.inl hlt))
  refine .bind (upageInit_ensures hs) fun ref s₁ _ href => ?_
  refine .bind (userCopyToSecure_ensures href le_rfl) fun input s₂ _ ⟨_, href⟩ => ?_
  refine .bind (userCopyToSecure_ensures href hexponent) fun exponent s₃ _ ⟨_, href⟩ => ?_
  refine .bind (userCopyToSecure_ensures href le_rfl) fun modulus s₄ _ _ => ?_
  exact Keeps.bind (.update fun _ => .frame (fun _ => rfl) rfl rfl rfl rfl rfl)
    (fun _ => .bind setRsaKeyslot_keeps fun _ => .bind seExpMod_keeps fun _ => .pure _) s₄

/-- All sizes are constant. -/
lemma userSecureExpMod_behaves : Behaves p (userSecureExpMod p) := by
  intro s args hs
  unfold userSecureExpMod
  cases secureExponentId p.targetFirmware (args 3) with
  | none => exact .stop
  | some id =>
    refine .bind (upageInit_ensures hs) fun ref s₁ _ href => ?_
    refine .bind (userCopyToSecure_ensures href le_rfl) fun input s₂ _ ⟨_, href⟩ => ?_
    refine .bind (userCopyToSecure_ensures href le_rfl) fun modulus s₃ _ _ => ?_
    exact Keeps.bind (.update fun _ => .frame (fun _ => rfl) rfl rfl rfl rfl rfl)
      (fun _ => .bind (.look _) fun _ => .bind setRsaKeyslot_keeps fun _ => .bind seExpMod_keeps fun _ => .pure _) s₃

/-- All sizes are constant here, too. -/
lemma userUnwrapRsaOaepWrappedTitlekey_behaves : Behaves p (userUnwrapRsaOaepWrappedTitlekey p) := by
  intro s args hs
  refine .bind_stopIf fun _ => ?_
  refine .bind (upageInit_ensures hs) fun ref s₁ _ href => ?_
  refine .bind (userCopyToSecure_ensures href le_rfl) fun wrappedKey s₂ _ ⟨_, href⟩ => ?_
  refine .bind (userCopyToSecure_ensures href le_rfl) fun modulus s₃ _ _ => ?_
  exact Keeps.bind (.update fun _ => .frame (fun _ => rfl) rfl rfl rfl rfl rfl)
    (fun _ => .bind tkeySetExpectedLabelHash_keeps fun _ => .bind tkeySetMasterKeyRev_keeps fun _ =>
      .bind tkeySetType_keeps fun _ => .bind (.look _) fun _ => .bind setRsaKeyslot_keeps fun _ =>
      .bind seExpMod_keeps fun _ => .pure _) s₃

/-- The size is at most that of the registers. -/
lemma userGetRandomBytes_behaves : Behaves p (userGetRandomBytes p) := by
  intro s args _
  refine .bind_stopIf fun hsize => ?_
  have hsize : (args 1).toNat ≤ 0x38 := toNat_le_of_not_lt hsize
  refine Keeps.bind seGenerateRandom_keeps (fun _ => .bind (accessBuffers_keeps ?_) fun _ => ?_) s
  · simp [Access.InBuffer, Buffer.capacity]
    omega
  · split
    · refine .bind (accessBuffers_keeps ?_) fun _ => .pure _
      simp [Access.InBuffer, Buffer.capacity]
      omega
    · exact .pure _

/-- No user memory is touched, and only the temporary key slot is written. -/
lemma userGenerateAesKek_behaves : Behaves p (userGenerateAesKek p) :=
  .of_keeps fun _ => .bind (.stopIf _ _) fun _ => .bind mkeyGetRevision_keeps fun _ => .bind (.stopIf _ _) fun _ =>
    .bind (.stopIf _ _) fun _ => .bind (.stopIf _ _) fun _ => .bind (.stopIf _ _) fun _ =>
    .bind (.stopIf _ _) fun _ => .bind kekKeyslot_keeps fun _ =>
    .bind (decryptDataIntoKeyslot_keeps .tempkey) fun _ => .bind seAesEcbDecryptBlock_keeps fun _ =>
    .bind sealKey_keeps fun _ => .pure _

/-- The slot is checked before its key is written. -/
lemma userLoadAesKey_behaves : Behaves p (userLoadAesKey p) := by
  intro s args _
  refine .bind_stopIf fun hvalid => ?_
  have hvalid : isUserKeyslotValid p.targetFirmware (uint32 (args 1)) = true := by simpa using hvalid
  exact Keeps.bind (unsealKey_keeps .tempkey) (fun _ => .bind (decryptDataIntoKeyslot_keeps (.inl hvalid)) fun _ =>
    .pure _) s

/-- What CryptAes does not refuse is for a user key slot. -/
lemma isUserKeyslotValid_of_not_refused {fw : TargetFirmware} {args : Args}
    (h : ¬isCryptAesRefused fw args = true) : isUserKeyslotValid fw (cryptAesKeyslot fw (args 1)) = true := by
  by_contra hno
  apply h
  rw [isCryptAesRefused, Bool.eq_false_of_not_eq_true hno]
  rfl

/-- CryptAes runs with the slot that it has checked. -/
lemma userCryptAes_behaves : Behaves p (userCryptAes p) := by
  intro s args _
  refine .bind_stopIf fun hrefused => ?_
  have hvalid := isUserKeyslotValid_of_not_refused hrefused
  refine Keeps.bind (.update fun _ => .frame (fun _ => rfl) rfl rfl rfl rfl rfl) (fun _ => ?_) s
  split
  · exact .bind setAesKeyslotIv_keeps fun _ => .bind (seAesCryptInsecureInternal_keeps hvalid) fun _ => .pure _
  · split
    · exact .bind (seAesCryptInsecureInternal_keeps hvalid) fun _ => .pure _
    · exact .stop _

/-- The key goes back in registers. -/
lemma userGenerateSpecificAesKey_behaves : Behaves p (userGenerateSpecificAesKey p) := by
  refine .of_keeps fun args => ?_
  refine .bind (.stopIf _ _) fun _ => .bind (.stopIf _ _) fun _ => .bind deviceKeyslot_keeps fun _ => ?_
  split
  · exact .bind keyslotCipher_keeps fun _ => .pure _
  · exact .bind (decryptDataIntoKeyslot_keeps .tempkey) fun _ => .bind seAesEcbDecryptBlock_keeps fun _ => .pure _

/-- The slot and the size are checked. -/
lemma userComputeCmac_behaves : Behaves p (userComputeCmac p) := by
  intro s args hs
  refine .bind_stopIf fun hno => ?_
  obtain ⟨hvalid, hsize⟩ := not_or.mp hno
  have hvalid : isUserKeyslotValid p.targetFirmware (uint32 (args 1)) = true := by simpa using hvalid
  refine .bind (upageInit_ensures hs) fun ref s₁ _ href => ?_
  refine .bind (userCopyToSecure_ensures href (toNat_le_of_not_lt hsize)) fun userData s₂ _ _ => ?_
  exact Keeps.bind (seComputeAes128Cmac_keeps hvalid) (fun _ => .pure _) s₂

/-- The slot is checked before the title key is written. -/
lemma userLoadTitlekey_behaves : Behaves p (userLoadTitlekey p) := by
  intro s args _
  refine .bind_stopIf fun hvalid => ?_
  have hvalid : isUserKeyslotValid p.targetFirmware (uint32 (args 1)) = true := by simpa using hvalid
  exact Keeps.bind (unsealTitlekey_keeps (.inl hvalid)) (fun _ => .pure _) s

/-- The title key goes back in registers. -/
lemma userUnwrapAesWrappedTitlekey_behaves : Behaves p (userUnwrapAesWrappedTitlekey p) :=
  .of_keeps fun _ => .bind (.stopIf _ _) fun _ => .bind tkeySetMasterKeyRev_keeps fun _ =>
    .bind tkeySetType_keeps fun _ => .bind tkeyAesUnwrap_keeps fun _ => .bind sealTitlekey_keeps fun _ => .pure _

/-- The key data of the handlers that are gone in 5.0.0, if the valid sizes fit into the buffer. -/
lemma decryptRsaKey_ensures {sizeIsValid : Bool → Nat → Bool} {usecase : Nat} {s : Monitor} {args : Args}
    (hs : s.PageOk) (hsize : ∀ b n, sizeIsValid b n = true → n ≤ 0x400) :
    Ensures (Guarantee p.targetFirmware) s (decryptRsaKey p sizeIsValid usecase args) fun result s' =>
      IsRef s' result.1 ∧ (args 5).toNat ≤ 0x400 := by
  refine .bind_panicIf fun _ => ?_
  refine .bind_stopIf fun _ => ?_
  refine .bind_stopIf fun hvalid => ?_
  have hvalid := hsize _ _ (by simpa using hvalid)
  refine .bind_stopIf fun _ => ?_
  refine .bind (upageInit_ensures hs) fun ref s₁ _ href => ?_
  refine .bind (userCopyToSecure_ensures href hvalid) fun userData s₂ _ ⟨hlen, href⟩ => ?_
  rw [← hlen] at hvalid ⊢
  exact .bind (gcmDecryptUserData_keeps hvalid s₂) fun key s₃ h₃ _ => .pure ⟨href.mono h₃.toBounded, hvalid⟩

/-- The end of the three handlers that import an exponent. -/
lemma importExponent_keeps {fw : TargetFirmware} {id size : Nat} (hsize : size ≤ 0x100)
    (f : Monitor → List (List UInt8)) (args : Args) :
    Keeps (Guarantee fw) (do
      access [.buffer (.importedExponent id) 0 size]
      .update fun s => { s with importedExponents := f s }
      pure args : SmcM Args) := by
  refine .bind (accessBuffers_keeps fun a ha => ?_) fun _ =>
    .bind (.update fun _ => .frame (fun _ => rfl) rfl rfl rfl rfl rfl) fun _ => .pure _
  cases List.mem_singleton.mp ha
  show 0 + size ≤ 0x100
  omega

/-- The exponent that is loaded has the size of its place. -/
lemma userLoadRsaOaepKey_behaves : Behaves p (userLoadRsaOaepKey p) := by
  intro s args hs
  refine .bind (decryptRsaKey_ensures hs fun b n hn => ?_) fun result s₁ _ _ => ?_
  · have hn := of_decide_eq_true hn
    split at hn
    all_goals omega
  · cases result
    exact .bind .stopIf fun _ s₂ _ _ => importExponent_keeps le_rfl _ args s₂

/-- The key goes back to the page that it came from. -/
lemma userDecryptRsaPrivateKey_behaves : Behaves p (userDecryptRsaPrivateKey p) := by
  intro s args hs
  refine .bind (decryptRsaKey_ensures hs fun b n hn => ?_) fun result s₁ _ hresult => ?_
  · have hn := of_decide_eq_true hn
    omega
  · cases result
    refine .bind_stopIf fun _ => ?_
    exact .bind (secureCopyToUser_ensures hresult.1 hresult.2) fun _ _ _ _ => .pure trivial

/-- The part that is loaded is no larger than the exponent. -/
lemma userLoadSecureExpModKey_behaves : Behaves p (userLoadSecureExpModKey p) := by
  intro s args hs
  refine .bind (decryptRsaKey_ensures hs fun b n hn => ?_) fun result s₁ _ _ => ?_
  · have hn := of_decide_eq_true hn
    split at hn
    all_goals omega
  · cases result
    refine .bind .stopIf fun _ s₂ _ _ => importExponent_keeps ?_ _ args s₂
    split
    all_goals omega

/-- The valid sizes leave room for the tag. -/
lemma isRsaSizeValid_le {usecase size : Nat} (h : isRsaSizeValid usecase size = true) : 0x30 ≤ size ∧ size ≤ 0x240 := by
  rw [isRsaSizeValid] at h
  split at h
  all_goals
    have hbounds := of_decide_eq_true h
    omega

/-- Five copies in, the key wrapped again, and one copy out. -/
lemma userEncryptRsaKey_behaves : Behaves p (userEncryptRsaKey p) := by
  intro s args hs
  refine .bind_stopIf fun _ => ?_
  refine .bind_stopIf fun hvalid => ?_
  obtain ⟨hlow, hhigh⟩ := isRsaSizeValid_le (by simpa using hvalid)
  have hsize : (args 5).toNat ≤ Buffer.userData.capacity := by
    show (args 5).toNat ≤ 0x400
    omega
  refine .bind (upageInit_ensures hs) fun ref s₁ _ href => ?_
  refine .bind (userCopyToSecure_ensures href hsize) fun userData s₂ _ ⟨hlen, href⟩ => ?_
  refine .bind (userCopyToSecure_ensures href le_rfl) fun inSealedKek s₃ _ ⟨_, href⟩ => ?_
  refine .bind (userCopyToSecure_ensures href le_rfl) fun outSealedKek s₄ _ ⟨_, href⟩ => ?_
  refine .bind (userCopyToSecure_ensures href le_rfl) fun inWrappedKey s₅ _ ⟨_, href⟩ => ?_
  refine .bind (userCopyToSecure_ensures href le_rfl) fun outWrappedKey s₆ _ ⟨_, href⟩ => ?_
  rw [← hlen] at hsize hlow hhigh ⊢
  refine .bind (gcmDecryptUserData_keeps hsize s₆) fun key s₇ h₇ _ => ?_
  refine .bind_stopIf fun _ => ?_
  refine .bind (gcmEncryptUserData_keeps (by omega) s₇) fun out s₈ h₈ _ => ?_
  have href₈ := (href.mono h₇.toBounded).mono h₈.toBounded
  exact .bind (secureCopyToUser_ensures href₈ hsize) fun _ _ _ _ => .pure trivial

/-- The key goes back to the user, or is imported. -/
lemma userDecryptOrImportKey_behaves : Behaves p (userDecryptOrImportKey p) := by
  intro s args hs
  refine .bind_panicIf fun _ => ?_
  refine .bind_stopIf fun _ => ?_
  refine .bind_stopIf fun hvalid => ?_
  obtain ⟨-, hhigh⟩ := isRsaSizeValid_le (by simpa using hvalid)
  have hsize : (args 5).toNat ≤ Buffer.userData.capacity := by
    show (args 5).toNat ≤ 0x400
    omega
  refine .bind (upageInit_ensures hs) fun ref s₁ _ href => ?_
  refine .bind (userCopyToSecure_ensures href hsize) fun userData s₂ _ ⟨hlen, href⟩ => ?_
  rw [← hlen] at hsize ⊢
  refine .bind (gcmDecryptUserData_keeps hsize s₂) fun key s₃ h₃ _ => ?_
  refine .bind_stopIf fun _ => ?_
  split
  · exact .bind (secureCopyToUser_ensures (href.mono h₃.toBounded) hsize) fun _ _ _ _ => .pure trivial
  · cases exponentId ((args 3).toNat &&& 7) with
    | none => exact .panic
    | some id => exact importExponent_keeps le_rfl _ args s₃

end Handlers

/-! ## The calls -/

section Calls

variable {p : Platform} {s : Monitor} {frame : StackFrame} {args : Args} {fw : TargetFirmware}

/-- What keeps the stronger relation keeps the weaker one. -/
lemma keeps_bounded {α : Type} {m : SmcM α} (h : Keeps (Guarantee fw) m) : Keeps (Bounded fw) m :=
  fun s => (h s).weaken fun _ => Guarantee.toBounded

/-- A command that is run to its end. -/
lemma attempt_keeps {α : Type} {m : SmcM α} (h : Keeps (Bounded fw) m) : Keeps (Bounded fw) m.attempt :=
  fun s => (h s).attempt.mono fun _ _ _ _ => trivial

/-- The lock is taken. -/
lemma trySetUserSmcInProgress_keeps : Keeps (Bounded fw) trySetUserSmcInProgress :=
  .bind (.look _) fun _ => .bind (.update fun _ => .frame (fun _ => rfl) rfl rfl) fun _ => .pure _

/-- The lock is released. -/
lemma clearUserSmcInProgress_keeps : Keeps (Bounded fw) clearUserSmcInProgress :=
  .update fun _ => .frame (fun _ => rfl) rfl rfl

/-- The callback is dropped. -/
lemma clearSmcCallback_keeps {key : UInt64} : Keeps (Bounded fw) (clearSmcCallback key) :=
  .update fun _ => .frame (fun _ => rfl) rfl rfl

/-- A callback is set with a random key. -/
lemma trySetSmcCallback_keeps {callback : SmcCallback} : Keeps (Bounded fw) (trySetSmcCallback p callback) := by
  refine .bind (.look _) fun _ => ?_
  split
  · exact .pure _
  · exact .bind (keeps_bounded seGenerateRandom_keeps) fun _ =>
      .bind (.update fun _ => .frame (fun _ => rfl) rfl rfl) fun _ => .pure _

/-- A handler with the lock around it. -/
lemma smcWrapperSync_ensures {handler : Args → SmcM Args} (h : Behaves p handler) (hs : s.PageOk) :
    Ensures (Bounded p.targetFirmware) s (smcWrapperSync args handler) fun _ _ => True := by
  refine .bind (trySetUserSmcInProgress_keeps s) fun acquired s₁ h₁ _ => ?_
  split
  · have hhandler := ((h s₁ args (h₁.pageOk hs)).attempt).weaken fun _ => Guarantee.toBounded
    exact .bind hhandler fun _ s₂ _ _ => (Keeps.bind clearUserSmcInProgress_keeps fun _ => .pure _) s₂
  · exact .pure trivial

/-- A handler with the lock and the callback around it. -/
lemma smcWrapperAsync_ensures {handler : Args → SmcM Args} (h : Behaves p handler) (hs : s.PageOk)
    (callback : SmcCallback) :
    Ensures (Bounded p.targetFirmware) s (smcWrapperAsync p args handler callback) fun _ _ => True := by
  refine .bind (trySetUserSmcInProgress_keeps s) fun acquired s₁ h₁ _ => ?_
  split
  · refine .bind (trySetSmcCallback_keeps s₁) fun key s₂ h₂ _ => ?_
    split
    · have hhandler := ((h s₂ args (h₂.pageOk (h₁.pageOk hs))).attempt).weaken fun _ => Guarantee.toBounded
      refine .bind hhandler fun result s₃ _ _ => ?_
      cases result with
      | ok args => exact .pure trivial
      | error code =>
        exact (Keeps.bind clearSmcCallback_keeps fun _ => .bind clearUserSmcInProgress_keeps fun _ => .pure _) s₃
    · exact (Keeps.bind clearUserSmcInProgress_keeps fun _ => .pure _) s₂
  · exact .pure trivial

/-- What is unwrapped fits. -/
lemma size_tkeyRsaOaepUnwrap_le {sha : Mgf1.HashFunction 0x20} {label : LabelHash} {dst src : List UInt8}
    {dstSize : Nat} {result : UnwrapResult} (hlen : src.length = 0x100)
    (h : tkeyRsaOaepUnwrap sha label dst dstSize src = some result) : result.size ≤ dstSize := by
  rcases tkeyRsaOaepUnwrap_cases sha label dst dstSize hlen with ⟨src', hnone⟩ | ⟨key, hkey, hpos, hfits⟩
  · cases h.symm.trans hnone
    exact Nat.zero_le _
  · obtain ⟨src', hsome⟩ := hkey.unwrap dst hlen hpos hfits
    cases h.symm.trans hsome
    exact hfits

/-- A callback copies its result into the buffer for results, which is large enough. -/
lemma callSmcCallback_keeps {callback : Option SmcCallback} {buf : List UInt8} {size : Nat} :
    Keeps (Bounded fw) (callSmcCallback p frame callback buf size) := by
  cases callback with
  | none => exact .panic
  | some callback =>
    cases callback with
    | expModGetResult =>
      refine .bind (.look _) fun _ => ?_
      split
      · exact .pure _
      · split
        · exact .pure _
        · refine .bind (.look _) fun _ => .bind (keeps_bounded (accessBuffers_keeps ?_)) fun _ =>
            .bind clearUserSmcInProgress_keeps fun _ => .pure _
          simp [Access.InBuffer, Buffer.capacity]
    | cryptAesStatusCheck =>
      refine .bind (.look _) fun _ => ?_
      split
      · exact .pure _
      · exact .bind clearUserSmcInProgress_keeps fun _ => .pure _
    | unwrapRsaOaepWrappedTitlekeyGetResult =>
      refine .bind (.look _) fun _ => ?_
      split
      · exact .pure _
      · split
        · exact .pure _
        · refine .bind (.look _) fun output => .bind (.look _) fun label =>
            .bind (keeps_bounded (accessBuffers_keeps ?_)) fun _ => ?_
          · simp [Access.InBuffer, Buffer.capacity]
          · split
            · exact .panic
            · next unwrapped hunwrap =>
              have hsize := size_tkeyRsaOaepUnwrap_le output.length_bytes hunwrap
              refine .bind (keeps_bounded (accessBuffers_keeps ?_)) fun _ => ?_
              · simp [Access.InBuffer, Buffer.capacity]
                exact hsize
              · split
                · exact .bind clearUserSmcInProgress_keeps fun _ => .pure _
                · refine .bind (keeps_bounded (.bind tkeyAesUnwrap_keeps fun _ => sealTitlekey_keeps)) fun _ =>
                    .bind (keeps_bounded (accessBuffers_keeps ?_)) fun _ =>
                    .bind clearUserSmcInProgress_keeps fun _ => .pure _
                  simp [Access.InBuffer, Buffer.capacity]

/-- A config item is set. -/
lemma smcSetConfigUser_keeps : Keeps (Bounded fw) (smcSetConfigUser args) := by
  refine .bind (attempt_keeps ?_) fun result => ?_
  · unfold configitemSet
    split
    · exact .update fun _ => .frame (fun _ => rfl) rfl rfl
    · split
      · split
        · exact .pure _
        · split
          · exact .panic
          · exact .stop _
      · split
        · split
          · exact .pure _
          · exact .panic
        · exact .stop _
  · cases result with
    | ok _ => exact .pure _
    | error code => exact .pure _

/-- Config items are read without a change. The hash of package2 is four words, and the others are one. -/
lemma configitemGet_ensures (fw : TargetFirmware) (item : Nat) :
    Ensures (Bounded fw) s (configitemGet p item) fun words _ => words.length = if item = 17 then 4 else 1 := by
  unfold configitemGet
  split
  case h_13 => exact .bind .look fun _ _ _ _ => .pure rfl
  case h_18 => exact .bind (keeps_bounded mkeyGetRevision_keeps s) fun _ _ _ _ => .pure rfl
  all_goals first
    | exact .pure rfl
    | exact .stop
    | split
      · first
          | exact .pure rfl
          | exact .stop
      · first
          | exact .pure rfl
          | exact .stop

/-- Config items go back in the argument registers. -/
lemma smcGetConfigUser_keeps : Keeps (Bounded fw) (smcGetConfigUser p args) := by
  refine .bind (attempt_keeps fun s => (configitemGet_ensures fw _).mono fun _ _ _ _ => trivial) fun result => ?_
  cases result with
  | ok words =>
    refine .bind (keeps_bounded (access_keeps fun a ha page => ?_)) fun _ => .pure _
    cases List.mem_singleton.mp ha
    exact ⟨fun hne => absurd rfl hne, trivial⟩
  | error code => exact .pure _

/-- The callback is asked without a buffer. -/
lemma smcCheckStatus_keeps : Keeps (Bounded fw) (smcCheckStatus p frame args) := by
  refine .bind (.look _) fun _ => ?_
  split
  · exact .pure _
  · split
    · exact .pure _
    · exact .bind (.look _) fun _ => .bind callSmcCallback_keeps fun _ =>
        .bind (.update fun _ => .frame (fun _ => rfl) rfl rfl) fun _ => .pure _

/-- The result is copied to the page. -/
lemma copyResultOut_ensures (fw : TargetFirmware) (userAddress : UInt64) (buf : List UInt8) {size : Nat}
    (hs : s.PageOk) (hsize : size ≤ Buffer.resultBuf.capacity) :
    Ensures (Guarantee fw) s (copyResultOut userAddress buf size) fun _ _ => True :=
  .bind (upageInit_ensures hs) fun _ _ _ href => secureCopyToUser_ensures href hsize

/-- The size is checked before the callback runs, and then the copy checks the page. -/
lemma smcGetResult_ensures (hs : s.PageOk) :
    Ensures (Bounded p.targetFirmware) s (smcGetResult p frame args) fun _ _ => True := by
  refine .bind .look fun _ s₁ h₁ _ => ?_
  split
  · exact .pure trivial
  · split
    · exact .pure trivial
    · split
      · exact .pure trivial
      · next hsize =>
        have hsize : (args 3).toNat ≤ Buffer.resultBuf.capacity := toNat_le_of_not_lt hsize
        refine .bind .look fun _ s₂ h₂ _ => .bind (callSmcCallback_keeps s₂) fun result s₃ h₃ _ => ?_
        refine .bind (.update (.frame (fun _ => rfl) rfl rfl) (Q := fun _ _ => True) trivial) fun _ s₄ h₄ _ => ?_
        have hs₄ := h₄.pageOk (h₃.pageOk (h₂.pageOk (h₁.pageOk hs)))
        have hcopy := (copyResultOut_ensures p.targetFirmware (args 2) result.2 hs₄ hsize).attempt
        refine .bind (hcopy.weaken fun _ => Guarantee.toBounded) fun result _ _ _ => ?_
        cases result with
        | ok _ => exact .pure trivial
        | error code => exact .pure trivial

/-- Every handler of the table. -/
lemma callUserHandler_ensures (hs : s.PageOk) (handler : UserHandler) :
    Ensures (Bounded p.targetFirmware) s (callUserHandler p frame handler args) fun _ _ => True := by
  cases handler with
  | setConfig => exact smcSetConfigUser_keeps s
  | getConfig => exact smcGetConfigUser_keeps s
  | checkStatus => exact smcCheckStatus_keeps s
  | getResult => exact smcGetResult_ensures hs
  | expMod => exact smcWrapperAsync_ensures userExpMod_behaves hs _
  | getRandomBytes => exact smcWrapperSync_ensures userGetRandomBytes_behaves hs
  | generateAesKek => exact smcWrapperSync_ensures userGenerateAesKek_behaves hs
  | loadAesKey => exact smcWrapperSync_ensures userLoadAesKey_behaves hs
  | cryptAes => exact smcWrapperAsync_ensures userCryptAes_behaves hs _
  | generateSpecificAesKey => exact smcWrapperSync_ensures userGenerateSpecificAesKey_behaves hs
  | computeCmac => exact smcWrapperSync_ensures userComputeCmac_behaves hs
  | loadRsaOaepKey => exact smcWrapperSync_ensures userLoadRsaOaepKey_behaves hs
  | decryptRsaPrivateKey => exact smcWrapperSync_ensures userDecryptRsaPrivateKey_behaves hs
  | loadSecureExpModKey => exact smcWrapperSync_ensures userLoadSecureExpModKey_behaves hs
  | secureExpMod => exact smcWrapperAsync_ensures userSecureExpMod_behaves hs _
  | unwrapRsaOaepWrappedTitlekey =>
    exact smcWrapperAsync_ensures userUnwrapRsaOaepWrappedTitlekey_behaves hs _
  | loadTitlekey => exact smcWrapperSync_ensures userLoadTitlekey_behaves hs
  | unwrapAesWrappedTitlekey => exact smcWrapperSync_ensures userUnwrapAesWrappedTitlekey_behaves hs
  | encryptRsaKeyForImport => exact smcWrapperSync_ensures userEncryptRsaKey_behaves hs
  | decryptOrImportRsaKey => exact smcWrapperSync_ensures userDecryptOrImportKey_behaves hs

/-- A call that is not in the table panics. -/
lemma callSmcHandler_ensures (hs : s.PageOk) :
    Ensures (Bounded p.targetFirmware) s (callSmcHandler p frame args) fun _ _ => True := by
  unfold callSmcHandler
  cases findUserHandler p.targetFirmware (args 0) with
  | none => exact .panic
  | some handler => exact .bind (callUserHandler_ensures hs handler) fun _ _ _ _ => .pure trivial

end Calls

/-! ## Runs -/

section Runs

variable {p : Platform} {s : Monitor}

/-- The engine reports that it is done. -/
lemma seOperationCompleted_keeps {fw : TargetFirmware} {error : Bool} :
    Keeps (Guarantee fw) (seOperationCompleted error) := by
  refine .bind (.look _) fun callback => ?_
  cases callback with
  | none => exact .pure _
  | some operation =>
    cases operation with
    | expMod output => exact .update fun _ => .frame (fun _ => rfl) rfl rfl rfl rfl rfl
    | cryptAes => exact .bind (.panicIf _) fun _ => .update fun _ => .frame (fun _ => rfl) rfl rfl rfl rfl rfl

/-- A call, an interrupt, or a write of the user to its memory. -/
lemma Event.command_ensures (hs : s.PageOk) (event : Event) (frame : StackFrame) :
    Ensures (Bounded p.targetFirmware) s (event.command p frame) fun _ _ => True := by
  cases event with
  | smc args =>
    exact .bind (callSmcHandler_ensures hs) fun _ _ _ _ => .update (.frame (fun _ => rfl) rfl rfl) trivial
  | seCompleted error => exact keeps_bounded seOperationCompleted_keeps s
  | userMemory dram => exact .update (.frame (fun _ => rfl) rfl rfl) trivial

/-- A step, also one that panics. -/
lemma step_bounded (hs : s.PageOk) (event : Event × StackFrame) : Bounded p.targetFirmware s (step p s event) := by
  have hcommand := (event.1.command_ensures (p := p) hs event.2).related
  unfold step
  split
  · exact .same
  · cases hrun : event.1.command p event.2 s with
    | mk result s' =>
      rw [hrun] at hcommand
      cases result with
      | ok _ => exact hcommand
      | error e => exact hcommand.trans (.frame (fun _ => rfl) rfl rfl)

/-- A run. -/
lemma run_bounded (hs : s.PageOk) (events : List (Event × StackFrame)) :
    Bounded p.targetFirmware s (run p s events) := by
  induction events generalizing s with
  | nil => exact .same
  | cons event events ih =>
    have hstep := step_bounded (p := p) hs event
    exact hstep.trans (ih (hstep.pageOk hs))

end Runs

/-- In every run, every access of user memory is inside of the one page that was registered first, and every access
of a buffer of secure memory is inside of that buffer. -/
theorem run_accesses_inside (p : Platform) (s : Monitor) (hs : s.Booted) (events events' : List (Event × StackFrame)) :
    ((run p s events).userPageUserAddress ≠ 0 → IsUserPage (run p s events).userPageUserAddress ∧
      (run p s (events ++ events')).userPageUserAddress = (run p s events).userPageUserAddress) ∧
    ∀ a ∈ (run p s events).trace, a.Inside (run p s events).userPageUserAddress := by
  have hbounded := run_bounded (p := p) (.inl hs.page) events
  have hpage := hbounded.pageOk (.inl hs.page)
  obtain ⟨accesses, htrace, hall⟩ := hbounded.trace
  refine ⟨fun hne => ⟨hpage.resolve_left hne, ?_⟩, fun a ha => ?_⟩
  · rw [run_append]
    exact (run_bounded hpage events').page hne
  · rw [htrace, hs.trace, List.nil_append] at ha
    exact (hall a ha).1

/-- ComputeCmac of a byte of the first page. -/
def exampleCmac : List (Event × StackFrame) :=
  [(.smc (argsOf [0xC300040B, 0, 0x80000000, 1]), exampleFrame 0)]

/-- The byte is read, and the access is inside of the page. -/
theorem run_accesses_inside_example :
    Access.user 0x80000000 1 ∈ (run examplePlatform exampleMonitor exampleCmac).trace ∧
      (run examplePlatform exampleMonitor exampleCmac).userPageUserAddress ≠ 0 ∧
      ∀ a ∈ (run examplePlatform exampleMonitor exampleCmac).trace,
        a.Inside (run examplePlatform exampleMonitor exampleCmac).userPageUserAddress :=
  ⟨by decide +kernel, by decide +kernel,
    (run_accesses_inside examplePlatform exampleMonitor exampleMonitor_booted exampleCmac []).2⟩

/-! ## Key slots -/

/-- The last user key slot. -/
def userKeyslotMax (fw : TargetFirmware) : Nat := if .fw600 ≤ fw then 5 else 3

/-- The user key slots are the first ones. -/
lemma isUserKeyslotValid_eq (fw : TargetFirmware) (keyslot : Nat) :
    isUserKeyslotValid fw keyslot = decide (keyslot ≤ userKeyslotMax fw) := by
  cases fw <;> rfl

/-- In every run, no key slot changes its key except for the user key slots and the temporary one, and CryptAes and
ComputeCmac run with user key slots. -/
theorem run_keyslots (p : Platform) (s : Monitor) (hs : s.Booted) (events : List (Event × StackFrame)) :
    (∀ keyslot, userKeyslotMax p.targetFirmware < keyslot → keyslot ≠ keyslotTempkey →
      ((run p s events).keyslots keyslot).key = (s.keyslots keyslot).key) ∧
    ∀ keyslot, .cryptAes keyslot ∈ (run p s events).trace ∨ .computeCmac keyslot ∈ (run p s events).trace →
      keyslot ≤ userKeyslotMax p.targetFirmware := by
  have hbounded := run_bounded (p := p) (.inl hs.page) events
  obtain ⟨accesses, htrace, hall⟩ := hbounded.trace
  rw [hs.trace, List.nil_append] at htrace
  refine ⟨fun keyslot hkeyslot htemp => hbounded.keys keyslot ?_ htemp, fun keyslot huse => ?_⟩
  · rw [isUserKeyslotValid_eq]
    exact decide_eq_false (Nat.not_le.mpr hkeyslot)
  · have hvalid : isUserKeyslotValid p.targetFirmware keyslot = true := by
      rw [htrace] at huse
      rcases huse with huse | huse
      · exact (hall _ huse).2
      · exact (hall _ huse).2
    rw [isUserKeyslotValid_eq] at hvalid
    exact of_decide_eq_true hvalid

/-- A user key that is loaded, and then used. -/
def exampleLoad : List (Event × StackFrame) :=
  [(.smc (argsOf [0xC3000008, 5]), exampleFrame 0),
   (.smc (argsOf [0xC3000009, 5, 0, 0, 0x80000000, 0x80000000, 0x10]), exampleFrame 0)]

/-- CryptAes runs with the key slot 5, and the master key stays. -/
theorem run_keyslots_example :
    Access.cryptAes 5 ∈ (run examplePlatform exampleMonitor exampleLoad).trace ∧
      ((run examplePlatform exampleMonitor exampleLoad).keyslots keyslotMasterkey).key =
        (exampleMonitor.keyslots keyslotMasterkey).key := by
  have hrun := run_keyslots examplePlatform exampleMonitor exampleMonitor_booted exampleLoad
  exact ⟨by decide +kernel, hrun.1 keyslotMasterkey (by decide) (by decide)⟩

end RajNX.Exosphere
