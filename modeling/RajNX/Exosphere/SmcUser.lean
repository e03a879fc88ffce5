import RajNX.Exosphere.Gcm

/-!
# Importing RSA keys

`user_encrypt_rsa_key_for_import` and `user_decrypt_or_import_rsa_key` of `smc_user.c`: the first wraps a key
again, for a usecase, and the second takes such a key as a private exponent. User memory can be read and
written.

Whatever key is wrapped again, zeros are wrapped in its place, and the exponent that is imported is zero.
-/

namespace RajNX.Exosphere

open CounterMode Splice

/-- `CRYPTOUSECASE_RSAIMPORT` -/
def cryptousecaseRsaImport : Nat := 4

/-- `g_rsausecase_to_cryptousecase` -/
def rsausecaseToCryptousecase (usecase : Nat) : Nat := [1, 2, 3, 5, 6].getD usecase 0

/-- A sealed kek with a wrapped key. -/
structure SealedKey where
  sealedKek : List UInt8
  wrappedKey : List UInt8

/-- The sizes of a usecase. -/
def isRsaSizeValid (usecase size : Nat) : Bool :=
  if usecase = 0 then 0x31 ≤ size ∧ size ≤ 0x240 else 0x130 ≤ size ∧ size ≤ 0x240

/-- `user_encrypt_rsa_key_for_import`: the result, with the user data. -/
def userEncryptRsaKeyForImport (engine : AesEngine) (deviceId : Nat) (random : List UInt8)
    (inKey outKey : SealedKey) (usecase : Nat) (userData : List UInt8) : Option (Nat × List UInt8) :=
  let usecase := usecase &&& 7
  let size := userData.length
  if cryptousecaseRsaImport < usecase then some (2, userData)
  else if !isRsaSizeValid usecase size then some (2, userData)
  else do
    let key ← gcmDecryptKey engine deviceId userData size userData inKey.sealedKek inKey.wrappedKey
      cryptousecaseRsaImport true
    if key.size = 0 then return (2, userData)
    else
      let out ← gcmEncryptKey engine deviceId random key.dst size key.dst (size - 0x30) outKey.sealedKek
        outKey.wrappedKey (rsausecaseToCryptousecase usecase) (key.deviceidHigh.getD 0).toNat
      return (0, out)

/-- What `user_decrypt_or_import_rsa_key` leaves behind. -/
structure ImportResult where
  result : Nat
  userData : List UInt8
  importedExponents : List (List UInt8)

/-- The exponent of a usecase. -/
def exponentId : Nat → Option Nat
  | 1 => some 1
  | 2 => some 0
  | 3 => some 2
  | 4 => some 3
  | _ => none

/-- `user_decrypt_or_import_rsa_key`, from 5.0.0 on. Usecase 0 gives the key out. -/
def userDecryptOrImportRsaKey (engine : AesEngine) (deviceId : Nat) (key : SealedKey) (usecase : Nat)
    (userData : List UInt8) (importedExponents : List (List UInt8)) : Option ImportResult :=
  let usecase := usecase &&& 7
  let size := userData.length
  if cryptousecaseRsaImport < usecase then some ⟨2, userData, importedExponents⟩
  else if !isRsaSizeValid usecase size then some ⟨2, userData, importedExponents⟩
  else do
    let out ← gcmDecryptKey engine deviceId userData size userData key.sealedKek key.wrappedKey
      (rsausecaseToCryptousecase usecase) true
    if out.size = 0 then return ⟨2, userData, importedExponents⟩
    else if usecase = 0 then return ⟨0, out.dst, importedExponents⟩
    else
      let id ← exponentId usecase
      return ⟨0, userData, importedExponents.set id (out.dst.take 0x100)⟩

/-- A key that was wrapped for `user_encrypt_rsa_key_for_import`. -/
def SealedKey.wrap (engine : AesEngine) (random : List UInt8) (key : SealedKey) (src pad : List UInt8) (deviceId : Nat)
    (high : UInt8) : List UInt8 :=
  wrappedBlob (engine.cipher (engine.unwrapKey key.sealedKek key.wrappedKey cryptousecaseRsaImport)) random
    (wrappedPlaintext src pad deviceId high)

/-- The bytes of a key that a usecase takes. -/
def importedPart (usecase : Nat) (src : List UInt8) : List UInt8 := if usecase &&& 7 = 0 then src else src.take 0x100

/-- What an import of `src` leaves behind. -/
def importOf (usecase : Nat) (src userData : List UInt8) (importedExponents : List (List UInt8)) :
    Option ImportResult :=
  if usecase &&& 7 = 0 then some ⟨0, splice userData 0 src, importedExponents⟩
  else (exponentId (usecase &&& 7)).map fun id => ⟨0, userData, importedExponents.set id (importedPart usecase src)⟩

section Import

variable {engine : AesEngine} {deviceId usecase : Nat} {random : List UInt8} {high : UInt8} {inKey outKey : SealedKey}

/-- Zeros that were wrapped are the key itself if and only if that is all zeros. -/
lemma gcmDecryptKey_wrappedZeros_iff {src sealedKek wrappedKey : List UInt8} {dstSize usecase : Nat}
    (hid : deviceId < 2 ^ 56) (hrandom : random.length = 0x10) (hsize : src.length + 0x30 ≤ dstSize)
    (dst : List UInt8) :
    gcmDecryptKey engine deviceId dst dstSize (wrappedBlob (engine.cipher
        (engine.unwrapKey sealedKek wrappedKey usecase))
        random (wrappedZeros src.length deviceId high)) sealedKek wrappedKey usecase true =
      some ⟨src.length, splice dst 0 src, some high⟩ ↔ 0 < src.length ∧ ∀ b ∈ src, b = 0 := by
  rcases Nat.eq_zero_or_pos src.length with hzero | hpos
  · rw [hzero, gcmDecryptKey_wrapped_zero hrandom]
    exact iff_of_false nofun fun h => absurd h.1 (Nat.lt_irrefl 0)
  · rw [gcmDecryptKey_wrappedZeros dst high rfl hrandom hid hpos hsize]
    constructor
    · intro h
      have hsrc := splice_zero_inj List.length_replicate (congrArg DecryptResult.dst (Option.some.inj h))
      exact ⟨hpos, (List.eq_replicate_iff.mp hsrc.symm).2⟩
    · rintro ⟨-, hall⟩
      rw [← List.eq_replicate_iff.mpr ⟨rfl, hall⟩]

/-- The sizes of the keys that are wrapped for a usecase. -/
lemma size_of_isRsaSizeValid {n : Nat} (hvalid : isRsaSizeValid (usecase &&& 7) (n + 0x30) = true) :
    0 < n ∧ n + 0x30 ≤ 0x240 ∧ (usecase &&& 7 ≠ 0 → 0x100 ≤ n) := by
  rw [isRsaSizeValid] at hvalid
  split at hvalid
  · next hzero =>
    have hbounds := of_decide_eq_true hvalid
    exact ⟨by omega, hbounds.2, fun hne => absurd hzero hne⟩
  · have hbounds := of_decide_eq_true hvalid
    exact ⟨by omega, hbounds.2, fun _ => by omega⟩

/-- `user_encrypt_rsa_key_for_import` wraps zeros in the place of the key that it gets. -/
lemma userEncryptRsaKeyForImport_wrap {src pad random' : List UInt8} (hid : deviceId < 2 ^ 56)
    (hrandom : random.length = 0x10) (hpad : pad.length = 8) (hrandom' : random'.length = 0x10)
    (husecase : usecase &&& 7 ≤ cryptousecaseRsaImport)
    (hvalid : isRsaSizeValid (usecase &&& 7) (src.length + 0x30) = true) :
    userEncryptRsaKeyForImport engine deviceId random inKey outKey usecase
        (inKey.wrap engine random' src pad deviceId high) =
      some (0, wrappedBlob (engine.cipher (engine.unwrapKey outKey.sealedKek outKey.wrappedKey
        (rsausecaseToCryptousecase (usecase &&& 7)))) random (wrappedZeros src.length deviceId high)) := by
  obtain ⟨hpos, hmax, -⟩ := size_of_isRsaSizeValid hvalid
  have hin : (inKey.wrap engine random' src pad deviceId high).length = src.length + 0x30 := by
    rw [SealedKey.wrap, length_wrappedBlob _ _ hrandom', length_wrappedPlaintext _ hpad]
  have hout := length_wrappedBlob (engine.cipher (engine.unwrapKey outKey.sealedKek outKey.wrappedKey
    (rsausecaseToCryptousecase (usecase &&& 7)))) (wrappedZeros src.length deviceId high) hrandom
  rw [length_wrappedZeros] at hout
  have hdecrypt := gcmDecryptKey_wrapped (inKey.wrap engine random' src pad deviceId high) high
    (rfl : engine.cipher (engine.unwrapKey inKey.sealedKek inKey.wrappedKey cryptousecaseRsaImport) = _)
    hrandom' hpad hid hpos le_rfl
  rw [← SealedKey.wrap] at hdecrypt
  rw [userEncryptRsaKeyForImport, hin, if_neg (Nat.not_lt.mpr husecase), hvalid, hdecrypt]
  simp only [Bool.not_true, Bool.false_eq_true, if_false, Option.bind_eq_bind, Option.bind_some]
  rw [if_neg hpos.ne', Nat.add_sub_cancel, Option.getD_some, gcmEncryptKey_eq hrandom le_rfl (by omega),
    Option.bind_some,
    splice, List.take_zero, List.nil_append, List.drop_of_length_le
      (by rw [hout, length_splice (by omega), hin]; omega),
    List.append_nil]
  rfl

/-- `user_decrypt_or_import_rsa_key` takes zeros for the key, where zeros were wrapped. -/
lemma userDecryptOrImportRsaKey_wrapped {n : Nat} {out : List UInt8} (importedExponents : List (List UInt8))
    (hid : deviceId < 2 ^ 56) (hrandom : random.length = 0x10)
    (husecase : usecase &&& 7 ≤ cryptousecaseRsaImport)
    (hvalid : isRsaSizeValid (usecase &&& 7) (n + 0x30) = true)
    (hout : out = wrappedBlob (engine.cipher (engine.unwrapKey outKey.sealedKek outKey.wrappedKey
      (rsausecaseToCryptousecase (usecase &&& 7)))) random (wrappedZeros n deviceId high)) :
    userDecryptOrImportRsaKey engine deviceId outKey usecase out importedExponents =
      importOf usecase (List.replicate n 0) out importedExponents := by
  obtain ⟨hpos, hmax, hexponent⟩ := size_of_isRsaSizeValid hvalid
  have hlen : out.length = n + 0x30 := by rw [hout, length_wrappedBlob _ _ hrandom, length_wrappedZeros]
  have hdecrypt := @gcmDecryptKey_wrappedZeros engine _ random n deviceId _ _ _ _ out high (rfl :
    engine.cipher (engine.unwrapKey
    outKey.sealedKek outKey.wrappedKey (rsausecaseToCryptousecase (usecase &&& 7))) = _) hrandom hid hpos le_rfl
  rw [← hout] at hdecrypt
  rw [userDecryptOrImportRsaKey, hlen, if_neg (Nat.not_lt.mpr husecase), hvalid, hdecrypt, importOf]
  simp only [Bool.not_true, Bool.false_eq_true, if_false, Option.bind_eq_bind, Option.bind_some]
  rw [if_neg hpos.ne']
  split
  · rfl
  · next hne =>
    have htake : (splice out 0 (List.replicate n (0 : UInt8))).take 0x100 =
        importedPart usecase (List.replicate n 0) := by
      obtain ⟨k, rfl⟩ := Nat.exists_eq_add_of_le (hexponent hne)
      rw [importedPart, if_neg hne, splice, List.take_zero, List.nil_append, ← List.replicate_append_replicate,
        List.append_assoc, List.take_left' List.length_replicate, List.take_left' List.length_replicate]
    rw [htake]
    cases exponentId (usecase &&& 7) with
    | none => rfl
    | some id => rfl

/-- An import of zeros is that of a key exactly if the part that is taken is zeros. -/
lemma importOf_zeros_iff {src out : List UInt8} {importedExponents : List (List UInt8)}
    (hexponents : importedExponents.length = 4) (husecase : usecase &&& 7 ≤ cryptousecaseRsaImport) :
    importOf usecase (List.replicate src.length 0) out importedExponents = importOf usecase src out importedExponents ↔
      ∀ b ∈ importedPart usecase src, b = 0 := by
  have hzeros : importedPart usecase (List.replicate src.length 0) =
      List.replicate (importedPart usecase src).length 0 := by
    rw [importedPart, importedPart]
    split
    · rfl
    · rw [List.take_replicate, List.length_take]
  have hall : importedPart usecase (List.replicate src.length 0) = importedPart usecase src ↔
      ∀ b ∈ importedPart usecase src, b = 0 := by
    rw [hzeros, eq_comm, List.eq_replicate_iff]
    exact and_iff_right rfl
  rw [← hall, importOf, importOf]
  split
  · next hzero =>
    rw [importedPart, importedPart, if_pos hzero, if_pos hzero, Option.some.injEq, ImportResult.mk.injEq]
    exact ⟨fun h => splice_zero_inj List.length_replicate h.2.1, fun h => ⟨rfl, by rw [h], rfl⟩⟩
  · next hne =>
    obtain ⟨id, hid4, hid⟩ : ∃ id < 4, exponentId (usecase &&& 7) = some id := by
      have hle : usecase &&& 7 ≤ 4 := husecase
      interval_cases usecase &&& 7
      · exact absurd rfl hne
      · exact ⟨1, by decide, rfl⟩
      · exact ⟨0, by decide, rfl⟩
      · exact ⟨2, by decide, rfl⟩
      · exact ⟨3, by decide, rfl⟩
    rw [hid, Option.map_some, Option.map_some, Option.some.injEq, ImportResult.mk.injEq]
    refine ⟨fun h => ?_, fun h => ⟨rfl, rfl, by rw [h]⟩⟩
    have hget := congrArg (·[id]?) h.2.2
    rw [List.getElem?_set_self (by omega), List.getElem?_set_self (by omega)] at hget
    exact Option.some.inj hget

end Import

/-- A key that is wrapped comes back from `gcm_decrypt_key` exactly if it has bytes and they are zeros, and from the
two calls of the monitor, however it was wrapped for the first, exactly if the part that the usecase takes is zeros. -/
theorem rsaImport_keeps_iff (engine : AesEngine) (deviceId : Nat) (high : UInt8) (random : List UInt8)
    (hid : deviceId < 2 ^ 56) (hrandom : random.length = 0x10) :
    (∀ (src dst dst' sealedKek wrappedKey sealedKek' wrappedKey' : List UInt8)
      (dstSize dstSize' usecase usecase' : Nat),
      engine.unwrapKey sealedKek wrappedKey usecase = engine.unwrapKey sealedKek' wrappedKey' usecase' →
      src.length + 0x30 ≤ 0x240 → src.length + 0x30 ≤ dstSize → src.length + 0x30 ≤ dstSize' →
      ∃ out, gcmEncryptKey engine deviceId random dst dstSize src src.length sealedKek wrappedKey usecase
          high.toNat = some out ∧
        (gcmDecryptKey engine deviceId dst' dstSize' (slice out 0 (src.length + 0x30)) sealedKek' wrappedKey'
            usecase' true = some ⟨src.length, splice dst' 0 src, some high⟩ ↔
          0 < src.length ∧ ∀ b ∈ src, b = 0)) ∧
    ∀ (src pad random' : List UInt8) (inKey outKey : SealedKey) (usecase : Nat) (importedExponents : List (List UInt8)),
      pad.length = 8 → random'.length = 0x10 → importedExponents.length = 4 →
      usecase &&& 7 ≤ cryptousecaseRsaImport → isRsaSizeValid (usecase &&& 7) (src.length + 0x30) = true →
      ∃ out, userEncryptRsaKeyForImport engine deviceId random inKey outKey usecase
          (inKey.wrap engine random' src pad deviceId high) = some (0, out) ∧
        (userDecryptOrImportRsaKey engine deviceId outKey usecase out importedExponents =
            importOf usecase src out importedExponents ↔ ∀ b ∈ importedPart usecase src, b = 0) := by
  constructor
  · intro src dst dst' sealedKek wrappedKey sealedKek' wrappedKey' dstSize dstSize' usecase usecase' hkey hn hsize
      hsize'
    have hlen := length_wrappedBlob (engine.cipher (engine.unwrapKey sealedKek wrappedKey usecase))
      (wrappedZeros src.length deviceId high) hrandom
    rw [length_wrappedZeros] at hlen
    refine ⟨_, gcmEncryptKey_eq hrandom hsize (by omega), ?_⟩
    rw [show src.length + 0x30 = src.length + 0x10 + 0x20 from rfl, ← hlen, slice, List.drop_zero, take_splice_zero,
      hkey]
    exact gcmDecryptKey_wrappedZeros_iff hid hrandom hsize' dst'
  · intro src pad random' inKey outKey usecase importedExponents hpad hrandom' hexponents husecase hvalid
    refine ⟨_, userEncryptRsaKeyForImport_wrap hid hrandom hpad hrandom' husecase hvalid, ?_⟩
    rw [userDecryptOrImportRsaKey_wrapped importedExponents hid hrandom husecase hvalid rfl]
    exact importOf_zeros_iff hexponents husecase

/-- An engine whose cipher leaves a block as it is. -/
def plainEngine : AesEngine where
  Key := Unit
  cipher _ :=
    { encrypt := fun block => (block ++ List.replicate 0x10 0).take 0x10
      length_encrypt := fun block => by
        rw [List.length_take, List.length_append, List.length_replicate]
        omega }
  unwrapKey _ _ _ := ()

/-- A key of 0x100 zeros is unwrapped to itself, and imported. -/
theorem rsaImport_keeps_zeros :
    (∃ out, gcmEncryptKey plainEngine 5 (List.replicate 0x10 1) [] 0x130 (List.replicate 0x100 0) 0x100 [] [] 1
        (7 : UInt8).toNat = some out ∧
      gcmDecryptKey plainEngine 5 [] 0x130 (slice out 0 0x130) [] [] 1 true =
        some ⟨0x100, splice [] 0 (List.replicate 0x100 0), some 7⟩) ∧
    ∃ out, userEncryptRsaKeyForImport plainEngine 5 (List.replicate 0x10 1) ⟨[], []⟩ ⟨[], []⟩ 1
        ((⟨[], []⟩ : SealedKey).wrap plainEngine (List.replicate 0x10 2) (List.replicate 0x100 0)
          (List.replicate 8 0) 5 7) = some (0, out) ∧
      userDecryptOrImportRsaKey plainEngine 5 ⟨[], []⟩ 1 out [[], [], [], []] =
        some ⟨0, out, [[], (List.replicate 0x100 0).take 0x100, [], []]⟩ := by
  have hlen : (List.replicate 0x100 (0 : UInt8)).length = 0x100 := List.length_replicate
  have hzeros (k : Nat) : ∀ b ∈ (List.replicate 0x100 (0 : UInt8)).take k, b = 0 := fun b hb =>
    List.eq_of_mem_replicate (List.mem_of_mem_take hb)
  obtain ⟨hgcm, hsmc⟩ := rsaImport_keeps_iff plainEngine 5 7 (List.replicate 0x10 1) (by decide) List.length_replicate
  constructor
  · have hback := hgcm (List.replicate 0x100 0) [] [] [] [] [] [] 0x130 0x130 1 1 rfl (by rw [hlen]; decide)
      (by rw [hlen]) (by rw [hlen])
    rw [hlen] at hback
    obtain ⟨out, hout, hiff⟩ := hback
    exact ⟨out, hout, hiff.mpr ⟨by decide, fun b hb => List.eq_of_mem_replicate hb⟩⟩
  · obtain ⟨out, hout, hiff⟩ := hsmc (List.replicate 0x100 0) (List.replicate 8 0) (List.replicate 0x10 2) ⟨[], []⟩
      ⟨[], []⟩ 1 [[], [], [], []] List.length_replicate List.length_replicate rfl (by decide)
      (by rw [hlen]; decide)
    exact ⟨out, hout, hiff.mpr (hzeros 0x100)⟩

/-- A key of the byte 1 is unwrapped to the byte 0. -/
theorem rsaImport_loses :
    ∃ out, gcmEncryptKey plainEngine 5 (List.replicate 0x10 1) [] 0x31 [1] 1 [] [] 1 (7 : UInt8).toNat = some out ∧
      gcmDecryptKey plainEngine 5 [] 0x31 (slice out 0 0x31) [] [] 1 true = some ⟨1, [0], some 7⟩ ∧
      gcmDecryptKey plainEngine 5 [] 0x31 (slice out 0 0x31) [] [] 1 true ≠ some ⟨1, splice [] 0 [1], some 7⟩ := by
  have hrandom : (List.replicate 0x10 (1 : UInt8)).length = 0x10 := List.length_replicate
  have hslice : slice (splice [] 0 (wrappedBlob (plainEngine.cipher ()) (List.replicate 0x10 1)
      (wrappedZeros 1 5 7))) 0 0x31 =
      wrappedBlob (plainEngine.cipher ()) (List.replicate 0x10 1) (wrappedZeros 1 5 7) := by
    have hlen := length_wrappedBlob (plainEngine.cipher ()) (wrappedZeros 1 5 7) hrandom
    rw [length_wrappedZeros] at hlen
    rw [splice, List.take_zero, List.nil_append, List.drop_nil, List.append_nil]
    exact List.take_of_length_le hlen.le
  refine ⟨_, gcmEncryptKey_eq hrandom le_rfl (by decide), ?_⟩
  have hresult : gcmDecryptKey plainEngine 5 [] 0x31 (wrappedBlob (plainEngine.cipher ())
      (List.replicate 0x10 1) (wrappedZeros 1 5 7)) [] [] 1 true = some ⟨1, [0], some 7⟩ :=
    gcmDecryptKey_wrappedZeros [] 7 rfl hrandom (by decide) (by decide) le_rfl
  rw [← hslice] at hresult
  refine ⟨hresult, fun h => ?_⟩
  exact absurd (hresult.symm.trans h) (by decide)

end RajNX.Exosphere
