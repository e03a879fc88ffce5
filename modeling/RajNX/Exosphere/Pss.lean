import RajNX.Lib.RsaPadding
import RajNX.Lib.Splice

/-!
# The signature of package2

`se_rsa2048_pss_verify` of `se.c`. What RSA makes of the signature is a message of 0x100 bytes, which is
unmasked in place and then compared with the data. Neither the hash nor the exponentiation is looked into.

The function accepts the messages that are encodings of the data in the sense of RFC 8017, whatever their
first bit is.
-/

namespace RajNX.Exosphere

open BigEndian Mask Mgf1 RsaPadding Splice

/-- `se_synchronous_exp_mod` on RSA-2048, with a modulus, an exponent and a base. -/
structure RsaEngine where
  expMod : List UInt8 → List UInt8 → List UInt8 → List UInt8
  length_expMod (modulus exponent base : List UInt8) : (expMod modulus exponent base).length = 0x100

/-- A chunk of the masked DB that is xored with a hash. -/
def xorChunk (mgf1Buf : List UInt8) (ofs : Nat) (message : List UInt8) : List UInt8 :=
  message.mapIdx fun i b =>
    if ofs ≤ i ∧ i < ofs + 0x20 ∧ i < 0xDF then b ^^^ mgf1Buf.getD (i - ofs) 0 else b

/-- The loop that decrypts the masked DB. The last byte of `h_buf` is the counter. -/
def inlineMgf1 (sha : HashFunction 0x20) : Nat → Nat → UInt8 → List UInt8 → List UInt8 → List UInt8 × List UInt8
  | 0, _, _, hBuf, message => (hBuf, message)
  | fuel + 1, ofs, seed, hBuf, message =>
    if ofs < 0xDF then
      let hBuf := hBuf.set 0x23 seed
      inlineMgf1 sha fuel (ofs + 0x20) (seed + 1) hBuf (xorChunk (sha.digest hBuf) ofs message)
    else (hBuf, message)

/-- The part of `se_rsa2048_pss_verify` behind the exponentiation. -/
def pssVerifyMessage (sha : HashFunction 0x20) (message data : List UInt8) : Bool :=
  if message.getD 0xFF 0 ≠ 0xBC then false
  else
    let hBuf := splice (List.replicate 0x24 0) 0 (slice message 0xDF 0x20)
    let (hBuf, message) := inlineMgf1 sha 8 0 0 hBuf message
    let message := message.modifyHead (· &&& 0x7F)
    if message.take 0xBE ≠ List.replicate 0xBE 0 then false
    else if message.getD 0xBE 0 ≠ 1 then false
    else
      let validateBuf := splice (List.replicate 0x48 0) 8 (sha.digest data)
      let validateBuf := splice validateBuf 0x28 (slice message 0xBF 0x20)
      hBuf.take 0x20 = sha.digest validateBuf

/-- `se_rsa2048_pss_verify` -/
def seRsa2048PssVerify (sha : HashFunction 0x20) (rsa : RsaEngine) (signature modulus data : List UInt8) : Bool :=
  pssVerifyMessage sha (rsa.expMod modulus [0x00, 0x01, 0x00, 0x01] signature) data

section Verify

variable {sha : HashFunction 0x20} {h message data salt : List UInt8}

/-- A counter that is one byte long. -/
lemma beBytes_four {j : Nat} (hj : j < 256) : beBytes 4 j = [0, 0, 0, .ofNat j] := by
  have hdiv : j / 256 = 0 := Nat.div_eq_of_lt hj
  simp only [beBytes, LittleEndian.leBytes, hdiv]
  rfl

lemma set_counter (hlen : h.length = 0x20) (x seed : UInt8) :
    (h ++ [0, 0, 0, x]).set 0x23 seed = h ++ [0, 0, 0, seed] := by
  rw [List.set_append_right _ _ (by omega), hlen]
  rfl

/-- A message whose masked DB is unmasked from an offset on. -/
def unmaskFrom (sha : HashFunction 0x20) (h : List UInt8) (ofs : Nat) (message : List UInt8) : List UInt8 :=
  message.mapIdx fun i b => if ofs ≤ i ∧ i < 0xDF then b ^^^ (mgf1 sha h 0xDF).getD i 0 else b

lemma unmaskFrom_end {ofs : Nat} (hofs : 0xDF ≤ ofs) : unmaskFrom sha h ofs message = message := by
  apply List.ext_getElem?
  intro i
  have hno : ¬(ofs ≤ i ∧ i < 0xDF) := by omega
  rw [unmaskFrom, List.getElem?_mapIdx]
  cases message[i]? with
  | none => rfl
  | some b => exact congrArg some (if_neg hno)

/-- One chunk, and then the rest. -/
lemma unmaskFrom_chunk {j : Nat} (hj : j < 7) :
    unmaskFrom sha h (0x20 * (j + 1)) (xorChunk (sha.digest (h ++ [0, 0, 0, .ofNat j])) (0x20 * j) message) =
      unmaskFrom sha h (0x20 * j) message := by
  apply List.ext_getElem?
  intro i
  rw [unmaskFrom, unmaskFrom, xorChunk, List.getElem?_mapIdx, List.getElem?_mapIdx, List.getElem?_mapIdx]
  cases message[i]? with
  | none => rfl
  | some b =>
    dsimp only [Option.map_some]
    by_cases hchunk : 0x20 * j ≤ i ∧ i < 0x20 * j + 0x20 ∧ i < 0xDF
    · have hdiv : i / 0x20 = j := by omega
      have hmod : i % 0x20 = i - 0x20 * j := by omega
      have hnext : ¬(0x20 * (j + 1) ≤ i ∧ i < 0xDF) := by omega
      rw [if_pos hchunk, if_neg hnext, if_pos ⟨hchunk.1, hchunk.2.2⟩, List.getD_eq_getElem?_getD,
        List.getD_eq_getElem?_getD, getElem?_mgf1 _ _ (by decide) hchunk.2.2, hdiv, hmod,
        beBytes_four (by omega)]
    · rw [if_neg hchunk]
      by_cases hrest : 0x20 * (j + 1) ≤ i ∧ i < 0xDF
      · rw [if_pos hrest, if_pos (by omega)]
      · rw [if_neg hrest, if_neg (by omega)]

/-- The loop unmasks the message and leaves the hash in `h_buf`. -/
lemma inlineMgf1_eq (sha : HashFunction 0x20) (message : List UInt8) (hlen : h.length = 0x20) {fuel j : Nat}
    (hfuel : 7 ≤ j + fuel) (hj : j ≤ 7) (x : UInt8) :
    ∃ x', inlineMgf1 sha fuel (0x20 * j) (.ofNat j) (h ++ [0, 0, 0, x]) message =
      (h ++ [0, 0, 0, x'], unmaskFrom sha h (0x20 * j) message) := by
  induction fuel generalizing j x message with
  | zero =>
    refine ⟨x, ?_⟩
    rw [unmaskFrom_end (by omega)]
    rfl
  | succ fuel ih =>
    rw [inlineMgf1]
    split
    · next hofs =>
      have hseed : UInt8.ofNat j + 1 = .ofNat (j + 1) := (UInt8.ofNat_add j 1).symm
      obtain ⟨x', hrest⟩ := ih (xorChunk (sha.digest (h ++ [0, 0, 0, .ofNat j])) (0x20 * j) message)
        (show 7 ≤ j + 1 + fuel by omega) (by omega) (.ofNat j)
      refine ⟨x', ?_⟩
      dsimp only
      rw [set_counter hlen, hseed, ← unmaskFrom_chunk (by omega)]
      exact hrest
    · next hofs => exact ⟨x, by rw [unmaskFrom_end (by omega)]⟩

/-- An unmasked message, in its two parts. -/
lemma unmaskFrom_zero (hlen : message.length = 0x100) :
    unmaskFrom sha h 0 message = mask (message.take 0xDF) (mgf1 sha h 0xDF) ++ message.drop 0xDF := by
  have hmask := length_mgf1 sha h 0xDF (by decide)
  have htake : (message.take 0xDF).length = 0xDF := by
    rw [List.length_take]
    omega
  have hmasked : (mask (message.take 0xDF) (mgf1 sha h 0xDF)).length = 0xDF := by
    rw [length_mask (by omega), htake]
  apply List.ext_getElem?
  intro i
  rw [unmaskFrom, List.getElem?_mapIdx]
  rcases Nat.lt_or_ge i 0xDF with hi | hi
  · have hlt : i < message.length := by omega
    have hbyte : (message.take 0xDF).getD i 0 = message[i] := by
      rw [List.getD_eq_getElem?_getD, List.getElem?_take, if_pos hi, List.getElem?_eq_getElem hlt]
      rfl
    rw [List.getElem?_append_left (by omega), getElem?_mask _ _ _ (by omega) (by omega), hbyte,
      List.getElem?_eq_getElem hlt, Option.map_some, if_pos ⟨Nat.zero_le i, hi⟩]
  · rw [List.getElem?_append_right (by omega), hmasked, List.getElem?_drop, Nat.add_sub_cancel' hi]
    have hno : ¬(0 ≤ i ∧ i < 0xDF) := by omega
    cases message[i]? with
    | none => rfl
    | some b => exact congrArg some (if_neg hno)

/-- A block of padding, the byte 1 and a salt. -/
def saltBlock (salt : List UInt8) : List UInt8 := List.replicate 0xBE 0 ++ 1 :: salt

/-- The check of the padding. -/
lemma eq_saltBlock_iff {db : List UInt8} (hlen : db.length = 0xDF) :
    db.take 0xBE = List.replicate 0xBE 0 ∧ db.getD 0xBE 0 = 1 ↔ db = saltBlock (db.drop 0xBF) := by
  have hget : db.drop 0xBE = db.getD 0xBE 0 :: db.drop 0xBF := by
    rw [List.drop_eq_getElem_cons (by omega), List.getD_eq_getElem?_getD, List.getElem?_eq_getElem (by omega)]
    rfl
  constructor
  · rintro ⟨htake, hone⟩
    rw [saltBlock, ← htake, ← hone, ← hget, List.take_append_drop]
  · intro hdb
    have htake : db.take 0xBE = List.replicate 0xBE 0 := by
      rw [hdb, saltBlock, List.take_left' List.length_replicate]
    have hdrop : db.drop 0xBE = 1 :: db.drop 0xBF := by
      nth_rewrite 1 [hdb]
      rw [saltBlock, List.drop_left' List.length_replicate]
    rw [hget] at hdrop
    exact ⟨htake, (List.cons.inj hdrop).1⟩

/-- The masked DB of a message without its mask. -/
def unmaskedDb (sha : HashFunction 0x20) (message : List UInt8) : List UInt8 :=
  clearTop 1 (mask (message.take 0xDF) (mgf1 sha (slice message 0xDF 0x20) 0xDF))

lemma length_unmaskedDb (sha : HashFunction 0x20) (hlen : message.length = 0x100) :
    (unmaskedDb sha message).length = 0xDF := by
  have hmask := length_mgf1 sha (slice message 0xDF 0x20) 0xDF (by decide)
  have htake : (message.take 0xDF).length = 0xDF := by
    rw [List.length_take]
    omega
  rw [unmaskedDb, length_clearTop, length_mask (by omega), htake]

/-- What is in the buffers when the padding is looked at. -/
lemma inlineMgf1_message (sha : HashFunction 0x20) (hlen : message.length = 0x100) :
    ∃ x, inlineMgf1 sha 8 0 0 (splice (List.replicate 0x24 0) 0 (slice message 0xDF 0x20)) message =
        (slice message 0xDF 0x20 ++ [0, 0, 0, x],
          mask (message.take 0xDF) (mgf1 sha (slice message 0xDF 0x20) 0xDF) ++ message.drop 0xDF) := by
  have hslice : (slice message 0xDF 0x20).length = 0x20 := length_slice (by omega)
  have hbuf : splice (List.replicate 0x24 0) 0 (slice message 0xDF 0x20) =
      slice message 0xDF 0x20 ++ [0, 0, 0, 0] := by
    rw [splice, hslice]
    rfl
  obtain ⟨x, hloop⟩ := inlineMgf1_eq sha message hslice (show 7 ≤ 0 + 8 by decide) (by decide) 0
  refine ⟨x, ?_⟩
  rw [hbuf, ← unmaskFrom_zero hlen]
  exact hloop

/-- The three checks of the function. -/
lemma pssVerifyMessage_iff (hlen : message.length = 0x100) :
    pssVerifyMessage sha message data = true ↔ message.getD 0xFF 0 = 0xBC ∧
      unmaskedDb sha message = saltBlock ((unmaskedDb sha message).drop 0xBF) ∧
      slice message 0xDF 0x20 = sha.digest (List.replicate 8 0 ++ sha.digest data ++
        (unmaskedDb sha message).drop 0xBF) := by
  obtain ⟨x, hloop⟩ := inlineMgf1_message sha hlen
  have hslice : (slice message 0xDF 0x20).length = 0x20 := length_slice (by omega)
  have hdb := length_unmaskedDb sha hlen
  have hdrop : ((unmaskedDb sha message).drop 0xBF).length = 0x20 := by rw [List.length_drop, hdb]
  have hne : mask (message.take 0xDF) (mgf1 sha (slice message 0xDF 0x20) 0xDF) ≠ [] := by
    intro hnil
    rw [unmaskedDb, hnil] at hdb
    cases hdb
  have hhead : (mask (message.take 0xDF) (mgf1 sha (slice message 0xDF 0x20) 0xDF) ++
      message.drop 0xDF).modifyHead (· &&& 0x7F) = unmaskedDb sha message ++ message.drop 0xDF :=
    clearTop_append (n := 1) hne
  have hsalt : slice (unmaskedDb sha message ++ message.drop 0xDF) 0xBF 0x20 =
      (unmaskedDb sha message).drop 0xBF := by
    rw [slice, List.drop_append_of_le_length (by omega), List.take_left' hdrop]
  -- what is hashed at the end is eight zeros, the hash of the data and the salt
  have hvalidate : splice (splice (List.replicate 0x48 0) 8 (sha.digest data)) 0x28
      ((unmaskedDb sha message).drop 0xBF) =
      List.replicate 8 0 ++ sha.digest data ++ (unmaskedDb sha message).drop 0xBF := by
    have hhash := sha.length_digest data
    have hfirst : splice (List.replicate 0x48 0) 8 (sha.digest data) =
        List.replicate 8 0 ++ sha.digest data ++ List.replicate 0x20 0 := by
      rw [splice, hhash]
      rfl
    have hlen' : (List.replicate 8 0 ++ sha.digest data).length = 0x28 := by
      rw [List.length_append, hhash, List.length_replicate]
    have hall : (List.replicate 8 0 ++ sha.digest data ++ List.replicate 0x20 0).length = 0x48 := by
      rw [List.length_append, hlen', List.length_replicate]
    rw [hfirst, splice, hdrop, List.take_left' hlen', List.drop_of_length_le hall.le, List.append_nil]
  have hone : (unmaskedDb sha message ++ message.drop 0xDF).getD 0xBE 0 =
      (unmaskedDb sha message).getD 0xBE 0 := by
    rw [List.getD_eq_getElem?_getD, List.getD_eq_getElem?_getD, List.getElem?_append_left (by omega)]
  have hhash : (slice message 0xDF 0x20 ++ [0, 0, 0, x]).take 0x20 = slice message 0xDF 0x20 :=
    List.take_left' hslice
  rw [pssVerifyMessage]
  dsimp only
  rw [hloop]
  dsimp only
  rw [hhead, List.take_append_of_le_length (by omega), hone, hsalt, hvalidate, hhash, ← eq_saltBlock_iff hdb]
  -- the checks in the order of the source
  split
  · next hbc => exact ⟨by rintro ⟨⟩, fun h => absurd h.1 hbc⟩
  · next hbc =>
    have hbc := not_not.mp hbc
    split
    · next hpad => exact ⟨by rintro ⟨⟩, fun h => absurd h.2.1.1 hpad⟩
    · next hpad =>
      have hpad := not_not.mp hpad
      split
      · next hone => exact ⟨by rintro ⟨⟩, fun h => absurd h.2.1.2 hone⟩
      · next hone =>
        constructor
        · intro h
          exact ⟨hbc, ⟨hpad, not_not.mp hone⟩, of_decide_eq_true h⟩
        · rintro ⟨-, -, h⟩
          exact decide_eq_true h

/-- An encoding of some data, in its three parts. -/
lemma isPssEncoding_iff (hlen : message.length = 0x100) :
    IsPssEncoding sha 2047 0x20 data (clearTop 1 message) ↔ ∃ salt, salt.length = 0x20 ∧ message.getD 0xFF 0 = 0xBC ∧
        slice message 0xDF 0x20 = sha.digest (List.replicate 8 0 ++ sha.digest data ++ salt) ∧
        clearTop 1 (message.take 0xDF) =
          clearTop 1 (mask (saltBlock salt) (mgf1 sha (slice message 0xDF 0x20) 0xDF)) := by
  have hslice : (slice message 0xDF 0x20).length = 0x20 := length_slice (by omega)
  have hparts : clearTop 1 message =
      clearTop 1 (message.take 0xDF) ++ (slice message 0xDF 0x20 ++ [message.getD 0xFF 0]) := by
    have hlast : message.drop 0xFF = [message.getD 0xFF 0] := by
      rw [List.drop_eq_getElem_cons (by omega), List.drop_of_length_le (by omega),
        List.getD_eq_getElem?_getD, List.getElem?_eq_getElem (by omega)]
      rfl
    have hrest : slice message 0xDF 0x20 ++ message.drop 0xFF = message.drop 0xDF := by
      have hdrop : message.drop 0xFF = (message.drop 0xDF).drop 0x20 := by rw [List.drop_drop]
      rw [slice, hdrop, List.take_append_drop]
    have hne : message.take 0xDF ≠ [] := by
      intro hnil
      have htake := congrArg List.length hnil
      rw [List.length_take, hlen] at htake
      cases htake
    rw [← hlast, hrest, ← clearTop_append hne, List.take_append_drop]
  have hencode : ∀ salt : List UInt8, salt.length = 0x20 → pssEncode sha 2047 data salt =
      clearTop 1 (mask (saltBlock salt)
        (mgf1 sha (sha.digest (List.replicate 8 0 ++ sha.digest data ++ salt)) 0xDF)) ++
      (sha.digest (List.replicate 8 0 ++ sha.digest data ++ salt) ++ [0xBC]) := by
    intro salt hsalt
    rw [← List.append_assoc, pssEncode, hsalt]
    rfl
  have hmask : ∀ salt seed : List UInt8, salt.length = 0x20 →
      (clearTop 1 (mask (saltBlock salt) (mgf1 sha seed 0xDF))).length = 0xDF := by
    intro salt seed hsalt
    have hblock : (saltBlock salt).length = 0xDF := by
      rw [saltBlock, List.length_append, List.length_replicate, List.length_cons, hsalt]
    rw [length_clearTop, length_mask (by rw [length_mgf1 _ _ _ (by decide), hblock]), hblock]
  have htake : (clearTop 1 (message.take 0xDF)).length = 0xDF := by
    rw [length_clearTop, List.length_take]
    omega
  constructor
  · rintro ⟨salt, hsalt, heq⟩
    rw [hparts, hencode salt hsalt] at heq
    obtain ⟨hdb, hrest⟩ := List.append_inj heq (htake.trans (hmask salt _ hsalt).symm)
    obtain ⟨hhash, hlast⟩ := List.append_inj hrest (hslice.trans (sha.length_digest _).symm)
    rw [← hhash] at hdb
    exact ⟨salt, hsalt, (List.cons.inj hlast).1, hhash, hdb⟩
  · rintro ⟨salt, hsalt, hlast, hhash, hdb⟩
    refine ⟨salt, hsalt, ?_⟩
    rw [hparts, hencode salt hsalt, hdb, hlast, ← hhash]

lemma clearTop_saltBlock : clearTop 1 (saltBlock salt) = saltBlock salt := rfl

end Verify

/-- `se_rsa2048_pss_verify` accepts a signature if and only if what RSA makes of it, with its top bit cleared,
is an encoding of the data in the sense of EMSA-PSS. -/
theorem seRsa2048PssVerify_iff (sha : HashFunction 0x20) (rsa : RsaEngine) (signature modulus data : List UInt8) :
    seRsa2048PssVerify sha rsa signature modulus data = true ↔ IsPssEncoding sha 2047 0x20 data
        (clearTop 1 (rsa.expMod modulus [0x00, 0x01, 0x00, 0x01] signature)) := by
  have hlen := rsa.length_expMod modulus [0x00, 0x01, 0x00, 0x01] signature
  revert hlen
  rw [seRsa2048PssVerify]
  generalize rsa.expMod modulus [0x00, 0x01, 0x00, 0x01] signature = message
  intro hlen
  have hmgf := length_mgf1 sha (slice message 0xDF 0x20) 0xDF (by decide)
  have htake : (message.take 0xDF).length = 0xDF := by
    rw [List.length_take]
    omega
  have hiff : ∀ salt : List UInt8, salt.length = 0x20 → (unmaskedDb sha message = saltBlock salt ↔
      clearTop 1 (message.take 0xDF) =
        clearTop 1 (mask (saltBlock salt) (mgf1 sha (slice message 0xDF 0x20) 0xDF))) := by
    intro salt hsalt
    apply clearTop_mask_eq_iff clearTop_saltBlock
    · rw [htake, hmgf]
    · rw [saltBlock, List.length_append, List.length_replicate, List.length_cons, hsalt, hmgf]
  rw [pssVerifyMessage_iff hlen, isPssEncoding_iff hlen]
  constructor
  · rintro ⟨hlast, hdb, hhash⟩
    have hsalt : ((unmaskedDb sha message).drop 0xBF).length = 0x20 := by
      rw [List.length_drop, length_unmaskedDb sha hlen]
    exact ⟨_, hsalt, hlast, hhash, (hiff _ hsalt).mp hdb⟩
  · rintro ⟨salt, hsalt, hlast, hhash, hdb⟩
    have hblock := (hiff salt hsalt).mpr hdb
    have hdrop : (unmaskedDb sha message).drop 0xBF = salt := by
      rw [hblock]
      rfl
    rw [hdrop]
    exact ⟨hlast, hblock, hhash⟩

end RajNX.Exosphere
