import RajNX.Lib.RsaPadding
import RajNX.Lib.Splice

/-!
# Title keys

`tkey_rsa_oaep_unwrap` of `titlekey.c`, which takes the wrapped title key out of a message that RSA has
decrypted. The message is unmasked in place. The hash that the security engine computes is any hash function
with hashes of 32 bytes.

The function accepts the messages of OAEP for the label that was set, with at least one byte of padding.
-/

namespace RajNX.Exosphere

open BigEndian Mask Mgf1 RsaPadding Splice

/-- `g_tkey_expected_label_hash` -/
structure LabelHash where
  bytes : List UInt8
  length_bytes : bytes.length = 0x20

/-- The loop of `calculate_mgf1_and_xor`, with the text that is left. -/
def mgf1AndXorLoop (sha : HashFunction 0x20) (seed : List UInt8) : Nat → Nat → List UInt8 → List UInt8
  | 0, _, masked => masked
  | fuel + 1, roundNum, masked =>
    if masked.length = 0 then masked
    else
      let curSize := if 0x20 < masked.length then 0x20 else masked.length
      let curHash := sha.digest (seed ++ beBytes 4 roundNum)
      mask (masked.take curSize) curHash ++ mgf1AndXorLoop sha seed fuel (roundNum + 1) (masked.drop curSize)

/-- `calculate_mgf1_and_xor`. It panics if the seed does not fit into its buffer. -/
def calculateMgf1AndXor (sha : HashFunction 0x20) (masked seed : List UInt8) : Option (List UInt8) :=
  if 0xE0 ≤ seed.length then none else some (mgf1AndXorLoop sha seed masked.length 0 masked)

/-- The loop that locates the wrapped title key in the DB. It fails on a byte that is neither 0 nor 1. -/
def wrappedKeyOffsetInDb : List UInt8 → Option Nat
  | [] => some 0
  | b :: db =>
    if b = 0 then (wrappedKeyOffsetInDb db).map (· + 1)
    else if b = 1 then some 1
    else none

/-- The part of `tkey_rsa_oaep_unwrap` behind the label: the size of the key that is extracted, and `dst`
with the key. -/
def extractWrappedKey (dst : List UInt8) (dstSize : Nat) (db : List UInt8) : Nat × List UInt8 :=
  if db.getD 0 0 ≠ 0 then (0, dst)
  else
    match wrappedKeyOffsetInDb db with
    | none => (0, dst)
    | some offset =>
      let size := 0xBF - offset
      if dstSize < size ∨ size = 0 then (0, dst) else (size, splice dst 0 (slice db offset size))

/-- What `tkey_rsa_oaep_unwrap` returns, with the buffers that it may write. -/
structure UnwrapResult where
  size : Nat
  dst : List UInt8
  src : List UInt8

/-- `tkey_rsa_oaep_unwrap`. It panics on a message of another size. -/
def tkeyRsaOaepUnwrap (sha : HashFunction 0x20) (label : LabelHash) (dst : List UInt8) (dstSize : Nat)
    (src : List UInt8) : Option UnwrapResult :=
  if src.length ≠ 0x100 then none
  else if src.getD 0 0 ≠ 0 then some ⟨0, dst, src⟩
  else do
    let salt ← calculateMgf1AndXor sha (slice src 1 0x20) (slice src 0x21 0xDF)
    let src := splice src 1 salt
    let db ← calculateMgf1AndXor sha (slice src 0x21 0xDF) (slice src 1 0x20)
    let src := splice src 0x21 db
    if slice src 0x21 0x20 ≠ label.bytes then return ⟨0, dst, src⟩
    else
      let (size, dst) := extractWrappedKey dst dstSize (slice src 0x41 0xBF)
      return ⟨size, dst, src⟩

/-- A message of OAEP with a key, for the label that was set and with padding. -/
def IsWrappedKey (sha : HashFunction 0x20) (label : LabelHash) (src key : List UInt8) : Prop :=
  src.head? = some 0 ∧ ∃ zeros, 0 < zeros ∧
    (oaepUnmask sha src).db = label.bytes ++ List.replicate zeros 0 ++ 1 :: key

section Unwrap

variable {sha : HashFunction 0x20} {label : LabelHash} {seed masked dst src db key : List UInt8}
  {dstSize : Nat}

lemma mgf1AndXorLoop_nil (fuel roundNum : Nat) : mgf1AndXorLoop sha seed fuel roundNum [] = [] := by
  cases fuel with
  | zero => rfl
  | succ fuel => rfl

/-- The loop puts the blocks of hashes on the text. -/
lemma mgf1AndXorLoop_eq {fuel roundNum n : Nat} (hfuel : masked.length ≤ fuel) (hn : masked.length ≤ n * 0x20) :
    mgf1AndXorLoop sha seed fuel roundNum masked =
      mask masked ((hashBlocks sha seed).blocks roundNum n) := by
  induction fuel generalizing roundNum masked n with
  | zero =>
    have hnil : masked = [] := List.eq_nil_of_length_eq_zero (by omega)
    subst hnil
    rfl
  | succ fuel ih =>
    rw [mgf1AndXorLoop]
    split
    · next hzero =>
      have hnil : masked = [] := List.eq_nil_of_length_eq_zero hzero
      subst hnil
      rfl
    · next hpos =>
      cases n with
      | zero => omega
      | succ n =>
        have hhash := sha.length_digest (seed ++ beBytes 4 roundNum)
        rw [BlockSource.blocks_succ, hashBlocks_block]
        dsimp only
        split
        · next hlong =>
          have htake : (masked.take 0x20).length = 0x20 := by
            rw [List.length_take]
            omega
          rw [ih (n := n) (by rw [List.length_drop]; omega) (by rw [List.length_drop]; omega),
            ← mask_append (htake.trans hhash.symm), List.take_append_drop]
        · next hshort =>
          rw [List.take_length, List.drop_length, mgf1AndXorLoop_nil, List.append_nil, mask_append_right (by omega)]

lemma calculateMgf1AndXor_eq (hseed : seed.length < 0xE0) :
    calculateMgf1AndXor sha masked seed = some (mask masked (mgf1 sha seed masked.length)) := by
  rw [calculateMgf1AndXor, if_neg (Nat.not_le.mpr hseed), mgf1, mask_take,
    mgf1AndXorLoop_eq le_rfl (BlockSource.le_ceil_mul masked.length (by decide))]

/-- Padding and the byte 1 are skipped. -/
lemma wrappedKeyOffsetInDb_padding (zeros : Nat) :
    wrappedKeyOffsetInDb (List.replicate zeros 0 ++ 1 :: key) = some (zeros + 1) := by
  induction zeros with
  | zero => rfl
  | succ zeros ih =>
    rw [List.replicate_succ, List.cons_append, wrappedKeyOffsetInDb, if_pos rfl, ih]
    rfl

/-- An offset before the end is behind padding and the byte 1. -/
lemma wrappedKeyOffsetInDb_eq_some {offset : Nat} (h : wrappedKeyOffsetInDb db = some offset)
    (hlt : offset < db.length) : ∃ zeros key, db = List.replicate zeros 0 ++ 1 :: key ∧ offset = zeros + 1 := by
  induction db generalizing offset with
  | nil => cases hlt
  | cons b db ih =>
    rw [wrappedKeyOffsetInDb] at h
    split at h
    · next hzero =>
      obtain ⟨offset, hoffset, rfl⟩ := Option.map_eq_some_iff.mp h
      obtain ⟨zeros, key, rfl, rfl⟩ := ih hoffset (Nat.lt_of_succ_lt_succ hlt)
      exact ⟨zeros + 1, key, by rw [hzero]; rfl, rfl⟩
    · split at h
      · next hone =>
        cases h
        exact ⟨0, db, by rw [hone]; rfl, rfl⟩
      · cases h

/-- A key behind padding is extracted if it fits. -/
lemma extractWrappedKey_padding {zeros : Nat} (hdb : db = List.replicate zeros 0 ++ 1 :: key)
    (hlen : db.length = 0xBF) (hzeros : 0 < zeros) (hpos : 0 < key.length) (hfits : key.length ≤ dstSize) :
    extractWrappedKey dst dstSize db = (key.length, splice dst 0 key) := by
  have hsum : zeros + (key.length + 1) = 0xBF := by
    rw [hdb, List.length_append, List.length_replicate, List.length_cons] at hlen
    exact hlen
  have hsize : 0xBF - (zeros + 1) = key.length := by omega
  have hkey : slice db (zeros + 1) key.length = key := by
    rw [hdb, slice, ← List.drop_drop, List.drop_left' List.length_replicate, List.drop_succ_cons,
      List.drop_zero, List.take_length]
  have hzero : db.getD 0 0 = 0 := by
    cases zeros with
    | zero => cases hzeros
    | succ zeros =>
      rw [hdb]
      rfl
  have hfirst : ¬db.getD 0 0 ≠ 0 := not_not.mpr hzero
  have hno : ¬(dstSize < key.length ∨ key.length = 0) := by omega
  have hoffset : wrappedKeyOffsetInDb db = some (zeros + 1) := by
    rw [hdb]
    exact wrappedKeyOffsetInDb_padding zeros
  rw [extractWrappedKey, if_neg hfirst, hoffset]
  dsimp only
  rw [hsize, if_neg hno, hkey]

/-- Nothing is extracted, or a key behind padding. -/
lemma extractWrappedKey_cases (dst : List UInt8) (dstSize : Nat) (hlen : db.length = 0xBF) :
    extractWrappedKey dst dstSize db = (0, dst) ∨
      ∃ zeros key, 0 < zeros ∧ db = List.replicate zeros 0 ++ 1 :: key ∧ 0 < key.length ∧
        key.length ≤ dstSize := by
  rw [extractWrappedKey]
  split
  · exact .inl rfl
  · next hzero =>
    split
    · exact .inl rfl
    · next offset hoffset =>
      dsimp only
      split
      · exact .inl rfl
      · next hfits =>
        obtain ⟨zeros, key, hdb, rfl⟩ := wrappedKeyOffsetInDb_eq_some hoffset (by omega)
        refine .inr ⟨zeros, key, ?_, hdb, ?_, ?_⟩
        · cases zeros with
          | zero =>
            rw [hdb] at hzero
            exact absurd (show (1 : UInt8) ≠ 0 by decide) hzero
          | succ zeros => exact Nat.succ_pos zeros
        all_goals
          rw [hdb, List.length_append, List.length_replicate, List.length_cons] at hlen
          omega

lemma length_oaepUnmask_db (sha : HashFunction 0x20) (hlen : src.length = 0x100) :
    (oaepUnmask sha src).db.length = 0xDF := by
  rw [oaepUnmask]
  dsimp only
  rw [length_mask (length_mgf1 _ _ _ (by decide)).ge, List.length_drop]
  omega

/-- A message is unmasked, and then its label and its key are looked at. -/
lemma tkeyRsaOaepUnwrap_eq (sha : HashFunction 0x20) (label : LabelHash) (dst : List UInt8)
    (dstSize : Nat) (hlen : src.length = 0x100) (hhead : src.head? = some 0) :
    ∃ src', tkeyRsaOaepUnwrap sha label dst dstSize src =
      some (if (oaepUnmask sha src).db.take 0x20 ≠ label.bytes then ⟨0, dst, src'⟩
        else ⟨(extractWrappedKey dst dstSize ((oaepUnmask sha src).db.drop 0x20)).1,
          (extractWrappedKey dst dstSize ((oaepUnmask sha src).db.drop 0x20)).2, src'⟩) := by
  have hdb := length_oaepUnmask_db sha hlen
  have hzero : ¬src.getD 0 0 ≠ 0 := by
    rw [List.getD_eq_getElem?_getD, ← List.head?_eq_getElem?, hhead]
    exact not_not.mpr rfl
  have hmaskedDB : slice src 0x21 0xDF = src.drop 0x21 :=
    List.take_of_length_le (by rw [List.length_drop]; omega)
  have hmaskedSeed : (slice src 1 0x20).length = 0x20 := length_slice (by omega)
  have hsalt : calculateMgf1AndXor sha (slice src 1 0x20) (slice src 0x21 0xDF) =
      some (oaepUnmask sha src).seed := by
    rw [calculateMgf1AndXor_eq (by rw [length_slice (by omega)]; decide), hmaskedSeed, hmaskedDB]
    rfl
  have hseed : (oaepUnmask sha src).seed.length = 0x20 := by
    have hmask := length_mgf1 sha (src.drop (0x20 + 1)) 0x20 (by decide)
    exact (length_mask (hmaskedSeed.trans hmask.symm).le).trans hmaskedSeed
  have hfits : 1 + (oaepUnmask sha src).seed.length ≤ src.length := by omega
  have hsrc : (splice src 1 (oaepUnmask sha src).seed).length = 0x100 := by rw [length_splice hfits, hlen]
  have hunmasked : calculateMgf1AndXor sha (slice (splice src 1 (oaepUnmask sha src).seed) 0x21 0xDF)
      (slice (splice src 1 (oaepUnmask sha src).seed) 1 0x20) = some (oaepUnmask sha src).db := by
    have hseed' : slice (splice src 1 (oaepUnmask sha src).seed) 1 0x20 = (oaepUnmask sha src).seed := by
      rw [slice_splice_of_inside (j := 0) hfits (by omega)]
      exact List.take_of_length_le hseed.le
    rw [slice_splice_of_apart hfits (by omega), hseed', calculateMgf1AndXor_eq (by omega), hmaskedDB]
    rfl
  have hfits' : 0x21 + (oaepUnmask sha src).db.length ≤ (splice src 1 (oaepUnmask sha src).seed).length := by omega
  have hlabel : slice (splice (splice src 1 (oaepUnmask sha src).seed) 0x21 (oaepUnmask sha src).db)
      0x21 0x20 = (oaepUnmask sha src).db.take 0x20 := slice_splice_of_inside (j := 0) hfits' (by omega)
  have hrest : slice (splice (splice src 1 (oaepUnmask sha src).seed) 0x21 (oaepUnmask sha src).db)
      0x41 0xBF = (oaepUnmask sha src).db.drop 0x20 := by
    rw [slice_splice_of_inside (j := 0x20) hfits' (by omega)]
    exact List.take_of_length_le (by rw [List.length_drop]; omega)
  refine ⟨splice (splice src 1 (oaepUnmask sha src).seed) 0x21 (oaepUnmask sha src).db, ?_⟩
  rw [tkeyRsaOaepUnwrap, if_neg (not_not.mpr hlen), if_neg hzero, hsalt, Option.bind_eq_bind, Option.bind_some]
  dsimp only
  rw [hunmasked, Option.bind_some, hlabel, hrest]
  split
  · rfl
  · rfl

/-- Another first byte is rejected. -/
lemma tkeyRsaOaepUnwrap_head (hlen : src.length = 0x100) (hhead : src.head? ≠ some 0) :
    tkeyRsaOaepUnwrap sha label dst dstSize src = some ⟨0, dst, src⟩ := by
  have hne : src.getD 0 0 ≠ 0 := by
    cases src with
    | nil => cases hlen
    | cons b src => exact fun h => hhead (congrArg some h)
  rw [tkeyRsaOaepUnwrap, if_neg (not_not.mpr hlen), if_pos hne]

/-- A message with a key that fits gives that key. -/
lemma IsWrappedKey.unwrap (h : IsWrappedKey sha label src key) (dst : List UInt8) (hlen : src.length = 0x100)
    (hpos : 0 < key.length) (hfits : key.length ≤ dstSize) :
    ∃ src', tkeyRsaOaepUnwrap sha label dst dstSize src = some ⟨key.length, splice dst 0 key, src'⟩ := by
  obtain ⟨hhead, zeros, hzeros, hdb⟩ := h
  obtain ⟨src', hresult⟩ := tkeyRsaOaepUnwrap_eq sha label dst dstSize hlen hhead
  have hlen' := length_oaepUnmask_db sha hlen
  have hlabel : (oaepUnmask sha src).db.take 0x20 = label.bytes := by
    rw [hdb, List.append_assoc, List.take_left' label.length_bytes]
  have hrest : (oaepUnmask sha src).db.drop 0x20 = List.replicate zeros 0 ++ 1 :: key := by
    rw [hdb, List.append_assoc, List.drop_left' label.length_bytes]
  refine ⟨src', ?_⟩
  rw [hresult, if_neg (not_not.mpr hlabel),
    extractWrappedKey_padding hrest (by rw [List.length_drop, hlen']) hzeros hpos hfits]

/-- Nothing is returned and nothing is written, or the message has a key that fits. -/
lemma tkeyRsaOaepUnwrap_cases (sha : HashFunction 0x20) (label : LabelHash) (dst : List UInt8)
    (dstSize : Nat) (hlen : src.length = 0x100) :
    (∃ src', tkeyRsaOaepUnwrap sha label dst dstSize src = some ⟨0, dst, src'⟩) ∨
      ∃ key, IsWrappedKey sha label src key ∧ 0 < key.length ∧ key.length ≤ dstSize := by
  by_cases hhead : src.head? = some 0
  · obtain ⟨src', hresult⟩ := tkeyRsaOaepUnwrap_eq sha label dst dstSize hlen hhead
    have hlen' := length_oaepUnmask_db sha hlen
    rw [hresult]
    split
    · exact .inl ⟨src', rfl⟩
    · next hlabel =>
      have hlen'' : ((oaepUnmask sha src).db.drop 0x20).length = 0xBF := by rw [List.length_drop, hlen']
      have hcases := extractWrappedKey_cases dst dstSize hlen''
      rcases hcases with hnone | ⟨zeros, key, hzeros, hdb, hpos, hfits⟩
      · exact .inl ⟨src', by rw [hnone]⟩
      · refine .inr ⟨key, ⟨hhead, zeros, hzeros, ?_⟩, hpos, hfits⟩
        rw [List.append_assoc, ← hdb, ← not_not.mp hlabel, List.take_append_drop]
  · exact .inl ⟨src, tkeyRsaOaepUnwrap_head hlen hhead⟩

end Unwrap

/-- `tkey_rsa_oaep_unwrap` returns the size of a key if and only if the message is one of OAEP with a key of
that size which fits, and then it has written that key. Otherwise it returns 0 and has written nothing. -/
theorem tkeyRsaOaepUnwrap_iff (sha : HashFunction 0x20) (label : LabelHash) (dst : List UInt8)
    (dstSize : Nat) (src : List UInt8) (hlen : src.length = 0x100) :
    ∃ result, tkeyRsaOaepUnwrap sha label dst dstSize src = some result ∧
      (∀ n, 0 < n → (result.size = n ↔ ∃ key, IsWrappedKey sha label src key ∧ key.length = n ∧ n ≤ dstSize)) ∧
      (∀ key, IsWrappedKey sha label src key → 0 < key.length → key.length ≤ dstSize → result.dst = splice dst 0 key) ∧
      (result.size = 0 → result.dst = dst) := by
  rcases tkeyRsaOaepUnwrap_cases sha label dst dstSize hlen with
    ⟨src', hresult⟩ | ⟨key, hkey, hpos, hfits⟩
  · have hno : ∀ key, IsWrappedKey sha label src key → 0 < key.length → key.length ≤ dstSize → False := by
      intro key hkey hpos hfits
      obtain ⟨src'', hunwrap⟩ := hkey.unwrap dst hlen hpos hfits
      have heq := Option.some.inj (hresult.symm.trans hunwrap)
      exact hpos.ne (congrArg UnwrapResult.size heq)
    refine ⟨_, hresult, ?_, fun key hkey hpos hfits => (hno key hkey hpos hfits).elim, fun _ => rfl⟩
    intro n hn
    constructor
    · intro h
      exact absurd h hn.ne
    · rintro ⟨key, hkey, rfl, hfits⟩
      exact (hno key hkey hn hfits).elim
  · obtain ⟨src', hresult⟩ := hkey.unwrap dst hlen hpos hfits
    have hsame : ∀ key', IsWrappedKey sha label src key' → 0 < key'.length → key'.length ≤ dstSize →
        key'.length = key.length ∧ splice dst 0 key' = splice dst 0 key := by
      intro key' hkey' hpos' hfits'
      obtain ⟨src'', hresult'⟩ := hkey'.unwrap dst hlen hpos' hfits'
      have heq := Option.some.inj (hresult'.symm.trans hresult)
      exact ⟨congrArg UnwrapResult.size heq, congrArg UnwrapResult.dst heq⟩
    refine ⟨_, hresult, ?_, ?_, fun h => absurd h hpos.ne'⟩
    · intro n hn
      constructor
      · rintro rfl
        exact ⟨key, hkey, rfl, hfits⟩
      · rintro ⟨key', hkey', rfl, hfits'⟩
        exact (hsame key' hkey' hn hfits').1.symm
    · intro key' hkey' hpos' hfits'
      exact (hsame key' hkey' hpos' hfits').2.symm

section Example

/-- A hash function that masks nothing. -/
def zeroHash : HashFunction 0x20 := ⟨fun _ => List.replicate 0x20 0, fun _ => List.length_replicate⟩

/-- A label of zeros. -/
def zeroLabel : LabelHash := ⟨List.replicate 0x20 0, List.length_replicate⟩

/-- A message with a key of 0x10 bytes. -/
def exampleMessage : List UInt8 := List.replicate 0xEF 0 ++ 1 :: List.replicate 0x10 7

lemma exampleMessage_isWrappedKey : IsWrappedKey zeroHash zeroLabel exampleMessage (List.replicate 0x10 7) :=
  ⟨rfl, 0xAE, by decide, by decide +kernel⟩

end Example

/-- The key of the example is unwrapped. -/
theorem tkeyRsaOaepUnwrap_example :
    ∃ result, tkeyRsaOaepUnwrap zeroHash zeroLabel (List.replicate 0x10 0) 0x10 exampleMessage = some result ∧
      result.size = 0x10 ∧ result.dst = List.replicate 0x10 7 := by
  obtain ⟨result, hresult, hsize, hdst, -⟩ := tkeyRsaOaepUnwrap_iff zeroHash zeroLabel
    (List.replicate 0x10 0) 0x10 exampleMessage (by decide +kernel)
  have hkey := exampleMessage_isWrappedKey
  refine ⟨result, hresult, (hsize 0x10 (by decide)).mpr ⟨_, hkey, rfl, le_rfl⟩, ?_⟩
  rw [hdst _ hkey (by decide) (by decide)]
  rfl

end RajNX.Exosphere
