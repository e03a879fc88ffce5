import RajNX.Exosphere.TitleKey

/-!
# The OAEP decoder of spl

`DecodeRsaOaep` and `CalcMgf1AndXor` of `spl_api_impl.cpp`. The decoder has no branches on the message: what is
wrong is gathered in masks. They are integers of the source that are only used bit by bit, and are words here.

It accepts the messages of OAEP for a label, among them all that `tkey_rsa_oaep_unwrap` accepts.
-/

namespace RajNX.Spl

open BigEndian Exosphere Mask Mgf1 RsaPadding Splice

/-- The loop of `CalcMgf1AndXor`, with the text that is left. -/
def calcMgf1AndXorLoop (sha : HashFunction 0x20) (src : List UInt8) : Nat → Nat → List UInt8 → List UInt8
  | 0, _, dst => dst
  | fuel + 1, ctr, dst =>
    if dst.length = 0 then dst
    else
      let curSize := if dst.length < 0x20 then dst.length else 0x20
      let hash := sha.digest (src ++ beBytes 4 ctr)
      mask (dst.take curSize) hash ++ calcMgf1AndXorLoop sha src fuel (ctr + 1) (dst.drop curSize)

/-- `CalcMgf1AndXor` -/
def calcMgf1AndXor (sha : HashFunction 0x20) (dst src : List UInt8) : List UInt8 :=
  calcMgf1AndXorLoop sha src dst.length 0 dst

/-- The first byte of the block and all differences of the label digest, in one mask. -/
def invalidMask (first : UInt8) (db labelDigest : List UInt8) : UInt32 :=
  (db.zip labelDigest).foldl (fun invalid (b, l) => invalid ||| (b ^^^ l).toUInt32) first.toUInt32

/-- Where the loop that locates the message is. -/
structure PaddingScan where
  msgInd : Nat
  notFound : UInt32
  wrongPadding : UInt32
  i : Nat
deriving DecidableEq

/-- The loop at its start. -/
def PaddingScan.start : PaddingScan := ⟨0, 1, 0, 0⟩

/-- One step of the loop. -/
def PaddingScan.next (s : PaddingScan) (b : UInt8) : PaddingScan :=
  let zero : UInt32 := if b = 0 then 1 else 0
  let one : UInt32 := if b = 1 then 1 else 0
  let i := s.i + 1
  let notFound := s.notFound &&& ~~~one
  { msgInd := s.msgInd + (s.notFound &&& one).toNat * i
    notFound := notFound
    wrongPadding := s.wrongPadding ||| (notFound &&& ~~~zero)
    i := i }

/-- What `DecodeRsaOaep` returns, with the buffer that it may write. -/
structure DecodeResult where
  size : Nat
  dst : List UInt8

/-- `DecodeRsaOaep` -/
def decodeRsaOaep (sha : HashFunction 0x20) (dst : List UInt8) (dstSize : Nat) (labelDigest src : List UInt8) :
    DecodeResult :=
  if dstSize = 0 ∨ src.length ≠ 0x100 ∨ labelDigest.length ≠ 0x20 then ⟨0, dst⟩
  else
    let salt := calcMgf1AndXor sha (slice src 1 0x20) (slice src 0x21 0xDF)
    let db := calcMgf1AndXor sha (slice src 0x21 0xDF) salt
    let invalid := invalidMask (src.getD 0 0) (slice db 0 0x20) labelDigest
    let paddedMsg := slice db 0x20 0xBF
    let scan := paddedMsg.foldl PaddingScan.next .start
    if invalid ||| scan.notFound ||| scan.wrongPadding ≠ 0 then ⟨0, dst⟩
    else
      let msgSize := 0xBF - scan.msgInd
      if dstSize < msgSize then ⟨0, dst⟩ else ⟨msgSize, splice dst 0 (slice paddedMsg scan.msgInd msgSize)⟩

/-- A message of OAEP for a label, with any padding. -/
def IsOaep (sha : HashFunction 0x20) (labelDigest src msg : List UInt8) : Prop :=
  src.head? = some 0 ∧ ∃ zeros, (oaepUnmask sha src).db = labelDigest ++ List.replicate zeros 0 ++ 1 :: msg

/-! ## The scan of the padding -/

section Scan

variable {s : PaddingScan} {bytes msg : List UInt8} {i : Nat}

/-- The message has been found: nothing behind it matters. -/
lemma scan_found (h : s.notFound = 0) (bytes : List UInt8) :
    bytes.foldl PaddingScan.next s = { s with i := s.i + bytes.length } := by
  induction bytes generalizing s with
  | nil => rfl
  | cons b bytes ih =>
    have hnext : s.next b = { s with i := s.i + 1 } := by
      obtain ⟨msgInd, notFound, wrongPadding, i⟩ := s
      cases h
      rw [PaddingScan.next]
      simp
    have hrest := ih (s := { s with i := s.i + 1 }) h
    rw [List.foldl_cons, hnext, hrest, List.length_cons, Nat.add_right_comm, Nat.add_assoc]

/-- Padding that was wrong stays wrong. -/
lemma scan_wrong (h : s.wrongPadding ≠ 0) (bytes : List UInt8) : (bytes.foldl PaddingScan.next s).wrongPadding ≠ 0 := by
  induction bytes generalizing s with
  | nil => exact h
  | cons b bytes ih =>
    apply ih
    intro hzero
    exact h (UInt32.or_eq_zero_iff.mp hzero).1

lemma next_zero : PaddingScan.next ⟨0, 1, 0, i⟩ 0 = ⟨0, 1, 0, i + 1⟩ := by
  rw [PaddingScan.next]
  simp

lemma next_one : PaddingScan.next ⟨0, 1, 0, i⟩ 1 = ⟨i + 1, 0, 0, i + 1⟩ := by
  rw [PaddingScan.next]
  simp

lemma next_other {b : UInt8} (hzero : b ≠ 0) (hone : b ≠ 1) : (PaddingScan.next ⟨0, 1, 0, i⟩ b).wrongPadding ≠ 0 := by
  rw [PaddingScan.next, if_neg hzero, if_neg hone]
  exact (by decide : (0 : UInt32) ||| (1 &&& ~~~0 &&& ~~~0) ≠ 0)

/-- Padding and the byte 1 are skipped. -/
lemma scan_padding (zeros : Nat) :
    (List.replicate zeros 0 ++ 1 :: msg).foldl PaddingScan.next ⟨0, 1, 0, i⟩ =
      ⟨i + zeros + 1, 0, 0, i + zeros + 1 + msg.length⟩ := by
  induction zeros generalizing i with
  | zero =>
    rw [List.replicate_zero, List.nil_append, List.foldl_cons, next_one, scan_found rfl]
  | succ zeros ih =>
    rw [List.replicate_succ, List.cons_append, List.foldl_cons, next_zero, ih, Nat.add_right_comm i 1 zeros]
    rfl

/-- The masks tell whether there is a message behind padding. -/
lemma scan_cases (bytes : List UInt8) (i : Nat) :
    (bytes.foldl PaddingScan.next ⟨0, 1, 0, i⟩).notFound ≠ 0 ∨
      (bytes.foldl PaddingScan.next ⟨0, 1, 0, i⟩).wrongPadding ≠ 0 ∨
        ∃ zeros msg, bytes = List.replicate zeros 0 ++ 1 :: msg := by
  induction bytes generalizing i with
  | nil => exact .inl (by decide : (1 : UInt32) ≠ 0)
  | cons b bytes ih =>
    by_cases hzero : b = 0
    · subst hzero
      rw [List.foldl_cons, next_zero]
      rcases ih (i + 1) with hnot | hwrong | ⟨zeros, msg, rfl⟩
      · exact .inl hnot
      · exact .inr (.inl hwrong)
      · exact .inr (.inr ⟨zeros + 1, msg, rfl⟩)
    · by_cases hone : b = 1
      · subst hone
        exact .inr (.inr ⟨0, bytes, rfl⟩)
      · exact .inr (.inl (scan_wrong (next_other hzero hone) bytes))

end Scan

/-! ## The decoder -/

section Decode

variable {sha : HashFunction 0x20} {dst labelDigest src msg : List UInt8} {dstSize : Nat}

/-- The loop is that of `calculate_mgf1_and_xor`. -/
lemma calcMgf1AndXorLoop_eq (fuel ctr : Nat) (masked : List UInt8) :
    calcMgf1AndXorLoop sha src fuel ctr masked = mgf1AndXorLoop sha src fuel ctr masked := by
  induction fuel generalizing ctr masked with
  | zero => rfl
  | succ fuel ih =>
    have hsize : (if masked.length < 0x20 then masked.length else 0x20) =
        if 0x20 < masked.length then 0x20 else masked.length := by
      split <;> split <;> omega
    rw [calcMgf1AndXorLoop, mgf1AndXorLoop, hsize]
    dsimp only
    rw [ih]

lemma calcMgf1AndXor_eq (masked : List UInt8) :
    calcMgf1AndXor sha masked src = mask masked (mgf1 sha src masked.length) := by
  rw [calcMgf1AndXor, calcMgf1AndXorLoop_eq, mgf1, mask_take,
    mgf1AndXorLoop_eq le_rfl (BlockSource.le_ceil_mul masked.length (by decide))]

/-- No bit is set if nothing is wrong. -/
lemma foldl_or_eq_zero {pairs : List (UInt8 × UInt8)} {invalid : UInt32} :
    pairs.foldl (fun invalid (b, l) => invalid ||| (b ^^^ l).toUInt32) invalid = 0 ↔
      invalid = 0 ∧ ∀ p ∈ pairs, p.1 = p.2 := by
  induction pairs generalizing invalid with
  | nil => exact ⟨fun h => ⟨h, fun _ hp => absurd hp List.not_mem_nil⟩, And.left⟩
  | cons p pairs ih =>
    have hdiff : (p.1 ^^^ p.2).toUInt32 = 0 ↔ p.1 = p.2 := by
      rw [← UInt8.xor_eq_zero_iff]
      exact UInt8.toUInt32_inj (b := 0)
    rw [List.foldl_cons, ih, UInt32.or_eq_zero_iff, hdiff, List.forall_mem_cons, and_assoc]

lemma invalidMask_eq_zero {first : UInt8} {db : List UInt8} (hlen : db.length = labelDigest.length) :
    invalidMask first db labelDigest = 0 ↔ first = 0 ∧ db = labelDigest := by
  have hfirst : first.toUInt32 = 0 ↔ first = 0 := UInt8.toUInt32_inj (b := 0)
  rw [invalidMask, foldl_or_eq_zero, hfirst]
  apply and_congr_right'
  constructor
  · intro h
    apply List.ext_getElem hlen
    intro k hk hk'
    have hpair : (db[k], labelDigest[k]) ∈ db.zip labelDigest := by
      rw [List.mem_iff_getElem]
      exact ⟨k, by rw [List.length_zip]; omega, List.getElem_zip⟩
    exact h _ hpair
  · rintro rfl ⟨b, l⟩ hp
    rw [List.zip_eq_zipWith, List.zipWith_self] at hp
    obtain ⟨b', -, heq⟩ := List.mem_map.mp hp
    cases heq
    rfl

/-- What is decoded: the block is unmasked, and then the masks are looked at. -/
lemma decodeRsaOaep_eq (dst : List UInt8) (hdst : 0 < dstSize) (hlabel : labelDigest.length = 0x20)
    (hlen : src.length = 0x100) :
    decodeRsaOaep sha dst dstSize labelDigest src = let db := (oaepUnmask sha src).db
      let scan := (db.drop 0x20).foldl PaddingScan.next .start
      let msgSize := 0xBF - scan.msgInd
      if invalidMask (src.getD 0 0) (db.take 0x20) labelDigest ||| scan.notFound ||| scan.wrongPadding ≠ 0 then
        ⟨0, dst⟩
      else if dstSize < msgSize then ⟨0, dst⟩
      else ⟨msgSize, splice dst 0 (slice (db.drop 0x20) scan.msgInd msgSize)⟩ := by
  have hdb := length_oaepUnmask_db sha hlen
  have hmaskedDB : slice src 0x21 0xDF = src.drop 0x21 :=
    List.take_of_length_le (by rw [List.length_drop]; omega)
  have hmaskedSeed : (slice src 1 0x20).length = 0x20 := length_slice (by omega)
  have hsalt : calcMgf1AndXor sha (slice src 1 0x20) (slice src 0x21 0xDF) = (oaepUnmask sha src).seed := by
    rw [calcMgf1AndXor_eq, hmaskedSeed, hmaskedDB]
    rfl
  have hunmasked : calcMgf1AndXor sha (slice src 0x21 0xDF) (oaepUnmask sha src).seed = (oaepUnmask sha src).db := by
    rw [calcMgf1AndXor_eq, hmaskedDB]
    rfl
  have hlabelPart : slice (oaepUnmask sha src).db 0 0x20 = (oaepUnmask sha src).db.take 0x20 := by
    rw [slice, List.drop_zero]
  have hrest : slice (oaepUnmask sha src).db 0x20 0xBF = (oaepUnmask sha src).db.drop 0x20 :=
    List.take_of_length_le (by rw [List.length_drop]; omega)
  rw [decodeRsaOaep, if_neg (by omega), hsalt]
  dsimp only
  rw [hunmasked, hlabelPart, hrest]

/-- A message that fits is decoded. -/
lemma IsOaep.decode (h : IsOaep sha labelDigest src msg) (dst : List UInt8) (hlabel : labelDigest.length = 0x20)
    (hlen : src.length = 0x100) (hpos : 0 < msg.length) (hfits : msg.length ≤ dstSize) :
    decodeRsaOaep sha dst dstSize labelDigest src = ⟨msg.length, splice dst 0 msg⟩ := by
  obtain ⟨hhead, zeros, hdb⟩ := h
  have hlength := length_oaepUnmask_db sha hlen
  have hfirst : src.getD 0 0 = 0 := by
    rw [List.getD_eq_getElem?_getD, ← List.head?_eq_getElem?, hhead]
    rfl
  have hsum : zeros + (msg.length + 1) = 0xBF := by
    rw [hdb, List.length_append, List.length_append, List.length_replicate, List.length_cons, hlabel] at hlength
    omega
  have hlabelPart : (oaepUnmask sha src).db.take 0x20 = labelDigest := by
    rw [hdb, List.append_assoc, List.take_left' hlabel]
  have hrest : (oaepUnmask sha src).db.drop 0x20 = List.replicate zeros 0 ++ 1 :: msg := by
    rw [hdb, List.append_assoc, List.drop_left' hlabel]
  have hvalid : invalidMask 0 labelDigest labelDigest = 0 := (invalidMask_eq_zero rfl).mpr ⟨rfl, rfl⟩
  have hsize : 0xBF - (0 + zeros + 1) = msg.length := by omega
  have hmsg : slice (List.replicate zeros 0 ++ 1 :: msg) (0 + zeros + 1) msg.length = msg := by
    rw [slice, Nat.zero_add, ← List.drop_drop, List.drop_left' List.length_replicate, List.drop_succ_cons,
      List.drop_zero, List.take_length]
  rw [decodeRsaOaep_eq dst (hpos.trans_le hfits) hlabel hlen]
  dsimp only
  rw [hlabelPart, hrest, hfirst, hvalid, PaddingScan.start, scan_padding]
  dsimp only
  rw [if_neg (by decide), hsize, if_neg (Nat.not_lt.mpr hfits), hmsg]

/-- Nothing is decoded, or there is a message that fits. -/
lemma decodeRsaOaep_cases (sha : HashFunction 0x20) (dst : List UInt8) (hdst : 0 < dstSize)
    (hlabel : labelDigest.length = 0x20) (hlen : src.length = 0x100) :
    decodeRsaOaep sha dst dstSize labelDigest src = ⟨0, dst⟩ ∨
      ∃ msg, IsOaep sha labelDigest src msg ∧ 0 < msg.length ∧ msg.length ≤ dstSize := by
  have hlength := length_oaepUnmask_db sha hlen
  rw [decodeRsaOaep_eq dst hdst hlabel hlen]
  dsimp only
  split
  · exact .inl rfl
  · next hmasks =>
    rw [not_not, UInt32.or_eq_zero_iff, UInt32.or_eq_zero_iff, invalidMask_eq_zero (by
      rw [List.length_take, hlabel]; omega)] at hmasks
    obtain ⟨⟨⟨hfirst, hlabelPart⟩, hfound⟩, hpadding⟩ := hmasks
    rcases scan_cases ((oaepUnmask sha src).db.drop 0x20) 0 with hno | hno | ⟨zeros, msg, hdb⟩
    · exact absurd hfound hno
    · exact absurd hpadding hno
    · have hhead : src.head? = some 0 := by
        cases src with
        | nil => cases hlen
        | cons b src => exact congrArg some hfirst
      have hoaep : IsOaep sha labelDigest src msg := by
        refine ⟨hhead, zeros, ?_⟩
        rw [List.append_assoc, ← hdb, ← hlabelPart, List.take_append_drop]
      have hsum : zeros + (msg.length + 1) = 0xBF := by
        have hdrop := congrArg List.length hdb
        rw [List.length_drop, List.length_append, List.length_replicate, List.length_cons] at hdrop
        omega
      have hsize : 0xBF - (0 + zeros + 1) = msg.length := by omega
      rw [hdb, PaddingScan.start, scan_padding]
      dsimp only
      rw [hsize]
      split
      · exact .inl rfl
      · next hfits =>
        rcases Nat.eq_zero_or_pos msg.length with hzero | hpos
        · rw [hzero, slice, List.take_zero, splice_nil]
          exact .inl rfl
        · exact .inr ⟨msg, hoaep, hpos, Nat.not_lt.mp hfits⟩

end Decode

/-- What the secure monitor takes for a wrapped key is a message of OAEP. -/
lemma isOaep_of_isWrappedKey {sha : HashFunction 0x20} {label : LabelHash} {src key : List UInt8}
    (h : IsWrappedKey sha label src key) : IsOaep sha label.bytes src key := by
  obtain ⟨hhead, zeros, -, hdb⟩ := h
  exact ⟨hhead, zeros, hdb⟩

/-- `DecodeRsaOaep` returns the size of a message if and only if the block is one of OAEP with a message of that
size which fits, and then it has written that message. Otherwise it returns 0 and has written nothing. What the
secure monitor accepts is accepted here, with the same result. -/
theorem decodeRsaOaep_iff (sha : HashFunction 0x20) (label : LabelHash) (dst : List UInt8) (dstSize : Nat)
    (src : List UInt8) (hdst : 0 < dstSize) (hlen : src.length = 0x100) :
    (∀ n, 0 < n → ((decodeRsaOaep sha dst dstSize label.bytes src).size = n ↔
        ∃ msg, IsOaep sha label.bytes src msg ∧ msg.length = n ∧ n ≤ dstSize)) ∧
      (∀ msg, IsOaep sha label.bytes src msg → 0 < msg.length → msg.length ≤ dstSize →
        (decodeRsaOaep sha dst dstSize label.bytes src).dst = splice dst 0 msg) ∧
      ((decodeRsaOaep sha dst dstSize label.bytes src).size = 0 →
        (decodeRsaOaep sha dst dstSize label.bytes src).dst = dst) ∧
      ∀ result, tkeyRsaOaepUnwrap sha label dst dstSize src = some result → 0 < result.size →
        decodeRsaOaep sha dst dstSize label.bytes src = ⟨result.size, result.dst⟩ := by
  have hlabel := label.length_bytes
  refine ⟨?_, ?_, ?_, ?_⟩
  · intro n hn
    constructor
    · intro hsize
      rcases decodeRsaOaep_cases sha dst hdst hlabel hlen with hnone | ⟨msg, hmsg, hpos, hfits⟩
      · rw [hnone] at hsize
        exact absurd hsize hn.ne
      · rw [hmsg.decode dst hlabel hlen hpos hfits] at hsize
        exact ⟨msg, hmsg, hsize, hsize ▸ hfits⟩
    · rintro ⟨msg, hmsg, rfl, hfits⟩
      rw [hmsg.decode dst hlabel hlen hn hfits]
  · intro msg hmsg hpos hfits
    rw [hmsg.decode dst hlabel hlen hpos hfits]
  · intro hsize
    rcases decodeRsaOaep_cases sha dst hdst hlabel hlen with hnone | ⟨msg, hmsg, hpos, hfits⟩
    · rw [hnone]
    · rw [hmsg.decode dst hlabel hlen hpos hfits] at hsize
      exact absurd hsize hpos.ne'
  · intro result hresult hsize
    rcases tkeyRsaOaepUnwrap_cases sha label dst dstSize hlen with ⟨src', hnone⟩ | ⟨key, hkey, hpos, hfits⟩
    · rw [hnone] at hresult
      cases hresult
      exact absurd hsize (Nat.lt_irrefl 0)
    · obtain ⟨src', hunwrap⟩ := hkey.unwrap dst hlen hpos hfits
      rw [hunwrap] at hresult
      cases hresult
      exact (isOaep_of_isWrappedKey hkey).decode dst hlabel hlen hpos hfits

/-- A key of 0x10 bytes is decoded as the secure monitor unwraps it. -/
theorem decodeRsaOaep_example :
    (decodeRsaOaep zeroHash (List.replicate 0x10 0) 0x10 zeroLabel.bytes exampleMessage).size = 0x10 := by
  obtain ⟨hsize, -, -, -⟩ := decodeRsaOaep_iff zeroHash zeroLabel (List.replicate 0x10 0) 0x10 exampleMessage
    (by decide) (by decide +kernel)
  exact (hsize 0x10 (by decide)).mpr ⟨_, isOaep_of_isWrappedKey exampleMessage_isWrappedKey, rfl, le_rfl⟩

end RajNX.Spl
