import RajNX.Fusee.Kip
import RajNX.Lib.BackwardLz
import RajNX.Lib.Loop

/-!
# Uncompressing in place

A decoder for the compressed bytes of a section, which has them and its output apart, and `kip1_blz_uncompress`, which
has both in one buffer. The output grows down to the begin of the buffer, and so does the input that has been read.
As long as no item takes the output over the input that is left, the buffer ends as the decoder says.
-/

namespace RajNX.Fusee

open BackwardLz Fallible Fields LittleEndian Loop Splice

/-! ## The decoder -/

/-- Where the decoder is: how much of the input is left, its output, and how much input and how much room for output
had been left behind each item. -/
structure Decoder where
  left : Nat
  out : List UInt8
  passed : List (Nat × Nat)
deriving Repr, DecidableEq

section Decoder

variable (c : List UInt8) (total : Nat)

/-- The item at the end of the input. A last reference is cut off at the end of the output. -/
def itemAt (segment : Bool) (s : Decoder) : Option (Item UInt8 × Nat) :=
  if segment then
    if s.left < 2 then none
    else
      let segVal := fieldAt 2 c (s.left - 2)
      some (.reference (min (segVal / 2 ^ 12 + 3) (total - s.out.length)) (segVal % 2 ^ 12 + 3), s.left - 2)
  else if s.left < 1 then none
  else some (.literal (c.getD (s.left - 1) 0), s.left - 1)

/-- The decoder takes an item. -/
def decodeItem (segment : Bool) (s : Decoder) : Option Decoder := do
  let (item, left) ← itemAt c total segment s
  let out ← expand s.out item
  return ⟨left, out, (left, total - out.length) :: s.passed⟩

/-- The items of a control byte. -/
def decodeBits : Nat → UInt8 → Decoder → Option Decoder
  | 0, _, s => some s
  | bits + 1, control, s => do
    let s ← decodeItem c total (control &&& 0x80 ≠ 0) s
    if s.out.length = total then return s else decodeBits bits (control <<< 1) s

/-- Control bytes with their items, until the output is complete. -/
def decodeTurn (s : Decoder) : Turn Decoder (Option Decoder) :=
  if s.out.length = total then .leave (some s)
  else if s.left = 0 then .leave none
  else
    match decodeBits c total 8 (c.getD (s.left - 1) 0) { s with left := s.left - 1 } with
    | none => .leave none
    | some s => .again s

/-- The output of the compressed bytes. -/
def decode : Option Decoder := (loop (decodeTurn c total) (total + 1) ⟨c.length, [], []⟩).join

end Decoder

/-! ## The buffer -/

/-- A turn of the loop of `kip1_blz_uncompress`. -/
def blzTurn (cmpStart : Nat) (s : Blz) : Turn Blz (Except KipStop (List UInt8)) :=
  if s.outOfs = 0 then .leave (.ok s.mem)
  else
    match blzByte cmpStart s with
    | .error e => .leave (.error e)
    | .ok s => .again s

section Progress

variable {cmpStart bits fuel : Nat} {segment : Bool} {control : UInt8} {s s' : Blz}
  {r : Except KipStop (List UInt8)}

/-- An item gives some output. -/
lemma outOfs_blzItem (hpos : s.outOfs ≠ 0) (h : blzItem cmpStart segment s = .ok s') : s'.outOfs < s.outOfs := by
  rw [blzItem] at h
  cases segment with
  | true =>
    rw [if_pos rfl] at h
    split at h
    · cases h
    · obtain ⟨high, -, h⟩ := bind_eq_ok h
      obtain ⟨low, -, h⟩ := bind_eq_ok h
      obtain ⟨mem, -, h⟩ := bind_eq_ok h
      cases h
      dsimp only
      omega
  | false =>
    rw [if_neg Bool.false_ne_true] at h
    split at h
    · cases h
    · obtain ⟨byte, -, h⟩ := bind_eq_ok h
      obtain ⟨mem, -, h⟩ := bind_eq_ok h
      cases h
      exact Nat.pred_lt hpos

/-- Items do not take output back. -/
lemma outOfs_blzBits (hpos : s.outOfs ≠ 0) (h : blzBits cmpStart bits control s = .ok s') : s'.outOfs ≤ s.outOfs := by
  induction bits generalizing control s with
  | zero =>
    cases h
    exact le_rfl
  | succ bits ih =>
    obtain ⟨s₁, hitem, h⟩ := bind_eq_ok h
    have hlt := outOfs_blzItem hpos hitem
    split at h
    · cases h
      exact hlt.le
    · next hne => exact (ih hne h).trans hlt.le

lemma outOfs_blzBits_lt (hpos : s.outOfs ≠ 0) (h : blzBits cmpStart (bits + 1) control s = .ok s') :
    s'.outOfs < s.outOfs := by
  obtain ⟨s₁, hitem, h⟩ := bind_eq_ok h
  have hlt := outOfs_blzItem hpos hitem
  split at h
  · cases h
    exact hlt
  · next hne => exact Nat.lt_of_le_of_lt (outOfs_blzBits hne h) hlt

/-- Reading a control byte gives no output. -/
lemma outOfs_blzControl (h : blzControl cmpStart s = .ok (control, s')) : s'.outOfs = s.outOfs := by
  obtain ⟨byte, -, h⟩ := bind_eq_ok h
  cases h
  rfl

/-- A control byte gives some output. -/
lemma outOfs_blzByte (hpos : s.outOfs ≠ 0) (h : blzByte cmpStart s = .ok s') : s'.outOfs < s.outOfs := by
  obtain ⟨⟨control, s₀⟩, hcontrol, h⟩ := bind_eq_ok h
  have hsame := outOfs_blzControl hcontrol
  have hlt := outOfs_blzBits_lt (hsame.trans_ne hpos) h
  exact hlt.trans_eq hsame

/-- As many turns as there are bytes to be output are enough. -/
lemma blzLoop_eq (hfuel : s.outOfs ≤ fuel) (h : loop (blzTurn cmpStart) (fuel + 1) s = some r) :
    blzLoop cmpStart fuel s = r := by
  induction fuel generalizing s with
  | zero =>
    have hturn : blzTurn cmpStart s = .leave (.ok s.mem) := if_pos (Nat.le_zero.mp hfuel)
    rw [loop_leave hturn] at h
    exact Option.some.inj h
  | succ fuel ih =>
    rw [loop, blzTurn] at h
    rw [blzLoop]
    by_cases hdone : s.outOfs = 0
    · rw [if_pos hdone] at h ⊢
      exact Option.some.inj h
    rw [if_neg hdone] at h ⊢
    cases hbyte : blzByte cmpStart s with
    | error e =>
      rw [hbyte] at h
      exact Option.some.inj h
    | ok s' =>
      rw [hbyte] at h
      have hlt := outOfs_blzByte hdone hbyte
      exact ih (by omega) h

end Progress

/-! ## The decoder and the buffer -/

/-- A segment that does not reach into itself is copied from the output in front of which it is put. -/
lemma copySegment_splice {mem out : List UInt8} {cmpStart outOfs size offset : Nat} (n j : Nat)
    (hroom : cmpStart + outOfs + (size + out.length) ≤ mem.length)
    (hlt : cmpStart + outOfs + (size + out.length) < 2 ^ 32) (hsize : size ≤ offset) (hoffset : offset ≤ out.length)
    (hn : j + n = size) :
    copySegment cmpStart outOfs offset n j
        (splice (splice mem (cmpStart + outOfs + size) out) (cmpStart + outOfs) (slice out (offset - size) j)) =
      .ok (splice mem (cmpStart + outOfs) (slice out (offset - size) size ++ out)) := by
  have hback : cmpStart + outOfs + size + out.length ≤ mem.length := by omega
  induction n generalizing j with
  | zero =>
    have hslice : (slice out (offset - size) size).length = size := length_slice (by omega)
    obtain rfl : j = size := hn
    refine congrArg Except.ok ?_
    nth_rewrite 1 [← hslice]
    exact splice_splice_front (by rw [hslice]; exact hroom)
  | succ n ih =>
    have hslice : (slice out (offset - size) j).length = j := length_slice (by omega)
    have hfits : cmpStart + outOfs + (slice out (offset - size) j).length ≤
        (splice mem (cmpStart + outOfs + size) out).length := by
      rw [length_splice hback]
      omega
    have hlength := (length_splice hfits).trans (length_splice hback)
    -- the byte comes from the output that was there before
    have hbyte : slice (splice (splice mem (cmpStart + outOfs + size) out) (cmpStart + outOfs)
        (slice out (offset - size) j)) (cmpStart + (outOfs + j + offset)) 1 = slice out (offset - size + j) 1 := by
      have hplace : cmpStart + (outOfs + j + offset) = cmpStart + outOfs + size + (offset - size + j) := by omega
      rw [slice_splice_of_apart hfits (by omega), hplace, slice_splice_of_inside hback (by omega)]
    have hone : (slice out (offset - size + j) 1).length = 1 := length_slice (by omega)
    have hread : cmpStart + (outOfs + j + offset) + 1 ≤ (splice (splice mem (cmpStart + outOfs + size) out)
        (cmpStart + outOfs) (slice out (offset - size) j)).length := by omega
    have hwrite : cmpStart + (outOfs + j) + (slice out (offset - size + j) 1).length ≤
        (splice (splice mem (cmpStart + outOfs + size) out) (cmpStart + outOfs)
          (slice out (offset - size) j)).length := by omega
    have hnext : splice (splice (splice mem (cmpStart + outOfs + size) out) (cmpStart + outOfs)
        (slice out (offset - size) j)) (cmpStart + (outOfs + j)) (slice out (offset - size + j) 1) =
        splice (splice mem (cmpStart + outOfs + size) out) (cmpStart + outOfs) (slice out (offset - size) (j + 1)) := by
      rw [← slice_append_slice, ← splice_splice_append (by rw [hslice, hone, length_splice hback]; omega), hslice,
        Nat.add_assoc cmpStart outOfs j]
    rw [copySegment, blzAddress_eq (by omega), readBytes_eq hread, ok_bind, hbyte, blzAddress_eq (by omega),
      writeBytes_eq hwrite, ok_bind, hnext]
    exact ih (j + 1) (by omega)

/-- The buffer holds the output of the decoder at its place, and all input that is left. -/
structure InPlace (mem : List UInt8) (cmpStart : Nat) (c : List UInt8) (total : Nat) (d : Decoder) (s : Blz) :
    Prop where
  out_le : d.out.length ≤ total
  left_le : d.left ≤ total - d.out.length
  left_le_length : d.left ≤ c.length
  cmpOfs_eq : s.cmpOfs = d.left
  outOfs_eq : s.outOfs = total - d.out.length
  mem_eq : s.mem = splice mem (cmpStart + s.outOfs) d.out

/-- No item has taken the output over the input that is left. -/
def Decoder.Apart (d : Decoder) : Prop := ∀ q ∈ d.passed, q.1 ≤ q.2

instance (d : Decoder) : Decidable d.Apart := inferInstanceAs (Decidable (∀ q ∈ _, _))

section InPlace

variable {mem c : List UInt8} {cmpStart total bits fuel : Nat} {segment : Bool} {control : UInt8} {d d' : Decoder}
  {s : Blz}

lemma decodeItem_eq (h : decodeItem c total segment d = some d') :
    ∃ item left out, itemAt c total segment d = some (item, left) ∧ expand d.out item = some out ∧
      d' = ⟨left, out, (left, total - out.length) :: d.passed⟩ := by
  obtain ⟨⟨item, left⟩, hitem, h⟩ := Option.bind_eq_some_iff.mp h
  obtain ⟨out, hout, h⟩ := Option.bind_eq_some_iff.mp h
  cases h
  exact ⟨item, left, out, hitem, hout, rfl⟩

lemma decodeBits_eq (h : decodeBits c total (bits + 1) control d = some d') :
    ∃ d₁, decodeItem c total (control &&& 0x80 ≠ 0) d = some d₁ ∧
      (if d₁.out.length = total then some d₁ else decodeBits c total bits (control <<< 1) d₁) = some d' :=
  Option.bind_eq_some_iff.mp h

lemma apart_of_decodeItem (h : decodeItem c total segment d = some d') (hapart : d'.Apart) :
    d.Apart ∧ d'.left ≤ total - d'.out.length := by
  obtain ⟨item, left, out, -, -, rfl⟩ := decodeItem_eq h
  obtain ⟨hlast, hbefore⟩ := List.forall_mem_cons.mp hapart
  exact ⟨hbefore, hlast⟩

/-- What the items before have not done is known of the whole stream. -/
lemma apart_of_decodeBits (h : decodeBits c total bits control d = some d') (hapart : d'.Apart) : d.Apart := by
  induction bits generalizing control d with
  | zero =>
    cases h
    exact hapart
  | succ bits ih =>
    obtain ⟨d₁, hitem, h⟩ := decodeBits_eq h
    split at h
    · cases h
      exact (apart_of_decodeItem hitem hapart).1
    · exact (apart_of_decodeItem hitem (ih h)).1

/-- A turn of the decoder that comes to an end. -/
lemma decodeTurn_eq (h : loop (decodeTurn c total) (fuel + 1) d = some (some d')) :
    (d.out.length = total ∧ d' = d) ∨
      (d.out.length ≠ total ∧ d.left ≠ 0 ∧ ∃ d₁,
        decodeBits c total 8 (c.getD (d.left - 1) 0) { d with left := d.left - 1 } = some d₁ ∧
          loop (decodeTurn c total) fuel d₁ = some (some d')) := by
  rw [loop, decodeTurn] at h
  by_cases hdone : d.out.length = total
  · rw [if_pos hdone] at h
    cases h
    exact .inl ⟨hdone, rfl⟩
  by_cases hleft : d.left = 0
  · rw [if_neg hdone, if_pos hleft] at h
    cases h
  rw [if_neg hdone, if_neg hleft] at h
  cases hbits : decodeBits c total 8 (c.getD (d.left - 1) 0) { d with left := d.left - 1 } with
  | none =>
    rw [hbits] at h
    cases h
  | some d₁ =>
    rw [hbits] at h
    exact .inr ⟨hdone, hleft, d₁, rfl, h⟩

lemma apart_of_loop (h : loop (decodeTurn c total) fuel d = some (some d')) (hapart : d'.Apart) : d.Apart := by
  induction fuel generalizing d with
  | zero => cases h
  | succ fuel ih =>
    obtain ⟨-, rfl⟩ | ⟨-, -, d₁, hbits, h⟩ := decodeTurn_eq h
    · exact hapart
    · exact apart_of_decodeBits (d := { d with left := d.left - 1 }) hbits (ih h)

/-- More output, in front of what there is. -/
lemma InPlace.extend (h : InPlace mem cmpStart c total d s) {new image : List UInt8} {left outOfs : Nat}
    (passed : List (Nat × Nat)) (hleft : left ≤ d.left) (hsize : (new ++ d.out).length ≤ total)
    (hapart : left ≤ total - (new ++ d.out).length) (houtOfs : outOfs = total - (new ++ d.out).length)
    (hmem : image = splice mem (cmpStart + outOfs) (new ++ d.out)) :
    InPlace mem cmpStart c total ⟨left, new ++ d.out, passed⟩ ⟨image, left, outOfs⟩ where
  out_le := hsize
  left_le := hapart
  left_le_length := hleft.trans h.left_le_length
  cmpOfs_eq := rfl
  outOfs_eq := houtOfs
  mem_eq := hmem

variable (hroom : cmpStart + total ≤ mem.length) (hlt : cmpStart + total < 2 ^ 32)
  (hc : slice mem cmpStart c.length = c)

include hroom in
lemma InPlace.length_eq (h : InPlace mem cmpStart c total d s) : s.mem.length = mem.length := by
  have hout := h.out_le
  have houtOfs := h.outOfs_eq
  rw [h.mem_eq, length_splice (by omega)]

include hroom hlt hc

section

variable (h : InPlace mem cmpStart c total d s)

include h

/-- The input that is left has not been written to. -/
lemma InPlace.read {p n : Nat} (hp : p + n ≤ d.left) (hn : 0 < n) :
    readBytes s.mem (blzAddress cmpStart p) n = .ok (slice c p n) := by
  have hout := h.out_le
  have hleft := h.left_le
  have hlength := h.left_le_length
  have houtOfs := h.outOfs_eq
  have hpart := slice_slice (l := mem) (i := cmpStart) (show p + n ≤ c.length by omega)
  rw [hc] at hpart
  rw [blzAddress_eq (by omega), readBytes_eq (by rw [h.length_eq hroom]; omega), h.mem_eq,
    slice_splice_of_apart (by omega) (by omega), hpart]

/-- An item is put into the buffer. -/
lemma InPlace.item (hmore : d.out.length ≠ total)
    (hitem : decodeItem c total segment d = some d') (hapart : d'.left ≤ total - d'.out.length) :
    ∃ s', blzItem cmpStart segment s = .ok s' ∧ InPlace mem cmpStart c total d' s' := by
  obtain ⟨item, left, out, hitemAt, hout, rfl⟩ := decodeItem_eq hitem
  have houtLt := Nat.lt_of_le_of_ne h.out_le hmore
  have hleftLe := h.left_le
  have hlengthLe := h.left_le_length
  have hcmpOfs := h.cmpOfs_eq
  have houtOfs := h.outOfs_eq
  dsimp only at hapart
  rw [itemAt] at hitemAt
  rw [blzItem, hcmpOfs]
  cases segment with
  | true =>
    dsimp only at hitemAt ⊢
    rw [if_pos rfl] at hitemAt ⊢
    by_cases hshort : d.left < 2
    · rw [if_pos hshort] at hitemAt
      cases hitemAt
    rw [if_neg hshort] at hitemAt ⊢
    cases hitemAt
    obtain ⟨hsize, hoffset, rfl⟩ := expand_reference hout
    have hval : leValue (slice c (d.left - 2) 1 ++ slice c (d.left - 2 + 1) 1) = fieldAt 2 c (d.left - 2) := by
      rw [slice_append_slice]
      rfl
    rw [h.read hroom hlt hc (by omega) (by decide), h.read hroom hlt hc (by omega) (by decide), ok_bind, ok_bind, hval,
      houtOfs]
    generalize fieldAt 2 c (d.left - 2) = segVal at hsize hoffset hapart ⊢
    generalize hn : min (segVal / 2 ^ 12 + 3) (total - d.out.length) = size at hsize hapart ⊢
    have hslice : (slice d.out (segVal % 2 ^ 12 + 3 - size) size).length = size := length_slice (by omega)
    have hlength : (slice d.out (segVal % 2 ^ 12 + 3 - size) size ++ d.out).length = size + d.out.length := by
      rw [List.length_append, hslice]
    have hplace : cmpStart + s.outOfs = cmpStart + (total - d.out.length - size) + size := by omega
    have hcopy := @copySegment_splice mem d.out cmpStart (total - d.out.length - size) _ _
      size 0 (by omega) (by omega) hsize hoffset (Nat.zero_add _)
    rw [slice, List.take_zero, splice_nil, ← hplace, ← h.mem_eq] at hcopy
    refine ⟨_, congrArg (· >>= _) hcopy, h.extend _ (Nat.sub_le _ _) (by omega) hapart (by omega) rfl⟩
  | false =>
    rw [if_neg Bool.false_ne_true] at hitemAt ⊢
    by_cases hshort : d.left < 1
    · rw [if_pos hshort] at hitemAt
      cases hitemAt
    rw [if_neg hshort] at hitemAt ⊢
    cases hitemAt
    rw [expand_literal] at hout
    cases hout
    have hlength : ([c.getD (d.left - 1) 0] ++ d.out).length = d.out.length + 1 := List.length_cons
    have hplace : cmpStart + s.outOfs = cmpStart + (s.outOfs - 1) + [c.getD (d.left - 1) 0].length := by
      rw [List.length_singleton]
      omega
    have hwrite : cmpStart + (s.outOfs - 1) + [c.getD (d.left - 1) 0].length ≤ s.mem.length := by
      rw [h.length_eq hroom, List.length_singleton]
      omega
    have himage : splice s.mem (cmpStart + (s.outOfs - 1)) [c.getD (d.left - 1) 0] =
        splice mem (cmpStart + (s.outOfs - 1)) ([c.getD (d.left - 1) 0] ++ d.out) := by
      rw [h.mem_eq, hplace, splice_splice_front]
      rw [List.length_singleton]
      omega
    rw [List.length_cons] at hapart
    rw [h.read hroom hlt hc (by omega) (by decide), ok_bind, slice_one (by omega) 0, blzAddress_eq (by omega),
      writeBytes_eq hwrite]
    exact ⟨_, rfl, h.extend _ (Nat.sub_le _ _) (by omega) (by omega) (by omega) himage⟩

/-- The items of a control byte are put into the buffer. -/
lemma InPlace.items (hmore : d.out.length ≠ total)
    (hbits : decodeBits c total bits control d = some d') (hapart : d'.Apart) :
    ∃ s', blzBits cmpStart bits control s = .ok s' ∧ InPlace mem cmpStart c total d' s' := by
  induction bits generalizing control d s with
  | zero =>
    cases hbits
    exact ⟨s, rfl, h⟩
  | succ bits ih =>
    obtain ⟨d₁, hitem, hbits⟩ := decodeBits_eq hbits
    by_cases hdone : d₁.out.length = total
    · rw [if_pos hdone] at hbits
      cases hbits
      obtain ⟨s₁, hblz, hs₁⟩ := h.item hroom hlt hc hmore hitem (apart_of_decodeItem hitem hapart).2
      have houtOfs : s₁.outOfs = 0 := by rw [hs₁.outOfs_eq, hdone, Nat.sub_self]
      refine ⟨s₁, ?_, hs₁⟩
      rw [blzBits, hblz]
      exact if_pos houtOfs
    · rw [if_neg hdone] at hbits
      have hapart₁ := apart_of_decodeBits hbits hapart
      obtain ⟨s₁, hblz, hs₁⟩ := h.item hroom hlt hc hmore hitem (apart_of_decodeItem hitem hapart₁).2
      have houtOfs : s₁.outOfs ≠ 0 := by
        have hle := hs₁.out_le
        rw [hs₁.outOfs_eq]
        omega
      obtain ⟨s', hblz', hs'⟩ := ih hs₁ hdone hbits
      refine ⟨s', ?_, hs'⟩
      rw [blzBits, hblz]
      exact (if_neg houtOfs).trans hblz'

/-- A control byte is read, and its items are put into the buffer. -/
lemma InPlace.byte (hmore : d.out.length ≠ total) (hleft : d.left ≠ 0)
    (hbits : decodeBits c total 8 (c.getD (d.left - 1) 0) { d with left := d.left - 1 } = some d')
    (hapart : d'.Apart) : ∃ s', blzByte cmpStart s = .ok s' ∧ InPlace mem cmpStart c total d' s' := by
  have hle := h.out_le
  have hleftLe := h.left_le
  have hlengthLe := h.left_le_length
  have hread : InPlace mem cmpStart c total { d with left := d.left - 1 } { s with cmpOfs := d.left - 1 } :=
    ⟨hle, by dsimp only; omega, by dsimp only; omega, rfl, h.outOfs_eq, h.mem_eq⟩
  obtain ⟨s', hblz, hs'⟩ := hread.items hroom hlt hc hmore hbits hapart
  have hprev : (s.cmpOfs + (2 ^ 32 - 1)) % 2 ^ 32 = d.left - 1 := by
    rw [h.cmpOfs_eq]
    omega
  refine ⟨s', ?_, hs'⟩
  rw [blzByte, blzControl, hprev, h.read hroom hlt hc (by omega) (by decide), ok_bind, slice_one (by omega) 0]
  exact hblz

/-- The loop ends with the output of the decoder in the buffer. -/
lemma InPlace.turns (hdecode : loop (decodeTurn c total) fuel d = some (some d')) (hapart : d'.Apart) :
    d'.out.length = total ∧ loop (blzTurn cmpStart) fuel s = some (.ok (splice mem cmpStart d'.out)) := by
  induction fuel generalizing d s with
  | zero => cases hdecode
  | succ fuel ih =>
    obtain ⟨hdone, rfl⟩ | ⟨hmore, hleft, d₁, hbits, hdecode⟩ := decodeTurn_eq hdecode
    · have houtOfs : s.outOfs = 0 := by rw [h.outOfs_eq, hdone, Nat.sub_self]
      refine ⟨hdone, loop_leave ?_ fuel⟩
      rw [blzTurn, if_pos houtOfs, h.mem_eq, houtOfs]
      rfl
    · have houtOfs : s.outOfs ≠ 0 := by
        have hle := h.out_le
        rw [h.outOfs_eq]
        omega
      obtain ⟨s₁, hblz, hs₁⟩ := h.byte hroom hlt hc hmore hleft hbits (apart_of_loop hdecode hapart)
      have hturn : blzTurn cmpStart s = .again s₁ := by rw [blzTurn, if_neg houtOfs, hblz]
      obtain ⟨hlength, hloop⟩ := ih hs₁ hdecode
      exact ⟨hlength, (loop_again hturn fuel).trans hloop⟩

end

end InPlace

/-! ## Sections -/

section Footer

variable (mem : List UInt8) (hdrEnd : Nat)

/-- `addl_size` -/
def addlSize : Nat := fieldAt 4 mem (hdrEnd - 4)

/-- `header_size` -/
def headerSize : Nat := fieldAt 4 mem (hdrEnd - 8)

/-- `cmp_and_hdr_size` -/
def cmpAndHdrSize : Nat := fieldAt 4 mem (hdrEnd - 12)

/-- The compressed bytes in front of the footer. -/
def compressedBytes : List UInt8 :=
  slice mem (hdrEnd - cmpAndHdrSize mem hdrEnd) (cmpAndHdrSize mem hdrEnd - headerSize mem hdrEnd)

/-- A footer at the end of compressed bytes that are in the buffer, which has room for the output and addresses of 32
bits. -/
structure WellFormedFooter : Prop where
  footer_le : 12 ≤ hdrEnd
  header_le : headerSize mem hdrEnd ≤ cmpAndHdrSize mem hdrEnd
  start_le : cmpAndHdrSize mem hdrEnd ≤ hdrEnd
  room : hdrEnd + addlSize mem hdrEnd ≤ mem.length
  size_lt : hdrEnd + addlSize mem hdrEnd < 2 ^ 32

end Footer

section Sections

variable {mem : List UInt8} {hdrEnd : Nat} {d : Decoder} {r : Except KipStop (List UInt8)}

/-- The loop begins as the footer says. -/
lemma WellFormedFooter.start_eq (h : WellFormedFooter mem hdrEnd) :
    blzStart mem (slice mem (hdrEnd - 12) 12) hdrEnd = (hdrEnd - cmpAndHdrSize mem hdrEnd,
      ⟨mem, cmpAndHdrSize mem hdrEnd - headerSize mem hdrEnd, cmpAndHdrSize mem hdrEnd + addlSize mem hdrEnd⟩) := by
  obtain ⟨hfooterLe, hheaderLe, hstartLe, hroom, hsizeLt⟩ := h
  have hfield (offset : Nat) (hoffset : offset + 4 ≤ 12) :
      fieldAt 4 (slice mem (hdrEnd - 12) 12) offset = fieldAt 4 mem (hdrEnd - 12 + offset) := by
    rw [fieldAt, fieldAt, slice_slice hoffset]
  have haddl : fieldAt 4 (slice mem (hdrEnd - 12) 12) 8 = addlSize mem hdrEnd := by
    rw [hfield 8 (by decide), addlSize]
    congr 1
    omega
  have hheader : fieldAt 4 (slice mem (hdrEnd - 12) 12) 4 = headerSize mem hdrEnd := by
    rw [hfield 4 (by decide), headerSize]
    congr 1
    omega
  have hcmp : fieldAt 4 (slice mem (hdrEnd - 12) 12) 0 = cmpAndHdrSize mem hdrEnd := hfield 0 (by decide)
  have hstart : (hdrEnd + 2 ^ 32 - cmpAndHdrSize mem hdrEnd) % 2 ^ 32 = hdrEnd - cmpAndHdrSize mem hdrEnd := by omega
  have hcmpOfs : (cmpAndHdrSize mem hdrEnd + 2 ^ 32 - headerSize mem hdrEnd) % 2 ^ 32 =
      cmpAndHdrSize mem hdrEnd - headerSize mem hdrEnd := by omega
  have houtOfs : (cmpAndHdrSize mem hdrEnd + addlSize mem hdrEnd) % 2 ^ 32 =
      cmpAndHdrSize mem hdrEnd + addlSize mem hdrEnd := by omega
  rw [blzStart, haddl, hheader, hcmp, hstart, hcmpOfs, houtOfs]

/-- The function gives what its loop gives. -/
lemma WellFormedFooter.kip1BlzUncompress_eq_loop (h : WellFormedFooter mem hdrEnd)
    (hloop : loop (blzTurn (hdrEnd - cmpAndHdrSize mem hdrEnd)) (cmpAndHdrSize mem hdrEnd + addlSize mem hdrEnd + 1)
      ⟨mem, cmpAndHdrSize mem hdrEnd - headerSize mem hdrEnd, cmpAndHdrSize mem hdrEnd + addlSize mem hdrEnd⟩ =
        some r) : kip1BlzUncompress mem hdrEnd = r := by
  have hfooterLe := h.footer_le
  have hroom := h.room
  have hsizeLt := h.size_lt
  have haddress : (hdrEnd + 2 ^ 32 - 12) % 2 ^ 32 = hdrEnd - 12 := by omega
  rw [kip1BlzUncompress, haddress, readBytes_eq (by omega), ok_bind, h.start_eq]
  exact blzLoop_eq le_rfl hloop

/-- The loop puts the output of the decoder into the buffer. -/
lemma WellFormedFooter.turns (h : WellFormedFooter mem hdrEnd)
    (hdecode : decode (compressedBytes mem hdrEnd) (cmpAndHdrSize mem hdrEnd + addlSize mem hdrEnd) = some d)
    (hapart : d.Apart) :
    d.out.length = cmpAndHdrSize mem hdrEnd + addlSize mem hdrEnd ∧
      loop (blzTurn (hdrEnd - cmpAndHdrSize mem hdrEnd)) (cmpAndHdrSize mem hdrEnd + addlSize mem hdrEnd + 1)
        ⟨mem, cmpAndHdrSize mem hdrEnd - headerSize mem hdrEnd, cmpAndHdrSize mem hdrEnd + addlSize mem hdrEnd⟩ =
          some (.ok (splice mem (hdrEnd - cmpAndHdrSize mem hdrEnd) d.out)) := by
  obtain ⟨hfooterLe, hheaderLe, hstartLe, hroom, hsizeLt⟩ := h
  have hlength : (compressedBytes mem hdrEnd).length = cmpAndHdrSize mem hdrEnd - headerSize mem hdrEnd :=
    length_slice (by omega)
  have hbegin : InPlace mem (hdrEnd - cmpAndHdrSize mem hdrEnd) (compressedBytes mem hdrEnd)
      (cmpAndHdrSize mem hdrEnd + addlSize mem hdrEnd) ⟨(compressedBytes mem hdrEnd).length, [], []⟩
      ⟨mem, cmpAndHdrSize mem hdrEnd - headerSize mem hdrEnd, cmpAndHdrSize mem hdrEnd + addlSize mem hdrEnd⟩ := by
    refine ⟨Nat.zero_le _, ?_, le_rfl, hlength.symm, rfl, (splice_nil mem _).symm⟩
    rw [hlength]
    dsimp only [List.length_nil]
    omega
  have hc : slice mem (hdrEnd - cmpAndHdrSize mem hdrEnd) (compressedBytes mem hdrEnd).length =
      compressedBytes mem hdrEnd := by
    rw [hlength]
    rfl
  exact hbegin.turns (by omega) (by omega) hc (Option.join_eq_some_iff.mp hdecode) hapart

end Sections

/-- If no item takes the output over the input that is left, the loop ends, and the buffer holds what the decoder
gives for the compressed bytes from their begin on, and is unchanged otherwise. -/
theorem kip1BlzUncompress_eq (mem : List UInt8) (hdrEnd : Nat) (d : Decoder) (hfooter : WellFormedFooter mem hdrEnd)
    (hdecode : decode (compressedBytes mem hdrEnd) (cmpAndHdrSize mem hdrEnd + addlSize mem hdrEnd) = some d)
    (hapart : d.Apart) :
    let cmpStart := hdrEnd - cmpAndHdrSize mem hdrEnd
    let total := cmpAndHdrSize mem hdrEnd + addlSize mem hdrEnd
    let cmpOfs := cmpAndHdrSize mem hdrEnd - headerSize mem hdrEnd
    d.out.length = total ∧
      loop (blzTurn cmpStart) (total + 1) ⟨mem, cmpOfs, total⟩ = some (.ok (splice mem cmpStart d.out)) ∧
      kip1BlzUncompress mem hdrEnd = .ok (splice mem cmpStart d.out) := by
  intro cmpStart total cmpOfs
  obtain ⟨hout, hloop⟩ := hfooter.turns hdecode hapart
  exact ⟨hout, hloop, hfooter.kip1BlzUncompress_eq_loop hloop⟩

/-- Three literals and three references, of which the last one is cut off, behind four bytes of something else. -/
theorem kip1BlzUncompress_eq_clipped :
    let c : List UInt8 := [9, 0x90, 3, 0x30, 0, 0, 0xA, 0xB, 0xC, 0x1C]
    let footer : List UInt8 := [22, 0, 0, 0, 12, 0, 0, 0, 0, 0, 0, 0]
    kip1BlzUncompress ([1, 2, 3, 4] ++ (c ++ footer)) 26 =
      .ok ([1, 2, 3, 4] ++ (0xC :: (List.replicate 7 [0xA, 0xB, 0xC]).flatten)) := by
  intro c footer
  let mem := [1, 2, 3, 4] ++ (c ++ footer)
  let d : Decoder := ⟨0, 0xC :: (List.replicate 7 [0xA, 0xB, 0xC]).flatten,
    [(0, 0), (2, 10), (4, 16), (6, 19), (7, 20), (8, 21)]⟩
  have hfooter : WellFormedFooter mem 26 := by
    constructor
    all_goals decide
  have hdecode : decode (compressedBytes mem 26) (cmpAndHdrSize mem 26 + addlSize mem 26) = some d := by decide
  exact (kip1BlzUncompress_eq mem 26 d hfooter hdecode (by decide)).2.2

end RajNX.Fusee
