import RajNX.Fusee.KipBlz

/-!
# The memory of KIP decompression

`kip1_uncompress` and `kip1_blz_uncompress` step by step, with the same reads and writes. Addresses are offsets in the
image that was allocated, or in the one that is given. A step has no next state if the image is rejected or done.

`uncompress_inside` says what is left to the image for all accesses to stay inside: the sizes of the header, the sizes
of each footer, that there is a control byte where one is read, and where segments come from. No run that stays inside
makes `kip1Uncompress` access anything outside.
-/

namespace RajNX.Fusee

open Fallible Fields LittleEndian Splice

/-! ## The functions -/

/-- The loop of `kip1_blz_uncompress`, with the rest of the control byte and the number of its bits that are left. -/
structure BlzState extends Blz where
  control : UInt8
  bits : Nat

/-- A step of the loop: a control byte is read, or one of its bits is taken. -/
def blzStep (cmpStart : Nat) (s : BlzState) : Except KipStop BlzState :=
  if s.bits = 0 then do
    let (control, b) ← blzControl cmpStart s.toBlz
    return ⟨b, control, 8⟩
  else do
    let b ← blzItem cmpStart (s.control &&& 0x80 ≠ 0) s.toBlz
    return ⟨b, s.control <<< 1, s.bits - 1⟩

/-- The variables of the loop of `kip1_uncompress`. -/
structure SectionLoop where
  i : Nat
  newOffset : Nat
  oldOffset : Nat

/-- Where `kip1_uncompress` is: before a section is copied, before its footer is read, in the loop that uncompresses
it, or at the end. -/
inductive UncompressState
  | copy (p : SectionLoop) (newKip : List UInt8)
  | footer (p : SectionLoop) (newKip : List UInt8)
  | blz (p : SectionLoop) (cmpStart : Nat) (s : BlzState)
  | done (newKip : List UInt8)

section Code

variable (kip : List UInt8)

/-- The next section. -/
def SectionLoop.next (p : SectionLoop) : SectionLoop :=
  ⟨p.i + 1, (p.newOffset + outSize kip p.i) % 2 ^ 32, (p.oldOffset + compressedSize kip p.i) % 2 ^ 32⟩

/-- The end of a section, which `kip1_blz_uncompress` is called with. -/
def SectionLoop.hdrEnd (p : SectionLoop) : Nat := (p.newOffset + compressedSize kip p.i) % 2 ^ 32

/-- A step of `kip1_uncompress`. -/
def uncompressStep : UncompressState → Except KipStop (Option UncompressState)
  | .copy p newKip =>
    if p.i = 3 then return some (.done newKip)
    else do
      let data ← readBytes kip p.oldOffset (compressedSize kip p.i)
      let newKip ← writeBytes newKip p.newOffset data
      return some (if isCompressed kip p.i then .footer p newKip else .copy (p.next kip) newKip)
  | .footer p newKip => do
    let footer ← readBytes newKip ((p.hdrEnd kip + 2 ^ 32 - 12) % 2 ^ 32) 12
    let (cmpStart, s) := blzStart newKip footer (p.hdrEnd kip)
    return some (.blz p cmpStart ⟨s, 0, 0⟩)
  | .blz p cmpStart s =>
    if s.outOfs = 0 then return some (.copy (p.next kip) s.mem)
    else do
      let s ← blzStep cmpStart s
      return some (.blz p cmpStart s)
  | .done _ => return none

/-- The first part of `kip1_uncompress`, where memory may not be allocated. -/
def uncompressStart (allocated : Bool) : Except KipStop (Option UncompressState) := do
  let _ ← readBytes kip 0 0x100
  if ¬allocated then return none
  else
    let newKip ← newImage kip
    return some (.copy ⟨0, 0x100, 0x100⟩ newKip)

/-- The states that `kip1_uncompress` goes through. -/
inductive Reached (allocated : Bool) : UncompressState → Prop
  | start {s : UncompressState} : uncompressStart kip allocated = .ok (some s) → Reached allocated s
  | step {s t : UncompressState} : Reached allocated s → uncompressStep kip s = .ok (some t) → Reached allocated t

/-- All reads and writes are inside of the images. -/
def AccessesInside (allocated : Bool) : Prop :=
  uncompressStart kip allocated ≠ .error .outside ∧
    ∀ s, Reached kip allocated s → uncompressStep kip s ≠ .error .outside

/-! ## What the code does not check -/

/-- The image has a header, and so has the one that is allocated. -/
def StartsInside : Prop := 0x100 ≤ kip.length ∧ 0x100 ≤ kip1GetSizeFromHeader (uncompressedHeader kip)

/-- How much output a footer says. -/
def footerOutput (footer : List UInt8) : Nat := (fieldAt 4 footer 0 + fieldAt 4 footer 8) % 2 ^ 32

/-- The sizes of a footer: the compressed bytes are not in front of the image, and neither they nor the output go
beyond it. -/
structure FooterFits (newKip footer : List UInt8) (hdrEnd : Nat) : Prop where
  cmpAndHdrSize_le : fieldAt 4 footer 0 ≤ hdrEnd
  headerSize_le : fieldAt 4 footer 4 ≤ fieldAt 4 footer 0
  out_le : hdrEnd - fieldAt 4 footer 0 + footerOutput footer ≤ newKip.length

/-- How far away the segment that comes next is. -/
def segmentOffset (cmpStart : Nat) (s : Blz) : Nat := fieldAt 2 s.mem (cmpStart + (s.cmpOfs - 2)) % 2 ^ 12 + 3

/-- The accesses of the next step that the code does not check stay inside. A footer that says no output is not used. -/
def StaysInside : UncompressState → Prop
  | .copy p newKip => p.i = 3 ∨ compressedSize kip p.i = 0 ∨
    (p.oldOffset + compressedSize kip p.i ≤ kip.length ∧ p.newOffset + compressedSize kip p.i ≤ newKip.length)
  | .footer p newKip => 12 ≤ p.hdrEnd kip ∧ p.hdrEnd kip ≤ newKip.length ∧
    (footerOutput (slice newKip (p.hdrEnd kip - 12) 12) = 0 ∨
      FooterFits newKip (slice newKip (p.hdrEnd kip - 12) 12) (p.hdrEnd kip))
  | .blz _ cmpStart s => s.outOfs = 0 ∨
    if s.bits = 0 then s.cmpOfs ≠ 0
    else s.control &&& 0x80 ≠ 0 → 2 ≤ s.cmpOfs → cmpStart + s.outOfs + segmentOffset cmpStart s.toBlz ≤ s.mem.length
  | .done _ => True

end Code

/-! ## The loop that uncompresses a section -/

section Safely

variable {α β : Type} {x : Except KipStop α} {f : α → Except KipStop β} {P : α → Prop} {Q : β → Prop}

/-- No access is outside, and something holds of what is given. -/
def Safely (P : α → Prop) (x : Except KipStop α) : Prop := x ≠ .error .outside ∧ ∀ a, x = .ok a → P a

lemma Safely.ok {a : α} (h : P a) : Safely P (.ok a : Except KipStop α) :=
  ⟨nofun, fun _ heq => Except.ok.inj heq ▸ h⟩

lemma Safely.fatal : Safely P (.error .fatal : Except KipStop α) := ⟨nofun, nofun⟩

/-- One computation after the other. -/
lemma Safely.bind (h : Safely P x) (hf : ∀ a, P a → Safely Q (f a)) : Safely Q (x >>= f) := by
  constructor
  · intro heq
    rcases bind_eq_error heq with heq | ⟨a, ha, heq⟩
    · exact h.1 heq
    · exact (hf a (h.2 a ha)).1 heq
  · intro b heq
    obtain ⟨a, ha, heq⟩ := bind_eq_ok heq
    exact (hf a (h.2 a ha)).2 b heq

end Safely

section Blz

variable {m : List UInt8} {n : Nat} {cmpStart size : Nat} {s : Blz}

/-- The compressed bytes that are left, and the output that is left, are in the image. -/
structure Cursors (size cmpStart : Nat) (s : Blz) : Prop where
  length_eq : s.mem.length = size
  size_lt : size < 2 ^ 32
  cmp_le : cmpStart + s.cmpOfs ≤ size
  out_le : cmpStart + s.outOfs ≤ size

/-- A segment is copied inside of the image if it comes from there. -/
lemma copySegment_inside {outOfs segOfs j : Nat} (hlt : m.length < 2 ^ 32)
    (hsource : cmpStart + (outOfs + j + n + segOfs) ≤ m.length) :
    Safely (fun mem => mem.length = m.length) (copySegment cmpStart outOfs segOfs n j m) := by
  induction n generalizing j m with
  | zero => exact .ok rfl
  | succ n ih =>
    have hread : cmpStart + (outOfs + j + segOfs) + 1 ≤ m.length := by omega
    have hbyte := length_slice hread
    have hwrite : cmpStart + (outOfs + j) + (slice m (cmpStart + (outOfs + j + segOfs)) 1).length ≤ m.length := by
      rw [hbyte]
      omega
    have hlen := length_splice hwrite
    have hrest := @ih _ (j + 1) (hlen ▸ hlt) (by rw [hlen]; omega)
    rw [hlen] at hrest
    rw [copySegment, blzAddress_eq (by omega), readBytes_eq hread, ok_bind, blzAddress_eq (by omega),
      writeBytes_eq hwrite]
    exact hrest

/-- A control byte is read if there is one. -/
lemma Cursors.control (h : Cursors size cmpStart s) (hpos : s.cmpOfs ≠ 0) :
    Safely (fun t => Cursors size cmpStart t.2) (blzControl cmpStart s) := by
  have hcmp := h.cmp_le
  have hlt := h.size_lt
  have hprev : (s.cmpOfs + (2 ^ 32 - 1)) % 2 ^ 32 = s.cmpOfs - 1 := by omega
  have hread : cmpStart + (s.cmpOfs - 1) + 1 ≤ s.mem.length := by
    rw [h.length_eq]
    omega
  rw [blzControl, hprev, blzAddress_eq (by omega), readBytes_eq hread]
  exact .ok ⟨h.length_eq, hlt, (Nat.add_le_add_left (Nat.sub_le _ 1) _).trans hcmp, h.out_le⟩

/-- A segment is copied, or the code finds that there are no bytes for it. -/
lemma Cursors.segment (h : Cursors size cmpStart s)
    (hsource : 2 ≤ s.cmpOfs → cmpStart + s.outOfs + segmentOffset cmpStart s ≤ s.mem.length) :
    Safely (Cursors size cmpStart) (blzItem cmpStart true s) := by
  rw [blzItem, if_pos rfl]
  rcases Nat.lt_or_ge s.cmpOfs 2 with htwo | htwo
  · rw [if_pos htwo]
    exact .fatal
  · have hlen := h.length_eq
    have hcmp := h.cmp_le
    have hlt := h.size_lt
    have hout := h.out_le
    have hhigh : cmpStart + (s.cmpOfs - 2 + 1) + 1 ≤ s.mem.length := by omega
    have hlow : cmpStart + (s.cmpOfs - 2) + 1 ≤ s.mem.length := by omega
    have hval : leValue (slice s.mem (cmpStart + (s.cmpOfs - 2)) 1 ++ slice s.mem (cmpStart + (s.cmpOfs - 2 + 1)) 1) =
        fieldAt 2 s.mem (cmpStart + (s.cmpOfs - 2)) := by
      rw [← Nat.add_assoc, slice_append_slice]
      rfl
    have hend := hsource htwo
    rw [segmentOffset] at hend
    obtain ⟨val, hval'⟩ : ∃ val, fieldAt 2 s.mem (cmpStart + (s.cmpOfs - 2)) = val := ⟨_, rfl⟩
    rw [hval'] at hval hend
    have hmin : min (val / 2 ^ 12 + 3) s.outOfs ≤ s.outOfs := Nat.min_le_right _ _
    have hcopy := @copySegment_inside s.mem (min (val / 2 ^ 12 + 3) s.outOfs) cmpStart
      (s.outOfs - min (val / 2 ^ 12 + 3) s.outOfs) (val % 2 ^ 12 + 3) 0 (hlen ▸ hlt) (by omega)
    rw [if_neg (Nat.not_lt.mpr htwo)]
    dsimp only
    rw [blzAddress_eq (by omega), blzAddress_eq (by omega), readBytes_eq hhigh, readBytes_eq hlow, ok_bind, ok_bind,
      hval]
    exact hcopy.bind fun mem hmem => .ok ⟨hmem.trans hlen, hlt, by dsimp only; omega, by dsimp only; omega⟩

/-- A byte is copied, or the code finds that there is none. -/
lemma Cursors.literal (h : Cursors size cmpStart s) (hout : s.outOfs ≠ 0) :
    Safely (Cursors size cmpStart) (blzItem cmpStart false s) := by
  rw [blzItem, if_neg Bool.false_ne_true]
  rcases Nat.lt_or_ge s.cmpOfs 1 with hone | hone
  · rw [if_pos hone]
    exact .fatal
  · have hlen := h.length_eq
    have hcmp := h.cmp_le
    have hlt := h.size_lt
    have hle := h.out_le
    have hpos := Nat.pos_of_ne_zero hout
    have hread : cmpStart + (s.cmpOfs - 1) + 1 ≤ s.mem.length := by omega
    have hbyte := length_slice hread
    have hwrite : cmpStart + (s.outOfs - 1) + (slice s.mem (cmpStart + (s.cmpOfs - 1)) 1).length ≤ s.mem.length := by
      rw [hbyte]
      omega
    rw [if_neg (Nat.not_lt.mpr hone), blzAddress_eq (by omega), blzAddress_eq (by omega), readBytes_eq hread, ok_bind,
      writeBytes_eq hwrite]
    exact .ok ⟨(length_splice hwrite).trans hlen, hlt, by dsimp only; omega, by dsimp only; omega⟩

/-- A step of the loop stays inside if there is a control byte, and if the segment comes from the image. -/
lemma Cursors.step {b : BlzState} (h : Cursors size cmpStart b.toBlz) (hout : b.outOfs ≠ 0)
    (hnext : if b.bits = 0 then b.cmpOfs ≠ 0
      else b.control &&& 0x80 ≠ 0 → 2 ≤ b.cmpOfs →
        cmpStart + b.outOfs + segmentOffset cmpStart b.toBlz ≤ b.mem.length) :
    Safely (fun t => Cursors size cmpStart t.toBlz) (blzStep cmpStart b) := by
  rw [blzStep]
  rcases eq_or_ne b.bits 0 with hbits | hbits
  · rw [if_pos hbits] at hnext ⊢
    exact (h.control hnext).bind fun t ht => .ok ht
  · rw [if_neg hbits] at hnext ⊢
    have hitem : Safely (Cursors size cmpStart) (blzItem cmpStart (b.control &&& 0x80 ≠ 0) b.toBlz) := by
      by_cases hcontrol : b.control &&& 0x80 ≠ 0
      · rw [decide_eq_true hcontrol]
        exact h.segment (hnext hcontrol)
      · rw [decide_eq_false hcontrol]
        exact h.literal hout
    exact hitem.bind fun t ht => .ok ht

end Blz

/-! ## The steps -/

section Steps

variable {kip : List UInt8} {size : Nat} {s : UncompressState} {allocated : Bool}

/-- The image that was allocated has its size, and the cursors are in it until all output is there. -/
def Bounded (size : Nat) : UncompressState → Prop
  | .copy _ newKip => newKip.length = size
  | .footer _ newKip => newKip.length = size
  | .blz _ cmpStart s => s.mem.length = size ∧ (s.outOfs = 0 ∨ Cursors size cmpStart s.toBlz)
  | .done _ => True

/-- What has been reached is bounded, if anything has. -/
abbrev BoundedStep (size : Nat) : Option UncompressState → Prop := fun r => ∀ t ∈ r, Bounded size t

lemma boundedStep_some {t : UncompressState} (h : Bounded size t) : BoundedStep size (some t) :=
  fun _ ht => Option.some.inj ht ▸ h

/-- The cursors of a footer that fits. -/
lemma FooterFits.cursors {newKip footer : List UInt8} {hdrEnd : Nat} (h : FooterFits newKip footer hdrEnd)
    (hlen : newKip.length = size) (hlt : size < 2 ^ 32) (hend : hdrEnd ≤ newKip.length) :
    Cursors size (blzStart newKip footer hdrEnd).1 (blzStart newKip footer hdrEnd).2 := by
  have hcmp := h.cmpAndHdrSize_le
  have hheader := h.headerSize_le
  have hout := h.out_le
  rw [footerOutput] at hout
  have hfield := fieldAt_lt 4 footer 0
  have hstart : (hdrEnd + 2 ^ 32 - fieldAt 4 footer 0) % 2 ^ 32 = hdrEnd - fieldAt 4 footer 0 := by omega
  have hofs : (fieldAt 4 footer 0 + 2 ^ 32 - fieldAt 4 footer 4) % 2 ^ 32 =
      fieldAt 4 footer 0 - fieldAt 4 footer 4 ∨ fieldAt 4 footer 4 = 0 := by omega
  refine ⟨hlen, hlt, ?_, ?_⟩
  · rw [blzStart]
    dsimp only
    omega
  · rw [blzStart]
    dsimp only
    rw [hstart]
    omega

/-- What a step does that stays inside. -/
lemma Bounded.step (hlt : size < 2 ^ 32) (h : Bounded size s) (hstays : StaysInside kip s) :
    Safely (BoundedStep size) (uncompressStep kip s) := by
  cases s with
  | copy p newKip =>
    have hlen : newKip.length = size := h
    rw [uncompressStep]
    rcases eq_or_ne p.i 3 with hi | hi
    · rw [if_pos hi]
      exact .ok (boundedStep_some trivial)
    · have hdata : ∃ data newKip', readBytes kip p.oldOffset (compressedSize kip p.i) = .ok data ∧
          writeBytes newKip p.newOffset data = .ok newKip' ∧ newKip'.length = size := by
        rcases hstays.resolve_left hi with hzero | ⟨hold, hnew⟩
        · refine ⟨[], newKip, ?_, ?_, hlen⟩
          · rw [hzero]
            exact if_pos (Or.inl rfl)
          · exact (if_pos (Or.inl rfl)).trans (congrArg Except.ok (splice_nil _ _))
        · have hslice := length_slice hold
          exact ⟨_, _, readBytes_eq hold, writeBytes_eq (hslice.symm ▸ hnew),
            (length_splice (hslice.symm ▸ hnew)).trans hlen⟩
      obtain ⟨data, newKip', hread, hwrite, hlen'⟩ := hdata
      rw [if_neg hi, hread, ok_bind, hwrite]
      refine .ok (boundedStep_some ?_)
      split
      · exact hlen'
      · exact hlen'
  | footer p newKip =>
    have hlen : newKip.length = size := h
    obtain ⟨htwelve, hend, hfits⟩ := hstays
    have haddress : (p.hdrEnd kip + 2 ^ 32 - 12) % 2 ^ 32 = p.hdrEnd kip - 12 := by omega
    have hread : p.hdrEnd kip - 12 + 12 ≤ newKip.length := by omega
    rw [uncompressStep, haddress, readBytes_eq hread]
    exact .ok (boundedStep_some ⟨hlen, hfits.imp_right fun hfits => hfits.cursors hlen hlt hend⟩)
  | blz p cmpStart b =>
    obtain ⟨hlen, hcursors⟩ := h
    rw [uncompressStep]
    rcases eq_or_ne b.outOfs 0 with hout | hout
    · rw [if_pos hout]
      exact .ok (boundedStep_some hlen)
    · rw [if_neg hout]
      have hstep := (hcursors.resolve_left hout).step hout (hstays.resolve_left hout)
      exact hstep.bind fun t ht => .ok (boundedStep_some ⟨ht.length_eq, .inr ht⟩)
  | done newKip => exact .ok nofun

/-- The first part stays inside. -/
lemma StartsInside.bounded (h : StartsInside kip) :
    Safely (BoundedStep (kip1GetSizeFromHeader (uncompressedHeader kip))) (uncompressStart kip allocated) := by
  obtain ⟨hkip, hsize⟩ := h
  have hread : 0 + 0x100 ≤ kip.length := (Nat.zero_add _).trans_le hkip
  have hheader := (uncompressedHeader_spec hkip).1
  have hreplicate : (List.replicate (kip1GetSizeFromHeader (uncompressedHeader kip)) (0 : UInt8)).length =
      kip1GetSizeFromHeader (uncompressedHeader kip) := List.length_replicate
  have hwrite : 0 + (uncompressedHeader kip).length ≤
      (List.replicate (kip1GetSizeFromHeader (uncompressedHeader kip)) (0 : UInt8)).length := by
    rw [hheader, hreplicate]
    exact (Nat.zero_add _).trans_le hsize
  rw [uncompressStart, readBytes_eq hread, ok_bind]
  cases allocated with
  | false => exact .ok nofun
  | true =>
    rw [if_neg (not_not.mpr rfl), newImage, readBytes_eq hread, ok_bind, writeBytes_eq hwrite]
    exact .ok (boundedStep_some ((length_splice hwrite).trans hreplicate))

/-- The sizes hold in every state that is reached. -/
lemma Reached.bounded (hreached : Reached kip allocated s) (hstart : StartsInside kip)
    (hstays : ∀ s, Reached kip allocated s → StaysInside kip s) :
    Bounded (kip1GetSizeFromHeader (uncompressedHeader kip)) s := by
  induction hreached with
  | start hs => exact hstart.bounded.2 _ hs _ rfl
  | step hs ht ih => exact (ih.step (Nat.mod_lt _ (Nat.two_pow_pos 32)) (hstays _ hs)).2 _ ht _ rfl

end Steps

/-! ## The run as one function -/

section Runs

variable {kip : List UInt8} {p : SectionLoop} {cmpStart bits fuel : Nat} {control : UInt8} {b : Blz}
  {newKip : List UInt8}

/-- A step that begins with a computation reaches what that gives. -/
lemma Reached.safely {α : Type} {x : Except KipStop α} {f : α → UncompressState} {s : UncompressState}
    (h : Reached kip true s) (hinside : AccessesInside kip true)
    (hstep : uncompressStep kip s = x >>= fun a => .ok (some (f a))) : Safely (fun a => Reached kip true (f a)) x := by
  constructor
  · intro heq
    rw [heq] at hstep
    exact hinside.2 s h hstep
  · intro a heq
    rw [heq] at hstep
    exact h.step hstep

/-- The loop of `kip1_blz_uncompress` is in some state, behind a control byte or at its end. -/
def ReachedBlz (kip : List UInt8) (p : SectionLoop) (cmpStart : Nat) (b : Blz) : Prop :=
  ∃ control bits, Reached kip true (.blz p cmpStart ⟨b, control, bits⟩) ∧ (b.outOfs = 0 ∨ bits = 0)

/-- Each bit of a control byte is a step. -/
lemma Reached.blzBits (h : Reached kip true (.blz p cmpStart ⟨b, control, bits⟩)) (hinside : AccessesInside kip true)
    (hout : b.outOfs ≠ 0) : Safely (ReachedBlz kip p cmpStart) (Fusee.blzBits cmpStart bits control b) := by
  induction bits generalizing control b with
  | zero => exact .ok ⟨control, 0, h, .inr rfl⟩
  | succ bits ih =>
    have hstep : uncompressStep kip (.blz p cmpStart ⟨b, control, bits + 1⟩) =
        blzItem cmpStart (control &&& 0x80 ≠ 0) b >>= fun b' =>
          .ok (some (.blz p cmpStart ⟨b', control <<< 1, bits⟩)) := by
      rw [uncompressStep, if_neg hout, blzStep, if_neg (Nat.succ_ne_zero bits)]
      cases blzItem cmpStart (control &&& 0x80 ≠ 0) b <;> rfl
    refine (h.safely hinside hstep).bind fun b' hb' => ?_
    split
    · next hdone => exact .ok ⟨_, _, hb', .inl hdone⟩
    · next hmore => exact ih hb' hmore

/-- A control byte is a step, and then each of its bits is. -/
lemma Reached.blzByte (h : Reached kip true (.blz p cmpStart ⟨b, control, 0⟩)) (hinside : AccessesInside kip true)
    (hout : b.outOfs ≠ 0) : Safely (ReachedBlz kip p cmpStart) (Fusee.blzByte cmpStart b) := by
  have hstep : uncompressStep kip (.blz p cmpStart ⟨b, control, 0⟩) =
      blzControl cmpStart b >>= fun t => .ok (some (.blz p cmpStart ⟨t.2, t.1, 8⟩)) := by
    rw [uncompressStep, if_neg hout, blzStep, if_pos rfl]
    cases blzControl cmpStart b <;> rfl
  have hcontrol := h.safely hinside hstep
  have hsame : Safely (fun t => t.2.outOfs = b.outOfs) (blzControl cmpStart b) :=
    ⟨hcontrol.1, fun t ht => outOfs_blzControl ht⟩
  have hboth : Safely (fun t => Reached kip true (.blz p cmpStart ⟨t.2, t.1, 8⟩) ∧ t.2.outOfs = b.outOfs)
      (blzControl cmpStart b) := ⟨hcontrol.1, fun t ht => ⟨hcontrol.2 t ht, hsame.2 t ht⟩⟩
  exact hboth.bind fun t ht => ht.1.blzBits hinside (ht.2.trans_ne hout)

/-- The loop of `kip1_blz_uncompress` comes to the next section. -/
lemma ReachedBlz.blzLoop (h : ReachedBlz kip p cmpStart b) (hinside : AccessesInside kip true)
    (hfuel : b.outOfs ≤ fuel) :
    Safely (fun mem => Reached kip true (.copy (p.next kip) mem)) (Fusee.blzLoop cmpStart fuel b) := by
  have hdone {b : Blz} (h : ReachedBlz kip p cmpStart b) (hout : b.outOfs = 0) :
      Reached kip true (.copy (p.next kip) b.mem) := by
    obtain ⟨control, bits, hreached, -⟩ := h
    refine hreached.step ?_
    rw [uncompressStep, if_pos hout]
    rfl
  induction fuel generalizing b with
  | zero => exact .ok (hdone h (Nat.le_zero.mp hfuel))
  | succ fuel ih =>
    rw [Fusee.blzLoop]
    by_cases hout : b.outOfs = 0
    · rw [if_pos hout]
      exact .ok (hdone h hout)
    · rw [if_neg hout]
      obtain ⟨control, bits, hreached, hbits⟩ := h
      obtain rfl := hbits.resolve_left hout
      have hbyte := hreached.blzByte hinside hout
      have hless : Safely (fun b' => ReachedBlz kip p cmpStart b' ∧ b'.outOfs < b.outOfs)
          (Fusee.blzByte cmpStart b) := ⟨hbyte.1, fun b' hb' => ⟨hbyte.2 b' hb', outOfs_blzByte hout hb'⟩⟩
      exact hless.bind fun b' hb' => ih hb'.1 (by omega)

/-- A section is copied and uncompressed. -/
lemma Reached.uncompressSection (h : Reached kip true (.copy p newKip)) (hinside : AccessesInside kip true)
    (hi : p.i ≠ 3) :
    Safely (fun mem => Reached kip true (.copy (p.next kip) mem))
      (Fusee.uncompressSection kip p.i p.newOffset p.oldOffset newKip) := by
  have hstep : uncompressStep kip (.copy p newKip) =
      (readBytes kip p.oldOffset (compressedSize kip p.i) >>= writeBytes newKip p.newOffset) >>= fun newKip =>
        .ok (some (if isCompressed kip p.i then .footer p newKip else .copy (p.next kip) newKip)) := by
    rw [uncompressStep, if_neg hi]
    cases readBytes kip p.oldOffset (compressedSize kip p.i) <;> rfl
  have hcopy := h.safely hinside hstep
  have heq : Fusee.uncompressSection kip p.i p.newOffset p.oldOffset newKip =
      (readBytes kip p.oldOffset (compressedSize kip p.i) >>= writeBytes newKip p.newOffset) >>= fun newKip =>
        if isCompressed kip p.i then kip1BlzUncompress newKip (p.hdrEnd kip) else .ok newKip := by
    rw [Fusee.uncompressSection]
    cases readBytes kip p.oldOffset (compressedSize kip p.i) <;> rfl
  rw [heq]
  refine hcopy.bind fun newKip hreached => ?_
  split
  · next hflag =>
    rw [if_pos hflag] at hreached
    rw [kip1BlzUncompress]
    exact (hreached.safely hinside rfl).bind fun footer hblz => ReachedBlz.blzLoop ⟨0, 0, hblz, .inr rfl⟩ hinside le_rfl
  · next hflag =>
    rw [if_neg hflag] at hreached
    exact .ok hreached

/-- A run without an access outside of its images is one of `kip1Uncompress`. -/
theorem kip1Uncompress_inside (kip : List UInt8) (hinside : AccessesInside kip true) :
    kip1Uncompress kip ≠ .error .outside := by
  have hsections (newKip : List UInt8) (h : Reached kip true (.copy ⟨0, 0x100, 0x100⟩ newKip)) :
      Safely (fun _ => True) (uncompressSections kip [0, 1, 2] 0x100 0x100 newKip) := by
    refine (h.uncompressSection hinside (show 0 ≠ 3 by decide)).bind fun newKip h => ?_
    refine (h.uncompressSection hinside (show 1 ≠ 3 by decide)).bind fun newKip h => ?_
    exact (h.uncompressSection hinside (show 2 ≠ 3 by decide)).bind fun newKip _ => .ok trivial
  have hstart : uncompressStart kip true = newImage kip >>= fun newKip =>
      .ok (some (.copy ⟨0, 0x100, 0x100⟩ newKip)) := by
    rw [uncompressStart]
    cases hread : readBytes kip 0 0x100 with
    | error e => rw [newImage, hread, error_bind, error_bind, error_bind]
    | ok _ =>
      rw [ok_bind, if_neg (not_not.mpr rfl)]
      rfl
  intro hout
  rcases bind_eq_error hout with hout | ⟨newKip, hnew, hout⟩
  · rw [hout] at hstart
    exact hinside.1 hstart
  · rw [hnew] at hstart
    exact (hsections newKip (.start hstart)).1 hout

end Runs

/-! ## Examples -/

section Example

variable {kip : List UInt8} {allocated : Bool} {s : UncompressState}

instance (newKip footer : List UInt8) (hdrEnd : Nat) : Decidable (FooterFits newKip footer hdrEnd) :=
  decidable_of_iff (_ ∧ _ ∧ _) ⟨fun h => ⟨h.1, h.2.1, h.2.2⟩, fun h => ⟨h.1, h.2, h.3⟩⟩

instance (s : UncompressState) : Decidable (StaysInside kip s) :=
  match s with
  | .copy _ _ => inferInstanceAs (Decidable (_ ∨ _ ∨ _))
  | .footer _ _ => inferInstanceAs (Decidable (_ ∧ _ ∧ _))
  | .blz _ _ _ => inferInstanceAs (Decidable (_ ∨ _))
  | .done _ => .isTrue trivial

/-- The state after a number of steps. -/
def stateAfter (kip : List UInt8) (allocated : Bool) : Nat → Option UncompressState
  | 0 => (uncompressStart kip allocated).toOption.join
  | n + 1 => do
    let s ← stateAfter kip allocated n
    (uncompressStep kip s).toOption.join

lemma eq_ok_of_join {x : Except KipStop (Option UncompressState)} : x.toOption.join = some s ↔ x = .ok (some s) := by
  match x with
  | .error e => exact iff_of_false nofun nofun
  | .ok none => exact iff_of_false nofun nofun
  | .ok (some t) => exact ⟨fun h => by cases h; rfl, fun h => by cases h; rfl⟩

/-- What is reached is reached after some number of steps. -/
lemma Reached.stateAfter (h : Reached kip allocated s) : ∃ n, Fusee.stateAfter kip allocated n = some s := by
  induction h with
  | start hs => exact ⟨0, eq_ok_of_join.mpr hs⟩
  | step _ ht ih =>
    obtain ⟨n, hn⟩ := ih
    exact ⟨n + 1, Option.bind_eq_some_iff.mpr ⟨_, hn, eq_ok_of_join.mpr ht⟩⟩

end Example

end RajNX.Fusee
