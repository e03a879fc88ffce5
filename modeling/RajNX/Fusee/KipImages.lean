import RajNX.Fusee.KipBlz

/-!
# Well-formed KIPs

The images that the kernel can load: the bytes of the sections are there, and a compressed section is a stream that
the decoder accepts. `kip1_uncompress` never leaves its buffers with one, and gives an image of the size and with the
header that are expected.
-/

namespace RajNX.Fusee

open Fallible Fields LittleEndian Splice

/-- A compressed section: compressed bytes and a footer, of which the decoder makes no more than there is room for,
and not over the input that is left. -/
structure WellFormedStream (c : List UInt8) (room : Nat) : Prop where
  footer_le : 12 ≤ c.length
  header_le : headerSize c c.length ≤ cmpAndHdrSize c c.length
  start_le : cmpAndHdrSize c c.length ≤ c.length
  size_le : c.length + addlSize c c.length ≤ room
  decodes : ∃ d, decode (compressedBytes c c.length) (cmpAndHdrSize c c.length + addlSize c c.length) = some d ∧ d.Apart

/-- An image that the kernel can load. -/
structure WellFormedKip (kip : List UInt8) : Prop extends StoredKip kip where
  stream : ∀ i < 3, isCompressed kip i = true → WellFormedStream (sectionData kip i) (outSize kip i)

/-- There are no streams in an image that is not compressed. -/
lemma StoredKip.wellFormed {kip : List UInt8} (h : StoredKip kip) (huncompressed : Uncompressed kip) :
    WellFormedKip kip where
  toStoredKip := h
  stream i hi hflag := absurd hflag (by rw [(huncompressed i hi).1]; exact Bool.false_ne_true)

/-- An image that was made of another one: with its header, in which the sizes are stored and nothing is compressed. -/
structure UncompressedFrom (kip out : List UInt8) : Prop where
  length_eq : out.length = 0x100 + loadedSize kip
  take_eq : out.take 0x100 = uncompressedHeader kip

/-! ## Compressed sections -/

section Stream

variable {c mem : List UInt8} {room start n : Nat}

/-- A footer that has been copied is read where it is. -/
lemma fieldAt_footer {k : Nat} (hc : slice mem start c.length = c) (hk : 4 ≤ k) (hlen : k ≤ c.length) :
    fieldAt 4 mem (start + c.length - k) = fieldAt 4 c (c.length - k) := by
  have hpart := slice_slice (l := mem) (i := start) (show c.length - k + 4 ≤ c.length by omega)
  rw [hc] at hpart
  rw [fieldAt, fieldAt, hpart, Nat.add_sub_assoc hlen]

/-- A compressed section is uncompressed where it was copied to. -/
lemma WellFormedStream.kip1BlzUncompress (h : WellFormedStream c room) (hc : slice mem start c.length = c)
    (hroom : start + room ≤ mem.length) (hlt : mem.length < 2 ^ 32) (hn : n ≤ start) :
    ∃ mem', Fusee.kip1BlzUncompress mem (start + c.length) = .ok mem' ∧ KeepsFront n mem mem' := by
  obtain ⟨hfooterLe, hheaderLe, hstartLe, hsizeLe, d, hdecode, hapart⟩ := h
  have haddl : addlSize mem (start + c.length) = addlSize c c.length := fieldAt_footer hc le_rfl (by omega)
  have hheader : headerSize mem (start + c.length) = headerSize c c.length := fieldAt_footer hc (by decide) (by omega)
  have hcmp : cmpAndHdrSize mem (start + c.length) = cmpAndHdrSize c c.length :=
    fieldAt_footer hc (by decide) (by omega)
  have hbytes : compressedBytes mem (start + c.length) = compressedBytes c c.length := by
    have hpart := slice_slice (l := mem) (i := start) (j := c.length - cmpAndHdrSize c c.length)
      (m := cmpAndHdrSize c c.length - headerSize c c.length) (n := c.length) (by omega)
    rw [hc] at hpart
    rw [compressedBytes, compressedBytes, hcmp, hheader, hpart, Nat.add_sub_assoc hstartLe]
  have hfooter : WellFormedFooter mem (start + c.length) := by
    constructor
    case footer_le => omega
    case header_le => rw [hcmp, hheader]; exact hheaderLe
    case start_le => rw [hcmp]; omega
    case room => rw [haddl]; omega
    case size_lt => rw [haddl]; omega
  rw [← hbytes, ← hcmp, ← haddl] at hdecode
  obtain ⟨hout, hloop⟩ := hfooter.turns hdecode hapart
  refine ⟨_, hfooter.kip1BlzUncompress_eq_loop hloop, .splice ?_ ?_⟩
  · rw [hcmp]
    omega
  · rw [hout, hcmp, haddl]
    omega

end Stream

/-! ## Images -/

section Images

variable {kip newKip : List UInt8}

/-- The sections are put behind each other, with the room that they take. -/
lemma uncompressSections_keepsFront {is : List Nat} {newOffset oldOffset : Nat} (hnew : 0x100 ≤ newOffset)
    (hkip : kip.length < 2 ^ 32) (hlt : newKip.length < 2 ^ 32)
    (hold : oldOffset + (is.map (compressedSize kip)).sum ≤ kip.length)
    (hfits : newOffset + (is.map (outSize kip)).sum ≤ newKip.length)
    (hsizes : ∀ i ∈ is, compressedSize kip i ≤ outSize kip i)
    (hstreams : ∀ before i after, is = before ++ i :: after → isCompressed kip i = true →
      WellFormedStream (slice kip (oldOffset + (before.map (compressedSize kip)).sum) (compressedSize kip i))
        (outSize kip i)) :
    ∃ newKip', uncompressSections kip is newOffset oldOffset newKip = .ok newKip' ∧
      KeepsFront 0x100 newKip newKip' := by
  induction is generalizing newOffset oldOffset newKip with
  | nil => exact ⟨newKip, rfl, .refl⟩
  | cons i is ih =>
    obtain ⟨hsize, hsizes⟩ := List.forall_mem_cons.mp hsizes
    rw [List.map_cons, List.sum_cons] at hold hfits
    have hread : oldOffset + compressedSize kip i ≤ kip.length := by omega
    have hslice : (slice kip oldOffset (compressedSize kip i)).length = compressedSize kip i := length_slice hread
    have hwrite : newOffset + (slice kip oldOffset (compressedSize kip i)).length ≤ newKip.length := by omega
    have hcopy := KeepsFront.splice hnew hwrite
    have hlength := hcopy.length_eq
    have hend : (newOffset + compressedSize kip i) % 2 ^ 32 = newOffset + compressedSize kip i :=
      Nat.mod_eq_of_lt (by omega)
    have hstreams' : ∀ before j after, is = before ++ j :: after → isCompressed kip j = true →
        WellFormedStream (slice kip (oldOffset + compressedSize kip i + (before.map (compressedSize kip)).sum)
          (compressedSize kip j)) (outSize kip j) := by
      intro before j after heq hj
      have hstream := hstreams (i :: before) j after (congrArg (i :: ·) heq) hj
      rwa [List.map_cons, List.sum_cons, ← Nat.add_assoc] at hstream
    have hdone : ∃ mem, uncompressSection kip i newOffset oldOffset newKip = .ok mem ∧ KeepsFront 0x100 newKip mem := by
      rw [uncompressSection, readBytes_eq hread, ok_bind, writeBytes_eq hwrite, ok_bind]
      split
      · next hflag =>
        have hstream := hstreams [] i is rfl hflag
        rw [List.map_nil, List.sum_nil, Nat.add_zero] at hstream
        obtain ⟨mem, hmem, hkeeps⟩ := hstream.kip1BlzUncompress (slice_splice_self hwrite)
          (by rw [hlength]; omega) (by rw [hlength]; exact hlt) hnew
        rw [hslice, ← hend] at hmem
        exact ⟨mem, hmem, hcopy.trans hkeeps⟩
      · exact ⟨_, rfl, hcopy⟩
    obtain ⟨mem, hmem, hkeeps⟩ := hdone
    obtain ⟨newKip', hrest, hkeeps'⟩ := @ih mem (newOffset + outSize kip i) (oldOffset + compressedSize kip i)
      (by omega) (by rw [hkeeps.length_eq]; exact hlt) (by omega) (by rw [hkeeps.length_eq]; omega) hsizes hstreams'
    refine ⟨newKip', ?_, hkeeps.trans hkeeps'⟩
    rw [uncompressSections, hmem, ok_bind, Nat.mod_eq_of_lt (by omega), Nat.mod_eq_of_lt (by omega), hrest]

/-- Where the sections start. -/
lemma sum_eq_sectionStart {before after : List Nat} {i : Nat} (h : [0, 1, 2] = before ++ i :: after) :
    i < 3 ∧ 0x100 + (before.map (compressedSize kip)).sum = sectionStart kip i := by
  match before, h with
  | [], h =>
    cases h
    exact ⟨by decide, rfl⟩
  | [_], h =>
    cases h
    exact ⟨by decide, rfl⟩
  | [_, _], h =>
    cases h
    refine ⟨by decide, ?_⟩
    simp only [List.map_cons, List.map_nil, List.sum_cons, List.sum_nil, sectionStart]
    omega
  | _ :: _ :: _ :: before, h =>
    have hlen := congrArg List.length h
    simp at hlen

/-- An image that is uncompressed has the header with the sizes stored, and as many bytes as that says. -/
lemma WellFormedKip.kip1Uncompress (h : WellFormedKip kip) :
    ∃ newKip, Fusee.kip1Uncompress kip = .ok newKip ∧ UncompressedFrom kip newKip := by
  obtain ⟨hheader, -, hsizes⟩ := uncompressedHeader_spec h.header_le
  have hsmall := h.loaded_lt
  have hsize : kip1GetSizeFromHeader (uncompressedHeader kip) = 0x100 + loadedSize kip := by
    rw [loadedSize] at hsmall ⊢
    rw [kip1GetSizeFromHeader, hsizes 0 (by decide), hsizes 1 (by decide), hsizes 2 (by decide),
      Nat.mod_eq_of_lt (by omega)]
    omega
  have hroom : 0 + (uncompressedHeader kip).length ≤ (List.replicate (0x100 + loadedSize kip) (0 : UInt8)).length := by
    rw [List.length_replicate, hheader]
    omega
  have hfront : (splice (List.replicate (0x100 + loadedSize kip) (0 : UInt8)) 0 (uncompressedHeader kip)).take
      (uncompressedHeader kip).length = uncompressedHeader kip := take_splice_zero
  rw [hheader] at hfront
  have hlength : (splice (List.replicate (0x100 + loadedSize kip) (0 : UInt8)) 0 (uncompressedHeader kip)).length =
      0x100 + loadedSize kip := (length_splice hroom).trans List.length_replicate
  have hold : 0x100 + ([0, 1, 2].map (compressedSize kip)).sum ≤ kip.length := by
    rw [h.length_eq, contentsSize]
    simp only [List.map_cons, List.map_nil, List.sum_cons, List.sum_nil]
    omega
  have hfits : 0x100 + ([0, 1, 2].map (outSize kip)).sum ≤
      (splice (List.replicate (0x100 + loadedSize kip) (0 : UInt8)) 0 (uncompressedHeader kip)).length := by
    rw [hlength, loadedSize]
    simp only [List.map_cons, List.map_nil, List.sum_cons, List.sum_nil]
    omega
  obtain ⟨newKip, hsections, hkeeps⟩ := uncompressSections_keepsFront le_rfl h.length_lt (hlength.trans_lt hsmall)
    hold hfits (fun i hi => h.compressed_le i (by fin_cases hi <;> decide)) (fun before i after heq hflag => by
      obtain ⟨hi, hstart⟩ := sum_eq_sectionStart heq
      rw [hstart]
      exact h.stream i hi hflag)
  refine ⟨newKip, ?_, hkeeps.length_eq.trans hlength, hkeeps.take_eq.trans hfront⟩
  rw [Fusee.kip1Uncompress, newImage, readBytes_eq ((Nat.zero_add _).trans_le h.header_le), ok_bind, hsize,
    writeBytes_eq hroom, ok_bind, hsections]

end Images

/-! ## Uncompressed images -/

section Uncompressed

variable {kip out : List UInt8}

namespace UncompressedFrom

/-- Other fields of the header are kept. -/
lemma fieldAt_eq {m offset : Nat} (h : UncompressedFrom kip out) (hlen : 0x100 ≤ kip.length)
    (hoffset : offset + m ≤ 0x100) (hflag : offset + m ≤ 0x1F ∨ 0x20 ≤ offset)
    (hsizes : ∀ i < 3, offset + m ≤ sectionField i 2 ∨ sectionField i 2 + 4 ≤ offset) :
    fieldAt m out offset = fieldAt m kip offset := by
  obtain ⟨-, hfields, -⟩ := uncompressedHeader_spec hlen
  rw [← fieldAt_take hoffset, h.take_eq, hfields m offset hoffset hflag hsizes]

section

variable (h : UncompressedFrom kip out) (hlen : 0x100 ≤ kip.length)

include h hlen

/-- The sizes that are loaded are not changed. -/
lemma outSize_eq {i : Nat} (hi : i < 6) : outSize out i = outSize kip i := by
  apply h.fieldAt_eq hlen (sectionField_fits hi 1 (by decide)) (.inr (by rw [sectionField]; omega))
  intro j hj
  simp only [sectionField]
  omega

/-- The places where sections are loaded are not changed. -/
lemma outOffset_eq {i : Nat} (hi : i < 6) : outOffset out i = outOffset kip i := by
  apply h.fieldAt_eq hlen (sectionField_fits hi 0 (by decide)) (.inr (by rw [sectionField]; omega))
  intro j hj
  simp only [sectionField]
  omega

/-- The sizes that are stored are those that are loaded. -/
lemma compressedSize_eq {i : Nat} (hi : i < 3) : compressedSize out i = outSize kip i := by
  obtain ⟨-, -, hsizes⟩ := uncompressedHeader_spec hlen
  have hfits := sectionField_fits (i := i) (by omega) 2 (by decide)
  rw [compressedSize, ← fieldAt_take hfits, h.take_eq]
  exact hsizes i hi

lemma loadedSize_eq : loadedSize out = loadedSize kip := by
  rw [loadedSize, h.outSize_eq hlen (by decide), h.outSize_eq hlen (by decide), h.outSize_eq hlen (by decide)]
  rfl

lemma contentsSize_eq : contentsSize out = loadedSize kip := by
  rw [contentsSize, h.compressedSize_eq hlen (by decide), h.compressedSize_eq hlen (by decide),
    h.compressedSize_eq hlen (by decide)]
  rfl

/-- Nothing is compressed. -/
lemma uncompressed : Uncompressed out := by
  intro i hi
  refine ⟨?_, by rw [h.compressedSize_eq hlen hi, h.outSize_eq hlen (by omega)]⟩
  have hflags : kipFlags out = kipFlags (uncompressedHeader kip) := by
    rw [kipFlags, kipFlags, ← h.take_eq, List.getD_eq_getElem?_getD, List.getD_eq_getElem?_getD,
      List.getElem?_take_of_lt (by decide)]
  obtain ⟨flags, hcleared⟩ := kipFlags_uncompressedHeader hlen
  have hbit : (0xF8 : UInt8) &&& ((1 : UInt8) <<< UInt8.ofNat i) = 0 := by interval_cases i <;> decide
  rw [isCompressed, hflags, hcleared, UInt8.and_assoc, hbit, UInt8.and_zero]
  rfl

end

/-- The image can be loaded as the one that it was made of. -/
lemma stored (h : UncompressedFrom kip out) (hkip : StoredKip kip) : StoredKip out := by
  have hlen := hkip.header_le
  constructor
  case magic_eq =>
    rw [← hkip.magic_eq, kipMagic, h.fieldAt_eq hlen (by decide) (.inl (by decide))
      (fun i _ => .inl (by rw [sectionField]; omega))]
    rfl
  case length_eq => rw [h.length_eq, h.contentsSize_eq hlen]
  case compressed_le => exact fun i hi => (h.uncompressed hlen i hi).2.le
  case loaded_lt => rw [h.loadedSize_eq hlen]; exact hkip.loaded_lt

end UncompressedFrom

end Uncompressed

end RajNX.Fusee
