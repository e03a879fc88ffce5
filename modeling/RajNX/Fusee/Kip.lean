import RajNX.Lib.Fallible
import RajNX.Lib.Fields

/-!
# Kernel initial processes

KIPs as the bootloader has them in memory: `kip1_header_t` of `kip.h`, and `kip1_uncompress` of `ips.c` with the
algorithm that uncompresses a section in place, from its end. Sizes are 32-bit numbers, as are addresses. Every read
and every write is looked at: one outside of the image that is given, or of the one that was allocated, is told apart
from an error that the code finds itself.
-/

namespace RajNX.Fusee

open Fallible Fields LittleEndian Splice

/-- `MAGIC_KIP1` -/
def magicKip1 : Nat := 0x3150494B

/-- A field of a section header: `out_offset`, `out_size` and `compressed_size` are the first three. -/
def sectionField (i k : Nat) : Nat := 0x20 + 0x10 * i + 4 * k

section Header

variable (kip : List UInt8)

/-- `magic` -/
def kipMagic : Nat := fieldAt 4 kip 0

/-- `title_id` -/
def titleId : Nat := fieldAt 8 kip 0x10

/-- `flags` -/
def kipFlags : UInt8 := kip.getD 0x1F 0

/-- `section_headers[i].out_offset` -/
def outOffset (i : Nat) : Nat := fieldAt 4 kip (sectionField i 0)

/-- `section_headers[i].out_size` -/
def outSize (i : Nat) : Nat := fieldAt 4 kip (sectionField i 1)

/-- `section_headers[i].compressed_size` -/
def compressedSize (i : Nat) : Nat := fieldAt 4 kip (sectionField i 2)

/-- The flag of a section that is compressed. -/
def isCompressed (i : Nat) : Bool := kipFlags kip &&& ((1 : UInt8) <<< UInt8.ofNat i) ≠ 0

/-- `kip1_get_size_from_header` -/
def kip1GetSizeFromHeader : Nat :=
  (0x100 + compressedSize kip 0 + compressedSize kip 1 + compressedSize kip 2) % 2 ^ 32

/-- Where the bytes of a section start in the image. -/
def sectionStart : Nat → Nat
  | 0 => 0x100
  | i + 1 => sectionStart i + compressedSize kip i

/-- The bytes of a section. -/
def sectionData (i : Nat) : List UInt8 := slice kip (sectionStart kip i) (compressedSize kip i)

end Header

/-! ## Memory -/

/-- What ends the code: `fatal_error`, or an access outside of the buffer that it is meant for. -/
inductive KipStop
  | fatal
  | outside
deriving DecidableEq

/-- So many bytes at an address are in a buffer, if there are any. -/
def FitsIn (length a n : Nat) : Prop := n = 0 ∨ a + n ≤ length

instance (length a n : Nat) : Decidable (FitsIn length a n) := inferInstanceAs (Decidable (_ ∨ _))

/-- Bytes are read from a buffer, if they are in it. -/
def readBytes (m : List UInt8) (a n : Nat) : Except KipStop (List UInt8) :=
  if FitsIn m.length a n then .ok (slice m a n) else .error .outside

/-- Bytes are written to a buffer, if they fit. -/
def writeBytes (m : List UInt8) (a : Nat) (xs : List UInt8) : Except KipStop (List UInt8) :=
  if FitsIn m.length a xs.length then .ok (splice m a xs) else .error .outside

section Memory

variable {m xs : List UInt8} {a n : Nat}

lemma readBytes_eq (h : a + n ≤ m.length) : readBytes m a n = .ok (slice m a n) := if_pos (Or.inr h)

lemma writeBytes_eq (h : a + xs.length ≤ m.length) : writeBytes m a xs = .ok (splice m a xs) := if_pos (Or.inr h)

/-- A write that fits keeps the size of the buffer. -/
lemma FitsIn.writeBytes (h : FitsIn m.length a xs.length) :
    ∃ m', Fusee.writeBytes m a xs = .ok m' ∧ m'.length = m.length := by
  refine ⟨splice m a xs, if_pos h, ?_⟩
  rcases h with hempty | hle
  · rw [List.length_eq_zero_iff.mp hempty, splice_nil]
  · exact length_splice hle

lemma writeBytes_of_not_fitsIn (h : ¬FitsIn m.length a xs.length) : writeBytes m a xs = .error .outside := if_neg h

end Memory

/-! ## Uncompressing -/

/-- Where the loop of `kip1_blz_uncompress` is. -/
structure Blz where
  mem : List UInt8
  cmpOfs : Nat
  outOfs : Nat

/-- `&cmp_start[ofs]` -/
def blzAddress (cmpStart ofs : Nat) : Nat := (cmpStart + ofs) % 2 ^ 32

lemma blzAddress_eq {cmpStart ofs : Nat} (h : cmpStart + ofs < 2 ^ 32) : blzAddress cmpStart ofs = cmpStart + ofs :=
  Nat.mod_eq_of_lt h

/-- The loop that copies a segment from further back, from byte `j` on. -/
def copySegment (cmpStart outOfs segOfs : Nat) : Nat → Nat → List UInt8 → Except KipStop (List UInt8)
  | 0, _, mem => return mem
  | n + 1, j, mem => do
    let byte ← readBytes mem (blzAddress cmpStart (outOfs + j + segOfs)) 1
    let mem ← writeBytes mem (blzAddress cmpStart (outOfs + j)) byte
    copySegment cmpStart outOfs segOfs n (j + 1) mem

/-- One bit of a control byte: a segment, or a byte that is copied directly. -/
def blzItem (cmpStart : Nat) (segment : Bool) (s : Blz) : Except KipStop Blz :=
  if segment then
    if s.cmpOfs < 2 then .error .fatal
    else do
      let cmpOfs := s.cmpOfs - 2
      let high ← readBytes s.mem (blzAddress cmpStart (cmpOfs + 1)) 1
      let low ← readBytes s.mem (blzAddress cmpStart cmpOfs) 1
      let segVal := leValue (low ++ high)
      let segSize := min (segVal / 2 ^ 12 + 3) s.outOfs
      let outOfs := s.outOfs - segSize
      let mem ← copySegment cmpStart outOfs (segVal % 2 ^ 12 + 3) segSize 0 s.mem
      return ⟨mem, cmpOfs, outOfs⟩
  else if s.cmpOfs < 1 then .error .fatal
  else do
    let byte ← readBytes s.mem (blzAddress cmpStart (s.cmpOfs - 1)) 1
    let mem ← writeBytes s.mem (blzAddress cmpStart (s.outOfs - 1)) byte
    return ⟨mem, s.cmpOfs - 1, s.outOfs - 1⟩

/-- `control = cmp_start[--cmp_ofs]`, which goes on below zero. -/
def blzControl (cmpStart : Nat) (s : Blz) : Except KipStop (UInt8 × Blz) := do
  let cmpOfs := (s.cmpOfs + (2 ^ 32 - 1)) % 2 ^ 32
  let control ← readBytes s.mem (blzAddress cmpStart cmpOfs) 1
  return (control.headD 0, { s with cmpOfs })

/-- The bits of a control byte. -/
def blzBits (cmpStart : Nat) : Nat → UInt8 → Blz → Except KipStop Blz
  | 0, _, s => return s
  | bits + 1, control, s => do
    let s ← blzItem cmpStart (control &&& 0x80 ≠ 0) s
    if s.outOfs = 0 then return s else blzBits cmpStart bits (control <<< 1) s

/-- A control byte and its bits. -/
def blzByte (cmpStart : Nat) (s : Blz) : Except KipStop Blz := do
  let (control, s) ← blzControl cmpStart s
  blzBits cmpStart 8 control s

/-- The loop of `kip1_blz_uncompress`. Every turn gives some output, so that the fuel can be its size. -/
def blzLoop (cmpStart : Nat) : Nat → Blz → Except KipStop (List UInt8)
  | 0, s => return s.mem
  | fuel + 1, s =>
    if s.outOfs = 0 then return s.mem
    else do
      let s ← blzByte cmpStart s
      blzLoop cmpStart fuel s

/-- `cmp_start` and the begin of the loop, as a footer says. -/
def blzStart (mem footer : List UInt8) (hdrEnd : Nat) : Nat × Blz :=
  let addlSize := fieldAt 4 footer 8
  let headerSize := fieldAt 4 footer 4
  let cmpAndHdrSize := fieldAt 4 footer 0
  ((hdrEnd + 2 ^ 32 - cmpAndHdrSize) % 2 ^ 32,
    ⟨mem, (cmpAndHdrSize + 2 ^ 32 - headerSize) % 2 ^ 32, (cmpAndHdrSize + addlSize) % 2 ^ 32⟩)

/-- `kip1_blz_uncompress`, with the end of the compressed section. -/
def kip1BlzUncompress (mem : List UInt8) (hdrEnd : Nat) : Except KipStop (List UInt8) := do
  let footer ← readBytes mem ((hdrEnd + 2 ^ 32 - 12) % 2 ^ 32) 12
  let (cmpStart, s) := blzStart mem footer hdrEnd
  blzLoop cmpStart s.outOfs s

/-- The header of the image that is not compressed. -/
def uncompressedHeader (kip : List UInt8) : List UInt8 :=
  let header := setFields 4 (sectionField · 2) outSize [0, 1, 2] (kip.take 0x100)
  splice header 0x1F [kipFlags header &&& 0xF8]

/-- A section is copied, and uncompressed in its room. -/
def uncompressSection (kip : List UInt8) (i newOffset oldOffset : Nat) (newKip : List UInt8) :
    Except KipStop (List UInt8) := do
  let data ← readBytes kip oldOffset (compressedSize kip i)
  let newKip ← writeBytes newKip newOffset data
  if isCompressed kip i then kip1BlzUncompress newKip ((newOffset + compressedSize kip i) % 2 ^ 32) else return newKip

/-- The loop of `kip1_uncompress`, with the sections that are left. -/
def uncompressSections (kip : List UInt8) : List Nat → Nat → Nat → List UInt8 → Except KipStop (List UInt8)
  | [], _, _, newKip => return newKip
  | i :: rest, newOffset, oldOffset, newKip => do
    let newKip ← uncompressSection kip i newOffset oldOffset newKip
    uncompressSections kip rest ((newOffset + outSize kip i) % 2 ^ 32) ((oldOffset + compressedSize kip i) % 2 ^ 32)
      newKip

/-- The header is read, and written to the image that is allocated. -/
def newImage (kip : List UInt8) : Except KipStop (List UInt8) := do
  let _ ← readBytes kip 0 0x100
  writeBytes (List.replicate (kip1GetSizeFromHeader (uncompressedHeader kip)) 0) 0 (uncompressedHeader kip)

/-- `kip1_uncompress`. Memory can always be allocated. -/
def kip1Uncompress (kip : List UInt8) : Except KipStop (List UInt8) := do
  let newKip ← newImage kip
  uncompressSections kip [0, 1, 2] 0x100 0x100 newKip

/-! ## Stored images -/

/-- The sizes of the sections. -/
def contentsSize (kip : List UInt8) : Nat := compressedSize kip 0 + compressedSize kip 1 + compressedSize kip 2

/-- The sizes that the sections are loaded with. -/
def loadedSize (kip : List UInt8) : Nat := outSize kip 0 + outSize kip 1 + outSize kip 2

/-- An image of which the bytes of the sections are there, and none takes more room than it has when it is loaded. -/
structure StoredKip (kip : List UInt8) : Prop where
  magic_eq : kipMagic kip = magicKip1
  length_eq : kip.length = 0x100 + contentsSize kip
  compressed_le : ∀ i < 3, compressedSize kip i ≤ outSize kip i
  loaded_lt : 0x100 + loadedSize kip < 2 ^ 32

/-- No section is compressed. -/
def Uncompressed (kip : List UInt8) : Prop :=
  ∀ i < 3, isCompressed kip i = false ∧ compressedSize kip i = outSize kip i

section Sizes

variable {kip kip' : List UInt8}

/-- No image is smaller when it is loaded. -/
lemma StoredKip.length_le (h : StoredKip kip) : kip.length ≤ 0x100 + loadedSize kip := by
  have h0 := h.compressed_le 0 (by decide)
  have h1 := h.compressed_le 1 (by decide)
  have h2 := h.compressed_le 2 (by decide)
  rw [h.length_eq, contentsSize, loadedSize]
  omega

lemma StoredKip.length_lt (h : StoredKip kip) : kip.length < 2 ^ 32 := h.length_le.trans_lt h.loaded_lt

lemma StoredKip.size_eq (h : StoredKip kip) : kip1GetSizeFromHeader kip = kip.length := by
  have hlength := h.length_eq
  have hlt := h.length_lt
  rw [contentsSize] at hlength
  rw [kip1GetSizeFromHeader, Nat.mod_eq_of_lt (by omega)]
  omega

lemma StoredKip.header_le (h : StoredKip kip) : 0x100 ≤ kip.length := by
  rw [h.length_eq]
  exact Nat.le_add_right _ _

/-- A field of the header is one of every image with that header. -/
lemma fieldAt_of_take_eq {n m offset : Nat} (h : kip'.take n = kip.take n) (hoffset : offset + m ≤ n) :
    fieldAt m kip' offset = fieldAt m kip offset := by
  rw [← fieldAt_take hoffset, h, fieldAt_take hoffset]

lemma compressedSize_of_take_eq {i : Nat} (h : kip'.take 0x100 = kip.take 0x100) (hi : i < 6) :
    compressedSize kip' i = compressedSize kip i := by
  apply fieldAt_of_take_eq h
  rw [sectionField]
  omega

lemma kip1GetSizeFromHeader_of_take_eq (h : kip'.take 0x100 = kip.take 0x100) :
    kip1GetSizeFromHeader kip' = kip1GetSizeFromHeader kip := by
  rw [kip1GetSizeFromHeader, compressedSize_of_take_eq h (by decide), compressedSize_of_take_eq h (by decide),
    compressedSize_of_take_eq h (by decide)]
  rfl

end Sizes

/-! ## The header of an image that is not compressed -/

section UncompressedHeader

variable {kip header : List UInt8} {i : Nat}

lemma sectionField_fits (hi : i < 6) (k : Nat) (hk : k < 4) : sectionField i k + 4 ≤ 0x100 := by
  rw [sectionField]
  omega

/-- The sizes that the sections are loaded with are stored as their sizes in the image. -/
lemma storeOutSizes_spec (hheader : header.length = 0x100) :
    (setFields 4 (sectionField · 2) outSize [0, 1, 2] header).length = 0x100 ∧
      (∀ m offset, (∀ i ∈ [0, 1, 2], offset + m ≤ sectionField i 2 ∨ sectionField i 2 + 4 ≤ offset) →
        fieldAt m (setFields 4 (sectionField · 2) outSize [0, 1, 2] header) offset = fieldAt m header offset) ∧
      ∀ i ∈ [0, 1, 2], compressedSize (setFields 4 (sectionField · 2) outSize [0, 1, 2] header) i =
        outSize header i := by
  have hvalue : [0, 1, 2].Pairwise fun i j => ∀ bs v, bs.length = 0x100 →
      outSize (setField 4 bs (sectionField i 2) v) j = outSize bs j := by
    have hlt : [0, 1, 2].Pairwise fun i j => i < j ∧ j < 3 := by decide
    refine hlt.imp fun {i j} hij bs v hbs => ?_
    apply fieldAt_setField_of_apart
    · have hfits := sectionField_fits (i := i) (by omega) 2 (by decide)
      omega
    · simp only [sectionField]
      omega
  obtain ⟨hlength, hapart, hset⟩ := setFields_spec (sectionField · 2) outSize hheader (by decide) (by decide) hvalue
  refine ⟨hlength, hapart, fun i hi => ?_⟩
  exact (hset i hi).trans (Nat.mod_eq_of_lt (fieldAt_lt 4 header _))

/-- A header with the sizes stored, and without the flags of what is compressed. -/
lemma uncompressedHeader_spec (hlen : 0x100 ≤ kip.length) :
    (uncompressedHeader kip).length = 0x100 ∧
      (∀ m offset, offset + m ≤ 0x100 → (offset + m ≤ 0x1F ∨ 0x20 ≤ offset) →
        (∀ i < 3, offset + m ≤ sectionField i 2 ∨ sectionField i 2 + 4 ≤ offset) →
        fieldAt m (uncompressedHeader kip) offset = fieldAt m kip offset) ∧
      ∀ i < 3, compressedSize (uncompressedHeader kip) i = outSize kip i := by
  have htake : (kip.take 0x100).length = 0x100 := by
    rw [List.length_take]
    omega
  obtain ⟨hheader, hfields, hsizes⟩ := storeOutSizes_spec htake
  rw [uncompressedHeader]
  generalize setFields 4 (sectionField · 2) outSize [0, 1, 2] (kip.take 0x100) = header at hheader hfields hsizes ⊢
  have hflags : 0x1F + [kipFlags header &&& 0xF8].length ≤ header.length := by
    rw [hheader, List.length_singleton]
    decide
  refine ⟨(length_splice hflags).trans hheader, fun m offset hoffset hflag hsize => ?_, fun i hi => ?_⟩
  · rw [fieldAt_splice_of_apart hflags hflag, hfields, fieldAt_take hoffset]
    intro i hi
    apply hsize
    fin_cases hi <;> decide
  · have hfits := sectionField_fits (i := i) (by omega) 1 (by decide)
    have hsize := hsizes i (by interval_cases i <;> decide)
    rw [compressedSize, fieldAt_splice_of_apart hflags (.inr (by rw [sectionField, List.length_singleton]; omega)),
      ← compressedSize, hsize, outSize, fieldAt_take hfits]
    rfl

/-- The flags of what is compressed are cleared. -/
lemma kipFlags_uncompressedHeader (hlen : 0x100 ≤ kip.length) :
    ∃ flags, kipFlags (uncompressedHeader kip) = flags &&& 0xF8 := by
  have htake : (kip.take 0x100).length = 0x100 := by
    rw [List.length_take]
    omega
  obtain ⟨hheader, -, -⟩ := storeOutSizes_spec htake
  rw [uncompressedHeader]
  generalize setFields 4 (sectionField · 2) outSize [0, 1, 2] (kip.take 0x100) = header at hheader ⊢
  have hflags : 0x1F + [kipFlags header &&& 0xF8].length ≤ header.length := by
    rw [hheader, List.length_singleton]
    decide
  refine ⟨kipFlags header, ?_⟩
  rw [kipFlags, List.getD_eq_getElem?_getD, getElem?_splice_of_mem hflags le_rfl
    (by rw [List.length_singleton]; decide)]
  rfl

/-- A byte without its lowest bits, if none of them is set. -/
lemma and_eq_self {b : UInt8} (h : ∀ i < 3, b &&& ((1 : UInt8) <<< UInt8.ofNat i) = 0) : b &&& 0xF8 = b := by
  have hall : ∀ b : Fin 256, b.val &&& 1 = 0 → b.val &&& 2 = 0 → b.val &&& 4 = 0 → b.val &&& 0xF8 = b.val := by
    decide +kernel
  have hbit (i : Nat) (hi : i < 3) := congrArg UInt8.toNat (h i hi)
  apply UInt8.toNat_inj.mp
  exact hall ⟨b.toNat, b.toNat_lt⟩ (hbit 0 (by decide)) (hbit 1 (by decide)) (hbit 2 (by decide))

/-- Nothing changes in the header of an image that is not compressed. -/
lemma uncompressedHeader_of_uncompressed (hlen : 0x100 ≤ kip.length) (h : Uncompressed kip) :
    uncompressedHeader kip = kip.take 0x100 := by
  have htake : (kip.take 0x100).length = 0x100 := by
    rw [List.length_take]
    omega
  have hstore (i : Nat) (hi : i < 3) :
      setField 4 (kip.take 0x100) (sectionField i 2) (outSize (kip.take 0x100) i) = kip.take 0x100 := by
    have hfits := sectionField_fits (i := i) (by omega) 2 (by decide)
    have hfits' := sectionField_fits (i := i) (by omega) 1 (by decide)
    obtain ⟨-, hsize⟩ := h i hi
    have hsame : outSize (kip.take 0x100) i = fieldAt 4 (kip.take 0x100) (sectionField i 2) := by
      rw [outSize, fieldAt_take hfits', fieldAt_take hfits]
      exact hsize.symm
    rw [hsame, setField_self (by omega)]
  have hflags : kipFlags (kip.take 0x100) &&& 0xF8 = kipFlags (kip.take 0x100) := by
    apply and_eq_self
    intro i hi
    have hno := (h i hi).1
    rw [isCompressed, decide_eq_false_iff_not, not_not] at hno
    rw [kipFlags, List.getD_eq_getElem?_getD, List.getElem?_take_of_lt (by decide), ← List.getD_eq_getElem?_getD]
    exact hno
  have hbyte : [kipFlags (kip.take 0x100)] = slice (kip.take 0x100) 0x1F 1 :=
    (slice_one (by omega) 0).symm
  rw [uncompressedHeader]
  simp only [setFields, List.foldl_cons, List.foldl_nil, hstore 0 (by decide), hstore 1 (by decide),
    hstore 2 (by decide), hflags, hbyte]
  exact splice_slice_self (by omega)

end UncompressedHeader

/-! ## Images that are not compressed -/

section Copy

variable {kip : List UInt8}

/-- An image of which the first bytes have been copied. -/
def copied (kip : List UInt8) (n : Nat) : List UInt8 := kip.take n ++ List.replicate (kip.length - n) 0

lemma length_copied {n : Nat} (h : n ≤ kip.length) : (copied kip n).length = kip.length := by
  rw [copied, List.length_append, List.length_take, List.length_replicate]
  omega

lemma splice_copied {n m : Nat} (h : n + m ≤ kip.length) :
    splice (copied kip n) n (slice kip n m) = copied kip (n + m) := by
  have htake : (kip.take n).length = n := by
    rw [List.length_take]
    omega
  have hslice := length_slice h
  have hzeros : List.replicate (kip.length - n) (0 : UInt8) =
      List.replicate m 0 ++ List.replicate (kip.length - (n + m)) 0 := by
    rw [List.replicate_append_replicate]
    congr 1
    omega
  rw [copied, hzeros, splice_middle htake (by rw [List.length_replicate, hslice]), copied, List.take_add,
    List.append_assoc]
  rfl

/-- Sections that are not compressed are copied one after the other. -/
lemma uncompressSections_of_uncompressed {is : List Nat} {offset : Nat} (hlt : kip.length < 2 ^ 32)
    (his : ∀ i ∈ is, isCompressed kip i = false ∧ compressedSize kip i = outSize kip i)
    (hfits : offset + (is.map (compressedSize kip)).sum ≤ kip.length) :
    uncompressSections kip is offset offset (copied kip offset) =
      .ok (copied kip (offset + (is.map (compressedSize kip)).sum)) := by
  induction is generalizing offset with
  | nil => rfl
  | cons i is ih =>
    obtain ⟨⟨hflag, hsize⟩, his⟩ := List.forall_mem_cons.mp his
    rw [List.map_cons, List.sum_cons, ← Nat.add_assoc] at hfits
    have hread : offset + compressedSize kip i ≤ kip.length := by omega
    have hwrite : offset + (slice kip offset (compressedSize kip i)).length ≤ (copied kip offset).length := by
      rw [length_slice hread, length_copied (by omega)]
      exact hread
    have hnext : (offset + compressedSize kip i) % 2 ^ 32 = offset + compressedSize kip i :=
      Nat.mod_eq_of_lt (by omega)
    have hsection : uncompressSection kip i offset offset (copied kip offset) =
        .ok (copied kip (offset + compressedSize kip i)) := by
      rw [uncompressSection, readBytes_eq hread, ok_bind, writeBytes_eq hwrite, ok_bind, splice_copied hread, hflag,
        if_neg Bool.false_ne_true]
      rfl
    rw [uncompressSections, hsection, ok_bind, ← hsize, hnext, ih his hfits, List.map_cons, List.sum_cons,
      Nat.add_assoc]

/-- An image that is not compressed is copied as it is. -/
lemma kip1Uncompress_of_uncompressed (hstored : StoredKip kip) (h : Uncompressed kip) :
    kip1Uncompress kip = .ok kip := by
  have hlen := hstored.header_le
  have htake : (kip.take 0x100).length = 0x100 := by
    rw [List.length_take]
    omega
  have hsize : kip1GetSizeFromHeader (kip.take 0x100) = kip.length := by
    have hfront : (kip.take 0x100).take 0x100 = kip.take 0x100 := List.take_take.trans rfl
    rw [kip1GetSizeFromHeader_of_take_eq hfront, hstored.size_eq]
  have hstart : splice (List.replicate kip.length (0 : UInt8)) 0 (kip.take 0x100) = copied kip 0x100 := by
    rw [splice, List.take_zero, List.nil_append, List.drop_replicate, htake, Nat.zero_add]
    rfl
  have hsum : 0x100 + ([0, 1, 2].map (compressedSize kip)).sum = kip.length := by
    rw [hstored.length_eq, contentsSize]
    simp only [List.map_cons, List.map_nil, List.sum_cons, List.sum_nil]
    omega
  have hread : 0 + 0x100 ≤ kip.length := (Nat.zero_add _).trans_le hlen
  have hwrite : 0 + (kip.take 0x100).length ≤ (List.replicate kip.length (0 : UInt8)).length := by
    rw [htake, List.length_replicate]
    exact hread
  have hsections := uncompressSections_of_uncompressed hstored.length_lt
    (fun i hi => h i (by fin_cases hi <;> decide)) hsum.le
  rw [hsum, copied, copied, List.take_length, Nat.sub_self, List.replicate_zero, List.append_nil, ← copied] at hsections
  rw [kip1Uncompress, newImage, readBytes_eq hread, ok_bind, uncompressedHeader_of_uncompressed hlen h, hsize,
    writeBytes_eq hwrite, ok_bind, hstart, hsections]

end Copy

/-! ## The header behind the uncompressing -/

/-- Nothing is written to the first bytes, and nothing is added. -/
structure KeepsFront (n : Nat) (mem mem' : List UInt8) : Prop where
  length_eq : mem'.length = mem.length
  take_eq : mem'.take n = mem.take n

namespace KeepsFront

variable {n : Nat} {mem mem' mem'' : List UInt8}

lemma refl : KeepsFront n mem mem := ⟨rfl, rfl⟩

lemma trans (h : KeepsFront n mem mem') (h' : KeepsFront n mem' mem'') : KeepsFront n mem mem'' :=
  ⟨h'.length_eq.trans h.length_eq, h'.take_eq.trans h.take_eq⟩

lemma splice {i : Nat} {xs : List UInt8} (h : n ≤ i) (hfits : i + xs.length ≤ mem.length) :
    KeepsFront n mem (splice mem i xs) :=
  ⟨length_splice hfits, take_splice_of_le (by omega) h⟩

end KeepsFront

end RajNX.Fusee
