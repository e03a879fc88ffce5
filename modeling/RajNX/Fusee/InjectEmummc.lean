import RajNX.Fusee.KipImages

/-!
# Injecting emuMMC

`inject_emummc_kip` of `stratosphere.c`, which puts the emuMMC module in front of FS. The first section of FS takes
in the whole image of the module, its bss too, and what was behind it is moved.

Offsets and sizes are 32-bit numbers that are added up without a check. Where they stay 32-bit numbers, and enough
memory is allocated, the two images are loaded one behind the other.
-/

namespace RajNX.Fusee

open Fallible Fields Splice

/-- `FS_VER_1_0_0` -/
def fsVer100 : Nat := 0

/-- `emummc_data_size` -/
def emummcDataSize (emummc : List UInt8) : Nat := (outOffset emummc 3 + outSize emummc 3) % 2 ^ 32

/-- The PMC registers are mapped, by the first capability that is not used. -/
def mapPmc (header : List UInt8) : List UInt8 :=
  match (List.range 0x20).find? fun i => fieldAt 4 header (0x80 + 4 * i) = 0xFFFFFFFF with
  | some i => setField 4 header (0x80 + 4 * i) 0x07000E7F
  | none => header

/-- The header of FS, with the capabilities of the module. -/
def withCapabilities (fsVer : Nat) (fs emummc : List UInt8) : List UInt8 :=
  let header := splice (fs.take 0x100) 0x80 (slice emummc 0x80 0x80)
  if fsVer = fsVer100 then mapPmc header else header

/-- The header of the KIP that is built. -/
def injectedHeader (fsVer : Nat) (fs emummc : List UInt8) : List UInt8 :=
  let size := emummcDataSize emummc
  let header := withCapabilities fsVer fs emummc
  let header := setField 4 header (sectionField 0 1) (outSize header 0 + size)
  let header := setField 4 header (sectionField 0 2) (compressedSize header 0 + size)
  setFields 4 (sectionField · 0) (fun header i => outOffset header i + size) [1, 2, 3] header

/-- The sections of the module are copied to where they are loaded, behind the header. -/
def copySections (emummc : List UInt8) : List Nat → Nat → List UInt8 → Except KipStop (List UInt8)
  | [], _, kip => return kip
  | i :: rest, ofs, kip => do
    let data ← readBytes emummc ((0x100 + ofs) % 2 ^ 32) (compressedSize emummc i)
    let kip ← writeBytes kip ((0x100 + outOffset emummc i) % 2 ^ 32) data
    copySections emummc rest ((ofs + compressedSize emummc i) % 2 ^ 32) kip

/-- `fs_contents_size` -/
def fsContentsSize (fs : List UInt8) : Nat := (kip1GetSizeFromHeader fs + 2 ^ 32 - 0x100) % 2 ^ 32

/-- `inject_emummc_kip` from its allocation on, for images that are not compressed. It fails on a module that does not
end with a page. -/
def injectInto (allocated fsVer : Nat) (fs emummc : List UInt8) : Except KipStop (List UInt8) := do
  let header ← readBytes fs 0 0x100
  let kip ← writeBytes (List.replicate allocated 0) 0 header
  let size := emummcDataSize emummc
  if size % 0x1000 ≠ 0 then .error .fatal
  else
    let kip ← writeBytes kip 0 (injectedHeader fsVer fs emummc)
    let kip ← copySections emummc [0, 1, 2] 0 kip
    let contents ← readBytes fs 0x100 (fsContentsSize fs)
    writeBytes kip ((0x100 + size) % 2 ^ 32) contents

/-- `inject_emummc_kip`, with how much memory is allocated for two images. -/
def injectEmummcKipIn (allocate : Nat → Nat → Nat) (fsVer : Nat) (fsKip emummcKip : List UInt8) :
    Except KipStop (List UInt8) := do
  let fs ← kip1Uncompress fsKip
  let emummc ← kip1Uncompress emummcKip
  injectInto (allocate fs.length emummc.length) fsVer fs emummc

/-- `inject_emummc_kip`, which allocates the sizes of both images. -/
def injectEmummcKip (fsVer : Nat) (fsKip emummcKip : List UInt8) : Except KipStop (List UInt8) :=
  injectEmummcKipIn (fun fsSize emummcSize => (fsSize + emummcSize) % 2 ^ 32) fsVer fsKip emummcKip

/-! ## Loading -/

/-- Memory with some bytes put over it. -/
def overlay (start : Nat) (data : List UInt8) (mem : Nat → UInt8) (a : Nat) : UInt8 :=
  if start ≤ a ∧ a < start + data.length then data.getD (a - start) 0 else mem a

/-- What a KIP that is not compressed looks like in memory: every section at its offset, zero elsewhere. -/
def loadKip (kip : List UInt8) : Nat → UInt8 :=
  [0, 1, 2].foldl (fun mem i => overlay (outOffset kip i) (sectionData kip i) mem) fun _ => 0

/-- Where the image of a module ends. -/
def kipEnd (emummc : List UInt8) : Nat := outOffset emummc 3 + outSize emummc 3

/-- The sections and the bss lie one behind the other. -/
def InOrder (emummc : List UInt8) : Prop := ∀ i < 3, outOffset emummc i + outSize emummc i ≤ outOffset emummc (i + 1)

/-- What is added up stays a 32-bit number. -/
structure FitsTogether (fs emummc : List UInt8) : Prop where
  end_lt : kipEnd emummc < 2 ^ 32
  offset_lt : ∀ i < 3, outOffset fs i + kipEnd emummc < 2 ^ 32
  size_lt : 0x100 + kipEnd emummc + contentsSize fs < 2 ^ 32

section Overlay

variable {start : Nat} {data : List UInt8} {mem : Nat → UInt8}

/-- Memory that is moved as a whole. -/
lemma overlay_shift (size a : Nat) :
    overlay (start + size) data mem (size + a) = overlay start data (fun a => mem (size + a)) a := by
  rw [overlay, overlay]
  have hiff : (start + size ≤ size + a ∧ size + a < start + size + data.length) ↔
      (start ≤ a ∧ a < start + data.length) := by omega
  have hsub : size + a - (start + size) = a - start := by omega
  simp only [hiff, hsub]

lemma overlay_of_lt {a : Nat} (h : a < start) : overlay start data mem a = mem a := by
  rw [overlay, if_neg fun hcover => by omega]

lemma overlay_zero_of_lt {a : Nat} (h : a < data.length) : overlay 0 data mem a = data.getD a 0 := by
  rw [overlay, if_pos ⟨Nat.zero_le a, by omega⟩, Nat.sub_zero]

/-- The second part of what was put at the start. -/
lemma overlay_append {front : List UInt8} (a : Nat) :
    overlay 0 (front ++ data) mem (front.length + a) = overlay 0 data (fun a => mem (front.length + a)) a := by
  rw [overlay, overlay, List.length_append, Nat.sub_zero, Nat.sub_zero]
  have hiff : (0 ≤ front.length + a ∧ front.length + a < 0 + (front.length + data.length)) ↔
      (0 ≤ a ∧ a < 0 + data.length) := by omega
  have hget : (front ++ data).getD (front.length + a) 0 = data.getD a 0 := by
    rw [List.getD_eq_getElem?_getD, List.getElem?_append_right (Nat.le_add_right _ _), Nat.add_sub_cancel_left,
      ← List.getD_eq_getElem?_getD]
  simp only [hiff, hget]

/-- A splice puts bytes over a list. -/
lemma getD_splice {l : List UInt8} (h : start + data.length ≤ l.length) (a : Nat) :
    (splice l start data).getD a 0 = overlay start data (fun a => l.getD a 0) a := by
  rw [List.getD_eq_getElem?_getD, getElem?_splice h, overlay]
  split
  · rw [List.getD_eq_getElem?_getD]
  · rw [List.getD_eq_getElem?_getD]

end Overlay

section Header

variable {header : List UInt8} {fsVer : Nat} {fs emummc : List UInt8}

lemma length_mapPmc (hheader : header.length = 0x100) : (mapPmc header).length = 0x100 := by
  rw [mapPmc]
  split
  · next i hi =>
    have hlt := List.mem_range.mp (List.mem_of_find?_eq_some hi)
    rw [length_setField (by omega), hheader]
  · exact hheader

/-- Only capabilities are changed. -/
lemma fieldAt_mapPmc {m offset : Nat} (hheader : header.length = 0x100) (hoffset : offset + m ≤ 0x80) :
    fieldAt m (mapPmc header) offset = fieldAt m header offset := by
  rw [mapPmc]
  split
  · next i hi =>
    have hlt := List.mem_range.mp (List.mem_of_find?_eq_some hi)
    exact fieldAt_setField_of_apart (by omega) (.inl (by omega))
  · rfl

lemma withCapabilities_spec (fsVer : Nat) (hfs : 0x100 ≤ fs.length) (hem : 0x100 ≤ emummc.length) :
    (withCapabilities fsVer fs emummc).length = 0x100 ∧
      ∀ m offset, offset + m ≤ 0x80 → fieldAt m (withCapabilities fsVer fs emummc) offset = fieldAt m fs offset := by
  have htake : (fs.take 0x100).length = 0x100 := by
    rw [List.length_take]
    omega
  have hcaps : (slice emummc 0x80 0x80).length = 0x80 := length_slice (by omega)
  have hfits : 0x80 + (slice emummc 0x80 0x80).length ≤ (fs.take 0x100).length := by omega
  have hlength : (splice (fs.take 0x100) 0x80 (slice emummc 0x80 0x80)).length = 0x100 := by
    rw [length_splice hfits, htake]
  have hfield (m offset : Nat) (hoffset : offset + m ≤ 0x80) :
      fieldAt m (splice (fs.take 0x100) 0x80 (slice emummc 0x80 0x80)) offset = fieldAt m fs offset := by
    rw [fieldAt_splice_of_apart hfits (.inl hoffset), fieldAt_take (by omega)]
  rw [withCapabilities]
  split
  · refine ⟨length_mapPmc hlength, fun m offset hoffset => ?_⟩
    rw [fieldAt_mapPmc hlength hoffset, hfield m offset hoffset]
  · exact ⟨hlength, hfield⟩

/-- The first section has grown, and the others are moved. -/
lemma injectedHeader_spec (fsVer : Nat) (hfs : 0x100 ≤ fs.length) (hem : 0x100 ≤ emummc.length) :
    (injectedHeader fsVer fs emummc).length = 0x100 ∧
      outOffset (injectedHeader fsVer fs emummc) 0 = outOffset fs 0 ∧
      compressedSize (injectedHeader fsVer fs emummc) 0 = (compressedSize fs 0 + emummcDataSize emummc) % 2 ^ 32 ∧
      (∀ i ∈ [1, 2, 3], outOffset (injectedHeader fsVer fs emummc) i =
        (outOffset fs i + emummcDataSize emummc) % 2 ^ 32) ∧
      ∀ i ∈ [1, 2], compressedSize (injectedHeader fsVer fs emummc) i = compressedSize fs i := by
  obtain ⟨hlength, hfields⟩ := withCapabilities_spec fsVer hfs hem
  have heq : injectedHeader fsVer fs emummc =
      setFields 4 (sectionField · 0) (fun header i => outOffset header i + emummcDataSize emummc) [1, 2, 3]
        (setFields 4 (sectionField 0 ·) (fun header k => fieldAt 4 header (sectionField 0 k) + emummcDataSize emummc)
          [1, 2] (withCapabilities fsVer fs emummc)) := rfl
  -- each field is written once, and what is written to it does not depend on the others
  have hvalue : [1, 2].Pairwise fun k l => ∀ bs v, bs.length = 0x100 →
      fieldAt 4 (setField 4 bs (sectionField 0 k) v) (sectionField 0 l) + emummcDataSize emummc =
        fieldAt 4 bs (sectionField 0 l) + emummcDataSize emummc := by
    have hlt : [1, 2].Pairwise fun k l => k < l ∧ l < 3 := by decide
    refine hlt.imp fun {k l} hkl bs v hbs => ?_
    rw [fieldAt_setField_of_apart]
    · have hfits := sectionField_fits (i := 0) (by omega) k (by omega)
      omega
    · simp only [sectionField]
      omega
  have hvalue' : [1, 2, 3].Pairwise fun i j => ∀ bs v, bs.length = 0x100 →
      outOffset (setField 4 bs (sectionField i 0) v) j + emummcDataSize emummc =
        outOffset bs j + emummcDataSize emummc := by
    have hlt : [1, 2, 3].Pairwise fun i j => i < j ∧ j < 4 := by decide
    refine hlt.imp fun {i j} hij bs v hbs => ?_
    rw [outOffset, fieldAt_setField_of_apart]
    · rfl
    · have hfits := sectionField_fits (i := i) (by omega) 0 (by omega)
      omega
    · simp only [sectionField]
      omega
  obtain ⟨hgrown, hapart, hset⟩ := setFields_spec (sectionField 0 ·)
    (fun header k => fieldAt 4 header (sectionField 0 k) + emummcDataSize emummc) hlength (by decide) (by decide) hvalue
  obtain ⟨hmoved, hapart', hset'⟩ := setFields_spec (sectionField · 0)
    (fun header i => outOffset header i + emummcDataSize emummc) hgrown (by decide) (by decide) hvalue'
  rw [heq]
  refine ⟨hmoved, ?_, ?_, fun i hi => ?_, fun i hi => ?_⟩
  · rw [outOffset, hapart' 4 (sectionField 0 0) (by decide), hapart 4 (sectionField 0 0) (by decide),
      hfields 4 (sectionField 0 0) (by decide)]
    rfl
  · rw [compressedSize, hapart' 4 (sectionField 0 2) (by decide), hset 2 (by decide),
      hfields 4 (sectionField 0 2) (by decide)]
    rfl
  · have hsection : sectionField i 0 + 4 ≤ 0x80 ∧
        ∀ k ∈ [1, 2], sectionField i 0 + 4 ≤ sectionField 0 k ∨ sectionField 0 k + 4 ≤ sectionField i 0 := by
      fin_cases hi <;> decide
    rw [outOffset, hset' i hi, outOffset, hapart 4 (sectionField i 0) hsection.2,
      hfields 4 (sectionField i 0) hsection.1]
    rfl
  · have hsection : sectionField i 2 + 4 ≤ 0x80 ∧
        (∀ k ∈ [1, 2], sectionField i 2 + 4 ≤ sectionField 0 k ∨ sectionField 0 k + 4 ≤ sectionField i 2) ∧
        ∀ j ∈ [1, 2, 3], sectionField i 2 + 4 ≤ sectionField j 0 ∨ sectionField j 0 + 4 ≤ sectionField i 2 := by
      fin_cases hi <;> decide
    rw [compressedSize, hapart' 4 (sectionField i 2) hsection.2.2, hapart 4 (sectionField i 2) hsection.2.1,
      hfields 4 (sectionField i 2) hsection.1]
    rfl

end Header

section Data

variable {fs emummc header data : List UInt8}

lemma length_sectionData {kip : List UInt8} {i : Nat} (hstored : StoredKip kip) (hi : i < 3) :
    (sectionData kip i).length = compressedSize kip i := by
  have hlen := hstored.length_eq
  rw [contentsSize] at hlen
  rw [sectionData]
  apply length_slice
  interval_cases i <;> simp only [sectionStart] <;> omega

/-- The first section that is left is copied to where it is loaded. -/
lemma copySections_cons {mem : Nat → UInt8} {i : Nat} {rest : List Nat} (hstored : StoredKip emummc) (hi : i < 3)
    (hheader : header.length = 0x100) (hdata : ∀ a, data.getD a 0 = mem a)
    (hfits : outOffset emummc i + compressedSize emummc i ≤ data.length)
    (hlt : 0x100 + outOffset emummc i + compressedSize emummc i < 2 ^ 32) :
    ∃ data', copySections emummc (i :: rest) (sectionStart emummc i - 0x100) (header ++ data) =
        copySections emummc rest (sectionStart emummc (i + 1) - 0x100) (header ++ data') ∧
      data'.length = data.length ∧ ∀ a, data'.getD a 0 = overlay (outOffset emummc i) (sectionData emummc i) mem a := by
  have hlength := length_sectionData hstored hi
  have hplace : outOffset emummc i + (sectionData emummc i).length ≤ data.length := hlength.symm ▸ hfits
  have hsection : 0x100 ≤ sectionStart emummc i ∧ sectionStart emummc i + compressedSize emummc i ≤ emummc.length := by
    have hlen := hstored.length_eq
    rw [contentsSize] at hlen
    interval_cases i <;> simp only [sectionStart] <;> omega
  have hnext : sectionStart emummc (i + 1) = sectionStart emummc i + compressedSize emummc i := rfl
  have hsmall := hstored.length_lt
  have hread : (0x100 + (sectionStart emummc i - 0x100)) % 2 ^ 32 = sectionStart emummc i := by omega
  have hofs : (sectionStart emummc i - 0x100 + compressedSize emummc i) % 2 ^ 32 =
      sectionStart emummc (i + 1) - 0x100 := by omega
  have hwrite : header.length + outOffset emummc i + (slice emummc (sectionStart emummc i)
      (compressedSize emummc i)).length ≤ (header ++ data).length := by
    rw [List.length_append, ← sectionData]
    omega
  refine ⟨splice data (outOffset emummc i) (sectionData emummc i), ?_, length_splice hplace, fun a => ?_⟩
  · rw [copySections, hread, readBytes_eq hsection.2, ok_bind, hofs, Nat.mod_eq_of_lt (by omega), ← hheader,
      writeBytes_eq hwrite, ok_bind, splice_append_right, ← sectionData]
  · rw [getD_splice hplace, overlay, overlay, hdata]

/-- The module is copied as it is loaded. -/
lemma copySections_spec {n : Nat} (hstored : StoredKip emummc) (huncompressed : Uncompressed emummc)
    (horder : InOrder emummc) (hheader : header.length = 0x100) (hn : kipEnd emummc ≤ n)
    (hlt : 0x100 + kipEnd emummc < 2 ^ 32) :
    ∃ data, copySections emummc [0, 1, 2] 0 (header ++ List.replicate n 0) = .ok (header ++ data) ∧
      data.length = n ∧ ∀ a, data.getD a 0 = loadKip emummc a := by
  have hend (i : Nat) (hi : i < 3) : outOffset emummc i + compressedSize emummc i ≤ kipEnd emummc := by
    have h0 : outOffset emummc 0 + outSize emummc 0 ≤ outOffset emummc 1 := horder 0 (by decide)
    have h1 : outOffset emummc 1 + outSize emummc 1 ≤ outOffset emummc 2 := horder 1 (by decide)
    have h2 : outOffset emummc 2 + outSize emummc 2 ≤ outOffset emummc 3 := horder 2 (by decide)
    rw [(huncompressed i hi).2, kipEnd]
    interval_cases i <;> omega
  have hzeros (a : Nat) : (List.replicate n (0 : UInt8)).getD a 0 = 0 := by
    rw [List.getD_eq_getElem?_getD, List.getElem?_replicate]
    split <;> rfl
  have hlen : (List.replicate n (0 : UInt8)).length = n := List.length_replicate
  have h0 := hend 0 (by decide)
  have h1 := hend 1 (by decide)
  have h2 := hend 2 (by decide)
  obtain ⟨data0, hcopy0, hlen0, hload0⟩ := @copySections_cons _ _ _ _ 0 [1, 2] hstored
    (by decide) hheader hzeros
    (by omega) (by omega)
  obtain ⟨data1, hcopy1, hlen1, hload1⟩ := @copySections_cons _ _ _ _ 1 [2] hstored (by decide) hheader hload0
    (by omega) (by omega)
  obtain ⟨data2, hcopy2, hlen2, hload2⟩ := @copySections_cons _ _ _ _ 2 [] hstored (by decide) hheader hload1
    (by omega) (by omega)
  have hstart : sectionStart emummc 0 - 0x100 = 0 := Nat.sub_self 0x100
  rw [hstart, hcopy1, hcopy2] at hcopy0
  exact ⟨data2, hcopy0, by omega, hload2⟩

lemma fsContentsSize_eq (hfs : StoredKip fs) : fsContentsSize fs = contentsSize fs := by
  have hlength := hfs.length_eq
  have hlt := hfs.length_lt
  rw [fsContentsSize, hfs.size_eq]
  omega

/-- What is built is the header, the module as it is loaded and the contents of FS. -/
lemma injectEmummcKipIn_eq {allocate : Nat → Nat → Nat} (fsVer : Nat) (hfs : StoredKip fs) (hfs' : Uncompressed fs)
    (hem : StoredKip emummc) (hem' : Uncompressed emummc) (horder : InOrder emummc)
    (hpage : kipEnd emummc % 0x1000 = 0) (hlt : 0x100 + kipEnd emummc + contentsSize fs < 2 ^ 32)
    (hallocate : 0x100 + kipEnd emummc + contentsSize fs ≤ allocate fs.length emummc.length) :
    ∃ front rest, injectEmummcKipIn allocate fsVer fs emummc =
        .ok (injectedHeader fsVer fs emummc ++ (front ++ (fs.drop 0x100 ++ rest))) ∧
      front.length = kipEnd emummc ∧ ∀ a < kipEnd emummc, front.getD a 0 = loadKip emummc a := by
  have hsize : emummcDataSize emummc = kipEnd emummc := Nat.mod_eq_of_lt (show kipEnd emummc < 2 ^ 32 by omega)
  have hlength := hfs.length_eq
  have hslice : slice fs 0x100 (contentsSize fs) = fs.drop 0x100 := by
    apply List.take_of_length_le
    rw [List.length_drop, hlength]
    omega
  have hdrop : (fs.drop 0x100).length = contentsSize fs := by
    rw [List.length_drop]
    omega
  obtain ⟨hheader, -⟩ := injectedHeader_spec fsVer hfs.header_le hem.header_le
  obtain ⟨n, hn⟩ := Nat.exists_eq_add_of_le (show 0x100 ≤ allocate fs.length emummc.length by omega)
  rw [hn] at hallocate
  have hzeros : List.replicate (0x100 + n) (0 : UInt8) = List.replicate 0x100 0 ++ List.replicate n 0 :=
    List.replicate_add ..
  have hread : 0 + 0x100 ≤ fs.length := (Nat.zero_add _).trans_le hfs.header_le
  have hfront : (slice fs 0 0x100).length = 0x100 := length_slice hread
  -- the header is written twice
  have hfirst : writeBytes (List.replicate (0x100 + n) (0 : UInt8)) 0 (slice fs 0 0x100) =
      .ok (slice fs 0 0x100 ++ List.replicate n 0) := by
    rw [writeBytes_eq (by rw [hfront, List.length_replicate]; omega), hzeros,
      splice_front (by rw [hfront, List.length_replicate])]
  have hsecond : writeBytes (slice fs 0 0x100 ++ List.replicate n 0) 0 (injectedHeader fsVer fs emummc) =
      .ok (injectedHeader fsVer fs emummc ++ List.replicate n 0) := by
    rw [writeBytes_eq (by rw [hheader, List.length_append, hfront, List.length_replicate]; omega),
      splice_front (hfront.trans hheader.symm)]
  obtain ⟨data, hcopy, hdata, hload⟩ := copySections_spec (n := n) hem hem' horder hheader (by omega) (by omega)
  have hwrite : (injectedHeader fsVer fs emummc).length + kipEnd emummc + (fs.drop 0x100).length ≤
      (injectedHeader fsVer fs emummc ++ data).length := by
    rw [List.length_append, hdrop]
    omega
  refine ⟨data.take (kipEnd emummc), data.drop (kipEnd emummc + (fs.drop 0x100).length), ?_, ?_, fun a ha => ?_⟩
  · rw [injectEmummcKipIn, kip1Uncompress_of_uncompressed hfs hfs', ok_bind, kip1Uncompress_of_uncompressed hem hem',
      ok_bind, injectInto, readBytes_eq hread, ok_bind, hn, hfirst, ok_bind]
    dsimp only
    rw [hsize, if_neg (not_not.mpr hpage), hsecond, ok_bind, hcopy, ok_bind, fsContentsSize_eq hfs,
      readBytes_eq (by omega), ok_bind, hslice, Nat.mod_eq_of_lt (by omega)]
    nth_rewrite 1 [← hheader]
    rw [writeBytes_eq hwrite, splice_append_right, splice, List.append_assoc]
  · rw [List.length_take, hdata]
    omega
  · rw [List.getD_eq_getElem?_getD, List.getElem?_take_of_lt ha, ← List.getD_eq_getElem?_getD, hload a]

end Data

section Load

variable {fs emummc header front rest : List UInt8}

/-- The section headers, in the KIP that is built. -/
lemma fieldAt_injected {i k : Nat} (hheader : header.length = 0x100) (hi : i < 6) (hk : k < 4) :
    fieldAt 4 (header ++ rest) (sectionField i k) = fieldAt 4 header (sectionField i k) := by
  have hfits := sectionField_fits hi k hk
  exact fieldAt_append (by omega)

/-- The contents of FS, in the KIP that is built. -/
lemma slice_injected {n j : Nat} (hheader : header.length = 0x100) (hfs : j + n ≤ (fs.drop 0x100).length) :
    slice (header ++ (front ++ (fs.drop 0x100 ++ rest))) (0x100 + (front.length + j)) n = slice fs (0x100 + j) n := by
  have hinner : slice (fs.drop 0x100 ++ rest) j n = slice (fs.drop 0x100) j n := by
    rw [slice, List.drop_append_of_le_length (by omega), List.take_append_of_le_length (by
      rw [List.length_drop]; omega), slice]
  have hstart : 0x100 + (front.length + j) = header.length + (front.length + j) := by rw [hheader]
  rw [hstart, slice_append_right, slice_append_right, hinner, slice, List.drop_drop]
  rfl

/-- The first section is the module and the first section of FS, the others are those of FS. -/
lemma sectionData_injected (rest : List UInt8) (hfs : StoredKip fs) (hheader : header.length = 0x100)
    (hsize0 : compressedSize header 0 = compressedSize fs 0 + front.length)
    (hsize : ∀ i ∈ [1, 2], compressedSize header i = compressedSize fs i) :
    sectionData (header ++ (front ++ (fs.drop 0x100 ++ rest))) 0 = front ++ sectionData fs 0 ∧
      ∀ i ∈ [1, 2], sectionData (header ++ (front ++ (fs.drop 0x100 ++ rest))) i = sectionData fs i := by
  have hlength := hfs.length_eq
  rw [contentsSize] at hlength
  have hdrop : (fs.drop 0x100).length = compressedSize fs 0 + compressedSize fs 1 + compressedSize fs 2 := by
    rw [List.length_drop]
    omega
  have hstored (i : Nat) (hi : i < 6) :
      compressedSize (header ++ (front ++ (fs.drop 0x100 ++ rest))) i = compressedSize header i :=
    fieldAt_injected hheader hi (by decide)
  constructor
  · have hfront : slice (header ++ (front ++ (fs.drop 0x100 ++ rest))) 0x100 front.length = front :=
      slice_middle hheader rfl
    have hrest : slice (header ++ (front ++ (fs.drop 0x100 ++ rest))) (0x100 + (front.length + 0))
        (compressedSize fs 0) = slice fs (0x100 + 0) (compressedSize fs 0) := slice_injected hheader (by omega)
    rw [Nat.add_zero, Nat.add_zero] at hrest
    rw [sectionData, hstored 0 (by decide), hsize0, Nat.add_comm, sectionStart, ← slice_append_slice, hfront, hrest]
    rfl
  · intro i hi
    have hstart : sectionStart (header ++ (front ++ (fs.drop 0x100 ++ rest))) i =
        0x100 + (front.length + (sectionStart fs i - 0x100)) := by
      fin_cases hi
      · simp only [sectionStart, hstored 0 (by decide), hsize0]
        omega
      · simp only [sectionStart, hstored 0 (by decide), hstored 1 (by decide), hsize0, hsize 1 (by decide)]
        omega
    have hbounds : 0x100 ≤ sectionStart fs i ∧
        sectionStart fs i - 0x100 + compressedSize fs i ≤ (fs.drop 0x100).length := by
      fin_cases hi
      · simp only [sectionStart]
        omega
      · simp only [sectionStart]
        omega
    have hlt : i < 6 := by fin_cases hi <;> decide
    rw [sectionData, hstored i hlt, hsize i hi, hstart, slice_injected hheader hbounds.2,
      Nat.add_sub_cancel' hbounds.1, sectionData]

/-- Sections of FS that are moved by the size of the module. -/
lemma loadKip_moved {kip : List UInt8} {size : Nat} (hzero : outOffset fs 0 = 0) (hfront : front.length = size)
    (hzero' : outOffset kip 0 = 0) (hoffset : ∀ i ∈ [1, 2], outOffset kip i = outOffset fs i + size)
    (hdata0 : sectionData kip 0 = front ++ sectionData fs 0)
    (hdata : ∀ i ∈ [1, 2], sectionData kip i = sectionData fs i) :
    (∀ a < size, loadKip kip a = front.getD a 0) ∧ ∀ a, loadKip kip (size + a) = loadKip fs a := by
  have hload : loadKip kip = overlay (outOffset fs 2 + size) (sectionData fs 2)
      (overlay (outOffset fs 1 + size) (sectionData fs 1) (overlay 0 (front ++ sectionData fs 0) fun _ => 0)) := by
    rw [loadKip]
    simp only [List.foldl_cons, List.foldl_nil, hzero', hdata0, hoffset 1 (by decide), hoffset 2 (by decide),
      hdata 1 (by decide), hdata 2 (by decide)]
  rw [hload]
  constructor
  · intro a ha
    have hlt : a < (front ++ sectionData fs 0).length := by
      rw [List.length_append]
      omega
    rw [overlay_of_lt (by omega), overlay_of_lt (by omega), overlay_zero_of_lt hlt, List.getD_eq_getElem?_getD,
      List.getElem?_append_left (by omega), ← List.getD_eq_getElem?_getD]
  · intro a
    subst hfront
    have hinner (a : Nat) : overlay 0 (front ++ sectionData fs 0) (fun _ => 0) (front.length + a) =
        overlay 0 (sectionData fs 0) (fun _ => 0) a := overlay_append a
    rw [overlay_shift]
    simp only [overlay_shift, hinner]
    rw [loadKip]
    simp only [List.foldl_cons, List.foldl_nil, hzero]

end Load

/-- FS with the module in front of it, in enough memory: the image of the module is loaded first and that of FS behind
it, and the size is that of both. -/
theorem injectEmummcKip_loads (allocate : Nat → Nat → Nat) (fsVer : Nat) {fs emummc : List UInt8}
    (hfs : WellFormedKip fs) (hfs' : Uncompressed fs) (hzero : outOffset fs 0 = 0) (hem : WellFormedKip emummc)
    (hem' : Uncompressed emummc) (horder : InOrder emummc) (hpage : kipEnd emummc % 0x1000 = 0)
    (hfits : FitsTogether fs emummc)
    (hallocate : 0x100 + kipEnd emummc + contentsSize fs ≤ allocate fs.length emummc.length) :
    ∃ kip, injectEmummcKipIn allocate fsVer fs emummc = .ok kip ∧
      (∀ a < kipEnd emummc, loadKip kip a = loadKip emummc a) ∧
      (∀ a, loadKip kip (kipEnd emummc + a) = loadKip fs a) ∧
      kip1GetSizeFromHeader kip = 0x100 + kipEnd emummc + contentsSize fs := by
  obtain ⟨front, rest, heq, hfront, hload⟩ := injectEmummcKipIn_eq fsVer hfs.toStoredKip hfs' hem.toStoredKip hem'
    horder hpage hfits.size_lt hallocate
  obtain ⟨hheader, hoffset0, hsize0, hoffset, hsize⟩ := injectedHeader_spec fsVer hfs.header_le hem.header_le
  have hend : emummcDataSize emummc = kipEnd emummc := Nat.mod_eq_of_lt hfits.end_lt
  have hlt := hfits.size_lt
  rw [contentsSize] at hlt
  rw [hend, ← hfront, Nat.mod_eq_of_lt (by omega)] at hsize0
  have hfield (i k : Nat) (hi : i < 6) (hk : k < 4) :
      fieldAt 4 (injectedHeader fsVer fs emummc ++ (front ++ (fs.drop 0x100 ++ rest))) (sectionField i k) =
        fieldAt 4 (injectedHeader fsVer fs emummc) (sectionField i k) := fieldAt_injected hheader hi hk
  obtain ⟨hdata0, hdata⟩ := sectionData_injected rest hfs.toStoredKip hheader hsize0 hsize
  have hmoved : ∀ i ∈ [1, 2], outOffset (injectedHeader fsVer fs emummc ++ (front ++ (fs.drop 0x100 ++ rest))) i =
      outOffset fs i + kipEnd emummc := by
    intro i hi
    have hi' : i < 3 ∧ i ∈ [1, 2, 3] := by fin_cases hi <;> decide
    rw [outOffset, hfield i 0 (by omega) (by decide), ← outOffset, hoffset i hi'.2, hend,
      Nat.mod_eq_of_lt (hfits.offset_lt i hi'.1)]
  have hstart : outOffset (injectedHeader fsVer fs emummc ++ (front ++ (fs.drop 0x100 ++ rest))) 0 = 0 := by
    rw [outOffset, hfield 0 0 (by decide) (by decide), ← outOffset, hoffset0, hzero]
  obtain ⟨hlow, hhigh⟩ := loadKip_moved hzero hfront hstart hmoved hdata0 hdata
  refine ⟨_, heq, fun a ha => (hlow a ha).trans (hload a ha), hhigh, ?_⟩
  rw [kip1GetSizeFromHeader, compressedSize, compressedSize, compressedSize, hfield 0 2 (by decide) (by decide),
    hfield 1 2 (by decide) (by decide), hfield 2 2 (by decide) (by decide), ← compressedSize, ← compressedSize,
    ← compressedSize, hsize0, hsize 1 (by decide), hsize 2 (by decide), Nat.mod_eq_of_lt (by omega), contentsSize]
  omega

section Example

/-- A KIP of four sections that is not compressed: offset, size and stored size of each. -/
def exampleKip (sections : List (Nat × Nat × Nat)) (data : List UInt8) : List UInt8 :=
  LittleEndian.leBytes 4 magicKip1 ++ List.replicate 0x1C 0 ++
    sections.flatMap (fun (offset, size, stored) =>
      LittleEndian.leBytes 4 offset ++ LittleEndian.leBytes 4 size ++ LittleEndian.leBytes 4 stored ++
        LittleEndian.leBytes 4 0) ++ List.replicate 0xA0 0 ++ data

/-- A module of one page. -/
def exampleEmummc : List UInt8 :=
  exampleKip [(0, 2, 2), (0x10, 1, 1), (0x20, 1, 1), (0x30, 0xFD0, 0)] [0xE0, 0xE1, 0xE2, 0xE3]

/-- An FS of three pages. -/
def exampleFs : List UInt8 := exampleKip [(0, 2, 2), (0x1000, 1, 1), (0x2000, 1, 1), (0x3000, 0, 0)]
    [0xF0, 0xF1, 0xF2, 0xF3]

/-- An FS with a section in the last page of the address space. -/
def highFs : List UInt8 :=
  exampleKip [(0, 2, 2), (0xFFFFF000, 1, 1), (0x2000, 1, 1), (0x3000, 0, 0)] [0xF0, 0xF1, 0xF2, 0xF3]

lemma length_exampleKip (sections : List (Nat × Nat × Nat)) (data : List UInt8) :
    (exampleKip sections data).length = 0xC0 + 16 * sections.length + data.length := by
  have hsections : (sections.flatMap fun (offset, size, stored) =>
      LittleEndian.leBytes 4 offset ++ LittleEndian.leBytes 4 size ++ LittleEndian.leBytes 4 stored ++
        LittleEndian.leBytes 4 0).length = 16 * sections.length := by
    induction sections with
    | nil => rfl
    | cons s rest ih =>
      rw [List.flatMap_cons, List.length_append, ih]
      simp only [List.length_append, LittleEndian.length_leBytes, List.length_cons]
      omega
  rw [exampleKip]
  simp only [List.length_append, hsections, LittleEndian.length_leBytes, List.length_replicate]
  omega

lemma exampleEmummc_stored : StoredKip exampleEmummc :=
  ⟨by decide, by rw [exampleEmummc, length_exampleKip]; decide, by decide, by decide⟩

lemma exampleEmummc_inOrder : Uncompressed exampleEmummc ∧ InOrder exampleEmummc ∧ kipEnd exampleEmummc = 0x1000 :=
  ⟨by unfold Uncompressed; decide, by unfold InOrder; decide, by decide⟩

lemma exampleEmummc_wellFormed : WellFormedKip exampleEmummc :=
  exampleEmummc_stored.wellFormed exampleEmummc_inOrder.1

lemma exampleFs_stored : StoredKip exampleFs :=
  ⟨by decide, by rw [exampleFs, length_exampleKip]; decide, by decide, by decide⟩

lemma exampleFs_uncompressed : Uncompressed exampleFs := by
  unfold Uncompressed
  decide +kernel

lemma highFs_stored : StoredKip highFs :=
  ⟨by decide, by rw [highFs, length_exampleKip]; decide, by decide, by decide⟩

end Example

/-- The section of FS in its third page is loaded behind the page of the module. -/
theorem injectEmummcKip_loads_example :
    ∃ kip, injectEmummcKipIn (fun _ _ => 0x2000) 1 exampleFs exampleEmummc = .ok kip ∧
      loadKip kip (0x1000 + 0x2000) = loadKip exampleFs 0x2000 := by
  obtain ⟨huncompressed, horder, hend⟩ := exampleEmummc_inOrder
  obtain ⟨kip, hkip, -, hmoved, -⟩ := injectEmummcKip_loads (fun _ _ => 0x2000) 1
    (exampleFs_stored.wellFormed exampleFs_uncompressed) exampleFs_uncompressed
    (by decide +kernel) exampleEmummc_wellFormed huncompressed horder (by rw [hend])
    ⟨by decide +kernel, by decide +kernel, by decide +kernel⟩ (by decide +kernel)
  exact ⟨kip, hkip, hend ▸ hmoved 0x2000⟩

/-- A section at the end of the address space is moved over the module. -/
theorem injectEmummcKip_wraps :
    WellFormedKip highFs ∧ Uncompressed highFs ∧ outOffset highFs 0 = 0 ∧ WellFormedKip exampleEmummc ∧
      Uncompressed exampleEmummc ∧ InOrder exampleEmummc ∧ kipEnd exampleEmummc % 0x1000 = 0 ∧
      ¬∃ kip, injectEmummcKipIn (fun _ _ => 0x2000) 1 highFs exampleEmummc = .ok kip ∧
        ∀ a < kipEnd exampleEmummc, loadKip kip a = loadKip exampleEmummc a := by
  obtain ⟨huncompressed, horder, hend⟩ := exampleEmummc_inOrder
  have hstored := highFs_stored
  have hfs : Uncompressed highFs := by
    unfold Uncompressed
    decide +kernel
  have hpage : kipEnd exampleEmummc % 0x1000 = 0 := by rw [hend]
  refine ⟨hstored.wellFormed hfs, hfs, by decide +kernel, exampleEmummc_wellFormed, huncompressed, horder, hpage, ?_⟩
  rintro ⟨kip, hkip, hload⟩
  obtain ⟨front, rest, heq, hfront, -⟩ := @injectEmummcKipIn_eq _ _ (fun _ _ => 0x2000) 1 hstored hfs
    exampleEmummc_stored huncompressed horder hpage (by decide +kernel) (by decide +kernel)
  obtain ⟨hheader, -, hsize0, hoffset, hsizes⟩ :=
    injectedHeader_spec 1 hstored.header_le exampleEmummc_stored.header_le
  have hsize : emummcDataSize exampleEmummc = 0x1000 := by decide +kernel
  cases Except.ok.inj (heq.symm.trans hkip)
  obtain ⟨-, hdata⟩ := sectionData_injected rest hstored hheader (by
    rw [hsize0, hsize, hfront, hend]
    decide +kernel) hsizes
  have hoffset1 :
      outOffset (injectedHeader 1 highFs exampleEmummc ++ (front ++ (highFs.drop 0x100 ++ rest))) 1 = 0 := by
    rw [outOffset, fieldAt_injected hheader (by decide) (by decide), ← outOffset, hoffset 1 (by decide), hsize]
    decide +kernel
  have hoffset2 :
      outOffset (injectedHeader 1 highFs exampleEmummc ++ (front ++ (highFs.drop 0x100 ++ rest))) 2 = 0x3000 := by
    rw [outOffset, fieldAt_injected hheader (by decide) (by decide), ← outOffset, hoffset 2 (by decide), hsize]
    decide +kernel
  have hfirst := hload 0 (by rw [hend]; decide)
  have hover : loadKip (injectedHeader 1 highFs exampleEmummc ++ (front ++ (highFs.drop 0x100 ++ rest))) 0 = 0xF2 := by
    rw [loadKip]
    simp only [List.foldl_cons, List.foldl_nil, hoffset1, hoffset2, hdata 1 (by decide)]
    rw [overlay_of_lt (by decide), overlay_zero_of_lt (by decide +kernel)]
    decide +kernel
  have hmodule : loadKip exampleEmummc 0 = 0xE0 := by decide +kernel
  rw [hover, hmodule] at hfirst
  cases hfirst

end RajNX.Fusee
