import RajNX.Fusee.InjectEmummc

/-!
# The memory of the injected KIP

`inject_emummc_kip` of `stratosphere.c` allocates the sizes of the two images, and places the module as it is loaded,
with the gaps between its sections and its bss. `InjectFits` says by the headers of the two KIPs when that is enough.
-/

namespace RajNX.Fusee

open Fallible Fields Splice

/-- The memory that is allocated has room for the header and, if the module ends with a page, for each of its
sections at its offset and for the contents of FS behind its bss. -/
structure InjectFits (fs emummc : List UInt8) (allocated : Nat) : Prop where
  header_le : 0x100 ≤ allocated
  sections : emummcDataSize emummc % 0x1000 = 0 →
    ∀ i < 3, FitsIn allocated ((0x100 + outOffset emummc i) % 2 ^ 32) (outSize emummc i)
  contents : emummcDataSize emummc % 0x1000 = 0 →
    FitsIn allocated ((0x100 + emummcDataSize emummc) % 2 ^ 32) (contentsSize fs)

section Inject

variable {allocated fsVer : Nat} {fs emummc kip : List UInt8}

/-- The sections of a module are read from it, and copied if they fit. -/
lemma copySections_cases {is : List Nat} {ofs : Nat} (hlt : emummc.length < 2 ^ 32)
    (hread : 0x100 + ofs + (is.map (compressedSize emummc)).sum ≤ emummc.length) :
    ((∀ i ∈ is, FitsIn kip.length ((0x100 + outOffset emummc i) % 2 ^ 32) (compressedSize emummc i)) →
        ∃ kip', copySections emummc is ofs kip = .ok kip' ∧ kip'.length = kip.length) ∧
      ((¬∀ i ∈ is, FitsIn kip.length ((0x100 + outOffset emummc i) % 2 ^ 32) (compressedSize emummc i)) →
        copySections emummc is ofs kip = .error .outside) := by
  induction is generalizing ofs kip with
  | nil => exact ⟨fun _ => ⟨kip, rfl, rfl⟩, fun h => absurd (fun i hi => absurd hi List.not_mem_nil) h⟩
  | cons i is ih =>
    rw [List.map_cons, List.sum_cons] at hread
    have hsection : 0x100 + ofs + compressedSize emummc i ≤ emummc.length := by omega
    have hslice : (slice emummc (0x100 + ofs) (compressedSize emummc i)).length = compressedSize emummc i :=
      length_slice hsection
    have hstart : (0x100 + ofs) % 2 ^ 32 = 0x100 + ofs := Nat.mod_eq_of_lt (by omega)
    have hnext : (ofs + compressedSize emummc i) % 2 ^ 32 = ofs + compressedSize emummc i := Nat.mod_eq_of_lt (by omega)
    rw [copySections, hstart, readBytes_eq hsection, ok_bind, hnext, List.forall_mem_cons]
    by_cases hfits : FitsIn kip.length ((0x100 + outOffset emummc i) % 2 ^ 32) (compressedSize emummc i)
    · rw [← hslice] at hfits
      obtain ⟨kip₁, hwrite, hlength⟩ := hfits.writeBytes
      obtain ⟨hinside, houtside⟩ := @ih kip₁ (ofs + compressedSize emummc i) (by omega)
      rw [hslice] at hfits
      rw [hlength] at hinside houtside
      rw [hwrite, ok_bind]
      exact ⟨fun h => hinside h.2, fun h => houtside fun hrest => h ⟨hfits, hrest⟩⟩
    · rw [← hslice] at hfits
      rw [writeBytes_of_not_fitsIn hfits, error_bind]
      rw [hslice] at hfits
      exact ⟨fun h => absurd h.1 hfits, fun _ => rfl⟩

/-- What becomes of two images that are not compressed. -/
lemma injectInto_cases (fsVer allocated : Nat) (hfs : StoredKip fs) (hem : StoredKip emummc)
    (huncompressed : Uncompressed emummc) :
    (InjectFits fs emummc allocated → emummcDataSize emummc % 0x1000 ≠ 0 →
        injectInto allocated fsVer fs emummc = .error .fatal) ∧
      (InjectFits fs emummc allocated → emummcDataSize emummc % 0x1000 = 0 →
        ∃ kip, injectInto allocated fsVer fs emummc = .ok kip) ∧
      (¬InjectFits fs emummc allocated → injectInto allocated fsVer fs emummc = .error .outside) := by
  have hread : 0 + 0x100 ≤ fs.length := (Nat.zero_add _).trans_le hfs.header_le
  have hfront : (slice fs 0 0x100).length = 0x100 := length_slice hread
  have hlength := hfs.length_eq
  have hcontents : (slice fs 0x100 (contentsSize fs)).length = contentsSize fs := length_slice (by omega)
  obtain ⟨hheader, -⟩ := injectedHeader_spec fsVer hfs.header_le hem.header_le
  have hsizes : ∀ i < 3, compressedSize emummc i = outSize emummc i := fun i hi => (huncompressed i hi).2
  have hsum : 0x100 + 0 + ([0, 1, 2].map (compressedSize emummc)).sum ≤ emummc.length := by
    rw [hem.length_eq, contentsSize]
    simp only [List.map_cons, List.map_nil, List.sum_cons, List.sum_nil]
    omega
  rw [injectInto, readBytes_eq hread, ok_bind]
  by_cases hroom : 0x100 ≤ allocated
  · have hzeros : FitsIn (List.replicate allocated (0 : UInt8)).length 0 (slice fs 0 0x100).length :=
      Or.inr (by rw [hfront, List.length_replicate]; omega)
    obtain ⟨kip₁, hfirst, hlength₁⟩ := hzeros.writeBytes
    rw [List.length_replicate] at hlength₁
    have hagain : FitsIn kip₁.length 0 (injectedHeader fsVer fs emummc).length := Or.inr (by rw [hheader]; omega)
    obtain ⟨kip₂, hsecond, hlength₂⟩ := hagain.writeBytes
    rw [hfirst, ok_bind]
    dsimp only
    by_cases hpage : emummcDataSize emummc % 0x1000 = 0
    · rw [if_neg (not_not.mpr hpage), hsecond, ok_bind, fsContentsSize_eq hfs, readBytes_eq (by omega)]
      have hmem : (∀ i ∈ [0, 1, 2], FitsIn kip₂.length ((0x100 + outOffset emummc i) % 2 ^ 32)
            (compressedSize emummc i)) ↔
          ∀ i < 3, FitsIn allocated ((0x100 + outOffset emummc i) % 2 ^ 32) (outSize emummc i) := by
        rw [hlength₂, hlength₁]
        constructor
        · intro h i hi
          rw [← hsizes i hi]
          exact h i (by interval_cases i <;> decide)
        · intro h i hi
          have hi : i < 3 := by fin_cases hi <;> decide
          rw [hsizes i hi]
          exact h i hi
      obtain ⟨hinside, houtside⟩ := @copySections_cases emummc kip₂ _ _ hem.length_lt hsum
      by_cases hsections : ∀ i < 3, FitsIn allocated ((0x100 + outOffset emummc i) % 2 ^ 32) (outSize emummc i)
      · obtain ⟨kip₃, hcopy, hlength₃⟩ := hinside (hmem.mpr hsections)
        rw [hcopy, ok_bind, ok_bind]
        by_cases hlast : FitsIn allocated ((0x100 + emummcDataSize emummc) % 2 ^ 32) (contentsSize fs)
        · have hwrite := hlast
          rw [← hcontents, ← hlength₁, ← hlength₂, ← hlength₃] at hwrite
          obtain ⟨kip₄, hdone, -⟩ := hwrite.writeBytes
          exact ⟨fun _ h => absurd hpage h, fun _ _ => ⟨kip₄, hdone⟩,
            fun h => absurd ⟨hroom, fun _ => hsections, fun _ => hlast⟩ h⟩
        · have hwrite := hlast
          rw [← hcontents, ← hlength₁, ← hlength₂, ← hlength₃] at hwrite
          exact ⟨fun _ h => absurd hpage h, fun h _ => absurd (h.contents hpage) hlast,
            fun _ => writeBytes_of_not_fitsIn hwrite⟩
      · rw [houtside (mt hmem.mp hsections), error_bind]
        exact ⟨fun _ h => absurd hpage h, fun h _ => absurd (h.sections hpage) hsections, fun _ => rfl⟩
    · rw [if_pos hpage]
      exact ⟨fun _ _ => rfl, fun _ h => absurd h hpage,
        fun h => absurd ⟨hroom, fun h => absurd h hpage, fun h => absurd h hpage⟩ h⟩
  · have hzeros : ¬FitsIn (List.replicate allocated (0 : UInt8)).length 0 (slice fs 0 0x100).length := by
      rw [FitsIn, hfront, List.length_replicate]
      omega
    rw [writeBytes_of_not_fitsIn hzeros, error_bind]
    exact ⟨fun h => absurd h.header_le hroom, fun h => absurd h.header_le hroom, fun _ => rfl⟩

end Inject

section Headers

variable {fs emummc fs' emummc' : List UInt8} {allocated : Nat}

/-- The memory that is needed is told by the images that are given. -/
lemma injectFits_congr (hfs : WellFormedKip fs) (hem : WellFormedKip emummc) (hfs' : UncompressedFrom fs fs')
    (hem' : UncompressedFrom emummc emummc') (hcontents : contentsSize fs = loadedSize fs) :
    InjectFits fs' emummc' allocated ↔ InjectFits fs emummc allocated := by
  have hoffset (i : Nat) (hi : i < 6) : outOffset emummc' i = outOffset emummc i := hem'.outOffset_eq hem.header_le hi
  have hsize (i : Nat) (hi : i < 6) : outSize emummc' i = outSize emummc i := hem'.outSize_eq hem.header_le hi
  have hend : emummcDataSize emummc' = emummcDataSize emummc := by
    rw [emummcDataSize, hoffset 3 (by decide), hsize 3 (by decide)]
    rfl
  have hsections : (∀ i < 3, FitsIn allocated ((0x100 + outOffset emummc' i) % 2 ^ 32) (outSize emummc' i)) ↔
      ∀ i < 3, FitsIn allocated ((0x100 + outOffset emummc i) % 2 ^ 32) (outSize emummc i) :=
    forall₂_congr fun i hi => by rw [hoffset i (by omega), hsize i (by omega)]
  have hall : contentsSize fs' = contentsSize fs := (hfs'.contentsSize_eq hfs.header_le).trans hcontents.symm
  constructor
  · rintro ⟨hroom, hmodule, hlast⟩
    rw [hend, hsections] at hmodule
    rw [hend, hall] at hlast
    exact ⟨hroom, hmodule, hlast⟩
  · rintro ⟨hroom, hmodule, hlast⟩
    rw [← hsections, ← hend] at hmodule
    rw [← hend, ← hall] at hlast
    exact ⟨hroom, hmodule, hlast⟩

end Headers

/-- No access is outside exactly if the sizes of both images have room for the sections of the module at their
offsets and for FS behind the end of the module. -/
theorem injectEmummcKip_inside_iff (fsVer : Nat) {fs emummc : List UInt8} (hfs : WellFormedKip fs)
    (huncompressed : Uncompressed fs) (hem : WellFormedKip emummc) :
    injectEmummcKip fsVer fs emummc ≠ .error .outside ↔
      InjectFits fs emummc ((fs.length + (0x100 + loadedSize emummc)) % 2 ^ 32) := by
  obtain ⟨fs', hfsRun, hfs'⟩ := hfs.kip1Uncompress
  obtain ⟨emummc', hemRun, hem'⟩ := hem.kip1Uncompress
  have hcontents : contentsSize fs = loadedSize fs := by
    rw [contentsSize, loadedSize, (huncompressed 0 (by decide)).2, (huncompressed 1 (by decide)).2,
      (huncompressed 2 (by decide)).2]
  have hlength : fs'.length = fs.length := by rw [hfs'.length_eq, hfs.length_eq, hcontents]
  have hrun : injectEmummcKip fsVer fs emummc =
      injectInto ((fs.length + (0x100 + loadedSize emummc)) % 2 ^ 32) fsVer fs' emummc' := by
    rw [injectEmummcKip, injectEmummcKipIn, hfsRun, ok_bind, hemRun, ok_bind, hlength, hem'.length_eq]
  obtain ⟨hfatal, hok, houtside⟩ := injectInto_cases fsVer ((fs.length + (0x100 + loadedSize emummc)) % 2 ^ 32)
    (hfs'.stored hfs.toStoredKip) (hem'.stored hem.toStoredKip) (hem'.uncompressed hem.header_le)
  have hfits := @injectFits_congr _ _ _ _ ((fs.length + (0x100 + loadedSize emummc)) % 2 ^ 32) hfs hem hfs' hem'
    hcontents
  rw [hrun, ← hfits]
  constructor
  · intro h
    by_contra hno
    exact h (houtside hno)
  · intro h
    by_cases hpage : emummcDataSize emummc' % 0x1000 = 0
    · obtain ⟨kip, hkip⟩ := hok h hpage
      rw [hkip]
      rintro ⟨⟩
    · rw [hfatal h hpage]
      rintro ⟨⟩

/-- A module of one page, of which all but 0x100 bytes are in its sections. -/
def fullEmummc : List UInt8 :=
  exampleKip [(0, 0x40, 0x40), (0x40, 0x40, 0x40), (0x80, 0xE80, 0xE80), (0xF00, 0x100, 0)] (List.replicate 0xF00 0xE0)

lemma fullEmummc_stored : StoredKip fullEmummc :=
  ⟨by decide +kernel, by decide +kernel, by decide +kernel, by decide +kernel⟩

/-- A module whose bss is as large as the header of a KIP. -/
theorem injectEmummcKip_inside_iff_example : injectEmummcKip 1 exampleFs fullEmummc ≠ .error .outside := by
  have hmodule : WellFormedKip fullEmummc := fullEmummc_stored.wellFormed (by unfold Uncompressed; decide +kernel)
  refine (injectEmummcKip_inside_iff 1 (exampleFs_stored.wellFormed exampleFs_uncompressed) exampleFs_uncompressed
    hmodule).mpr ⟨by decide +kernel, fun _ => by decide +kernel, fun _ => by decide +kernel⟩

/-- FS is copied behind the bss of a module of one page, and the memory is the one of two small images. -/
theorem injectEmummcKip_behind_bss :
    (WellFormedKip exampleFs ∧ Uncompressed exampleFs) ∧ (WellFormedKip exampleEmummc ∧ InOrder exampleEmummc) ∧
      injectEmummcKip 1 exampleFs exampleEmummc = .error .outside := by
  obtain ⟨huncompressed, horder, -⟩ := exampleEmummc_inOrder
  refine ⟨⟨exampleFs_stored.wellFormed exampleFs_uncompressed, exampleFs_uncompressed⟩,
    ⟨exampleEmummc_wellFormed, horder⟩, ?_⟩
  obtain ⟨-, -, houtside⟩ := injectInto_cases 1 ((exampleFs.length + exampleEmummc.length) % 2 ^ 32) exampleFs_stored
    exampleEmummc_stored huncompressed
  rw [injectEmummcKip, injectEmummcKipIn, kip1Uncompress_of_uncompressed exampleFs_stored exampleFs_uncompressed,
    ok_bind, kip1Uncompress_of_uncompressed exampleEmummc_stored huncompressed, ok_bind]
  refine houtside fun h => ?_
  have hsize : ¬FitsIn ((exampleFs.length + exampleEmummc.length) % 2 ^ 32)
      ((0x100 + emummcDataSize exampleEmummc) % 2 ^ 32) (contentsSize exampleFs) := by decide +kernel
  exact hsize (h.contents (by decide +kernel))

end RajNX.Fusee
