import RajNX.Exosphere.Package2Header
import RajNX.Exosphere.SecurityEngine

/-!
# Loading the package2 sections

`load_package2_sections` of `package2.c`, on a memory with an address space that is mapped as it is. A
section that is encrypted is written by the security engine, which is told where to write by an address of
32 bits. DRAM starts at the first address of 32 bits with a highest bit, so that the second half of what a
section may occupy is out of its reach.
-/

namespace RajNX.Exosphere

open AddressSpace CounterMode Regions

/-- `DRAM_BASE_PHYSICAL` -/
def dramBasePhysical : Nat := 0x80000000

/-! ## The security engine in memory -/

/-- How the engine counts up from an address of 32 bits. Nothing is known about it when the 32 bits end. -/
structure EngineBus where
  address : Nat → Nat → Nat
  address_eq (a i : Nat) (h : a + i < 2 ^ 32) : address a i = a + i

/-- `ll_init`: where the engine finds a buffer. -/
def EngineBus.llInit (bus : EngineBus) (buffer : Nat) : Nat → Nat := bus.address (buffer % 2 ^ 32)

/-- `se_aes_ctr_crypt` with a destination and a source in memory. What is left behind the whole blocks is
written by the processor. -/
def seAesCtrCryptAt (bus : EngineBus) (cipher : BlockCipher 0x10) (mem : Nat → UInt8) (dst dstSize : Nat)
    (src : Region) (ctr : List UInt8) : Nat → UInt8 :=
  let numBlocks := src.size / 0x10
  let alignedSize := numBlocks * 0x10
  let mem :=
    if alignedSize ≠ 0 then
      scatter mem (bus.llInit dst) ((ctrBlocks cipher (gather mem (bus.llInit src.start) alignedSize) ctr).take dstSize)
    else mem
  if alignedSize < dstSize ∧ alignedSize < src.size then
    let lastBlockSize := if src.size < dstSize then src.size - alignedSize else dstSize - alignedSize
    write mem (dst + alignedSize) (aesBlockOperation cipher ctr numBlocks lastBlockSize
      (read mem ⟨src.start + alignedSize, src.size - alignedSize⟩))
  else mem

section Engine

variable {bus : EngineBus} {cipher : BlockCipher 0x10} {mem : Nat → UInt8} {dst : Nat} {src : Region}
  {ctr : List UInt8}

lemma llInit_eq {a n i : Nat} (h : a + n ≤ 2 ^ 32) (hi : i < n) : bus.llInit a i = a + i := by
  rw [EngineBus.llInit, Nat.mod_eq_of_lt (by omega)]
  exact bus.address_eq a i (by omega)

lemma ctrBlocks_take (cipher : BlockCipher 0x10) (text ctr : List UInt8) :
    ctrBlocks cipher (text.take (text.length / 0x10 * 0x10)) ctr = ctrBlocks cipher text ctr := by
  have hlen : (text.take (text.length / 0x10 * 0x10)).length = text.length / 0x10 * 0x10 :=
    List.length_take_of_le (Nat.div_mul_le_self _ _)
  rw [ctrBlocks, ctrBlocks, hlen, Nat.mul_div_cancel _ (by decide), List.take_take, Nat.min_self]

/-- A source and a destination whose whole blocks are in the addresses of 32 bits. -/
lemma seAesCtrCryptAt_eq (hsrc : src.stop ≤ 2 ^ 32)
    (hdst : src.size / 0x10 * 0x10 = 0 ∨ dst + src.size / 0x10 * 0x10 ≤ 2 ^ 32) (hapart : src.Apart ⟨dst, src.size⟩) :
    seAesCtrCryptAt bus cipher mem dst src.size src ctr = write mem dst (crypt cipher ctr (read mem src)) := by
  have hdiv := Nat.div_mul_le_self src.size 0x10
  obtain ⟨start, size⟩ := src
  dsimp only at hdst hdiv ⊢
  generalize haligned : size / 0x10 * 0x10 = aligned at hdst hdiv
  have hstop : start + size ≤ 2 ^ 32 := hsrc
  obtain ⟨rest, rfl⟩ := Nat.exists_eq_add_of_le hdiv
  -- the bytes that are read, and the two parts that they are encrypted in
  have hlen : (read mem ⟨start, aligned + rest⟩).length = aligned + rest := length_read
  have htake : (read mem ⟨start, aligned + rest⟩).take aligned = read mem ⟨start, aligned⟩ := by
    rw [read_add]
    exact List.take_left' length_read
  have hdrop : (read mem ⟨start, aligned + rest⟩).drop aligned = read mem ⟨start + aligned, rest⟩ := by
    rw [read_add]
    exact List.drop_left' length_read
  have hblocks : ctrBlocks cipher (read mem ⟨start, aligned⟩) ctr =
      ctrBlocks cipher (read mem ⟨start, aligned + rest⟩) ctr := by
    rw [← ctrBlocks_take cipher (read mem ⟨start, aligned + rest⟩), hlen, haligned, htake]
  have hlenblocks : (ctrBlocks cipher (read mem ⟨start, aligned⟩) ctr).length = aligned := by
    rw [hblocks, length_ctrBlocks, hlen, haligned]
  have hcrypt : crypt cipher ctr (read mem ⟨start, aligned + rest⟩) =
      ctrBlocks cipher (read mem ⟨start, aligned⟩) ctr ++
        aesBlockOperation cipher ctr ((aligned + rest) / 0x10) rest (read mem ⟨start + aligned, rest⟩) := by
    rw [crypt_eq_parts, hlen, haligned, hdrop, hblocks, Nat.add_sub_cancel_left]
  -- the whole blocks go where they belong
  have hgather : aligned ≠ 0 → gather mem (bus.llInit start) aligned = read mem ⟨start, aligned⟩ := fun _ =>
    gather_eq_read (r := ⟨start, aligned⟩) fun i hi => llInit_eq (show start + aligned ≤ 2 ^ 32 by omega) hi
  have hfirst : (if aligned ≠ 0 then scatter mem (bus.llInit dst)
      ((ctrBlocks cipher (gather mem (bus.llInit start) aligned) ctr).take (aligned + rest)) else mem) =
      write mem dst (ctrBlocks cipher (read mem ⟨start, aligned⟩) ctr) := by
    split
    · next hpos =>
      rw [hgather hpos, List.take_of_length_le (by omega)]
      exact scatter_eq_write fun i hi => llInit_eq (hdst.resolve_left hpos) (hlenblocks ▸ hi)
    · next hzero =>
      rw [List.eq_nil_of_length_eq_zero (hlenblocks.trans (not_not.mp hzero)), write_nil]
  have hread : read (write mem dst (ctrBlocks cipher (read mem ⟨start, aligned⟩) ctr)) ⟨start + aligned, rest⟩ =
      read mem ⟨start + aligned, rest⟩ := by
    refine read_write_apart ?_
    rw [hlenblocks]
    rw [Region.Apart, Region.stop, Region.stop] at hapart ⊢
    dsimp only at hapart ⊢
    omega
  rw [seAesCtrCryptAt]
  dsimp only
  rw [haligned, hfirst, Nat.add_sub_cancel_left, hread, hcrypt, ← write_append, hlenblocks, if_neg (Nat.lt_irrefl _)]
  split
  · rfl
  · next hno =>
    have hzero : rest = 0 := by omega
    rw [hzero, aesBlockOperation, List.take_zero, write_nil]

/-- What the engine and the processor do not write to. -/
lemma seAesCtrCryptAt_outside {x : Nat} (hblocks : ∀ i < src.size / 0x10 * 0x10, bus.llInit dst i ≠ x)
    (hlast : ¬(Region.mk (dst + src.size / 0x10 * 0x10) (src.size - src.size / 0x10 * 0x10)).Contains x) :
    seAesCtrCryptAt bus cipher mem dst src.size src ctr x = mem x := by
  have hfirst : (if src.size / 0x10 * 0x10 ≠ 0 then scatter mem (bus.llInit dst)
      ((ctrBlocks cipher (gather mem (bus.llInit src.start) (src.size / 0x10 * 0x10)) ctr).take src.size)
        else mem) x = mem x := by
    split
    · refine scatter_outside fun i hi => hblocks i ?_
      rw [List.length_take, length_ctrBlocks, gather, List.length_map, List.length_range,
        Nat.mul_div_cancel _ (by decide)] at hi
      exact hi.trans_le (Nat.min_le_right _ _)
    · rfl
  rw [seAesCtrCryptAt]
  dsimp only
  split
  · rw [if_neg (Nat.lt_irrefl _), write_outside, hfirst]
    rw [aesBlockOperation, List.length_take]
    refine fun hin => hlast ⟨hin.1, hin.2.trans_le ?_⟩
    exact Nat.add_le_add_left (Nat.min_le_left _ _) _
  · exact hfirst

end Engine

/-! ## The function -/

namespace Package2Meta

variable (metadata : Package2Meta)

/-- Whether a section overlaps a buffer of the size of a package. -/
def overlapsBuffer (base : Nat) (i : Fin 4) : Bool :=
  let sectionStart := dramBasePhysical + (metadata.sectionOffsets i).toNat
  overlaps sectionStart (sectionStart + (metadata.sectionSizes i).toNat) base (base + package2SizeMax)

/-- The loop that looks for a safe carveout, with the tries that are left. -/
def findCarveout (metadata : Package2Meta) : Nat → Nat → Option Nat
  | 0, _ => none
  | tries + 1, base =>
    if package2Sections.any (metadata.overlapsBuffer base) then metadata.findCarveout tries (base + package2SizeMax)
    else some base

/-- One section that is copied or decrypted. `cipher` has the key of package2. -/
def loadSection (bus : EngineBus) (cipher : BlockCipher 0x10) (plaintext : Bool) (metadata : Package2Meta)
    (loadBuf : Nat) (i : Fin 4) (curSectionOffset : Nat) (mem : Nat → UInt8) : Nat → UInt8 :=
  let dstStart := dramBasePhysical + (metadata.sectionOffsets i).toNat
  let src : Region := ⟨loadBuf + package2HeaderSize + curSectionOffset, (metadata.sectionSizes i).toNat⟩
  if plaintext then copy mem dstStart src
  else seAesCtrCryptAt bus cipher mem dstStart src.size src (metadata.sectionCtrs i)

/-- The loop over the sections. -/
def loadSections (bus : EngineBus) (cipher : BlockCipher 0x10) (plaintext : Bool) (metadata : Package2Meta)
    (loadBuf : Nat) : List (Fin 4) → Nat → (Nat → UInt8) → Nat → UInt8
  | [], _, mem => mem
  | i :: later, curSectionOffset, mem =>
    if metadata.sectionSizes i = 0 then
      loadSections bus cipher plaintext metadata loadBuf later curSectionOffset mem
    else
      loadSections bus cipher plaintext metadata loadBuf later
        (curSectionOffset + (metadata.sectionSizes i).toNat)
        (metadata.loadSection bus cipher plaintext loadBuf i curSectionOffset mem)

/-- `load_package2_sections`: the buffer that the sections are read from and the memory, or `none` for the
panic. -/
def loadPackage2Sections (bus : EngineBus) (cipher : BlockCipher 0x10) (plaintext : Bool) (metadata : Package2Meta)
    (mem : Nat → UInt8) : Option (Nat × (Nat → UInt8)) :=
  let finish (loadBuf : Nat) (mem : Nat → UInt8) :=
    let mem := metadata.loadSections bus cipher plaintext loadBuf package2Sections 0 mem
    (loadBuf, fill mem ⟨loadBuf, package2SizeMax⟩ 0)
  if package2Sections.any (metadata.overlapsBuffer package2LoadAddress) then
    match metadata.findCarveout 8 dramBasePhysical with
    | none => none
    | some base =>
      let mem := copy mem base ⟨package2LoadAddress, package2SizeMax⟩
      some (finish base (fill mem ⟨package2LoadAddress, package2SizeMax⟩ 0))
  else some (finish package2LoadAddress mem)

/-! ## The loop over the sections -/

/-- Where a section is to be in memory. -/
def targetRegion (i : Fin 4) : Region :=
  ⟨dramBasePhysical + (metadata.sectionOffsets i).toNat, (metadata.sectionSizes i).toNat⟩

/-- Where the data of a section is, with `curSectionOffset` bytes of other sections in front of it. -/
def dataRegion (loadBuf curSectionOffset : Nat) (i : Fin 4) : Region :=
  ⟨loadBuf + package2HeaderSize + curSectionOffset, (metadata.sectionSizes i).toNat⟩

/-- The size of the data of some sections. -/
def sizeSum (is : List (Fin 4)) : Nat :=
  (is.map fun i => (metadata.sectionSizes i).toNat).sum

@[simp] lemma sizeSum_nil : metadata.sizeSum [] = 0 := rfl

@[simp] lemma sizeSum_cons (i : Fin 4) (is : List (Fin 4)) :
    metadata.sizeSum (i :: is) = (metadata.sectionSizes i).toNat + metadata.sizeSum is := rfl

@[simp] lemma sizeSum_append (is is' : List (Fin 4)) :
    metadata.sizeSum (is ++ is') = metadata.sizeSum is + metadata.sizeSum is' := by
  rw [sizeSum, List.map_append, List.sum_append]
  rfl

/-- What a section is to be, given its data. -/
def sectionBytes (cipher : BlockCipher 0x10) (plaintext : Bool) (metadata : Package2Meta) (i : Fin 4)
    (data : List UInt8) : List UInt8 :=
  if plaintext then data else crypt cipher (metadata.sectionCtrs i) data

/-- The size of the whole blocks of a section. -/
def alignedSize (i : Fin 4) : Nat := (metadata.sectionSizes i).toNat / 0x10 * 0x10

/-- The whole blocks of a section are in the addresses of 32 bits. -/
def EngineReaches (i : Fin 4) : Prop :=
  metadata.alignedSize i = 0 ∨ (metadata.targetRegion i).start + metadata.alignedSize i ≤ 2 ^ 32

instance (metadata : Package2Meta) (i : Fin 4) : Decidable (metadata.EngineReaches i) :=
  inferInstanceAs (Decidable (_ ∨ _))

section Sections

variable {bus : EngineBus} {cipher : BlockCipher 0x10} {plaintext : Bool} {metadata : Package2Meta}
  {mem : Nat → UInt8} {loadBuf cur : Nat} {is : List (Fin 4)}

lemma sectionSizes_ne_zero {i : Fin 4} {x : Nat} (h : (metadata.targetRegion i).Contains x) :
    metadata.sectionSizes i ≠ 0 := by
  intro hzero
  have hlt : x < (metadata.targetRegion i).start + (metadata.sectionSizes i).toNat := h.2
  rw [toNat_eq_zero.mpr hzero, Nat.add_zero] at hlt
  exact Nat.not_lt_of_le h.1 hlt

lemma length_sectionBytes (i : Fin 4) (data : List UInt8) :
    (sectionBytes cipher plaintext metadata i data).length = data.length := by
  rw [sectionBytes]
  split
  · rfl
  · exact length_crypt _ _ _ (by decide)

/-- One section, whose data is apart from where it is to be. -/
lemma loadSection_eq {i : Fin 4} (hreach : plaintext = true ∨ metadata.EngineReaches i)
    (hsrc : (metadata.dataRegion loadBuf cur i).stop ≤ 2 ^ 32)
    (hapart : (metadata.dataRegion loadBuf cur i).Apart (metadata.targetRegion i)) :
    metadata.loadSection bus cipher plaintext loadBuf i cur mem = write mem (metadata.targetRegion i).start
      (sectionBytes cipher plaintext metadata i (read mem (metadata.dataRegion loadBuf cur i))) := by
  rw [loadSection, sectionBytes]
  dsimp only
  split
  · exact copy_eq_write _ _ _
  · next hcrypt => exact seAesCtrCryptAt_eq hsrc (hreach.resolve_left hcrypt) hapart

/-- One section leaves what is outside of it. -/
lemma loadSection_outside {i : Fin 4} {x : Nat} (hreach : plaintext = true ∨ metadata.EngineReaches i)
    (hx : ¬(metadata.targetRegion i).Contains x) :
    metadata.loadSection bus cipher plaintext loadBuf i cur mem x = mem x := by
  have hdiv := Nat.div_mul_le_self (metadata.sectionSizes i).toNat 0x10
  rw [loadSection]
  dsimp only
  split
  · exact if_neg hx
  · next hcrypt =>
    refine seAesCtrCryptAt_outside (fun k hk heq => hx ?_) fun hin => hx ?_
    · have hle := (hreach.resolve_left hcrypt).resolve_left (Nat.ne_of_gt (Nat.zero_lt_of_lt hk))
      have hplace : x = (metadata.targetRegion i).start + k := heq.symm.trans (llInit_eq hle hk)
      rw [hplace]
      exact ⟨Nat.le_add_right _ _, Nat.add_lt_add_left (hk.trans_le hdiv) _⟩
    · refine ⟨(Nat.le_add_right _ _).trans hin.1, hin.2.trans_le ?_⟩
      rw [Region.stop, Region.stop, targetRegion]
      dsimp only
      omega

/-- What no section changes. -/
lemma loadSections_frame {x : Nat}
    (h : ∀ i ∈ is, ∀ cur mem, metadata.loadSection bus cipher plaintext loadBuf i cur mem x = mem x) :
    metadata.loadSections bus cipher plaintext loadBuf is cur mem x = mem x := by
  induction is generalizing cur mem with
  | nil => rfl
  | cons i later ih =>
    have hlater := fun j hj => h j (.tail i hj)
    rw [loadSections]
    split
    · exact ih hlater
    · rw [ih hlater]
      exact h i (.head _) _ _

/-- The sections are in their places: apart from each other, and their data in a buffer that is apart from
all of them. -/
structure Placed (plaintext : Bool) (metadata : Package2Meta) (loadBuf cur : Nat) (is : List (Fin 4)) : Prop where
  reaches : ∀ i ∈ is, plaintext = true ∨ metadata.EngineReaches i
  pairwise : is.Pairwise fun i j => metadata.sectionSizes i ≠ 0 → metadata.sectionSizes j ≠ 0 →
    (metadata.targetRegion i).Apart (metadata.targetRegion j)
  apart : ∀ i ∈ is, (Region.mk loadBuf package2SizeMax).Apart (metadata.targetRegion i)
  fits : package2HeaderSize + cur + metadata.sizeSum is ≤ package2SizeMax
  stop_le : loadBuf + package2SizeMax ≤ 2 ^ 32

namespace Placed

variable {i : Fin 4} {later : List (Fin 4)}

lemma tail (h : Placed plaintext metadata loadBuf cur (i :: later)) :
    Placed plaintext metadata loadBuf (cur + (metadata.sectionSizes i).toNat) later where
  reaches j hj := h.reaches j (.tail _ hj)
  pairwise := h.pairwise.of_cons
  apart j hj := h.apart j (.tail _ hj)
  fits := by
    have hfits := h.fits
    rw [sizeSum_cons] at hfits
    omega
  stop_le := h.stop_le

/-- The data of a section is in the buffer. -/
lemma data_inside (pre : List (Fin 4)) {post : List (Fin 4)}
    (h : Placed plaintext metadata loadBuf cur (pre ++ i :: post)) :
    loadBuf ≤ (metadata.dataRegion loadBuf (cur + metadata.sizeSum pre) i).start ∧
      (metadata.dataRegion loadBuf (cur + metadata.sizeSum pre) i).stop ≤
        loadBuf + package2SizeMax := by
  have hfits := h.fits
  rw [sizeSum_append, sizeSum_cons] at hfits
  rw [Region.stop, dataRegion]
  dsimp only
  omega

end Placed

/-- A section leaves the others. -/
lemma loadSection_apart {i j : Fin 4} {later : List (Fin 4)} {x : Nat}
    (h : Placed plaintext metadata loadBuf cur (i :: later)) (hj : j ∈ later)
    (hx : (metadata.targetRegion i).Contains x) : ¬(metadata.targetRegion j).Contains x := by
  intro hin
  have hapart := List.rel_of_pairwise_cons h.pairwise hj (sectionSizes_ne_zero hx) (sectionSizes_ne_zero hin)
  exact hapart.not_contains hx hin

/-- Every section gets its data. -/
lemma loadSections_read (bus : EngineBus) (cipher : BlockCipher 0x10) (mem : Nat → UInt8) {pre post : List (Fin 4)}
    {i : Fin 4} (h : Placed plaintext metadata loadBuf cur (pre ++ i :: post)) (hsize : metadata.sectionSizes i ≠ 0) :
    read (metadata.loadSections bus cipher plaintext loadBuf (pre ++ i :: post) cur mem) (metadata.targetRegion i) =
      sectionBytes cipher plaintext metadata i
        (read mem (metadata.dataRegion loadBuf (cur + metadata.sizeSum pre) i)) := by
  induction pre generalizing cur mem with
  | nil =>
    obtain ⟨hstart, hstop⟩ := Placed.data_inside [] h
    have hapart := (h.apart i (.head _)).of_inside hstart hstop
    rw [sizeSum_nil, Nat.add_zero] at hstop hapart ⊢
    have hlen : (sectionBytes cipher plaintext metadata i
        (read mem (metadata.dataRegion loadBuf cur i))).length = (metadata.targetRegion i).size := by
      rw [length_sectionBytes, length_read]
      rfl
    rw [List.nil_append, loadSections, if_neg hsize,
      loadSection_eq (h.reaches i (.head _)) (hstop.trans h.stop_le) hapart]
    -- the later sections do not change it
    refine (read_congr fun x hx => loadSections_frame fun j hj _ _ => ?_).trans ?_
    · exact loadSection_outside (h.reaches j (.tail _ hj)) (loadSection_apart h hj hx)
    · have hread := read_write mem (metadata.targetRegion i).start
        (sectionBytes cipher plaintext metadata i (read mem (metadata.dataRegion loadBuf cur i)))
      rwa [hlen] at hread
  | cons j pre ih =>
    obtain ⟨hstart, hstop⟩ := Placed.data_inside (j :: pre) h
    rw [List.cons_append, loadSections]
    split
    · next hzero =>
      have htail := h.tail
      rw [toNat_eq_zero.mpr hzero, Nat.add_zero] at htail
      rw [ih _ htail, sizeSum_cons, toNat_eq_zero.mpr hzero, Nat.zero_add]
    · rw [ih _ h.tail, sizeSum_cons, Nat.add_assoc]
      -- the data is in the buffer, which the section in front of it does not change
      refine congrArg _ (read_congr fun x hx => loadSection_outside (h.reaches j (.head _)) ?_)
      rw [sizeSum_cons] at hstart hstop
      exact ((h.apart j (.head _)).of_inside hstart hstop).not_contains hx

end Sections

/-! ## The carveout -/

section Carveout

variable {metadata : Package2Meta} {base : Nat}

/-- A section that does not overlap a buffer. -/
lemma apart_of_overlapsBuffer {i : Fin 4} (h : metadata.overlapsBuffer base i = false) :
    (Region.mk base package2SizeMax).Apart (metadata.targetRegion i) :=
  (stop_le_of_overlaps h).symm

/-- What a section touches of a buffer: itself, and its start also if it has no size. -/
def touchedRegion (metadata : Package2Meta) (i : Fin 4) : Region :=
  ⟨(metadata.targetRegion i).start, max (metadata.targetRegion i).size 1⟩

lemma overlapsBuffer_eq_false {i : Fin 4} (h : (metadata.touchedRegion i).Apart ⟨base, package2SizeMax⟩) :
    metadata.overlapsBuffer base i = false := by
  have hpos : 0 < package2SizeMax := by decide
  rw [Region.Apart, Region.stop, Region.stop, touchedRegion, targetRegion] at h
  rw [overlapsBuffer, overlaps]
  dsimp only at h ⊢
  rw [if_neg (by omega), if_neg (by omega)]

/-- The loop finds the first carveout that is safe. -/
lemma findCarveout_of_safe {tries k : Nat} (hk : k < tries)
    (hsafe : package2Sections.any (metadata.overlapsBuffer (base + k * package2SizeMax)) = false) :
    ∃ l ≤ k, metadata.findCarveout tries base = some (base + l * package2SizeMax) ∧
      package2Sections.any (metadata.overlapsBuffer (base + l * package2SizeMax)) = false := by
  induction tries generalizing base k with
  | zero => exact absurd hk (Nat.not_lt_zero _)
  | succ tries ih =>
    rw [findCarveout]
    split
    · next hoverlap =>
      cases k with
      | zero =>
        rw [Nat.zero_mul, Nat.add_zero, hoverlap] at hsafe
        cases hsafe
      | succ k =>
        have hshift : ∀ l, base + (l + 1) * package2SizeMax = base + package2SizeMax + l * package2SizeMax := by
          intro l
          rw [Nat.succ_mul]
          omega
        rw [hshift] at hsafe
        obtain ⟨l, hl, hfind, hfree⟩ := ih (Nat.lt_of_succ_lt_succ hk) hsafe
        refine ⟨l + 1, Nat.succ_le_succ hl, ?_⟩
        rw [hshift]
        exact ⟨hfind, hfree⟩
    · next hfree =>
      refine ⟨0, Nat.zero_le _, ?_⟩
      rw [Nat.zero_mul, Nat.add_zero]
      exact ⟨rfl, Bool.eq_false_iff.mpr hfree⟩

/-- Three sections leave one of seven carveouts. -/
lemma findCarveout_eq_some (hsizes : ∀ i ∈ package2Sections, (metadata.sectionSizes i).toNat ≤ package2SizeMax) :
    ∃ k ≤ 6, metadata.findCarveout 8 dramBasePhysical = some (dramBasePhysical + k * package2SizeMax) ∧
      package2Sections.any (metadata.overlapsBuffer (dramBasePhysical + k * package2SizeMax)) = false := by
  have htouched : ∀ r ∈ package2Sections.map metadata.touchedRegion,
      dramBasePhysical ≤ r.start ∧ r.size ≤ package2SizeMax := by
    intro r hr
    obtain ⟨i, hi, rfl⟩ := List.mem_map.mp hr
    exact ⟨Nat.le_add_right _ _, Nat.max_le.mpr ⟨hsizes i hi, by decide⟩⟩
  obtain ⟨k, hk, hfree⟩ := exists_free_block (by decide) htouched
  have hsafe : package2Sections.any (metadata.overlapsBuffer (dramBasePhysical + k * package2SizeMax)) = false := by
    refine List.any_eq_false.mpr fun i hi => ?_
    rw [Bool.not_eq_true]
    exact overlapsBuffer_eq_false (hfree _ (List.mem_map_of_mem hi))
  have hk : k ≤ 6 := hk
  obtain ⟨l, hl, hfind⟩ := findCarveout_of_safe (show k < 8 by omega) hsafe
  exact ⟨l, hl.trans hk, hfind⟩

end Carveout

/-! ## The sections in memory -/

/-- The memory before the sections are loaded, with the package in a buffer that no section overlaps. -/
structure Prepared (metadata : Package2Meta) (mem : Nat → UInt8) (loadBuf : Nat) (mem' : Nat → UInt8) : Prop where
  place : loadBuf = package2LoadAddress ∨ ∃ k < 7, loadBuf = dramBasePhysical + k * package2SizeMax
  apart : ∀ i ∈ package2Sections, (Region.mk loadBuf package2SizeMax).Apart (metadata.targetRegion i)
  package : read mem' ⟨loadBuf, package2SizeMax⟩ = read mem ⟨package2LoadAddress, package2SizeMax⟩
  cleared : ∀ x, (Region.mk package2LoadAddress package2SizeMax).Contains x →
    ¬(Region.mk loadBuf package2SizeMax).Contains x → mem' x = 0
  high : ∀ x, 2 ^ 32 ≤ x → mem' x = mem x

/-- What the function is for: every section with a size is in its place, and the buffer is zero that the
package was read from, as well as the one that it came in where no section is. -/
structure LoadedIntact (cipher : BlockCipher 0x10) (plaintext : Bool) (metadata : Package2Meta) (mem : Nat → UInt8)
    (loadBuf : Nat) (mem' : Nat → UInt8) : Prop where
  place : loadBuf = package2LoadAddress ∨ ∃ k < 7, loadBuf = dramBasePhysical + k * package2SizeMax
  sections : ∀ i ∈ package2Sections, metadata.sectionSizes i ≠ 0 →
    read mem' (metadata.targetRegion i) = sectionBytes cipher plaintext metadata i
      (read mem (metadata.dataRegion package2LoadAddress (metadata.sizeSum (package2Sections.take i)) i))
  buffer : ∀ x, (Region.mk loadBuf package2SizeMax).Contains x → mem' x = 0
  source : ∀ x, (Region.mk package2LoadAddress package2SizeMax).Contains x →
    (∀ i ∈ package2Sections, ¬(metadata.targetRegion i).Contains x) → mem' x = 0

section Loaded

variable {bus : EngineBus} {cipher : BlockCipher 0x10} {plaintext checkHash : Bool} {metadata : Package2Meta}
  {mem mem' : Nat → UInt8} {loadBuf : Nat} {sha256 : List UInt8 → List UInt8} {hashed : List Region}

lemma Prepared.stop_le (h : Prepared metadata mem loadBuf mem') : loadBuf + package2SizeMax ≤ 2 ^ 32 := by
  have hplace := h.place
  rw [package2LoadAddress, dramBasePhysical, package2SizeMax] at hplace
  rw [package2SizeMax]
  omega

/-- The data of a section in the buffer. -/
lemma Prepared.read_data (h : Prepared metadata mem loadBuf mem') {cur : Nat} {i : Fin 4}
    (hfits : package2HeaderSize + cur + (metadata.sectionSizes i).toNat ≤ package2SizeMax) :
    read mem' (metadata.dataRegion loadBuf cur i) = read mem (metadata.dataRegion package2LoadAddress cur i) := by
  rw [dataRegion, dataRegion, Nat.add_assoc, Nat.add_assoc, read_part mem' hfits, read_part mem hfits, h.package]

/-- The function never panics: the package is in a buffer that no section overlaps after seven tries. -/
lemma loadPackage2Sections_prepared (mem : Nat → UInt8)
    (hsizes : ∀ i ∈ package2Sections, (metadata.sectionSizes i).toNat ≤ package2SizeMax) :
    ∃ loadBuf mem', Prepared metadata mem loadBuf mem' ∧ ∀ bus cipher plaintext,
      metadata.loadPackage2Sections bus cipher plaintext mem = some (loadBuf,
        fill (metadata.loadSections bus cipher plaintext loadBuf package2Sections 0 mem')
          ⟨loadBuf, package2SizeMax⟩ 0) := by
  by_cases hneeds : package2Sections.any (metadata.overlapsBuffer package2LoadAddress) = true
  · obtain ⟨k, hk, hfind, hfree⟩ := findCarveout_eq_some hsizes
    generalize hbase : dramBasePhysical + k * package2SizeMax = base at hfind hfree
    have hstop : base + package2SizeMax ≤ package2LoadAddress := by
      rw [← hbase, dramBasePhysical, package2SizeMax, package2LoadAddress]
      omega
    have hapart : (Region.mk base package2SizeMax).Apart ⟨package2LoadAddress, package2SizeMax⟩ := .inl hstop
    refine ⟨base, fill (copy mem base ⟨package2LoadAddress, package2SizeMax⟩)
      ⟨package2LoadAddress, package2SizeMax⟩ 0, ⟨.inr ⟨k, Nat.lt_succ_of_le hk, hbase.symm⟩, ?_, ?_, ?_, ?_⟩, ?_⟩
    · intro i hi
      exact apart_of_overlapsBuffer (Bool.eq_false_iff.mpr (List.any_eq_false.mp hfree i hi))
    · exact (read_congr fun x hx => fill_outside (hapart.not_contains hx)).trans (read_copy _ _ _)
    · exact fun x hx _ => fill_inside hx
    · intro x hx
      rw [fill_outside fun hin => ?_, copy, if_neg fun hin => ?_]
      · exact Nat.not_lt_of_le hx (hin.2.trans_le (hstop.trans (by decide)))
      · exact Nat.not_lt_of_le hx (hin.2.trans_le (by decide))
    · intro bus cipher plaintext
      rw [loadPackage2Sections]
      dsimp only
      rw [if_pos hneeds, hfind]
  · refine ⟨package2LoadAddress, mem, ⟨.inl rfl, ?_, rfl, fun x hx hno => absurd hx hno, fun x _ => rfl⟩, ?_⟩
    · intro i hi
      have hfree := List.any_eq_false.mp (Bool.eq_false_iff.mpr hneeds) i hi
      exact apart_of_overlapsBuffer (Bool.eq_false_iff.mpr hfree)
    · intro bus cipher plaintext
      rw [loadPackage2Sections]
      dsimp only
      rw [if_neg hneeds]

section

variable (h : validatePackage2Metadata sha256 checkHash mem metadata = some hashed)

include h

lemma sizeSum_package2Sections : package2HeaderSize + 0 + metadata.sizeSum package2Sections ≤ package2SizeMax := by
  obtain ⟨hmax, -⟩ := validatePackage2Metadata_checks h
  have hsum := validatePackage2Metadata_sum h
  rw [sizeSum]
  omega

lemma sectionSizes_le : ∀ i ∈ package2Sections, (metadata.sectionSizes i).toNat ≤ package2SizeMax := by
  intro i hi
  have hmem : (metadata.sectionSizes i).toNat ∈ package2Sections.map fun i => (metadata.sectionSizes i).toNat :=
    List.mem_map_of_mem hi
  have hle := List.le_sum_of_mem hmem
  have hsum := sizeSum_package2Sections h
  rw [sizeSum] at hsum
  omega

/-- Sections of metadata that is accepted are apart in memory as well. -/
lemma targetRegion_pairwise :
    package2Sections.Pairwise fun i j => metadata.sectionSizes i ≠ 0 → metadata.sectionSizes j ≠ 0 →
      (metadata.targetRegion i).Apart (metadata.targetRegion j) := by
  obtain ⟨-, -, -, hsections⟩ := validatePackage2Metadata_checks h
  have hpairwise := List.pairwise_filter.mp (List.pairwise_map.mp (validateSections_pairwise hsections))
  refine hpairwise.imp fun hapart hi hj => ?_
  have hsections := hapart (decide_eq_true hi) (decide_eq_true hj)
  rw [Region.Apart, Region.stop, Region.stop, sectionRegion, sectionRegion] at hsections
  rw [Region.Apart, Region.stop, Region.stop, targetRegion, targetRegion]
  dsimp only at hsections ⊢
  omega

lemma targetRegion_apart {i j : Fin 4}
    (hi : i ∈ package2Sections) (hj : j ∈ package2Sections) (hne : i ≠ j) (hsize : metadata.sectionSizes i ≠ 0)
    (hsize' : metadata.sectionSizes j ≠ 0) : (metadata.targetRegion i).Apart (metadata.targetRegion j) := by
  have hsymm : Std.Symm fun i j => metadata.sectionSizes i ≠ 0 → metadata.sectionSizes j ≠ 0 →
      (metadata.targetRegion i).Apart (metadata.targetRegion j) :=
    ⟨fun _ _ hapart hsize hsize' => (hapart hsize' hsize).symm⟩
  exact (targetRegion_pairwise h).forall hi hj hne hsize hsize'

end

lemma Prepared.placed (hprepared : Prepared metadata mem loadBuf mem')
    {accepted : Nat → UInt8} (h : validatePackage2Metadata sha256 checkHash accepted metadata = some hashed)
    (hreach : plaintext = true ∨ ∀ i ∈ package2Sections, metadata.EngineReaches i) :
    Placed plaintext metadata loadBuf 0 package2Sections where
  reaches i hi := hreach.imp_right fun hreach => hreach i hi
  pairwise := targetRegion_pairwise h
  apart := hprepared.apart
  fits := sizeSum_package2Sections h
  stop_le := hprepared.stop_le

/-- The list of sections around one of them. -/
lemma package2Sections_split {i : Fin 4} (hi : i ∈ package2Sections) :
    ∃ post, package2Sections = package2Sections.take i ++ i :: post := by
  refine ⟨package2Sections.drop (i + 1), ?_⟩
  revert i
  decide

/-- The data of a section is in the package. -/
lemma data_fits (h : validatePackage2Metadata sha256 checkHash mem metadata = some hashed) {i : Fin 4}
    (hi : i ∈ package2Sections) : (metadata.dataRegion package2LoadAddress
      (metadata.sizeSum (package2Sections.take i)) i).stop ≤ package2LoadAddress + package2SizeMax := by
  obtain ⟨post, hsplit⟩ := package2Sections_split hi
  have hsum := sizeSum_package2Sections h
  rw [hsplit, sizeSum_append, sizeSum_cons] at hsum
  rw [Region.stop, dataRegion]
  dsimp only
  omega

/-- Sections that the engine reaches are loaded. -/
lemma Prepared.intact (hprepared : Prepared metadata mem loadBuf mem')
    {accepted : Nat → UInt8} (h : validatePackage2Metadata sha256 checkHash accepted metadata = some hashed)
    (hreach : plaintext = true ∨ ∀ i ∈ package2Sections, metadata.EngineReaches i) :
    LoadedIntact cipher plaintext metadata mem loadBuf
      (fill (metadata.loadSections bus cipher plaintext loadBuf package2Sections 0 mem')
        ⟨loadBuf, package2SizeMax⟩ 0) where
  place := hprepared.place
  sections i hi hsize := by
    obtain ⟨post, hsplit⟩ := package2Sections_split hi
    have hplaced := hprepared.placed h hreach
    have hfits := data_fits h hi
    have hbuffer : read (fill (metadata.loadSections bus cipher plaintext loadBuf package2Sections 0 mem')
        ⟨loadBuf, package2SizeMax⟩ 0) (metadata.targetRegion i) =
        read (metadata.loadSections bus cipher plaintext loadBuf package2Sections 0 mem') (metadata.targetRegion i) :=
      read_congr fun x hx => fill_outside fun hin => (hprepared.apart i hi).not_contains hin hx
    rw [Region.stop, dataRegion] at hfits
    rw [hsplit] at hplaced
    have hread := loadSections_read bus cipher mem' hplaced hsize
    rw [← hsplit, Nat.zero_add, hprepared.read_data (by dsimp only at hfits; omega)] at hread
    exact hbuffer.trans hread
  buffer x hx := fill_inside hx
  source x hx hout := by
    by_cases hin : (Region.mk loadBuf package2SizeMax).Contains x
    · exact fill_inside hin
    · rw [fill_outside hin, loadSections_frame fun i hi _ _ => ?_]
      · exact hprepared.cleared x hx hin
      · exact loadSection_outside (hreach.imp_right fun hreach => hreach i hi) (hout i hi)

end Loaded

/-! ## Out of reach -/

section Unreached

variable {bus : EngineBus} {cipher : BlockCipher 0x10} {checkHash : Bool} {metadata : Package2Meta}
  {mem accepted : Nat → UInt8} {sha256 : List UInt8 → List UInt8} {hashed : List Region} {i : Fin 4} {x : Nat}

/-- An address in a whole block of a section. -/
def InBlocks (metadata : Package2Meta) (i : Fin 4) (x : Nat) : Prop :=
  (metadata.targetRegion i).start ≤ x ∧ x < (metadata.targetRegion i).start + metadata.alignedSize i

lemma InBlocks.contains (h : metadata.InBlocks i x) : (metadata.targetRegion i).Contains x :=
  ⟨h.1, h.2.trans_le (Nat.add_le_add_left (Nat.div_mul_le_self _ _) _)⟩

/-- An address that the engine does not come to, and that is not behind the whole blocks of the section. -/
lemma loadSection_unreached {loadBuf cur : Nat}
    (hplaces : ∀ k < metadata.alignedSize i, bus.llInit (metadata.targetRegion i).start k ≠ x)
    (hlast : ¬(metadata.targetRegion i).Contains x ∨ metadata.InBlocks i x) :
    metadata.loadSection bus cipher false loadBuf i cur mem x = mem x := by
  have hdiv := Nat.div_mul_le_self (metadata.sectionSizes i).toNat 0x10
  rw [loadSection]
  dsimp only
  rw [if_neg Bool.false_ne_true]
  refine seAesCtrCryptAt_outside hplaces fun hin => ?_
  rcases hlast with hout | hblocks
  · refine hout ⟨(Nat.le_add_right _ _).trans hin.1, hin.2.trans_le ?_⟩
    rw [Region.stop, Region.stop, targetRegion]
    dsimp only
    omega
  · exact Nat.not_lt_of_le hin.1 hblocks.2

/-- An address behind the 32 bits in a whole block of a section is left as it was if the engine does not come
to it. -/
lemma loadPackage2Sections_unreached
    (h : validatePackage2Metadata sha256 checkHash accepted metadata = some hashed) (hi : i ∈ package2Sections)
    (hx : 2 ^ 32 ≤ x) (hblocks : metadata.InBlocks i x)
    (hplaces : ∀ j ∈ package2Sections, ∀ k < metadata.alignedSize j, bus.llInit (metadata.targetRegion j).start k ≠ x)
    {loadBuf : Nat} {result : Nat → UInt8}
    (hload : metadata.loadPackage2Sections bus cipher false mem = some (loadBuf, result)) : result x = mem x := by
  obtain ⟨loadBuf', mem', hprepared, heq⟩ := loadPackage2Sections_prepared mem (sectionSizes_le h)
  rw [heq] at hload
  cases hload
  have hout : ¬(Region.mk loadBuf package2SizeMax).Contains x :=
    fun hin => Nat.not_lt_of_le hx (Nat.lt_of_lt_of_le hin.2 hprepared.stop_le)
  rw [fill_outside hout, loadSections_frame, hprepared.high x hx]
  intro j hj cur mem
  refine loadSection_unreached (hplaces j hj) ?_
  by_cases hij : j = i
  · rw [hij]
    exact .inr hblocks
  · refine .inl fun hin => ?_
    have hapart := targetRegion_apart h hj hi hij (sectionSizes_ne_zero hin)
      (sectionSizes_ne_zero hblocks.contains)
    exact hapart.not_contains hin hblocks.contains

/-- A section that is intact has its bytes. -/
lemma LoadedIntact.getElem_section {plaintext : Bool} {loadBuf : Nat} {result : Nat → UInt8}
    (h : LoadedIntact cipher plaintext metadata mem loadBuf result) (hi : i ∈ package2Sections)
    (hx : (metadata.targetRegion i).Contains x) :
    (sectionBytes cipher plaintext metadata i (read mem (metadata.dataRegion package2LoadAddress
      (metadata.sizeSum (package2Sections.take i)) i)))[x - (metadata.targetRegion i).start]? = some (result x) := by
  obtain ⟨k, rfl⟩ := Nat.exists_eq_add_of_le hx.1
  rw [← h.sections i hi (sectionSizes_ne_zero hx), Nat.add_sub_cancel_left]
  exact read_getElem (Nat.lt_of_add_lt_add_left hx.2)

end Unreached

/-- An engine that starts over with address zero. -/
def wrappingBus : EngineBus where
  address a i := (a + i) % 2 ^ 32
  address_eq _ _ h := Nat.mod_eq_of_lt h

/-- Metadata that is accepted: whatever memory the package is in and whatever the engine does behind the 32
bits, its sections are loaded intact just when they are not encrypted or all whole blocks are in the addresses
of 32 bits. -/
theorem loadPackage2Sections_intact_iff {sha256 : List UInt8 → List UInt8} {checkHash : Bool}
    {accepted : Nat → UInt8} {metadata : Package2Meta} {hashed : List Region}
    (h : validatePackage2Metadata sha256 checkHash accepted metadata = some hashed)
    (cipher : BlockCipher 0x10) (plaintext : Bool) (mem : Nat → UInt8) :
    (∀ bus mem', read mem' ⟨package2LoadAddress, package2SizeMax⟩ = read mem ⟨package2LoadAddress, package2SizeMax⟩ →
      ∃ loadBuf result, metadata.loadPackage2Sections bus cipher plaintext mem' = some (loadBuf, result) ∧
        LoadedIntact cipher plaintext metadata mem' loadBuf result) ↔
      plaintext = true ∨ ∀ i ∈ package2Sections, metadata.EngineReaches i := by
  constructor
  · intro hintact
    by_contra hno
    obtain ⟨hcrypt, hreach⟩ := not_or.mp hno
    rw [Bool.not_eq_true] at hcrypt
    subst hcrypt
    simp only [not_forall] at hreach
    obtain ⟨i, hi, hreach⟩ := hreach
    obtain ⟨hsize, hlt⟩ := not_or.mp hreach
    -- the last byte of the whole blocks, in a memory where it is a wrong one
    generalize hx : (metadata.targetRegion i).start + metadata.alignedSize i - 1 = x
    have hhigh : 2 ^ 32 ≤ x := by omega
    have hblocks : metadata.InBlocks i x := ⟨by omega, by omega⟩
    have hfits := data_fits h hi
    have hread : ∀ byte, read (Function.update mem x byte) (metadata.dataRegion package2LoadAddress
        (metadata.sizeSum (package2Sections.take i)) i) = read mem (metadata.dataRegion package2LoadAddress
          (metadata.sizeSum (package2Sections.take i)) i) := by
      refine fun byte => read_congr fun y hy => Function.update_of_ne (fun heq => ?_) _ _
      exact Nat.not_lt_of_le hhigh (heq ▸ hy.2.trans_le (Nat.le_trans hfits (by decide)))
    generalize hbyte : (sectionBytes cipher false metadata i (read mem (metadata.dataRegion package2LoadAddress
      (metadata.sizeSum (package2Sections.take i)) i))).getD (x - (metadata.targetRegion i).start) 0 = byte
    obtain ⟨loadBuf, result, hload, hloaded⟩ := hintact wrappingBus (Function.update mem x (byte + 1)) <| by
      refine read_congr fun y hy => Function.update_of_ne (fun heq => ?_) _ _
      exact Nat.not_lt_of_le hhigh (heq ▸ hy.2.trans_le (by decide))
    have hkept := loadPackage2Sections_unreached h hi hhigh hblocks
      (fun _ _ _ _ heq => Nat.not_lt_of_le hhigh (heq ▸ Nat.mod_lt _ (by decide))) hload
    have hsection := hloaded.getElem_section hi hblocks.contains
    rw [hread, hkept, Function.update_self] at hsection
    rw [List.getD_eq_getElem?_getD, hsection] at hbyte
    exact absurd (UInt8.add_eq_left.mp hbyte) (by decide)
  · intro hreach bus mem' _
    obtain ⟨loadBuf, prepared, hprepared, heq⟩ := loadPackage2Sections_prepared mem' (sectionSizes_le h)
    exact ⟨loadBuf, _, heq bus cipher plaintext, hprepared.intact h hreach⟩

/-- A cipher that flips the zeros of a text. -/
def exampleCipher : BlockCipher 0x10 where
  encrypt _ := List.replicate 0x10 0xFF
  length_encrypt _ := List.length_replicate

/-- One section in reach of the engine, and one that is not. -/
theorem loadPackage2Sections_intact_iff_example :
    (∀ bus mem', read mem' ⟨package2LoadAddress, package2SizeMax⟩ =
        read (fun _ => 0) ⟨package2LoadAddress, package2SizeMax⟩ →
      ∃ loadBuf result, examplePackage2Meta.loadPackage2Sections bus exampleCipher false mem' = some (loadBuf, result) ∧
        LoadedIntact exampleCipher false examplePackage2Meta mem' loadBuf result) ↔
      false = true ∨ ∀ i ∈ package2Sections, examplePackage2Meta.EngineReaches i :=
  loadPackage2Sections_intact_iff examplePackage2Meta_accepted exampleCipher false fun _ => 0

/-- The third section is to be behind the addresses of 32 bits. The engine is told to write it to the address
`0x60000`, and the first byte in its place stays zero. -/
theorem loadPackage2Sections_truncated :
    validatePackage2Metadata (fun _ => List.replicate 0x20 0) true (fun _ => 0) examplePackage2Meta =
        some [⟨0xA9800200, 0x80⟩, ⟨0xA9800280, 0x80⟩] ∧
      ∀ bus, ¬∃ loadBuf result,
        examplePackage2Meta.loadPackage2Sections bus exampleCipher false (fun _ => 0) = some (loadBuf, result) ∧
          LoadedIntact exampleCipher false examplePackage2Meta (fun _ => 0) loadBuf result := by
  refine ⟨examplePackage2Meta_accepted, fun bus => ?_⟩
  rintro ⟨loadBuf, result, hload, hloaded⟩
  have hblocks : examplePackage2Meta.InBlocks 2 0x100060000 := ⟨by decide, by decide⟩
  have hplaces : ∀ j ∈ package2Sections, ∀ k < examplePackage2Meta.alignedSize j,
      bus.llInit (examplePackage2Meta.targetRegion j).start k ≠ 0x100060000 := by
    intro j hj k hk
    have hbound : ∀ j ∈ package2Sections, (examplePackage2Meta.targetRegion j).start % 2 ^ 32 +
        examplePackage2Meta.alignedSize j ≤ 0x80060080 := by decide
    have hlt := hbound j hj
    rw [EngineBus.llInit, bus.address_eq _ _ (by omega)]
    omega
  have hkept := loadPackage2Sections_unreached examplePackage2Meta_accepted (i := 2) (by decide)
    (by decide) hblocks hplaces hload
  have hsection := hloaded.getElem_section (i := 2) (by decide) hblocks.contains
  rw [hkept] at hsection
  revert hsection
  decide +kernel

end Package2Meta

end RajNX.Exosphere
