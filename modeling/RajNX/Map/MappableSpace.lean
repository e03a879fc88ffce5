import RajNX.Lib.Fallible
import RajNX.Lib.Loop
import RajNX.Lib.Regions

/-!
# The search for mappable space

`GetProcessAddressSpaceInfo` and `LocateMappableSpaceModern` of `map_api.cpp`, which looks for free memory in
the own address space. The cursor of the search starts at the base of the ASLR region, and goes to the end of
the heap region, of the alias region or of the block of memory that it is in when there is no room. What
`svcQueryMemory` answers is a map of the whole space in blocks.

Where the heap region or the alias region ends at the end of the 64-bit space or wraps around, their ends are
small numbers, and the cursor goes back.
-/

namespace RajNX.Map

open Fallible Loop Regions

/-- The results of the search. -/
inductive MapError
  | kernelOutOfMemory
  | kernel (code : Nat)
deriving Repr, DecidableEq

/-- `InfoType` -/
inductive InfoType
  | heapRegionAddress
  | heapRegionSize
  | aliasRegionAddress
  | aliasRegionSize
  | aslrRegionAddress
  | aslrRegionSize
deriving Repr, DecidableEq

/-- `AddressSpaceInfo` -/
structure AddressSpaceInfo where
  heapBase : UInt64
  heapSize : UInt64
  heapEnd : UInt64
  aliasBase : UInt64
  aliasSize : UInt64
  aliasEnd : UInt64
  aslrBase : UInt64
  aslrSize : UInt64
  aslrEnd : UInt64
deriving Repr, DecidableEq

/-- `AslrBase32Bit` -/
def aslrBase32Bit : UInt64 := 0x0000200000

/-- `AslrSize32Bit` -/
def aslrSize32Bit : UInt64 := 0x003FE00000

/-- `AslrBase64BitDeprecated` -/
def aslrBase64BitDeprecated : UInt64 := 0x0008000000

/-- `AslrSize64BitDeprecated` -/
def aslrSize64BitDeprecated : UInt64 := 0x0078000000

/-- `AslrBase64Bit` -/
def aslrBase64Bit : UInt64 := 0x0008000000

/-- `AslrSize64Bit` -/
def aslrSize64Bit : UInt64 := 0x7FF8000000

section

variable (isFirmware200 : Bool) (svcGetInfo : InfoType → Except MapError UInt64)

/-- The base and the size of the ASLR region in `GetProcessAddressSpaceInfo`. Before 2.0.0 the code guesses
them from the heap region and the alias region. -/
def getAslrRegion (heapBase aliasBase : UInt64) : Except MapError (UInt64 × UInt64) :=
  if isFirmware200 then do
    let base ← svcGetInfo .aslrRegionAddress
    let size ← svcGetInfo .aslrRegionSize
    return (base, size)
  else if heapBase < aslrBase64BitDeprecated ∨ aliasBase < aslrBase64BitDeprecated then
    .ok (aslrBase32Bit, aslrSize32Bit)
  else .ok (aslrBase64BitDeprecated, aslrSize64BitDeprecated)

/-- `GetProcessAddressSpaceInfo`, with the answers of `svcGetInfo`. -/
def getProcessAddressSpaceInfo : Except MapError AddressSpaceInfo := do
  let heapBase ← svcGetInfo .heapRegionAddress
  let heapSize ← svcGetInfo .heapRegionSize
  let aliasBase ← svcGetInfo .aliasRegionAddress
  let aliasSize ← svcGetInfo .aliasRegionSize
  let (aslrBase, aslrSize) ← getAslrRegion isFirmware200 svcGetInfo heapBase aliasBase
  return {
    heapBase, heapSize, heapEnd := heapBase + heapSize,
    aliasBase, aliasSize, aliasEnd := aliasBase + aliasSize,
    aslrBase, aslrSize, aslrEnd := aslrBase + aslrSize }

/-- What the search reads of a `MemoryInfo`. -/
structure MemoryInfo where
  addr : UInt64
  size : UInt64
  type : Nat
deriving Repr, DecidableEq

/-- Memory that is unmapped. -/
def MemoryInfo.Free (m : MemoryInfo) : Prop := m.type = 0

instance (m : MemoryInfo) : Decidable m.Free := inferInstanceAs (Decidable (_ = _))

/-- Where a block ends. The size of a block that is the whole space wraps around to zero. -/
def MemoryInfo.stop (m : MemoryInfo) : Nat := m.addr.toNat + (m.size - 1).toNat + 1

/-- Blocks that partition the 64-bit space, with what `svcQueryMemory` answers at each address. -/
structure MemoryMap where
  query : UInt64 → MemoryInfo
  start_le : ∀ a, (query a).addr ≤ a
  lt_stop : ∀ a, a.toNat < (query a).stop
  stop_le : ∀ a, (query a).stop ≤ 2 ^ 64
  query_eq : ∀ a b, (query a).addr ≤ b → b.toNat < (query a).stop → query b = query a

/-- The end of a turn: the cursor goes to an address, unless a range from there on wraps around. -/
def goTo (size next : UInt64) : Turn UInt64 (Except MapError UInt64) :=
  if next + size ≤ next then .leave (.error .kernelOutOfMemory) else .again next

/-- A turn of the loop of `LocateMappableSpaceModern`. -/
def locateTurn (info : AddressSpaceInfo) (svcQueryMemory : UInt64 → MemoryInfo) (size cur : UInt64) :
    Turn UInt64 (Except MapError UInt64) :=
  let curEnd := cur + size
  if info.heapSize ≠ 0 ∧ info.heapBase ≤ curEnd - 1 ∧ cur ≤ info.heapEnd - 1 then
    if cur = info.heapEnd then .leave (.error .kernelOutOfMemory)
    else goTo size info.heapEnd
  else if info.aliasSize ≠ 0 ∧ info.aliasBase ≤ curEnd - 1 ∧ cur ≤ info.aliasEnd - 1 then
    if cur = info.aliasEnd then .leave (.error .kernelOutOfMemory)
    else goTo size info.aliasEnd
  else
    let mem := svcQueryMemory cur
    if mem.type = 0 ∧ size ≤ mem.addr - cur + mem.size then .leave (.ok cur)
    else if mem.addr + mem.size ≤ cur then .leave (.error .kernelOutOfMemory)
    else if info.aslrEnd ≤ mem.addr + mem.size then .leave (.error .kernelOutOfMemory)
    else goTo size (mem.addr + mem.size)

/-- `LocateMappableSpaceModern`, with so many turns of its loop at most. -/
def locateMappableSpaceModern
    (svcQueryMemory : UInt64 → MemoryInfo) (size : UInt64) (fuel : Nat) : Option (Except MapError UInt64) :=
  match getProcessAddressSpaceInfo isFirmware200 svcGetInfo with
  | .error e => some (.error e)
  | .ok info =>
    if info.aslrBase + size ≤ info.aslrBase then some (.error .kernelOutOfMemory)
    else loop (locateTurn info svcQueryMemory size) fuel info.aslrBase

/-- `MemType_Reserved` -/
def memTypeReserved : Nat := 0x10

/-- A turn of the loop of `LocateMappableSpaceDeprecated`. -/
def locateDeprecatedTurn (svcQueryMemory : UInt64 → MemoryInfo) (size cur : UInt64) :
    Turn UInt64 (Except MapError UInt64) :=
  let mem := svcQueryMemory cur
  if mem.type = 0 ∧ size ≤ mem.addr - cur + mem.size then .leave (.ok cur)
  else
    let memEnd := mem.addr + mem.size
    if mem.type = memTypeReserved ∨ memEnd < cur ∨ memEnd >>> 31 ≠ 0 then .leave (.error .kernelOutOfMemory)
    else .again memEnd

/-- `LocateMappableSpaceDeprecated`, with so many turns of its loop at most. -/
def locateMappableSpaceDeprecated
    (svcQueryMemory : UInt64 → MemoryInfo) (size : UInt64) (fuel : Nat) : Option (Except MapError UInt64) :=
  match getProcessAddressSpaceInfo isFirmware200 svcGetInfo with
  | .error e => some (.error e)
  | .ok info => loop (locateDeprecatedTurn svcQueryMemory size) fuel info.aslrBase

/-- `LocateMappableSpace`. The cursor has `2 ^ 64` values, so a loop that has made as many turns makes all of
them again, and none is what never returns. -/
def locateMappableSpace (svcQueryMemory : UInt64 → MemoryInfo) (size : UInt64) : Option (Except MapError UInt64) :=
  if isFirmware200 then locateMappableSpaceModern isFirmware200 svcGetInfo svcQueryMemory size (2 ^ 64)
  else locateMappableSpaceDeprecated isFirmware200 svcGetInfo svcQueryMemory size (2 ^ 64)

end

/-- Space of no size is never found on 2.0.0 or later. -/
lemma locateMappableSpace_zero (svcGetInfo : InfoType → Except MapError UInt64) (svcQueryMemory : UInt64 → MemoryInfo) :
    ∃ e, locateMappableSpace true svcGetInfo svcQueryMemory 0 = some (.error e) := by
  rw [locateMappableSpace, if_pos rfl, locateMappableSpaceModern]
  cases getProcessAddressSpaceInfo true svcGetInfo with
  | error e => exact ⟨e, rfl⟩
  | ok info =>
    have hwrap : info.aslrBase + 0 ≤ info.aslrBase := by
      rw [UInt64.add_zero]
      exact UInt64.le_refl _
    exact ⟨.kernelOutOfMemory, if_pos hwrap⟩

/-! ## What is looked for -/

/-- The heap region. -/
def AddressSpaceInfo.heapRegion (info : AddressSpaceInfo) : Region := ⟨info.heapBase.toNat, info.heapSize.toNat⟩

/-- The alias region. -/
def AddressSpaceInfo.aliasRegion (info : AddressSpaceInfo) : Region := ⟨info.aliasBase.toNat, info.aliasSize.toNat⟩

/-- The space from an address on. -/
def space (size out : UInt64) : Region := ⟨out.toNat, size.toNat⟩

/-- Space that can be mapped: it does not wrap around, is in the ASLR region, is free, and is outside of the
heap and the alias region. -/
structure Mappable (info : AddressSpaceInfo) (map : MemoryMap) (size out : UInt64) : Prop where
  noWrap : (space size out).stop ≤ 2 ^ 64
  base : info.aslrBase ≤ out
  top : (space size out).stop ≤ info.aslrEnd.toNat
  free : ∀ a : UInt64, (space size out).Contains a.toNat → (map.query a).Free
  outsideHeap : ∀ a, (space size out).Contains a → ¬info.heapRegion.Contains a
  outsideAlias : ∀ a, (space size out).Contains a → ¬info.aliasRegion.Contains a

/-- The block of an address has mappable space from this address on. -/
def SuffixFits (info : AddressSpaceInfo) (map : MemoryMap) (size p : UInt64) : Prop :=
  Mappable info map size p ∧ (space size p).stop ≤ (map.query p).stop

/-- A region that is empty or ends below the end of the 64-bit space. -/
def EndsInside (r : Region) : Prop := r.size ≠ 0 → r.stop < 2 ^ 64

/-- Everything from the end of the ASLR region on is in use. -/
def UsedAbove (info : AddressSpaceInfo) (map : MemoryMap) : Prop :=
  ∀ a, info.aslrEnd ≤ a → ¬(map.query a).Free

/-- What the search ends with: mappable space, or no block has any. -/
def Located (info : AddressSpaceInfo) (map : MemoryMap) (size : UInt64) : Except MapError UInt64 → Prop
  | .ok out => Mappable info map size out
  | .error e => e = .kernelOutOfMemory ∧ ∀ p, ¬SuffixFits info map size p

/-! ## Blocks and regions -/

section Arithmetic

variable {info : AddressSpaceInfo} {map : MemoryMap} {size cur next a p : UInt64}

lemma toNat_pos (h : 0 < size) : 0 < size.toNat := by
  rwa [UInt64.lt_iff_toNat_lt] at h

/-- The end of a block as the code computes it. -/
lemma toNat_addr_add_size (m : MemoryInfo) : (m.addr + m.size).toNat = m.stop % 2 ^ 64 := by
  have haddr := m.addr.toNat_lt
  have hsize := m.size.toNat_lt
  simp only [MemoryInfo.stop, UInt64.toNat_add, UInt64.toNat_sub, UInt64.toNat_one]
  omega

/-- What is left of a block, as the code computes it. -/
lemma toNat_left (h : a.toNat < (map.query a).stop) :
    ((map.query a).addr - a + (map.query a).size).toNat = ((map.query a).stop - a.toNat) % 2 ^ 64 := by
  have haddr := (map.query a).addr.toNat_lt
  have hsize := (map.query a).size.toNat_lt
  have ha := a.toNat_lt
  simp only [MemoryInfo.stop, UInt64.toNat_add, UInt64.toNat_sub, UInt64.toNat_one] at h ⊢
  omega

/-- A free block ends in front of the end of the ASLR region. -/
lemma stop_le_of_free (hused : UsedAbove info map) (hfree : (map.query a).Free) :
    (map.query a).stop ≤ info.aslrEnd.toNat := by
  by_contra hlt
  rcases UInt64.le_total info.aslrEnd a with hle | hle
  · exact hused a hle hfree
  · have hsame := map.query_eq a info.aslrEnd (UInt64.le_trans (map.start_le a) hle) (Nat.lt_of_not_le hlt)
    exact hused info.aslrEnd (UInt64.le_refl _) (hsame ▸ hfree)

variable {base regionSize : UInt64}

/-- The comparison of the code with the end of a region that does not wrap around. -/
lemma overlaps_iff (hsize : 0 < size) (hcur : cur.toNat + size.toNat < 2 ^ 64)
    (hregion : EndsInside ⟨base.toNat, regionSize.toNat⟩) :
    (regionSize ≠ 0 ∧ base ≤ cur + size - 1 ∧ cur ≤ base + regionSize - 1) ↔
      regionSize ≠ 0 ∧ base.toNat < cur.toNat + size.toNat ∧ cur.toNat < base.toNat + regionSize.toNat := by
  refine and_congr_right fun hne => ?_
  have hpos := toNat_pos hsize
  have hne : regionSize.toNat ≠ 0 := fun h => hne (UInt64.toNat_inj.mp h)
  have hstop : base.toNat + regionSize.toNat < 2 ^ 64 := hregion hne
  simp only [UInt64.le_iff_toNat_le, UInt64.toNat_sub, UInt64.toNat_add, UInt64.toNat_one]
  omega

/-- Space that the code sees apart from a region is outside of it. -/
lemma outside_of_not_overlaps
    (h : ¬(regionSize ≠ 0 ∧ base.toNat < cur.toNat + size.toNat ∧ cur.toNat < base.toNat + regionSize.toNat)) :
    ∀ x, (space size cur).Contains x → ¬(Region.mk base.toNat regionSize.toNat).Contains x := by
  intro x ⟨hge, hlt⟩ ⟨hge', hlt'⟩
  simp only [space, Region.stop] at hge hlt hge' hlt'
  refine h ⟨?_, by omega, by omega⟩
  rintro rfl
  rw [UInt64.toNat_zero] at hlt'
  omega

/-- All space from a cursor that overlaps a region to the end of the region has some of it. -/
lemma meets_of_overlaps (hsize : 0 < size)
    (h : regionSize ≠ 0 ∧ base.toNat < cur.toNat + size.toNat ∧ cur.toNat < base.toNat + regionSize.toNat)
    (hp : cur ≤ p) (hlt : p.toNat < base.toNat + regionSize.toNat) :
    ∃ x, (space size p).Contains x ∧ (Region.mk base.toNat regionSize.toNat).Contains x := by
  have hpos := toNat_pos hsize
  have hne : regionSize.toNat ≠ 0 := fun hzero => h.1 (UInt64.toNat_inj.mp hzero)
  rw [UInt64.le_iff_toNat_le] at hp
  refine ⟨max p.toNat base.toNat, ?_, ?_⟩ <;> simp only [Region.Contains, Region.stop, space] <;> omega

end Arithmetic

/-! ## The search -/

/-- What holds of the cursor: what is in front of it has no room. -/
structure Searched (info : AddressSpaceInfo) (map : MemoryMap) (size cur : UInt64) : Prop where
  base : info.aslrBase ≤ cur
  noWrap : cur.toNat + size.toNat < 2 ^ 64
  none : ∀ p, p < cur → ¬SuffixFits info map size p

/-- A turn that keeps the search right. -/
def Settles (info : AddressSpaceInfo) (map : MemoryMap) (size cur : UInt64)
    (turn : Turn UInt64 (Except MapError UInt64)) : Prop :=
  (∀ r, turn = .leave r → Located info map size r) ∧
    ∀ next, turn = .again next → Searched info map size next ∧ cur < next

section Search

variable {info : AddressSpaceInfo} {map : MemoryMap} {size cur next p : UInt64}

/-- There is no room behind the end of the ASLR region. -/
lemma not_fits_of_ge (hsize : 0 < size) (h : info.aslrEnd ≤ p) : ¬SuffixFits info map size p := by
  intro hfits
  have htop := hfits.1.top
  have hpos := toNat_pos hsize
  rw [UInt64.le_iff_toNat_le] at h
  simp only [space, Region.stop] at htop
  omega

/-- The search ends with an error, if there is no room from the cursor on. -/
lemma settles_outOfMemory (hcur : Searched info map size cur) (hnone : ∀ p, cur ≤ p → ¬SuffixFits info map size p) :
    Settles info map size cur (.leave (.error .kernelOutOfMemory)) := by
  refine ⟨?_, nofun⟩
  rintro r ⟨⟩
  refine ⟨rfl, fun p => ?_⟩
  rcases UInt64.lt_or_le p cur with hlt | hle
  · exact hcur.none p hlt
  · exact hnone p hle

/-- The cursor goes on, if there is no room in between. -/
lemma settles_goTo (hsize : 0 < size) (hcur : Searched info map size cur) (hnext : cur < next)
    (hskip : ∀ p, cur ≤ p → p < next → ¬SuffixFits info map size p) : Settles info map size cur (goTo size next) := by
  have hpos := toNat_pos hsize
  have hsizelt := size.toNat_lt
  have hnextlt := next.toNat_lt
  have hwrap : next + size ≤ next ↔ 2 ^ 64 ≤ next.toNat + size.toNat := by
    simp only [UInt64.le_iff_toNat_le, UInt64.toNat_add]
    omega
  rw [goTo]
  split
  · next hle =>
    rw [hwrap] at hle
    refine settles_outOfMemory hcur fun p hp hfits => ?_
    -- space behind the next cursor ends behind all addresses
    rcases UInt64.lt_or_le p next with hlt | hge
    · exact hskip p hp hlt hfits
    · have htop := hfits.1.top
      have hend := info.aslrEnd.toNat_lt
      rw [UInt64.le_iff_toNat_le] at hge
      simp only [space, Region.stop] at htop
      omega
  · next hlt =>
    rw [hwrap] at hlt
    refine ⟨by rintro _ ⟨⟩, ?_⟩
    rintro s ⟨⟩
    refine ⟨⟨UInt64.le_trans hcur.base (UInt64.le_of_lt hnext), by omega, fun p hp => ?_⟩, hnext⟩
    rcases UInt64.lt_or_le p cur with hpcur | hpcur
    · exact hcur.none p hpcur
    · exact hskip p hpcur hp

/-- A turn at a region in the way goes to the end of the region. -/
lemma settles_region {base regionSize : UInt64} (hsize : 0 < size) (hcur : Searched info map size cur)
    (hregion : EndsInside ⟨base.toNat, regionSize.toNat⟩)
    (hoverlaps : regionSize ≠ 0 ∧ base ≤ cur + size - 1 ∧ cur ≤ base + regionSize - 1)
    (houtside : ∀ p, Mappable info map size p →
      ∀ x, (space size p).Contains x → ¬(Region.mk base.toNat regionSize.toNat).Contains x) :
    Settles info map size cur
      (if cur = base + regionSize then .leave (.error .kernelOutOfMemory) else goTo size (base + regionSize)) := by
  have hmeets := (overlaps_iff hsize hcur.noWrap hregion).mp hoverlaps
  have hstop : base.toNat + regionSize.toNat < 2 ^ 64 := hregion fun h => hmeets.1 (UInt64.toNat_inj.mp h)
  have hend : (base + regionSize).toNat = base.toNat + regionSize.toNat := by
    rw [UInt64.toNat_add]
    exact Nat.mod_eq_of_lt hstop
  have hlt : cur < base + regionSize := by
    rw [UInt64.lt_iff_toNat_lt, hend]
    exact hmeets.2.2
  rw [if_neg (UInt64.ne_of_lt hlt)]
  refine settles_goTo hsize hcur hlt fun p hp hpend hfits => ?_
  rw [UInt64.lt_iff_toNat_lt, hend] at hpend
  obtain ⟨x, hspace, hin⟩ := meets_of_overlaps hsize hmeets hp hpend
  exact houtside p hfits.1 x hspace hin

/-- A turn at a block of memory takes its space, goes to its end, or ends the search. -/
lemma settles_block (hsize : 0 < size) (hcur : Searched info map size cur) (hused : UsedAbove info map)
    (hheap : ∀ x, (space size cur).Contains x → ¬info.heapRegion.Contains x)
    (halias : ∀ x, (space size cur).Contains x → ¬info.aliasRegion.Contains x) :
    Settles info map size cur
      (if (map.query cur).type = 0 ∧ size ≤ (map.query cur).addr - cur + (map.query cur).size then .leave (.ok cur)
      else if (map.query cur).addr + (map.query cur).size ≤ cur then .leave (.error .kernelOutOfMemory)
      else if info.aslrEnd ≤ (map.query cur).addr + (map.query cur).size then .leave (.error .kernelOutOfMemory)
      else goTo size ((map.query cur).addr + (map.query cur).size)) := by
  have hlt := map.lt_stop cur
  have hle := map.stop_le cur
  have hleft := toNat_left hlt
  have hend := toNat_addr_add_size (map.query cur)
  have hsame : ∀ p, cur ≤ p → p.toNat < (map.query cur).stop → map.query p = map.query cur :=
    fun p hp hpstop => map.query_eq cur p (UInt64.le_trans (map.start_le cur) hp) hpstop
  split
  · next hroom =>
    -- the space is in a free block
    obtain ⟨hfree, hroom⟩ := hroom
    have htop := stop_le_of_free hused hfree
    have haslr := info.aslrEnd.toNat_lt
    rw [UInt64.le_iff_toNat_le, hleft, Nat.mod_eq_of_lt (by omega)] at hroom
    have hstop : (space size cur).stop ≤ (map.query cur).stop := by
      simp only [space, Region.stop]
      omega
    refine ⟨?_, by rintro _ ⟨⟩⟩
    rintro r ⟨⟩
    refine ⟨by omega, hcur.base, by omega, ?_, hheap, halias⟩
    rintro a ⟨hge, hastop⟩
    rw [hsame a (UInt64.le_iff_toNat_le.mpr hge) (by omega)]
    exact hfree
  · next hnoroom =>
    have hskip : ∀ p, cur ≤ p → p.toNat < (map.query cur).stop → ¬SuffixFits info map size p := by
      rintro p hp hpstop ⟨hmappable, hsuffix⟩
      have hpos := toNat_pos hsize
      have hpfree := hmappable.free p ⟨Nat.le_refl _, by simp only [space, Region.stop]; omega⟩
      rw [hsame p hp hpstop] at hpfree hsuffix
      have htop := stop_le_of_free hused hpfree
      have haslr := info.aslrEnd.toNat_lt
      refine hnoroom ⟨hpfree, ?_⟩
      rw [UInt64.le_iff_toNat_le] at hp
      rw [UInt64.le_iff_toNat_le, hleft, Nat.mod_eq_of_lt (by omega)]
      simp only [space, Region.stop] at hsuffix
      omega
    split
    · next hlast =>
      -- the block is the last one
      rw [UInt64.le_iff_toNat_le, hend] at hlast
      refine settles_outOfMemory hcur fun p hp => ?_
      have hplt := p.toNat_lt
      exact hskip p hp (by omega)
    · next hmore =>
      rw [UInt64.le_iff_toNat_le, hend] at hmore
      have hstop : (map.query cur).stop % 2 ^ 64 = (map.query cur).stop := by omega
      rw [hstop] at hend
      have hnext : cur < (map.query cur).addr + (map.query cur).size := by
        rw [UInt64.lt_iff_toNat_lt, hend]
        exact hlt
      have hskip' : ∀ p, cur ≤ p → p < (map.query cur).addr + (map.query cur).size →
          ¬SuffixFits info map size p := by
        intro p hp hpnext
        rw [UInt64.lt_iff_toNat_lt, hend] at hpnext
        exact hskip p hp hpnext
      split
      · next habove =>
        refine settles_outOfMemory hcur fun p hp => ?_
        rcases UInt64.lt_or_le p ((map.query cur).addr + (map.query cur).size) with hpnext | hpnext
        · exact hskip' p hp hpnext
        · exact not_fits_of_ge hsize (UInt64.le_trans habove hpnext)
      · exact settles_goTo hsize hcur hnext hskip'

/-- Every turn keeps the search right. -/
lemma settles_locateTurn (hsize : 0 < size) (hcur : Searched info map size cur) (hused : UsedAbove info map)
    (hinfo : info.heapEnd = info.heapBase + info.heapSize ∧ info.aliasEnd = info.aliasBase + info.aliasSize)
    (hheap : EndsInside info.heapRegion) (halias : EndsInside info.aliasRegion) :
    Settles info map size cur (locateTurn info map.query size cur) := by
  simp only [locateTurn, hinfo.1, hinfo.2]
  split
  · next hoverlaps =>
    exact settles_region hsize hcur hheap hoverlaps fun p hp => hp.outsideHeap
  · next hnoheap =>
    split
    · next hoverlaps =>
      exact settles_region hsize hcur halias hoverlaps fun p hp => hp.outsideAlias
    · next hnoalias =>
      refine settles_block hsize hcur hused ?_ ?_
      · exact outside_of_not_overlaps fun h => hnoheap ((overlaps_iff hsize hcur.noWrap hheap).mpr h)
      · exact outside_of_not_overlaps fun h => hnoalias ((overlaps_iff hsize hcur.noWrap halias).mpr h)

variable {svcGetInfo : InfoType → Except MapError UInt64}

/-- The ends of the regions are computed from their bases and sizes. -/
lemma ends_of_getProcessAddressSpaceInfo {isFirmware200 : Bool}
    (h : getProcessAddressSpaceInfo isFirmware200 svcGetInfo = .ok info) :
    info.heapEnd = info.heapBase + info.heapSize ∧ info.aliasEnd = info.aliasBase + info.aliasSize := by
  obtain ⟨heapBase, -, h⟩ := bind_eq_ok h
  obtain ⟨heapSize, -, h⟩ := bind_eq_ok h
  obtain ⟨aliasBase, -, h⟩ := bind_eq_ok h
  obtain ⟨aliasSize, -, h⟩ := bind_eq_ok h
  obtain ⟨⟨aslrBase, aslrSize⟩, -, h⟩ := bind_eq_ok h
  cases h
  exact ⟨rfl, rfl⟩

/-- For all regions that end inside of the address space and every map of it the search ends, with space that
can be mapped, or with an error if no block has any. -/
theorem locateMappableSpaceModern_located {isFirmware200 : Bool}
    {info : AddressSpaceInfo} (map : MemoryMap) {size : UInt64}
    (hinfo : getProcessAddressSpaceInfo isFirmware200 svcGetInfo = .ok info) (hheap : EndsInside info.heapRegion)
    (halias : EndsInside info.aliasRegion) (hused : UsedAbove info map) (hsize : 0 < size) :
    ∃ r, (∀ fuel, 2 ^ 64 ≤ fuel → locateMappableSpaceModern isFirmware200 svcGetInfo map.query size fuel = some r) ∧
      Located info map size r := by
  have hpos := toNat_pos hsize
  have hsizelt := size.toNat_lt
  have hbase := info.aslrBase.toNat_lt
  have hwrap : info.aslrBase + size ≤ info.aslrBase ↔ 2 ^ 64 ≤ info.aslrBase.toNat + size.toNat := by
    simp only [UInt64.le_iff_toNat_le, UInt64.toNat_add]
    omega
  simp only [locateMappableSpaceModern, hinfo]
  split
  · next hle =>
    rw [hwrap] at hle
    refine ⟨_, fun _ _ => rfl, rfl, fun p hfits => ?_⟩
    have hp := UInt64.le_iff_toNat_le.mp hfits.1.base
    have htop := hfits.1.top
    have hend := info.aslrEnd.toNat_lt
    simp only [space, Region.stop] at htop
    omega
  · next hlt =>
    rw [hwrap] at hlt
    have hstart : Searched info map size info.aslrBase := by
      refine ⟨UInt64.le_refl _, by omega, fun p hp hfits => ?_⟩
      exact UInt64.not_lt.mpr hfits.1.base hp
    have hsettles : ∀ cur, Searched info map size cur →
        Settles info map size cur (locateTurn info map.query size cur) :=
      fun cur hcur => settles_locateTurn hsize hcur hused (ends_of_getProcessAddressSpaceInfo hinfo) hheap halias
    obtain ⟨r, hloop, hlocated⟩ := loop_ends (fun cur : UInt64 => 2 ^ 64 - 1 - cur.toNat)
      (fun cur r hcur hleave => (hsettles cur hcur).1 r hleave)
      (fun cur next hcur hagain => by
        obtain ⟨hnext, hlt⟩ := (hsettles cur hcur).2 next hagain
        have hnextlt := next.toNat_lt
        rw [UInt64.lt_iff_toNat_lt] at hlt
        exact ⟨hnext, by omega⟩) hstart
    exact ⟨r, fun fuel hfuel => hloop fuel (by omega), hlocated⟩

end Search

/-! ## Examples -/

section Example

/-- A map with free memory up to an address, and memory in use from there on. -/
def splitMap (border : UInt64) (hborder : 0 < border) : MemoryMap where
  query a := if a < border then ⟨0, border, 0⟩ else ⟨border, 0 - border, 1⟩
  start_le a := by
    split
    · exact UInt64.zero_le
    · next h => exact UInt64.not_lt.mp h
  lt_stop a := by
    have hpos := UInt64.lt_iff_toNat_lt.mp hborder
    have ha := a.toNat_lt
    have hlt := border.toNat_lt
    split
    · next h =>
      rw [UInt64.lt_iff_toNat_lt] at h
      simp only [MemoryInfo.stop, UInt64.toNat_sub, UInt64.toNat_one, UInt64.toNat_zero] at hpos ⊢
      omega
    · simp only [MemoryInfo.stop, UInt64.toNat_sub, UInt64.toNat_one, UInt64.toNat_zero] at hpos ⊢
      omega
  stop_le a := by
    have hpos := UInt64.lt_iff_toNat_lt.mp hborder
    have hlt := border.toNat_lt
    split <;> simp only [MemoryInfo.stop, UInt64.toNat_sub, UInt64.toNat_one, UInt64.toNat_zero] at hpos ⊢ <;> omega
  query_eq a b := by
    have hpos := UInt64.lt_iff_toNat_lt.mp hborder
    have hlt := border.toNat_lt
    split
    · intro _ h
      rw [if_pos]
      rw [UInt64.lt_iff_toNat_lt]
      simp only [MemoryInfo.stop, UInt64.toNat_sub, UInt64.toNat_one, UInt64.toNat_zero] at hpos h
      omega
    · intro h _
      exact if_neg (UInt64.not_lt.mpr h)

/-- A kernel that answers with these regions. -/
def exampleGetInfo (heapBase heapSize : UInt64) : InfoType → Except MapError UInt64
  | .heapRegionAddress => .ok heapBase
  | .heapRegionSize => .ok heapSize
  | .aliasRegionAddress => .ok 0
  | .aliasRegionSize => .ok 0
  | .aslrRegionAddress => .ok 0x10000
  | .aslrRegionSize => .ok 0x10000

/-- What `GetProcessAddressSpaceInfo` makes of its answers. -/
def exampleInfo (heapBase heapSize : UInt64) : AddressSpaceInfo where
  heapBase := heapBase
  heapSize := heapSize
  heapEnd := heapBase + heapSize
  aliasBase := 0
  aliasSize := 0
  aliasEnd := 0
  aslrBase := 0x10000
  aslrSize := 0x10000
  aslrEnd := 0x20000

/-- The memory is free up to the end of the ASLR region. -/
def exampleMap : MemoryMap := splitMap 0x20000 (by decide)

lemma usedAbove_example (heapBase heapSize : UInt64) : UsedAbove (exampleInfo heapBase heapSize) exampleMap := by
  intro a ha hfree
  have hquery : exampleMap.query a = ⟨0x20000, 0 - 0x20000, 1⟩ := if_neg (UInt64.not_lt.mpr ha)
  rw [hquery] at hfree
  cases hfree

/-- A heap region that is in the way of the first space. -/
theorem locateMappableSpaceModern_located_heap :
    ∃ r, (∀ fuel, 2 ^ 64 ≤ fuel →
        locateMappableSpaceModern true (exampleGetInfo 0x14000 0x4000) exampleMap.query 0x8000 fuel = some r) ∧
      Located (exampleInfo 0x14000 0x4000) exampleMap 0x8000 r :=
  locateMappableSpaceModern_located exampleMap rfl (fun _ => by decide) (fun h => absurd rfl h)
    (usedAbove_example 0x14000 0x4000) (by decide)

/-- A heap region that ends with the 64-bit space: the cursor goes to zero, which is below of the ASLR
region. -/
theorem locateMappableSpaceModern_below_base :
    getProcessAddressSpaceInfo true (exampleGetInfo 0x14000 (0 - 0x14000)) = .ok (exampleInfo 0x14000 (0 - 0x14000)) ∧
      UsedAbove (exampleInfo 0x14000 (0 - 0x14000)) exampleMap ∧
      locateMappableSpaceModern true (exampleGetInfo 0x14000 (0 - 0x14000)) exampleMap.query 0x8000 2 = some (.ok 0) ∧
      ¬Mappable (exampleInfo 0x14000 (0 - 0x14000)) exampleMap 0x8000 0 :=
  ⟨rfl, usedAbove_example _ _, by decide, fun h => absurd h.base (by decide)⟩

end Example

end RajNX.Map
