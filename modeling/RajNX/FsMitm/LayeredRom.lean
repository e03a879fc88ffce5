import RajNX.Lib.Wrapping
import RajNX.FsMitm.RomFsBuild

/-!
# Layered RomFS

`LayeredRomFS::Read` of `fsmitm_layeredrom.cpp`: a read of the image that `Build` laid out is served from
the sources whose ranges it meets, with zeros for the gaps between them.

`imageByte` is the image as a function. A read of an ordered list of sources gives its bytes, from the
first one on; the zeros of the last gap may go beyond the bytes that were asked for.
-/

namespace RajNX.FsMitm.RomFs

open Splice Wrapping

/-- Where the bytes of an image come from: the loose files and the metadata on the SD card, and the two
storages, which may be absent. -/
structure RomFSStores where
  looseFiles : RomPath → Option (List UInt8)
  metadataFile : Option (List UInt8)
  storageRomfs : Option (List UInt8)
  fileRomfs : Option (List UInt8)

/-- Read all of the bytes that are asked for; a short read is fatal. -/
def readExactly (size offset : Nat) (bytes : List UInt8) : Option (List UInt8) :=
  if offset + size ≤ bytes.length then some (slice bytes offset size) else none

/-- The `switch` of `LayeredRomFS::Read`, for a position relative to the start of the source. -/
def readSource (stores : RomFSStores) (source : RomFSSource) (size offset : Nat) : Option (List UInt8) :=
  match source with
  | .metaData => stores.metadataFile.bind (readExactly size offset)
  | .loose path => (stores.looseFiles path).bind (readExactly size offset)
  | .memory data => readExactly size offset data
  | .base start => stores.storageRomfs.bind (readExactly size ((start + offset) % 2 ^ 64))
  | .file start => stores.fileRomfs.bind (readExactly size ((start + offset) % 2 ^ 64))

section Read

variable (stores : RomFSStores) (infos : List RomFSSourceInfo)

/-- The binary search of `LayeredRomFS::Read` over indices of 32 bits. -/
def searchLoop (offset : Nat) : Nat → Nat → Nat → Option Nat
  | 0, _, _ => none
  | fuel + 1, low, high =>
    if low ≤ high then do
      let mid := (low + high) % 2 ^ 32 / 2
      let info ← infos[mid]?
      if info.virtualOffset > offset then searchLoop offset fuel low ((mid + 2 ^ 32 - 1) % 2 ^ 32)
      else if mid = infos.length - 1 then some mid
      else do
        let next ← infos[(mid + 1) % 2 ^ 32]?
        if next.virtualOffset > offset then some mid
        else searchLoop offset fuel ((mid + 1) % 2 ^ 32) high
    else some 0

/-- The loop of `LayeredRomFS::Read`. What was written stands at the start of the buffer. -/
def readLoop (size : Nat) : Nat → Nat → Nat → List UInt8 → Option (List UInt8)
  | 0, _, _, _ => none
  | fuel + 1, ind, offset, written =>
    if written.length < size then do
      let cur ← infos[ind]?
      if (cur.virtualOffset + cur.size) % 2 ^ 64 > offset then do
        let position := sub64 offset cur.virtualOffset
        let curReadSize := min (size - written.length) (sub64 cur.size position)
        let bytes ← readSource stores cur.source curReadSize position
        readLoop size fuel ind ((offset + curReadSize) % 2 ^ 64) (written ++ bytes)
      else do
        let next ← infos[(ind + 1) % 2 ^ 32]?
        readLoop size fuel ((ind + 1) % 2 ^ 32) next.virtualOffset
          (written ++ List.replicate (sub64 next.virtualOffset offset) 0)
    else some written

/-- The results of `LayeredRomFS::Read`. -/
inductive RomReadResult
  | success
  | invalidOffset
deriving Repr, DecidableEq

/-- The size of the image. -/
def virtSize : Option Nat := infos.getLast?.map fun last => (last.virtualOffset + last.size) % 2 ^ 64

/-- `LayeredRomFS::Read`, with what it writes from the start of the buffer on. In each turn of the loop
the position reaches the end of a source, or the index goes to the next one. -/
def layeredRead (size offset : Nat) : Option (RomReadResult × List UInt8) :=
  if size = 0 then some (.success, [])
  else do
    let virtSize ← virtSize infos
    if virtSize ≤ offset then some (.invalidOffset, [])
    else do
      let ind ← searchLoop infos offset (infos.length + 1) 0 ((infos.length - 1) % 2 ^ 32)
      let written ← readLoop stores infos (min size (virtSize - offset)) (2 * infos.length + 1) ind
        offset []
      some (.success, written)

end Read

/-- Whether a source serves a byte of the image. -/
def RomFSSourceInfo.Covers (info : RomFSSourceInfo) (x : Nat) : Prop :=
  info.virtualOffset ≤ x ∧ x < info.virtualOffset + info.size

instance (info : RomFSSourceInfo) (x : Nat) : Decidable (info.Covers x) :=
  inferInstanceAs (Decidable (_ ∧ _))

/-- All bytes of a source. -/
def RomFSSourceInfo.contents (stores : RomFSStores) (info : RomFSSourceInfo) : Option (List UInt8) :=
  readSource stores info.source info.size 0

/-- The byte of an image at an offset. -/
def imageByte (stores : RomFSStores) (infos : List RomFSSourceInfo) (x : Nat) : UInt8 :=
  match infos.find? (·.Covers x) with
  | some info => ((info.contents stores).getD []).getD (x - info.virtualOffset) 0
  | none => 0

/-- The sources in the order of their ranges, of which none reaches into the next one. They start with the
image, the last one is not empty, and the image fits in 64 bits. -/
structure OrderedInfos (infos : List RomFSSourceInfo) : Prop where
  sorted : infos.Pairwise fun a b => a.virtualOffset + a.size ≤ b.virtualOffset
  head : ∃ a ∈ infos[0]?, a.virtualOffset = 0
  last : ∃ a ∈ infos.getLast?, 0 < a.size ∧ a.virtualOffset + a.size < 2 ^ 64
  count : infos.length < 2 ^ 31

/-- A source starts at a position of the image, or has the byte in front of it. -/
def EndsInPlace (infos : List RomFSSourceInfo) (e : Nat) : Prop :=
  ∃ info ∈ infos, info.virtualOffset = e ∨ info.virtualOffset < e ∧ e ≤ info.virtualOffset + info.size

instance (infos : List RomFSSourceInfo) (e : Nat) : Decidable (EndsInPlace infos e) :=
  inferInstanceAs (Decidable (∃ info ∈ infos, _))

section Bytes

variable {stores : RomFSStores} {infos : List RomFSSourceInfo}

/-- A part of what can be read at once can be read. -/
lemma readExactly_slice {bytes all : List UInt8} {total start size offset : Nat}
    (h : readExactly total start bytes = some all) (hle : offset + size ≤ total) :
    readExactly size (start + offset) bytes = some (slice all offset size) := by
  rw [readExactly] at h ⊢
  split at h
  next hlen =>
    cases h
    rw [if_pos (by omega)]
    apply congrArg some
    apply List.ext_getElem?
    intro k
    rw [getElem?_slice, getElem?_slice, getElem?_slice]
    by_cases hk : k < size
    · rw [if_pos hk, if_pos hk, if_pos (by omega), Nat.add_assoc]
    · rw [if_neg hk, if_neg hk]
  next => cases h

/-- The sources of an info that lie in 64 bits. -/
def RomFSSourceInfo.InBounds (info : RomFSSourceInfo) : Prop :=
  match info.source with
  | .base start => start + info.size < 2 ^ 64
  | .file start => start + info.size < 2 ^ 64
  | _ => True

variable {info : RomFSSourceInfo} {all : List UInt8}

/-- The bytes that a source reads, and where in them it starts. -/
lemma exists_bytes (h : info.contents stores = some all) (hbounds : info.InBounds) :
    ∃ start bytes, readExactly info.size start bytes = some all ∧
      ∀ size offset, offset + size ≤ info.size →
        readSource stores info.source size offset = readExactly size (start + offset) bytes := by
  rw [RomFSSourceInfo.contents] at h
  rw [RomFSSourceInfo.InBounds] at hbounds
  cases hsource : info.source with
  | metaData | loose path =>
    rw [hsource, readSource, Option.bind_eq_some_iff] at h
    obtain ⟨bytes, hbytes, hall⟩ := h
    refine ⟨0, bytes, hall, fun size offset _ => ?_⟩
    rw [readSource, hbytes, Option.bind_some, Nat.zero_add]
  | memory data =>
    rw [hsource, readSource] at h
    refine ⟨0, data, h, fun size offset _ => ?_⟩
    rw [readSource, Nat.zero_add]
  | base start | file start =>
    rw [hsource, readSource, Option.bind_eq_some_iff] at h
    rw [hsource] at hbounds
    dsimp only at hbounds
    obtain ⟨bytes, hbytes, hall⟩ := h
    rw [Nat.add_zero, Nat.mod_eq_of_lt (by omega)] at hall
    refine ⟨start, bytes, hall, fun size offset hle => ?_⟩
    rw [readSource, hbytes, Option.bind_some, Nat.mod_eq_of_lt (by omega)]

variable {size offset : Nat}

/-- A part of a source is that part of its contents. -/
lemma readSource_slice
    (h : info.contents stores = some all) (hbounds : info.InBounds) (hle : offset + size ≤ info.size) :
    readSource stores info.source size offset = some (slice all offset size) := by
  obtain ⟨start, bytes, hall, hread⟩ := exists_bytes h hbounds
  rw [hread size offset hle]
  exact readExactly_slice hall hle

lemma length_contents (h : info.contents stores = some all) (hbounds : info.InBounds) : all.length = info.size := by
  obtain ⟨start, bytes, hall, -⟩ := exists_bytes h hbounds
  rw [readExactly] at hall
  split at hall
  next hlen =>
    cases hall
    exact length_slice hlen
  next => cases hall

variable {a b : RomFSSourceInfo}

/-- A byte of the image in no range. -/
lemma imageByte_of_gap {x : Nat} (hx : ∀ info ∈ infos, ¬info.Covers x) : imageByte stores infos x = 0 := by
  have hfind : infos.find? (·.Covers x) = none := by
    rw [List.find?_eq_none]
    intro info hinfo
    simpa using hx info hinfo
  rw [imageByte, hfind]

/-- The end of the last range. -/
def imageEnd (infos : List RomFSSourceInfo) : Nat :=
  (infos.getLast?.map fun last => last.virtualOffset + last.size).getD 0

/-- The last source that starts at or before an offset. -/
def IsLastBefore (infos : List RomFSSourceInfo) (offset t : Nat) : Prop :=
  ∀ i info, infos[i]? = some info → (info.virtualOffset ≤ offset ↔ i ≤ t)

/-- The binary search finds it, from any bounds around it. -/
lemma searchLoop_eq {offset t fuel low high : Nat} (hcount : infos.length < 2 ^ 31)
    (ht : IsLastBefore infos offset t) (hlow : low ≤ t) (hhigh : t ≤ high) (hlen : high < infos.length)
    (hfuel : high < low + fuel) : searchLoop infos offset fuel low high = some t := by
  induction fuel generalizing low high with
  | zero => omega
  | succ fuel ih =>
    have hmid : (low + high) % 2 ^ 32 / 2 = (low + high) / 2 := by omega
    obtain ⟨info, hinfo⟩ : ∃ info, infos[(low + high) / 2]? = some info :=
      ⟨_, List.getElem?_eq_getElem (show (low + high) / 2 < infos.length by omega)⟩
    rw [searchLoop, if_pos (by omega), hmid]
    simp only [hinfo, Option.bind_eq_bind, Option.bind_some]
    by_cases hoffset : info.virtualOffset ≤ offset
    · rw [if_neg (by omega)]
      have hle := (ht _ _ hinfo).mp hoffset
      by_cases hend : (low + high) / 2 = infos.length - 1
      · rw [if_pos hend]
        apply congrArg some
        omega
      · obtain ⟨next, hnext⟩ : ∃ next, infos[(low + high) / 2 + 1]? = some next :=
          ⟨_, List.getElem?_eq_getElem (show (low + high) / 2 + 1 < infos.length by omega)⟩
        have hsucc : ((low + high) / 2 + 1) % 2 ^ 32 = (low + high) / 2 + 1 := by omega
        rw [if_neg hend, hsucc, hnext]
        simp only [Option.bind_some]
        have hiff := ht _ _ hnext
        by_cases hfound : next.virtualOffset > offset
        · rw [if_pos hfound]
          apply congrArg some
          have : ¬(low + high) / 2 + 1 ≤ t := fun hle => absurd (hiff.mpr hle) (by omega)
          omega
        · rw [if_neg hfound]
          exact ih (hiff.mp (by omega)) hhigh hlen (by omega)
    · rw [if_pos (by omega)]
      have hgt : ¬(low + high) / 2 ≤ t := fun hle => hoffset ((ht _ _ hinfo).mpr hle)
      have hpred : ((low + high) / 2 + 2 ^ 32 - 1) % 2 ^ 32 = (low + high) / 2 - 1 := by omega
      rw [hpred]
      exact ih hlow (by omega) (by omega) (by omega)

/-- Where the loop of a read that started at `start` is: at an offset from which the current source goes
on or to the start of the next one, with the image written up to there. -/
structure ReadState (stores : RomFSStores) (infos : List RomFSSourceInfo) (start : Nat)
    (ind offset : Nat) (written : List UInt8) (cur : RomFSSourceInfo) : Prop where
  cur_eq : infos[ind]? = some cur
  cur_le : cur.virtualOffset ≤ offset
  le_next : ∀ next, infos[ind + 1]? = some next → offset ≤ next.virtualOffset
  offset_eq : offset = start + written.length
  bytes : ∀ k, k < written.length → written[k]? = some (imageByte stores infos (start + k))

/-- Every source has its bytes. -/
def Served (stores : RomFSStores) (infos : List RomFSSourceInfo) : Prop :=
  ∀ info ∈ infos, info.InBounds ∧ ∃ all, info.contents stores = some all

/-- More bytes of the image. -/
lemma getElem?_append_image {start : Nat} {written more : List UInt8}
    (hold : ∀ k, k < written.length → written[k]? = some (imageByte stores infos (start + k)))
    (hnew : ∀ k, k < more.length → more[k]? = some (imageByte stores infos (start + written.length + k))) (k : Nat)
    (hk : k < (written ++ more).length) : (written ++ more)[k]? = some (imageByte stores infos (start + k)) := by
  rcases Nat.lt_or_ge k written.length with hlt | hge
  · rw [List.getElem?_append_left hlt]
    exact hold k hlt
  · rw [List.length_append] at hk
    rw [List.getElem?_append_right hge, hnew _ (by omega)]
    congr 2
    omega

section

variable (h : OrderedInfos infos)

include h

/-- Two sources that serve the same byte are the same. -/
lemma OrderedInfos.covers_unique {x : Nat}
    (ha : a ∈ infos) (hb : b ∈ infos) (hax : a.Covers x) (hbx : b.Covers x) : a = b := by
  have hpair : infos.Pairwise fun a b => a.Covers x ∧ b.Covers x → a = b := by
    refine h.sorted.imp fun hle ⟨ha, hb⟩ => ?_
    exact absurd (ha.2.trans_le (hle.trans hb.1)) (lt_irrefl x)
  have : Std.Symm fun a b : RomFSSourceInfo => a.Covers x ∧ b.Covers x → a = b :=
    ⟨fun _ _ hab hba => (hab hba.symm).symm⟩
  exact hpair.forall_of_forall (fun _ _ _ => rfl) ha hb ⟨hax, hbx⟩

/-- A byte of the image in the range of a source. -/
lemma imageByte_of_covers {x : Nat}
    (hinfo : info ∈ infos) (hx : info.Covers x) (hall : info.contents stores = some all) :
    imageByte stores infos x = all.getD (x - info.virtualOffset) 0 := by
  rw [imageByte]
  cases hfind : infos.find? (·.Covers x) with
  | none => simpa [hx] using List.find?_eq_none.mp hfind info hinfo
  | some found =>
    have hcovers : found.Covers x := by simpa using List.find?_some hfind
    rw [h.covers_unique (List.mem_of_find?_eq_some hfind) hinfo hcovers hx]
    dsimp only
    rw [hall, Option.getD_some]

lemma OrderedInfos.sorted_at {i j : Nat}
    (hij : i < j) (ha : infos[i]? = some a) (hb : infos[j]? = some b) : a.virtualOffset + a.size ≤ b.virtualOffset := by
  obtain ⟨hi, rfl⟩ := List.getElem?_eq_some_iff.mp ha
  obtain ⟨hj, rfl⟩ := List.getElem?_eq_some_iff.mp hb
  exact List.pairwise_iff_getElem.mp h.sorted i j hi hj hij

lemma OrderedInfos.offset_mono {i j : Nat}
    (hij : i ≤ j) (ha : infos[i]? = some a) (hb : infos[j]? = some b) : a.virtualOffset ≤ b.virtualOffset := by
  rcases hij.eq_or_lt with rfl | hlt
  · rw [ha, Option.some_inj] at hb
    rw [hb]
  · have := h.sorted_at hlt ha hb
    omega

/-- No range reaches beyond the image. -/
lemma OrderedInfos.le_imageEnd {a : RomFSSourceInfo} (ha : a ∈ infos) :
    a.virtualOffset + a.size ≤ imageEnd infos := by
  obtain ⟨i, hi⟩ := List.mem_iff_getElem?.mp ha
  obtain ⟨last, hlast, -⟩ := h.last
  have hlen : i < infos.length := (List.getElem?_eq_some_iff.mp hi).1
  rw [Option.mem_def] at hlast
  rw [imageEnd, hlast, Option.map_some, Option.getD_some]
  rw [List.getLast?_eq_getElem?] at hlast
  rcases Nat.lt_or_ge i (infos.length - 1) with hlt | hge
  · have := h.sorted_at hlt hi hlast
    omega
  · obtain rfl : i = infos.length - 1 := by omega
    rw [hi, Option.some_inj] at hlast
    rw [hlast]

lemma OrderedInfos.imageEnd_lt : imageEnd infos < 2 ^ 64 := by
  obtain ⟨last, hlast, -, hend⟩ := h.last
  rw [Option.mem_def] at hlast
  rw [imageEnd, hlast]
  exact hend

lemma OrderedInfos.virtSize_eq : virtSize infos = some (imageEnd infos) := by
  obtain ⟨last, hlast, -, hend⟩ := h.last
  rw [Option.mem_def] at hlast
  rw [virtSize, imageEnd, hlast, Option.map_some, Option.map_some, Nat.mod_eq_of_lt hend, Option.getD_some]

lemma OrderedInfos.exists_isLastBefore (offset : Nat) :
    ∃ t, t < infos.length ∧ IsLastBefore infos offset t := by
  classical
  let p : Nat → Prop := fun i => ∃ info, infos[i]? = some info ∧ info.virtualOffset ≤ offset
  obtain ⟨first, hfirst, hzero⟩ := h.head
  have hp : p 0 := ⟨first, hfirst, by omega⟩
  have hlen : 0 < infos.length := (List.getElem?_eq_some_iff.mp hfirst).1
  have hle : Nat.findGreatest p (infos.length - 1) ≤ infos.length - 1 := Nat.findGreatest_le _
  refine ⟨Nat.findGreatest p (infos.length - 1), by omega, fun i info hi => ?_⟩
  have hilen : i < infos.length := (List.getElem?_eq_some_iff.mp hi).1
  constructor
  · intro hoffset
    exact Nat.le_findGreatest (by omega) ⟨info, hi, hoffset⟩
  · intro hit
    obtain ⟨info', hinfo', hoffset⟩ : p _ := Nat.findGreatest_spec (Nat.zero_le _) hp
    exact (h.offset_mono hit hi hinfo').trans hoffset

/-- A turn of the loop inside of a source. -/
lemma ReadState.source {start ind offset n : Nat} {written all : List UInt8}
    {cur : RomFSSourceInfo} (hstate : ReadState stores infos start ind offset written cur)
    (hall : cur.contents stores = some all) (hbounds : cur.InBounds) (hn : offset + n ≤ cur.virtualOffset + cur.size) :
    ReadState stores infos start ind (offset + n)
      (written ++ slice all (offset - cur.virtualOffset) n) cur := by
  have hle := hstate.cur_le
  have hlength : (slice all (offset - cur.virtualOffset) n).length = n :=
    length_slice (by rw [length_contents hall hbounds]; omega)
  refine ⟨hstate.cur_eq, by omega, ?_, ?_, ?_⟩
  · intro next hnext
    exact hn.trans (h.sorted_at (Nat.lt_succ_self ind) hstate.cur_eq hnext)
  · rw [List.length_append, hlength, hstate.offset_eq, Nat.add_assoc]
  · refine getElem?_append_image hstate.bytes fun k hk => ?_
    rw [hlength] at hk
    have hcovers : cur.Covers (start + written.length + k) := by
      have := hstate.offset_eq
      constructor <;> omega
    rw [imageByte_of_covers h (List.mem_of_getElem? hstate.cur_eq) hcovers hall, getElem?_slice,
      if_pos hk, List.getD_eq_getElem?_getD, ← hstate.offset_eq]
    have hidx : offset - cur.virtualOffset + k < all.length := by
      rw [length_contents hall hbounds]
      omega
    rw [show offset + k - cur.virtualOffset = offset - cur.virtualOffset + k by omega,
      List.getElem?_eq_getElem hidx, Option.getD_some]

end

variable {written : List UInt8}

/-- A turn of the loop over a gap. -/
lemma ReadState.gap (h : OrderedInfos infos) {start ind offset : Nat}
    {cur next : RomFSSourceInfo} (hstate : ReadState stores infos start ind offset written cur)
    (hnext : infos[ind + 1]? = some next) (hend : cur.virtualOffset + cur.size ≤ offset) :
    ReadState stores infos start (ind + 1) next.virtualOffset
      (written ++ List.replicate (next.virtualOffset - offset) 0) next := by
  have hle := hstate.le_next next hnext
  have hoffset := hstate.offset_eq
  refine ⟨hnext, le_rfl, ?_, ?_, ?_⟩
  · intro next' hnext'
    have := h.sorted_at (Nat.lt_succ_self (ind + 1)) hnext hnext'
    omega
  · rw [List.length_append, List.length_replicate]
    omega
  · refine getElem?_append_image hstate.bytes fun k hk => ?_
    rw [List.length_replicate] at hk
    rw [List.getElem?_replicate, if_pos hk, imageByte_of_gap]
    -- A source that covers the byte is neither at most the current one nor from the next one on.
    intro info hinfo hcovers
    obtain ⟨i, hi⟩ := List.mem_iff_getElem?.mp hinfo
    have hupper := hcovers.2
    have hlower := hcovers.1
    rcases Nat.lt_trichotomy i ind with hlt | rfl | hgt
    · have := h.sorted_at hlt hi hstate.cur_eq
      have := hstate.cur_le
      omega
    · rw [hstate.cur_eq, Option.some_inj] at hi
      rw [← hi] at hupper
      omega
    · have := h.offset_mono (Nat.succ_le_of_lt hgt) hnext hi
      omega

/-- The gap ends in front of every such position behind it. -/
lemma ReadState.next_le (h : OrderedInfos infos) {start ind offset e : Nat}
    {cur next : RomFSSourceInfo} (hstate : ReadState stores infos start ind offset written cur)
    (hnext : infos[ind + 1]? = some next) (hend : cur.virtualOffset + cur.size ≤ offset)
    (he : EndsInPlace infos e) (hlt : offset < e) : next.virtualOffset ≤ e := by
  obtain ⟨info, hinfo, hplace⟩ := he
  obtain ⟨i, hi⟩ := List.mem_iff_getElem?.mp hinfo
  have hinfoLe : info.virtualOffset ≤ e := by omega
  have hinfoEnd : offset < info.virtualOffset + info.size ∨ offset < info.virtualOffset := by omega
  -- The source is neither at most the current one, whose end is passed, nor in front of the next one.
  rcases Nat.lt_trichotomy i ind with hbefore | rfl | hbehind
  · have hsorted := h.sorted_at hbefore hi hstate.cur_eq
    have hcur := hstate.cur_le
    omega
  · rw [hstate.cur_eq, Option.some_inj] at hi
    rw [← hi] at hinfoEnd
    omega
  · exact (h.offset_mono (Nat.succ_le_of_lt hbehind) hnext hi).trans hinfoLe

/-- The loop ends with at least the bytes that are asked for, and with no more of them if and only if they end in
place. -/
lemma readLoop_spec (h : OrderedInfos infos) (hserved : Served stores infos)
    {start size fuel ind offset : Nat} {cur : RomFSSourceInfo}
    (hstate : ReadState stores infos start ind offset written cur)
    (hpos : 0 < size) (hsize : start + size ≤ imageEnd infos)
    (hplace : written ≠ [] → EndsInPlace infos offset)
    (hfits : EndsInPlace infos (start + size) → written.length ≤ size)
    (hfuel : 2 * (infos.length - ind) +
      (if written.length < size ∧ offset < cur.virtualOffset + cur.size then 1 else 0) ≤ fuel) :
    ∃ out, readLoop stores infos size fuel ind offset written = some out ∧ size ≤ out.length ∧
      (out.length = size ↔ EndsInPlace infos (start + size)) ∧
      ∀ k, k < out.length → out[k]? = some (imageByte stores infos (start + k)) := by
  -- each turn reads from a source or fills a gap and goes on to the next one: two turns at most for each source
  induction fuel generalizing ind offset written cur with
  | zero =>
    have := (List.getElem?_eq_some_iff.mp hstate.cur_eq).1
    omega
  | succ fuel ih =>
    have hind : ind < infos.length := (List.getElem?_eq_some_iff.mp hstate.cur_eq).1
    have hend := h.imageEnd_lt
    have hmem : cur ∈ infos := List.mem_of_getElem? hstate.cur_eq
    have hcurEnd := h.le_imageEnd hmem
    have hle := hstate.cur_le
    have hoffset := hstate.offset_eq
    have hcount := h.count
    rw [readLoop]
    by_cases hlt : written.length < size
    · rw [if_pos hlt, hstate.cur_eq]
      simp only [Option.bind_eq_bind, Option.bind_some]
      rw [Nat.mod_eq_of_lt (by omega)]
      by_cases hin : offset < cur.virtualOffset + cur.size
      · -- The rest of the source, or as much of it as is asked for.
        obtain ⟨hbounds, all, hall⟩ := hserved cur hmem
        rw [if_pos ⟨hlt, hin⟩] at hfuel
        rw [if_pos hin, sub64_of_le hle (by omega), sub64_of_le (by omega) (by omega)]
        set n := min (size - written.length) (cur.size - (offset - cur.virtualOffset)) with hn
        rw [readSource_slice hall hbounds (by omega), Option.bind_some, Nat.mod_eq_of_lt (by omega)]
        have hnext := hstate.source h hall hbounds (show offset + n ≤ _ by omega)
        have hlength := hnext.offset_eq
        refine ih hnext (fun _ => ⟨cur, hmem, .inr ⟨by omega, by omega⟩⟩) (fun _ => by omega) ?_
        rw [if_neg (by omega)]
        omega
      · -- The gap in front of the next source: the current one is not the last.
        obtain ⟨next, hnext⟩ : ∃ next, infos[ind + 1]? = some next := by
          refine ⟨_, List.getElem?_eq_getElem (show ind + 1 < infos.length from ?_)⟩
          by_contra hlast
          have hcur : infos.getLast? = some cur := by
            rw [List.getLast?_eq_getElem?, show infos.length - 1 = ind by omega]
            exact hstate.cur_eq
          rw [imageEnd, hcur, Option.map_some, Option.getD_some] at hsize
          omega
        have hnextEnd := h.le_imageEnd (List.mem_of_getElem? hnext)
        have hnextLe := hstate.le_next next hnext
        rw [if_neg (by tauto)] at hfuel
        rw [if_neg hin, Nat.mod_eq_of_lt (show ind + 1 < 2 ^ 32 by omega), hnext, Option.bind_some,
          sub64_of_le hnextLe (by omega)]
        refine ih (hstate.gap h hnext (by omega)) (fun _ => ⟨next, List.mem_of_getElem? hnext, .inl rfl⟩) ?_ ?_
        · intro he
          have hnextEnds := hstate.next_le h hnext (by omega) he (by omega)
          rw [List.length_append, List.length_replicate]
          omega
        · split <;> omega
    · -- All that is asked for is there; it is too much if a gap was filled behind the end.
      rw [if_neg hlt]
      refine ⟨written, rfl, by omega, ⟨fun hlength => ?_, fun he => (hfits he).antisymm (by omega)⟩, hstate.bytes⟩
      rw [← hlength, ← hoffset]
      apply hplace
      intro hnil
      rw [hnil, List.length_nil] at hlength
      omega

/-- A read gives the bytes of the image from its offset on, at least as many as are asked for and are there, and
no more of them if and only if they end in place. -/
lemma layeredRead_spec (h : OrderedInfos infos) (hserved : Served stores infos)
    (hsize : 0 < size) (hoffset : offset < imageEnd infos) :
    ∃ written, layeredRead stores infos size offset = some (.success, written) ∧
      min size (imageEnd infos - offset) ≤ written.length ∧
      (written.length = min size (imageEnd infos - offset) ↔
        EndsInPlace infos (offset + min size (imageEnd infos - offset))) ∧
      ∀ k, k < written.length → written[k]? = some (imageByte stores infos (offset + k)) := by
  obtain ⟨t, htlen, ht⟩ := h.exists_isLastBefore offset
  have hcount := h.count
  have hsearch : searchLoop infos offset (infos.length + 1) 0 ((infos.length - 1) % 2 ^ 32) = some t := by
    rw [Nat.mod_eq_of_lt (by omega)]
    exact searchLoop_eq hcount ht (Nat.zero_le t) (by omega) (by omega) (by omega)
  have hcur := List.getElem?_eq_getElem htlen
  have hstate : ReadState stores infos offset t offset [] infos[t] := by
    refine ⟨hcur, (ht t _ hcur).mpr le_rfl, fun next hnext => ?_, rfl, fun k hk => absurd hk (by simp)⟩
    have : ¬next.virtualOffset ≤ offset := fun hle => absurd ((ht _ _ hnext).mp hle) (by omega)
    omega
  have hfuel : 2 * (infos.length - t) + (if ([] : List UInt8).length < min size (imageEnd infos - offset) ∧
        offset < infos[t].virtualOffset + infos[t].size then 1 else 0) ≤ 2 * infos.length + 1 := by
    split <;> omega
  obtain ⟨written, hread, hlength, hexact, hbytes⟩ := readLoop_spec h hserved hstate (by omega) (by omega)
    (fun hne => absurd rfl hne) (fun _ => Nat.zero_le _) hfuel
  refine ⟨written, ?_, hlength, hexact, hbytes⟩
  rw [layeredRead, if_neg (by omega), h.virtSize_eq]
  simp only [Option.bind_eq_bind, Option.bind_some]
  rw [if_neg (by omega), hsearch, Option.bind_some, hread, Option.bind_some]

/-- A read of a range: it writes the bytes of the range, which are those of the image at their offsets, and nothing
behind them. -/
def ReadsRange (stores : RomFSStores) (infos : List RomFSSourceInfo) (size offset : Nat) : Prop :=
  layeredRead stores infos size offset = some (.success,
    (List.range (min size (imageEnd infos - offset))).map fun k => imageByte stores infos (offset + k))

/-- A read stays in its buffer if and only if its range does not end in the middle of a gap: the zeros of a gap are
written up to the next source, whatever is left of the buffer. -/
theorem layeredRead_readsRange_iff (h : OrderedInfos infos) (hserved : Served stores infos)
    (hsize : 0 < size) (hoffset : offset < imageEnd infos) :
    ReadsRange stores infos size offset ↔
      EndsInPlace infos (offset + min size (imageEnd infos - offset)) := by
  obtain ⟨written, hread, -, hexact, hbytes⟩ := layeredRead_spec h hserved hsize hoffset
  rw [ReadsRange, hread, ← hexact]
  constructor
  · intro heq
    cases heq
    rw [List.length_map, List.length_range]
  · intro hlength
    apply congrArg (fun bytes => some (RomReadResult.success, bytes))
    apply List.ext_getElem?
    intro k
    rcases Nat.lt_or_ge k written.length with hlt | hge
    · rw [hbytes k hlt, List.getElem?_map, List.getElem?_range (by omega), Option.map_some]
    · rw [List.getElem?_eq_none hge, List.getElem?_eq_none (by rw [List.length_map, List.length_range]; omega)]

/-- A range that is read in two parts gives the bytes of the whole. -/
lemma ReadsRange.append {m n offset : Nat} (hfits : offset + m ≤ imageEnd infos)
    (hwhole : ReadsRange stores infos (m + n) offset) (hfirst : ReadsRange stores infos m offset)
    (hsecond : ReadsRange stores infos n (offset + m)) :
    ∃ first second, layeredRead stores infos m offset = some (.success, first) ∧
      layeredRead stores infos n (offset + m) = some (.success, second) ∧
      layeredRead stores infos (m + n) offset = some (.success, first ++ second) := by
  refine ⟨_, _, hfirst, hsecond, ?_⟩
  have hm : min m (imageEnd infos - offset) = m := by omega
  have hsplit : min (m + n) (imageEnd infos - offset) = m + min n (imageEnd infos - (offset + m)) := by omega
  rw [hwhole, hsplit, hm, List.range_add, List.map_append, List.map_map]
  simp only [Function.comp_def, Nat.add_assoc]

end Bytes

end RajNX.FsMitm.RomFs
