import RajNX.Lib.Interruptible
import RajNX.Lib.Splice

/-!
# Sectored storage

`SectoredProxyStorage::Write` of `fsmitm_boot0storage.hpp`: writes of any range over a storage that is
addressed by sectors. The storage below is its bytes; it refuses an access out of range, or one that is
not made of whole units of its own, and a unit divides a sector. Within the range of a storage no sum of
an offset and a size leaves 64 bits.

Writing is transparent only for ranges of whole sectors and ranges inside of one sector: a write that
leaves its first sector writes the beginning of that sector instead of all of it, and writes its last
sector over its first. `SectoredProxyStorage::Read` is in `FsMitm/SectoredRead.lean`.
-/

namespace RajNX.FsMitm

open Interruptible Splice

/-- The errors of the storage below. -/
inductive StorageError
  | outOfRange
  | unaligned
deriving Repr, DecidableEq

/-- A procedure on the bytes of a storage. -/
abbrev StorageProc := Proc (List UInt8) StorageError

/-- Whether the storage below refuses an access. -/
def refuses (unit size offset length : Nat) : Option StorageError :=
  if length < offset + size then some .outOfRange
  else if ¬(unit ∣ offset ∧ unit ∣ size) then some .unaligned
  else none

/-- `ProxyStorage::Read` -/
def proxyRead (unit size offset : Nat) : StorageProc (List UInt8) := .atomic fun s =>
  match refuses unit size offset s.length with
  | some e => (.error e, s)
  | none => (.ok (slice s offset size), s)

/-- `ProxyStorage::Write` -/
def proxyWrite (unit : Nat) (buffer : List UInt8) (offset : Nat) : StorageProc Unit := .atomic fun s =>
  match refuses unit buffer.length offset s.length with
  | some e => (.error e, s)
  | none => (.ok (), splice s offset buffer)

section Sectored

variable (unit sectorSize : Nat)

/-- The sector that an offset is in, that is `cur_seek` after `Seek`. -/
def curSeek (offset : Nat) : Nat := offset - offset % sectorSize

/-- The end of `SectoredProxyStorage::Write`: the part of the last sector is put over the sector's old
contents, and the sector is written to `cur_seek`. -/
def writeLeftover (buffer : List UInt8) (seek offset : Nat) : StorageProc Unit :=
  if buffer.length ≠ 0 then do
    let sectorBuf ← proxyRead unit sectorSize offset
    proxyWrite unit (splice sectorBuf 0 buffer) seek
  else pure ()

/-- The middle of `SectoredProxyStorage::Write`: the whole sectors. -/
def writeAligned (buffer : List UInt8) (offset : Nat) : StorageProc Unit :=
  if buffer.length ≠ 0 then proxyWrite unit buffer offset else pure ()

/-- `SectoredProxyStorage::Write` -/
def sectoredWrite (buffer : List UInt8) (offset : Nat) : StorageProc Unit :=
  if offset % sectorSize = 0 ∧ buffer.length % sectorSize = 0 then proxyWrite unit buffer offset
  else do
    let sectorBuf ← proxyRead unit sectorSize (curSeek sectorSize offset)
    if buffer.length + offset % sectorSize ≤ sectorSize then
      proxyWrite unit (splice sectorBuf (offset % sectorSize) buffer) (curSeek sectorSize offset)
    else do
      let ofs := sectorSize - offset % sectorSize
      let aligned := (buffer.length - ofs) - (buffer.length - ofs) % sectorSize
      let sectorBuf := splice sectorBuf (offset % sectorSize) (buffer.take ofs)
      proxyWrite unit (sectorBuf.take ofs) (curSeek sectorSize offset)
      writeAligned unit (slice buffer ofs aligned) (offset + ofs)
      writeLeftover unit sectorSize (buffer.drop (ofs + aligned)) (curSeek sectorSize offset)
        (offset + ofs + aligned)

end Sectored

/-! ## The storage below -/

section Proxy

variable {unit : Nat} {s : List UInt8} {R : List UInt8 → Prop}

lemma refuses_eq_none {size offset length : Nat} (hrange : offset + size ≤ length)
    (hoffset : unit ∣ offset) (hsize : unit ∣ size) : refuses unit size offset length = none := by
  rw [refuses, if_neg (Nat.not_lt.mpr hrange), if_neg (not_not.mpr ⟨hoffset, hsize⟩)]

lemma le_of_refuses_eq_none {size offset length : Nat} (h : refuses unit size offset length = none) :
    offset + size ≤ length := by
  unfold refuses at h
  split at h
  next => cases h
  next hrange => exact Nat.not_lt.mp hrange

/-- Reading, which may be refused. -/
lemma sat_proxyRead {size offset : Nat} {Q : Except StorageError (List UInt8) → List UInt8 → Prop} (hR : R s)
    (herror : ∀ e, Q (.error e) s) (hok : offset + size ≤ s.length → Q (.ok (slice s offset size)) s) :
    (proxyRead unit size offset).Sat Proc.noFault s R Q := by
  cases h : refuses unit size offset s.length with
  | some e => exact Proc.sat_atomic (by simpa [h] using hR) (by simpa [h] using herror e) nofun
  | none =>
    have hQ := hok (le_of_refuses_eq_none h)
    exact Proc.sat_atomic (by simpa [h] using hR) (by simpa [h] using hQ) nofun

/-- Writing, which may be refused. -/
lemma sat_proxyWrite {buffer : List UInt8} {offset : Nat}
    {Q : Except StorageError Unit → List UInt8 → Prop} (hR : R s) (herror : ∀ e, Q (.error e) s)
    (hok : offset + buffer.length ≤ s.length → R (splice s offset buffer) ∧ Q (.ok ()) (splice s offset buffer)) :
    (proxyWrite unit buffer offset).Sat Proc.noFault s R Q := by
  cases h : refuses unit buffer.length offset s.length with
  | some e => exact Proc.sat_atomic (by simpa [h] using hR) (by simpa [h] using herror e) nofun
  | none =>
    obtain ⟨hRt, hQt⟩ := hok (le_of_refuses_eq_none h)
    exact Proc.sat_atomic (by simpa [h] using hRt) (by simpa [h] using hQt) nofun

/-- Reading whole units within the range. -/
lemma sat_proxyRead_units {size offset : Nat} {Q : Except StorageError (List UInt8) → List UInt8 → Prop} (hR : R s)
    (hrange : offset + size ≤ s.length) (hoffset : unit ∣ offset) (hsize : unit ∣ size)
    (hok : Q (.ok (slice s offset size)) s) : (proxyRead unit size offset).Sat Proc.noFault s R Q := by
  have h := refuses_eq_none hrange hoffset hsize
  exact Proc.sat_atomic (by simpa [h] using hR) (by simpa [h] using hok) nofun

/-- Writing whole units within the range. -/
lemma sat_proxyWrite_units {buffer : List UInt8} {offset : Nat} {Q : Except StorageError Unit → List UInt8 → Prop}
    (hrange : offset + buffer.length ≤ s.length) (hoffset : unit ∣ offset) (hsize : unit ∣ buffer.length)
    (hR : R (splice s offset buffer)) (hok : Q (.ok ()) (splice s offset buffer)) :
    (proxyWrite unit buffer offset).Sat Proc.noFault s R Q := by
  have h := refuses_eq_none hrange hoffset hsize
  exact Proc.sat_atomic (by simpa [h] using hR) (by simpa [h] using hok) nofun

end Proxy

/-! ## Sectors -/

section Seek

variable {sectorSize offset size length : Nat}

lemma dvd_curSeek : sectorSize ∣ curSeek sectorSize offset := Nat.dvd_sub_mod offset

lemma curSeek_add : curSeek sectorSize offset + offset % sectorSize = offset :=
  Nat.sub_add_cancel (Nat.mod_le offset sectorSize)

/-- A sector that begins within a storage of whole sectors ends within it. -/
lemma sector_le {seek : Nat} (hlength : sectorSize ∣ length) (hseek : sectorSize ∣ seek)
    (hlt : seek < length) : seek + sectorSize ≤ length :=
  Nat.le_of_lt_add_of_dvd (by omega) (hseek.add (dvd_refl sectorSize)) hlength

/-- The sector of a range that is not made of whole sectors. -/
lemma curSeek_sector_le (hlength : sectorSize ∣ length) (hrange : offset + size ≤ length)
    (hslow : ¬(offset % sectorSize = 0 ∧ size % sectorSize = 0)) : curSeek sectorSize offset + sectorSize ≤ length := by
  refine sector_le hlength dvd_curSeek ?_
  have hseek : curSeek sectorSize offset + offset % sectorSize = offset := curSeek_add
  rcases Nat.eq_zero_or_pos (offset % sectorSize) with hzero | hpos
  · have hsize : size ≠ 0 := by
      rintro rfl
      exact hslow ⟨hzero, Nat.zero_mod sectorSize⟩
    omega
  · omega

end Seek

/-- Writing is transparent: it returns and leaves the storage with the range replaced. -/
def Transparent (unit sectorSize : Nat) (contents buffer : List UInt8) (offset : Nat) : Prop :=
  ((sectoredWrite unit sectorSize buffer offset).run contents).result = .ok () ∧
    ((sectoredWrite unit sectorSize buffer offset).run contents).final = splice contents offset buffer

section Write

variable {unit sectorSize offset : Nat} {contents buffer : List UInt8}

lemma transparent_of_sat
    (h : (sectoredWrite unit sectorSize buffer offset).Sat Proc.noFault contents (fun _ => True)
      fun r t => r = .ok () ∧ t = splice contents offset buffer) :
    Transparent unit sectorSize contents buffer offset := h.run.2

/-- Whole sectors are written as they are. -/
lemma transparent_of_sectors (hunit : unit ∣ sectorSize) (hrange : offset + buffer.length ≤ contents.length)
    (hfast : offset % sectorSize = 0 ∧ buffer.length % sectorSize = 0) :
    Transparent unit sectorSize contents buffer offset := by
  apply transparent_of_sat
  rw [sectoredWrite, if_pos hfast]
  exact sat_proxyWrite_units hrange (hunit.trans (Nat.dvd_of_mod_eq_zero hfast.1))
    (hunit.trans (Nat.dvd_of_mod_eq_zero hfast.2)) trivial ⟨rfl, rfl⟩

/-- A range inside of a sector is put over the sector's old contents. -/
lemma transparent_of_inside (hunit : unit ∣ sectorSize) (hlength : sectorSize ∣ contents.length)
    (hrange : offset + buffer.length ≤ contents.length) (hinside : buffer.length + offset % sectorSize ≤ sectorSize) :
    Transparent unit sectorSize contents buffer offset := by
  by_cases hfast : offset % sectorSize = 0 ∧ buffer.length % sectorSize = 0
  · exact transparent_of_sectors hunit hrange hfast
  have hsector := curSeek_sector_le hlength hrange hfast
  have hseek : unit ∣ curSeek sectorSize offset := hunit.trans dvd_curSeek
  have hsplice : (splice (slice contents (curSeek sectorSize offset) sectorSize)
      (offset % sectorSize) buffer).length = sectorSize := by
    rw [length_splice (by rw [length_slice hsector]; omega), length_slice hsector]
  apply transparent_of_sat
  rw [sectoredWrite, if_neg hfast]
  refine Proc.sat_bind (sat_proxyRead_units trivial hsector hseek hunit ⟨?_, nofun⟩)
  rintro sectorBuf ⟨⟩
  rw [if_pos hinside]
  refine sat_proxyWrite_units (by omega) hseek (by rwa [hsplice]) trivial ⟨rfl, ?_⟩
  rw [splice_splice_slice hsector (by omega), curSeek_add]

/-- The whole sectors of a write change nothing outside of them. -/
lemma sat_writeAligned {s : List UInt8} :
    (writeAligned unit buffer offset).Sat Proc.noFault s (fun _ => True) fun r t =>
      r = .ok () → t.length = s.length ∧
        ∀ k, k < offset ∨ offset + buffer.length ≤ k → t[k]? = s[k]? := by
  unfold writeAligned
  split
  next =>
    refine sat_proxyWrite trivial (fun _ => nofun) ?_
    intro hrange
    refine ⟨trivial, fun _ => ⟨length_splice hrange, ?_⟩⟩
    exact fun k hk => getElem?_splice_of_notMem hrange hk
  next => exact Proc.sat_pure fun _ => ⟨rfl, fun _ _ => rfl⟩

/-- The last sector of a write is written to `seek`, so what stands there afterwards beyond the written
part are bytes of the last sector. -/
lemma sat_writeLeftover {s : List UInt8} {seek : Nat} (hlt : buffer.length < sectorSize) :
    (writeLeftover unit sectorSize buffer seek offset).Sat Proc.noFault s (fun _ => True) fun r t =>
      r = .ok () → (buffer.length = 0 → t = s) ∧ (buffer.length ≠ 0 → offset + sectorSize ≤ s.length ∧
          t[seek + (sectorSize - 1)]? = s[offset + (sectorSize - 1)]?) := by
  unfold writeLeftover
  split
  next hne =>
    refine Proc.sat_bind (sat_proxyRead trivial ?_ ?_)
    · intro e
      refine ⟨nofun, ?_⟩
      rintro e' ⟨⟩
      nofun
    intro hread
    refine ⟨?_, nofun⟩
    rintro sectorBuf ⟨⟩
    have hlen : (splice (slice s offset sectorSize) 0 buffer).length = sectorSize := by
      rw [length_splice (by rw [length_slice hread]; omega), length_slice hread]
    refine sat_proxyWrite trivial (fun _ => nofun) ?_
    intro hrange
    refine ⟨trivial, fun _ => ⟨fun hzero => (hne hzero).elim, fun _ => ⟨hread, ?_⟩⟩⟩
    calc (splice s seek (splice (slice s offset sectorSize) 0 buffer))[seek + (sectorSize - 1)]?
        = (splice (slice s offset sectorSize) 0 buffer)[sectorSize - 1]? := by
          rw [getElem?_splice_of_mem hrange (by omega) (by omega), Nat.add_sub_cancel_left]
      _ = (slice s offset sectorSize)[sectorSize - 1]? :=
          getElem?_splice_of_notMem (by rw [length_slice hread]; omega) (by omega)
      _ = s[offset + (sectorSize - 1)]? := by
          rw [getElem?_slice, if_pos (by omega)]
  next hzero =>
    rw [not_not] at hzero
    exact Proc.sat_pure fun _ => ⟨fun _ => rfl, fun hne => (hne hzero).elim⟩

/-- A write that leaves its first sector puts an old byte at the end of that sector. -/
lemma sat_sectoredWrite_leaving (hpos : 0 < sectorSize)
    (hslow : ¬(offset % sectorSize = 0 ∧ buffer.length % sectorSize = 0))
    (hleaves : sectorSize < buffer.length + offset % sectorSize) :
    (sectoredWrite unit sectorSize buffer offset).Sat Proc.noFault contents (fun _ => True)
      fun r t => r = .ok () → ∃ k, k < contents.length ∧
        t[curSeek sectorSize offset + (sectorSize - 1)]? = contents[k]? := by
  have hmod : offset % sectorSize < sectorSize := Nat.mod_lt offset hpos
  have hseek : curSeek sectorSize offset + offset % sectorSize = offset := curSeek_add
  rw [sectoredWrite, if_neg hslow]
  refine Proc.sat_bind (sat_proxyRead trivial ?_ ?_)
  · intro e
    refine ⟨nofun, ?_⟩
    rintro e' ⟨⟩
    nofun
  intro hread
  refine ⟨?_, nofun⟩
  rintro sectorBuf ⟨⟩
  rw [if_neg (by omega)]
  dsimp only
  have hspliced : (splice (slice contents (curSeek sectorSize offset) sectorSize)
      (offset % sectorSize) (buffer.take (sectorSize - offset % sectorSize))).length =
        sectorSize := by
    rw [length_splice, length_slice hread]
    rw [length_slice hread, List.length_take]
    omega
  -- the first sector: only its first `sectorSize - offset % sectorSize` bytes are written
  refine Proc.sat_bind (sat_proxyWrite trivial ?_ ?_)
  · intro e
    refine ⟨nofun, ?_⟩
    rintro e' ⟨⟩
    nofun
  intro hhead
  refine ⟨trivial, ?_, nofun⟩
  rintro ⟨⟩ -
  rw [List.length_take, hspliced, Nat.min_eq_left (by omega)] at hhead
  have hheadLength : ((splice (slice contents (curSeek sectorSize offset) sectorSize)
      (offset % sectorSize) (buffer.take (sectorSize - offset % sectorSize))).take
        (sectorSize - offset % sectorSize)).length = sectorSize - offset % sectorSize := by
    rw [List.length_take, hspliced, Nat.min_eq_left (by omega)]
  generalize (splice (slice contents (curSeek sectorSize offset) sectorSize)
      (offset % sectorSize) (buffer.take (sectorSize - offset % sectorSize))).take
        (sectorSize - offset % sectorSize) = head at hheadLength ⊢
  have hfirst : ∀ k, offset + (sectorSize - offset % sectorSize) ≤ k ∨
      0 < offset % sectorSize ∧ k = curSeek sectorSize offset + (sectorSize - 1) →
      (splice contents (curSeek sectorSize offset) head)[k]? = contents[k]? := by
    intro k hk
    exact getElem?_splice_of_notMem (by omega) (by omega)
  have hfirstLength : (splice contents (curSeek sectorSize offset) head).length =
      contents.length := length_splice (by omega)
  generalize splice contents (curSeek sectorSize offset) head = t₁ at hfirst hfirstLength ⊢
  -- the whole sectors and the last one
  refine Proc.sat_bind (sat_writeAligned.mono (fun _ h => h) ?_)
  intro r t₂ hmiddle
  refine ⟨?_, fun _ _ => nofun⟩
  rintro ⟨⟩ rfl
  obtain ⟨hlen₂, hsame₂⟩ := hmiddle rfl
  have hleft : (buffer.length - (sectorSize - offset % sectorSize)) % sectorSize ≤
      buffer.length - (sectorSize - offset % sectorSize) := Nat.mod_le _ _
  rw [length_slice (by omega)] at hsame₂
  generalize hrest : buffer.drop (sectorSize - offset % sectorSize +
    (buffer.length - (sectorSize - offset % sectorSize) -
      (buffer.length - (sectorSize - offset % sectorSize)) % sectorSize)) = rest
  have hlength : rest.length =
      (buffer.length - (sectorSize - offset % sectorSize)) % sectorSize := by
    rw [← hrest, List.length_drop]
    omega
  have hlt : rest.length < sectorSize := by
    rw [hlength]
    exact Nat.mod_lt _ hpos
  refine (sat_writeLeftover hlt).mono (fun _ h => h) ?_
  intro r t₃ hlast hr
  obtain ⟨hnone, hsome⟩ := hlast hr
  by_cases hzero : rest.length = 0
  · -- without a last sector the first is not written from its beginning
    have hinside : 0 < offset % sectorSize := by
      rw [Nat.pos_iff_ne_zero]
      intro hr
      refine hslow ⟨hr, ?_⟩
      rw [Nat.mod_eq_sub_mod (by omega), ← hzero, hlength, hr, Nat.sub_zero]
    rw [hnone hzero]
    refine ⟨curSeek sectorSize offset + (sectorSize - 1), by omega, ?_⟩
    rw [hsame₂ _ (.inl (by omega)), hfirst _ (.inr ⟨hinside, rfl⟩)]
  · obtain ⟨hfit, heq⟩ := hsome hzero
    refine ⟨_, ?_, heq.trans ((hsame₂ _ (.inr ?_)).trans (hfirst _ (.inl ?_)))⟩
    · omega
    · omega
    · omega

end Write

/-- `SectoredProxyStorage::Write` of a range of the storage is transparent for every contents and every
buffer exactly if the range is made of whole sectors or inside of one sector. -/
theorem sectoredWrite_transparent_iff {unit sectorSize length offset size : Nat} (hpos : 0 < sectorSize)
    (hunit : unit ∣ sectorSize) (hlength : sectorSize ∣ length) (hrange : offset + size ≤ length) :
    (∀ contents buffer : List UInt8, contents.length = length → buffer.length = size →
      Transparent unit sectorSize contents buffer offset) ↔
    (offset % sectorSize = 0 ∧ size % sectorSize = 0) ∨ size + offset % sectorSize ≤ sectorSize := by
  refine ⟨?_, ?_⟩
  · intro h
    by_contra hnot
    rw [not_or, Nat.not_le] at hnot
    obtain ⟨hslow, hleaves⟩ := hnot
    -- ones are written over zeros, and a zero is left at the end of the first sector
    have hseek : curSeek sectorSize offset + offset % sectorSize = offset := curSeek_add
    have hmod : offset % sectorSize < sectorSize := Nat.mod_lt offset hpos
    obtain ⟨hok, hfinal⟩ := h (List.replicate length 0) (List.replicate size 1)
      List.length_replicate List.length_replicate
    have hsat : (sectoredWrite unit sectorSize (List.replicate size 1) offset).Sat _
        (List.replicate length 0) _ _ :=
      sat_sectoredWrite_leaving hpos (by simpa using hslow) (by simpa using hleaves)
    obtain ⟨k, hk, hbyte⟩ := hsat.run.2 hok
    rw [List.length_replicate] at hk
    rw [hfinal, getElem?_splice_of_mem (by simpa using hrange) (by omega) (by simp; omega),
      List.getElem?_replicate, List.getElem?_replicate, if_pos (by omega), if_pos hk] at hbyte
    exact absurd (Option.some.inj hbyte) (by decide)
  · rintro hcases contents buffer rfl rfl
    rcases hcases with hfast | hinside
    · exact transparent_of_sectors hunit hrange hfast
    · exact transparent_of_inside hunit hlength hrange hinside

/-- A write inside of one sector. -/
theorem sectoredWrite_transparent_iff_inside :
    (∀ contents buffer : List UInt8, contents.length = 0x400 → buffer.length = 0x20 →
      Transparent 1 0x200 contents buffer 0x210) ↔
    (0x210 % 0x200 = 0 ∧ 0x20 % 0x200 = 0) ∨ 0x20 + 0x210 % 0x200 ≤ 0x200 :=
  sectoredWrite_transparent_iff (by decide) (by decide) (by decide) (by decide)

/-- A sector and a byte, from the beginning of the first sector: the last sector is written over the
first. -/
theorem sectoredWrite_not_transparent :
    ¬∀ (contents buffer : List UInt8) (offset : Nat), 0x200 ∣ contents.length →
      offset + buffer.length ≤ contents.length → Transparent 1 0x200 contents buffer offset := by
  intro h
  obtain ⟨-, hfinal⟩ := h (List.replicate 0x400 0) (List.replicate 0x201 1) 0
    (by rw [List.length_replicate]; decide) (by rw [List.length_replicate]; decide +kernel)
  have hlost : ((sectoredWrite 1 0x200 (List.replicate 0x201 1) 0).run
      (List.replicate 0x400 0)).final[0x1FF]? = some 0 := by decide +kernel
  rw [hfinal] at hlost
  exact absurd hlost (by decide +kernel)

end RajNX.FsMitm
