import RajNX.FsMitm.SectoredStorage

/-!
# Reading into a buffer

`SectoredProxyStorage::Read` with the memory it works on: the caller's memory from the buffer on, and the
buffer for a sector. Sums of offsets and sizes are of 64 bits. The storage below may refuse any read, and
does so for a range that is not its own; the range of a storage ends within 64 bits.
-/

namespace RajNX.FsMitm

open Interruptible Splice

/-- The storage below: its bytes, and what it refuses to read. -/
structure BaseStorage where
  bytes : List UInt8
  refuses (offset size : Nat) : Option StorageError
  length_lt : bytes.length < 2 ^ 64
  le_of_serves {offset size : Nat} : refuses offset size = none → offset + size ≤ bytes.length

/-- The memory of a read. -/
structure ReadMemory where
  sectorBuf : List UInt8
  buffer : List UInt8

/-- A procedure on the memory of a read. -/
abbrev ReadProc := Proc ReadMemory StorageError

section Reading

variable (base : BaseStorage) (sectorSize : Nat)

/-- `ProxyStorage::Read` to a place of the buffer. -/
def readToBuffer (position size offset : Nat) : ReadProc Unit := .atomic fun m =>
  match base.refuses offset size with
  | some e => (.error e, m)
  | none => (.ok (), { m with buffer := splice m.buffer position (slice base.bytes offset size) })

/-- `ProxyStorage::Read` of a sector to the buffer for it. -/
def readToSector (offset : Nat) : ReadProc Unit := .atomic fun m =>
  match base.refuses offset sectorSize with
  | some e => (.error e, m)
  | none => (.ok (), { m with sectorBuf := slice base.bytes offset sectorSize })

/-- `memcpy` from the sector to a place of the buffer. -/
def copySector (position first size : Nat) : ReadProc Unit := .atomic fun m =>
  (.ok (), { m with buffer := splice m.buffer position (slice m.sectorBuf first size) })

/-- The whole sectors of a read, when there are any. -/
def readSectors (position size offset : Nat) : ReadProc Unit :=
  if size ≠ 0 then readToBuffer base position size offset else pure ()

/-- The part of the last sector, when there is one. -/
def readRest (position size offset : Nat) : ReadProc Unit :=
  if size ≠ 0 then do
    readToSector base sectorSize offset
    copySector position 0 size
  else pure ()

/-- `SectoredProxyStorage::Read` -/
def readInto (size offset : Nat) : ReadProc Unit :=
  if offset % sectorSize = 0 ∧ size % sectorSize = 0 then readToBuffer base 0 size offset
  else do
    readToSector base sectorSize (curSeek sectorSize offset)
    if (size + offset % sectorSize) % 2 ^ 64 ≤ sectorSize then copySector 0 (offset % sectorSize) size
    else do
      let ofs := sectorSize - offset % sectorSize
      let aligned := (size - ofs) - (size - ofs) % sectorSize
      copySector 0 (offset % sectorSize) ofs
      readSectors base ofs aligned ((offset + ofs) % 2 ^ 64)
      readRest base sectorSize (ofs + aligned) (size - ofs - aligned) ((offset + ofs + aligned) % 2 ^ 64)

end Reading

/-! ## What a step does -/

section Steps

variable {base : BaseStorage} {sectorSize : Nat} {m : ReadMemory} {R : ReadMemory → Prop}
  {Q : Except StorageError Unit → ReadMemory → Prop}

lemma sat_readToBuffer {position size offset : Nat} (hR : R m)
    (herror : ∀ e, base.refuses offset size = some e → Q (.error e) m)
    (hok : offset + size ≤ base.bytes.length →
      R { m with buffer := splice m.buffer position (slice base.bytes offset size) } ∧
        Q (.ok ()) { m with buffer := splice m.buffer position (slice base.bytes offset size) }) :
    (readToBuffer base position size offset).Sat Proc.noFault m R Q := by
  cases h : base.refuses offset size with
  | some e => exact Proc.sat_atomic (by simpa [h] using hR) (by simpa [h] using herror e h) nofun
  | none =>
    obtain ⟨hRt, hQt⟩ := hok (base.le_of_serves h)
    exact Proc.sat_atomic (by simpa [h] using hRt) (by simpa [h] using hQt) nofun

lemma sat_readToSector {offset : Nat} (hR : R m)
    (herror : ∀ e, base.refuses offset sectorSize = some e → Q (.error e) m)
    (hok : offset + sectorSize ≤ base.bytes.length → R { m with sectorBuf := slice base.bytes offset sectorSize } ∧
        Q (.ok ()) { m with sectorBuf := slice base.bytes offset sectorSize }) :
    (readToSector base sectorSize offset).Sat Proc.noFault m R Q := by
  cases h : base.refuses offset sectorSize with
  | some e => exact Proc.sat_atomic (by simpa [h] using hR) (by simpa [h] using herror e h) nofun
  | none =>
    obtain ⟨hRt, hQt⟩ := hok (base.le_of_serves h)
    exact Proc.sat_atomic (by simpa [h] using hRt) (by simpa [h] using hQt) nofun

lemma sat_copySector {position first size : Nat}
    (hR : R { m with buffer := splice m.buffer position (slice m.sectorBuf first size) })
    (hQ : Q (.ok ()) { m with buffer := splice m.buffer position (slice m.sectorBuf first size) }) :
    (copySector position first size).Sat Proc.noFault m R Q := Proc.sat_atomic hR hQ nofun

end Steps

/-! ## Filling the buffer -/

/-- The first bytes of the buffer are those of the storage from an offset on, and the others are as before. -/
def BufferFilled (base : BaseStorage) (offset n : Nat) (m m' : ReadMemory) : Prop :=
  offset + n ≤ base.bytes.length ∧ m'.buffer = splice m.buffer 0 (slice base.bytes offset n)

/-- Nothing behind the first bytes of the buffer changed. -/
def KeepsBehind (size : Nat) (m m' : ReadMemory) : Prop := ∀ k, size ≤ k → m'.buffer[k]? = m.buffer[k]?

/-- The storage refuses to read whole sectors that a range begins, ends or lies in. -/
def RefusesSectors (base : BaseStorage) (sectorSize offset size : Nat) (e : StorageError) : Prop :=
  ∃ first n, sectorSize ∣ first ∧ sectorSize ∣ n ∧ curSeek sectorSize offset ≤ first ∧
    first ≤ offset + size ∧ first + n < offset + size + sectorSize ∧ base.refuses first n = some e

/-- What a read has done of which the first bytes are to be filled. -/
structure ReadPost (base : BaseStorage) (sectorSize offset size : Nat) (m : ReadMemory) (n : Nat)
    (r : Except StorageError Unit) (m' : ReadMemory) : Prop where
  keeps : KeepsBehind size m m'
  filled : r = .ok () → BufferFilled base offset n m m'
  error : ∀ e, r = .error e → RefusesSectors base sectorSize offset size e

section Fill

variable {base : BaseStorage} {sectorSize offset size n k : Nat} {m m' : ReadMemory}

/-- The bytes from the beginning of the range. -/
lemma filled_first (sectorBuf : List UInt8) (hrange : offset + n ≤ base.bytes.length) :
    BufferFilled base offset n m ⟨sectorBuf, splice m.buffer 0 (slice base.bytes offset n)⟩ := ⟨hrange, rfl⟩

/-- A read of whole sectors was refused. -/
lemma refused_post {first n : Nat} {e : StorageError} (hm : KeepsBehind size m m') (hfirst : sectorSize ∣ first)
    (hn : sectorSize ∣ n) (hseek : curSeek sectorSize offset ≤ first) (hle : first ≤ offset + size)
    (hlt : first + n < offset + size + sectorSize) (he : base.refuses first n = some e) :
    ReadPost base sectorSize offset size m k (.error e) m' where
  keeps := hm
  filled := nofun
  error := by
    rintro e' ⟨⟩
    exact ⟨first, n, hfirst, hn, hseek, hle, hlt, he⟩

variable (h : BufferFilled base offset n m m')

include h

lemma BufferFilled.keepsBehind (hn : n ≤ size) (hsize : size ≤ m.buffer.length) :
    KeepsBehind size m m' := by
  have hlength : (slice base.bytes offset n).length = n := length_slice h.1
  intro k hk
  rw [h.2]
  exact getElem?_splice_of_notMem (by omega) (.inr (by omega))

lemma BufferFilled.post (hn : n ≤ size) (hsize : size ≤ m.buffer.length) :
    ReadPost base sectorSize offset size m n (.ok ()) m' :=
  ⟨h.keepsBehind hn hsize, fun _ => h, nofun⟩

/-- What comes next in the storage is put behind what is filled. -/
lemma BufferFilled.append (hrange : offset + n + k ≤ base.bytes.length)
    (hspace : n + k ≤ m.buffer.length) (sectorBuf : List UInt8) :
    BufferFilled base offset (n + k) m ⟨sectorBuf, splice m'.buffer n (slice base.bytes (offset + n) k)⟩ := by
  have hlength : (slice base.bytes offset n).length = n := length_slice h.1
  have hlength' : (slice base.bytes (offset + n) k).length = k := length_slice hrange
  refine ⟨by omega, ?_⟩
  dsimp only
  rw [h.2, ← slice_append_slice, ← splice_splice_append (by omega), hlength, Nat.zero_add]

/-- The whole sectors behind what is filled. -/
lemma sat_readSectors (hpos : 0 < sectorSize) (hsize : size ≤ m.buffer.length)
    (hle : n + k ≤ size) (hoffset : sectorSize ∣ offset + n) (hk : sectorSize ∣ k) :
    (readSectors base n k (offset + n)).Sat Proc.noFault m' (KeepsBehind size m)
      (ReadPost base sectorSize offset size m (n + k)) := by
  have hm := h.keepsBehind (by omega) hsize
  have hseek : curSeek sectorSize offset ≤ offset := Nat.sub_le offset _
  unfold readSectors
  split
  next =>
    refine sat_readToBuffer hm ?_ ?_
    · exact fun e he => refused_post hm hoffset hk (by omega) (by omega) (by omega) he
    · intro hrange
      have hfilled := h.append hrange (by omega) m'.sectorBuf
      exact ⟨hfilled.keepsBehind hle hsize, hfilled.post hle hsize⟩
  next hzero =>
    rw [not_not] at hzero
    refine Proc.sat_pure ⟨hm, fun _ => ?_, nofun⟩
    rwa [hzero]

/-- The part of the last sector. -/
lemma sat_readRest (hsize : size ≤ m.buffer.length) (hle : n + k ≤ size)
    (hoffset : sectorSize ∣ offset + n) (hk : k < sectorSize) :
    (readRest base sectorSize n k (offset + n)).Sat Proc.noFault m' (KeepsBehind size m)
      (ReadPost base sectorSize offset size m (n + k)) := by
  have hm := h.keepsBehind (by omega) hsize
  have hseek : curSeek sectorSize offset ≤ offset := Nat.sub_le offset _
  unfold readRest
  split
  next hne =>
    refine Proc.sat_bind (sat_readToSector hm ?_ ?_)
    · intro e he
      refine ⟨nofun, ?_⟩
      rintro e' ⟨⟩
      exact refused_post hm hoffset dvd_rfl (by omega) (by omega) (by omega) he
    intro hlast
    refine ⟨hm, ?_, nofun⟩
    rintro ⟨⟩ -
    have hslice : slice (slice base.bytes (offset + n) sectorSize) 0 k = slice base.bytes (offset + n) k := by
      rw [slice_slice (by omega), Nat.add_zero]
    have hall := h.append (k := k) (by omega) (by omega) (slice base.bytes (offset + n) sectorSize)
    refine sat_copySector ?_ ?_
    · rw [hslice]
      exact hall.keepsBehind hle hsize
    · rw [hslice]
      exact hall.post hle hsize
  next hzero =>
    rw [not_not] at hzero
    refine Proc.sat_pure ⟨hm, fun _ => ?_, nofun⟩
    rwa [hzero]

/-- Everything behind the first sector, from where it is aligned. -/
lemma sat_readBehind (hpos : 0 < sectorSize) (hsize : size ≤ m.buffer.length)
    (hle : n ≤ size) (hoffset : sectorSize ∣ offset + n) (hk : size - n - (size - n) % sectorSize = k) :
    (readSectors base n k (offset + n) >>= fun _ =>
      readRest base sectorSize (n + k) (size - n - k) ((offset + n + k) % 2 ^ 64)).Sat Proc.noFault m'
        (KeepsBehind size m) (ReadPost base sectorSize offset size m size) := by
  have hmod := Nat.mod_lt (size - n) hpos
  have hmodle := Nat.mod_le (size - n) sectorSize
  have hlength := base.length_lt
  have hwhole : sectorSize ∣ k := by
    rw [← hk]
    exact Nat.dvd_sub_mod _
  have hsectors := sat_readSectors h hpos hsize (show n + k ≤ size by omega) hoffset hwhole
  refine Proc.sat_bind (hsectors.mono (fun _ h => h) ?_)
  rintro r m₁ hpost
  refine ⟨?_, ?_⟩
  · rintro ⟨⟩ rfl
    have hfilled := hpost.filled rfl
    have hrange := hfilled.1
    rw [Nat.mod_eq_of_lt (show offset + n + k < 2 ^ 64 by omega), Nat.add_assoc offset]
    have hend : sectorSize ∣ offset + (n + k) := by
      rw [← Nat.add_assoc]
      exact hoffset.add hwhole
    have hlast := sat_readRest hfilled hsize (k := size - n - k) (by omega) hend (by omega)
    rwa [show n + k + (size - n - k) = size by omega] at hlast
  · rintro e rfl
    exact ⟨hpost.keeps, nofun, fun e' he' => hpost.error e' (by rw [he'])⟩

end Fill

/-- `SectoredProxyStorage::Read`, by the way that the range lies in the sectors. -/
lemma sat_readInto {base : BaseStorage} {sectorSize size offset : Nat} {m : ReadMemory} (hpos : 0 < sectorSize)
    (hsize : size ≤ m.buffer.length) (hspace : m.buffer.length + sectorSize ≤ 2 ^ 64) :
    (readInto base sectorSize size offset).Sat Proc.noFault m (KeepsBehind size m)
      (ReadPost base sectorSize offset size m size) := by
  have hmod : offset % sectorSize < sectorSize := Nat.mod_lt offset hpos
  have hseek : curSeek sectorSize offset + offset % sectorSize = offset := curSeek_add
  have hkeeps : KeepsBehind size m m := fun _ _ => rfl
  have hlength := base.length_lt
  rw [readInto]
  by_cases hfast : offset % sectorSize = 0 ∧ size % sectorSize = 0
  · -- whole sectors are read at once
    rw [if_pos hfast]
    refine sat_readToBuffer hkeeps ?_ ?_
    · intro e he
      exact refused_post hkeeps (Nat.dvd_of_mod_eq_zero hfast.1) (Nat.dvd_of_mod_eq_zero hfast.2)
        (Nat.sub_le offset _) (Nat.le_add_right offset size) (by omega) he
    · intro hrange
      have hfilled : BufferFilled base offset size m _ := filled_first m.sectorBuf hrange
      exact ⟨hfilled.keepsBehind le_rfl hsize, hfilled.post le_rfl hsize⟩
  rw [if_neg hfast]
  have hsome : 0 < offset % sectorSize + size := by
    rcases Nat.eq_zero_or_pos (offset % sectorSize) with hzero | hlt
    · have hne : size ≠ 0 := by
        rintro rfl
        exact hfast ⟨hzero, Nat.zero_mod sectorSize⟩
      omega
    · omega
  refine Proc.sat_bind (sat_readToSector hkeeps ?_ ?_)
  · intro e he
    refine ⟨nofun, ?_⟩
    rintro e' ⟨⟩
    exact refused_post hkeeps dvd_curSeek dvd_rfl le_rfl (by omega) (by omega) he
  intro hsector
  refine ⟨hkeeps, ?_, nofun⟩
  rintro ⟨⟩ -
  rw [Nat.mod_eq_of_lt (show size + offset % sectorSize < 2 ^ 64 by omega)]
  have hhead : ∀ n, offset % sectorSize + n ≤ sectorSize →
      slice (slice base.bytes (curSeek sectorSize offset) sectorSize) (offset % sectorSize) n =
        slice base.bytes offset n := by
    intro n hn
    rw [slice_slice hn, hseek]
  by_cases hinside : size + offset % sectorSize ≤ sectorSize
  · rw [if_pos hinside]
    have hfilled : BufferFilled base offset size m ⟨slice base.bytes (curSeek sectorSize offset) sectorSize, _⟩ :=
      filled_first _ (by omega)
    refine sat_copySector ?_ ?_
    · rw [hhead size (by omega)]
      exact hfilled.keepsBehind le_rfl hsize
    · rw [hhead size (by omega)]
      exact hfilled.post le_rfl hsize
  rw [if_neg hinside]
  dsimp only
  -- the range leaves its first sector, behind which everything is aligned
  generalize hofs : sectorSize - offset % sectorSize = ofs
  have hoffset : sectorSize ∣ offset + ofs := by
    have hsum : offset + ofs = curSeek sectorSize offset + sectorSize := by omega
    rw [hsum]
    exact dvd_curSeek.add dvd_rfl
  have hfirst : BufferFilled base offset ofs m ⟨slice base.bytes (curSeek sectorSize offset) sectorSize, _⟩ :=
    filled_first _ (by omega)
  refine Proc.sat_bind (sat_copySector ?_ ⟨?_, nofun⟩)
  · rw [hhead ofs (by omega)]
    exact hfirst.keepsBehind (by omega) hsize
  rintro ⟨⟩ -
  rw [hhead ofs (by omega), Nat.mod_eq_of_lt (show offset + ofs < 2 ^ 64 by omega)]
  exact sat_readBehind hfirst hpos hsize (by omega) hoffset rfl

/-- A read that returns has filled the buffer. -/
lemma readInto_slice {base : BaseStorage} {sectorSize size offset : Nat} {m : ReadMemory} (hpos : 0 < sectorSize)
    (hsize : size ≤ m.buffer.length) (hspace : m.buffer.length + sectorSize ≤ 2 ^ 64)
    (hok : ((readInto base sectorSize size offset).run m).result = .ok ()) :
    slice ((readInto base sectorSize size offset).run m).final.buffer 0 size = slice base.bytes offset size ∧
      (slice base.bytes offset size).length = size := by
  obtain ⟨hrange, hbuffer⟩ := (@sat_readInto base sectorSize size offset m hpos hsize hspace).run.2.filled hok
  have hlength : (slice base.bytes offset size).length = size := length_slice hrange
  refine ⟨?_, hlength⟩
  rw [hbuffer]
  have hself := @slice_splice_self _ m.buffer (slice base.bytes offset size) 0 (by omega)
  rwa [hlength] at hself

/-- `SectoredProxyStorage::Read` of any range writes nothing behind the first `size` bytes of the buffer, at any
time. When it returns, these are the bytes of the range; it fails only if the storage refuses to read whole
sectors at the range. -/
theorem readInto_fills {base : BaseStorage} {sectorSize size offset : Nat} {m : ReadMemory} (hpos : 0 < sectorSize)
    (hsize : size ≤ m.buffer.length) (hspace : m.buffer.length + sectorSize ≤ 2 ^ 64) :
    let run := (readInto base sectorSize size offset).run m
    (∀ m' ∈ run.final :: run.visited, ∀ k, size ≤ k → m'.buffer[k]? = m.buffer[k]?) ∧
      (run.result = .ok () → slice run.final.buffer 0 size = slice base.bytes offset size ∧
        (slice base.bytes offset size).length = size) ∧
      ∀ e, run.result = .error e → RefusesSectors base sectorSize offset size e := by
  intro run
  obtain ⟨hvisited, hpost⟩ := (@sat_readInto base sectorSize size offset m hpos hsize hspace).run
  refine ⟨?_, readInto_slice hpos hsize hspace, hpost.error⟩
  intro m' hm'
  rcases List.mem_cons.mp hm' with rfl | hm'
  · exact hpost.keeps
  · exact hvisited m' hm'

/-- A storage of zeros that is read by sectors. -/
def zeroStorage : BaseStorage where
  bytes := List.replicate 0x600 0
  refuses offset size := refuses 0x200 size offset (List.replicate 0x600 (0 : UInt8)).length
  length_lt := by
    rw [List.length_replicate]
    decide
  le_of_serves := le_of_refuses_eq_none

/-- The end of a sector, the next one and the beginning of the last one. -/
theorem readInto_fills_three :
    let run := (readInto zeroStorage 0x200 0x220 0x1F0).run ⟨[], List.replicate 0x300 1⟩
    (∀ m' ∈ run.final :: run.visited, ∀ k, 0x220 ≤ k → m'.buffer[k]? = (List.replicate 0x300 (1 : UInt8))[k]?) ∧
      (run.result = .ok () → slice run.final.buffer 0 0x220 = slice zeroStorage.bytes 0x1F0 0x220 ∧
        (slice zeroStorage.bytes 0x1F0 0x220).length = 0x220) ∧
      ∀ e, run.result = .error e → RefusesSectors zeroStorage 0x200 0x1F0 0x220 e :=
  readInto_fills (by decide) (by rw [List.length_replicate]; decide) (by rw [List.length_replicate]; decide)

end RajNX.FsMitm
