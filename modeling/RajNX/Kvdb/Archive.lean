import RajNX.Kvdb.MemoryKeyValueStore
import RajNX.Lib.LittleEndian

/-!
# Key-value archives

The archive a store is saved to, of `kvdb_archive.cpp`, and the part of `Save` and `Load` of
`MemoryKeyValueStore` between the entries and the archive's bytes. A header with the number of the
entries is followed, for each entry, by a header with the sizes of key and value, the key and the value.

The size of an archive is computed in advance, and every read and write is checked against it. The counts
and sizes in the archive have 32 bits.
-/

namespace RajNX.Kvdb

open Splice LittleEndian

variable {κ : Type}

/-- How a call fails: with a result, or by ending the process. -/
inductive KvFailure
  | failed (r : KvResult)
  | aborted
deriving Repr, DecidableEq

/-- A plain old data type: its values are their bytes. -/
structure Pod (κ : Type) where
  size : Nat
  size_pos : 0 < size
  toBytes : κ → List UInt8
  ofBytes : List UInt8 → κ
  length_toBytes : ∀ k, (toBytes k).length = size
  ofBytes_toBytes : ∀ k, ofBytes (toBytes k) = k

/-- A sum of `size_t` values. -/
def addSize (a b : Nat) : Nat := (a + b) % 2 ^ 64

/-- `R_ASSERT`: any failure ends the process. -/
def rAssert {α : Type} : Except KvFailure α → Except KvFailure α
  | .ok a => .ok a
  | .error _ => .error .aborted

/-- `ArchiveHeaderMagic`, that is `IMKV` -/
def archiveHeaderMagic : List UInt8 := [0x49, 0x4D, 0x4B, 0x56]

/-- `ArchiveEntryMagic`, that is `IMEN` -/
def archiveEntryMagic : List UInt8 := [0x49, 0x4D, 0x45, 0x4E]

/-- `ArchiveHeader::Make` -/
def archiveHeader (entryCount : Nat) : List UInt8 :=
  archiveHeaderMagic ++ leBytes 4 0 ++ leBytes 4 entryCount

/-- `ArchiveEntryHeader::Make` -/
def archiveEntryHeader (keySize valueSize : Nat) : List UInt8 :=
  archiveEntryMagic ++ leBytes 4 keySize ++ leBytes 4 valueSize

/-! ## Writing -/

/-- `ArchiveWriter` -/
structure ArchiveWriter where
  buffer : List UInt8
  offset : Nat
deriving Repr, DecidableEq

/-- `ArchiveWriter::Write` -/
def ArchiveWriter.write (w : ArchiveWriter) (src : List UInt8) : Except KvFailure ArchiveWriter :=
  if w.buffer.length < addSize w.offset src.length ∨ addSize w.offset src.length ≤ w.offset then
    .error (.failed .invalidKeyValue)
  else .ok ⟨splice w.buffer w.offset src, w.offset + src.length⟩

/-- `ArchiveWriter::WriteHeader` -/
def ArchiveWriter.writeHeader (w : ArchiveWriter) (entryCount : Nat) : Except KvFailure ArchiveWriter :=
  if w.offset ≠ 0 then .error .aborted else rAssert (w.write (archiveHeader entryCount))

/-- `ArchiveWriter::WriteEntry` -/
def ArchiveWriter.writeEntry (w : ArchiveWriter) (key value : List UInt8) : Except KvFailure ArchiveWriter :=
  if w.offset = 0 then .error .aborted
  else do
    let w ← rAssert (w.write (archiveEntryHeader key.length value.length))
    let w ← rAssert (w.write key)
    rAssert (w.write value)

/-- The loop of `Save` over the entries. -/
def writeEntries (pod : Pod κ) (w : ArchiveWriter) : List (Entry κ) → Except KvFailure ArchiveWriter
  | [] => .ok w
  | e :: es => do
    let w ← w.writeEntry (pod.toBytes e.key) e.value
    writeEntries pod w es

/-- `GetArchiveSize`, with `ArchiveSizeHelper` -/
def getArchiveSize (pod : Pod κ) (entries : List (Entry κ)) : Nat :=
  entries.foldl (fun size e => addSize size (addSize 0xC (addSize pod.size e.value.length))) 0xC

/-- The part of `Save` that fills the buffer, in memory that was allocated for it. -/
def saveArchive (pod : Pod κ) (memory : List UInt8) (x : Index κ) : Except KvFailure ArchiveWriter := do
  let w ← (⟨memory, 0⟩ : ArchiveWriter).writeHeader x.count
  writeEntries pod w x.live

/-! ## Reading -/

/-- `ArchiveReader` -/
structure ArchiveReader where
  buffer : List UInt8
  offset : Nat

/-- `ArchiveReader::Peek` -/
def ArchiveReader.peek (r : ArchiveReader) (size : Nat) : Except KvFailure (List UInt8) :=
  if r.buffer.length < addSize r.offset size ∨ addSize r.offset size ≤ r.offset then
    .error (.failed .invalidKeyValue)
  else .ok (slice r.buffer r.offset size)

/-- `ArchiveReader::Read` -/
def ArchiveReader.read (r : ArchiveReader) (size : Nat) :
    Except KvFailure (List UInt8 × ArchiveReader) := do
  let bytes ← r.peek size
  .ok (bytes, { r with offset := r.offset + size })

/-- `Validate` of either header. -/
def validate (magic header : List UInt8) : Except KvFailure Unit :=
  if slice header 0 4 = magic then .ok () else .error (.failed .invalidKeyValue)

/-- A `u32` field of a header. -/
def field32 (header : List UInt8) (offset : Nat) : Nat := leValue (slice header offset 4)

/-- `ArchiveReader::ReadEntryCount` -/
def ArchiveReader.readEntryCount (r : ArchiveReader) : Except KvFailure (Nat × ArchiveReader) :=
  if r.offset ≠ 0 then .error .aborted
  else do
    let (header, r) ← r.read 0xC
    validate archiveHeaderMagic header
    .ok (field32 header 8, r)

/-- `ArchiveReader::GetEntrySize` -/
def ArchiveReader.getEntrySize (r : ArchiveReader) : Except KvFailure (Nat × Nat) :=
  if r.offset = 0 then .error .aborted
  else do
    let header ← r.peek 0xC
    validate archiveEntryMagic header
    .ok (field32 header 4, field32 header 8)

/-- `ArchiveReader::ReadEntry` -/
def ArchiveReader.readEntry (r : ArchiveReader) (keySize valueSize : Nat) :
    Except KvFailure (List UInt8 × List UInt8 × ArchiveReader) :=
  if r.offset = 0 then .error .aborted
  else do
    let (header, r) ← r.read 0xC
    validate archiveEntryMagic header
    if keySize ≠ field32 header 4 ∨ valueSize ≠ field32 header 8 then .error .aborted
    else do
      let (key, r) ← rAssert (r.read keySize)
      let (value, r) ← rAssert (r.read valueSize)
      .ok (key, value, r)

section Load

variable (pod : Pod κ) (allocates : Nat → Bool)

/-- The body of the loop of `Load`, given which sizes can be allocated. -/
def loadEntry (r : ArchiveReader) (x : Index κ) : Except KvFailure (ArchiveReader × Index κ) := do
  let (_, valueSize) ← r.getEntrySize
  if ¬allocates valueSize then .error (.failed .allocationFailed)
  else do
    let (key, value, r) ← r.readEntry pod.size valueSize
    match x.addUnsafe (pod.ofBytes key) value with
    | (.success, x) => .ok (r, x)
    | (e, _) => .error (.failed e)

/-- The loop of `Load`. -/
def loadEntries : Nat → ArchiveReader → Index κ → Except KvFailure (Index κ)
  | 0, _, x => .ok x
  | n + 1, r, x => do
    let (r, x) ← loadEntry pod allocates r x
    loadEntries n r x

/-- The part of `Load` that parses the archive. -/
def loadArchive (buffer : List UInt8) (x : Index κ) : Except KvFailure (Index κ) := do
  let (entryCount, r) ← (⟨buffer, 0⟩ : ArchiveReader).readEntryCount
  loadEntries pod allocates entryCount r { x with count := 0 }

end Load

/-! ## The bytes of an archive -/

/-- The bytes of an entry. -/
def entryBytes (pod : Pod κ) (e : Entry κ) : List UInt8 :=
  archiveEntryHeader pod.size e.value.length ++ pod.toBytes e.key ++ e.value

/-- The bytes of an archive of so many entries. -/
def archiveBytes (pod : Pod κ) (entries : List (Entry κ)) : List UInt8 :=
  archiveHeader entries.length ++ entries.flatMap (entryBytes pod)

@[simp] lemma length_archiveHeader (n : Nat) : (archiveHeader n).length = 0xC := by
  simp [archiveHeader, archiveHeaderMagic]

lemma archiveHeader_ne_nil (n : Nat) : archiveHeader n ≠ [] :=
  List.ne_nil_of_length_pos (by rw [length_archiveHeader]; exact Nat.succ_pos _)

@[simp] lemma length_archiveEntryHeader (m n : Nat) : (archiveEntryHeader m n).length = 0xC := by
  simp [archiveEntryHeader, archiveEntryMagic]

lemma length_entryBytes (pod : Pod κ) (e : Entry κ) : (entryBytes pod e).length = 0xC + pod.size + e.value.length := by
  simp only [entryBytes, List.length_append, length_archiveEntryHeader, pod.length_toBytes]

lemma length_archiveBytes (pod : Pod κ) (entries : List (Entry κ)) :
    (archiveBytes pod entries).length =
      0xC + (entries.map fun e => 0xC + pod.size + e.value.length).sum := by
  rw [archiveBytes, List.length_append, length_archiveHeader, List.length_flatMap]
  simp only [length_entryBytes]

/-- Going on after a success. -/
lemma ok_bind {α β : Type} (a : α) (f : α → Except KvFailure β) : (.ok a >>= f) = f a := rfl

lemma rAssert_ok {α : Type} (a : α) : rAssert (.ok a) = .ok a := rfl

lemma addSize_eq {a b : Nat} (h : a + b < 2 ^ 64) : addSize a b = a + b := Nat.mod_eq_of_lt h

/-- The size that is computed in advance is the size of the archive. -/
lemma getArchiveSize_eq (pod : Pod κ) (entries : List (Entry κ)) (hsize : (archiveBytes pod entries).length < 2 ^ 64) :
    getArchiveSize pod entries = (archiveBytes pod entries).length := by
  have hfold : ∀ (es : List (Entry κ)) (size : Nat), size + (es.flatMap (entryBytes pod)).length < 2 ^ 64 →
      es.foldl (fun size e => addSize size (addSize 0xC (addSize pod.size e.value.length))) size =
        size + (es.flatMap (entryBytes pod)).length := by
    intro es
    induction es with
    | nil => exact fun size _ => rfl
    | cons e es ih =>
      intro size h
      rw [List.flatMap_cons, List.length_append, length_entryBytes] at h ⊢
      rw [List.foldl_cons, addSize_eq (show pod.size + e.value.length < 2 ^ 64 by omega),
        addSize_eq (show 0xC + (pod.size + e.value.length) < 2 ^ 64 by omega),
        addSize_eq (by omega), ih _ (by omega)]
      omega
  rw [archiveBytes, List.length_append, length_archiveHeader] at hsize ⊢
  exact hfold entries 0xC hsize

section Write

variable {pod : Pod κ} {done free src : List UInt8}

/-- A write that is not empty goes behind what is done. -/
lemma write_eq (hpos : 0 < src.length) (hfit : src.length ≤ free.length) (hsize : (done ++ free).length < 2 ^ 64) :
    rAssert (ArchiveWriter.write ⟨done ++ free, done.length⟩ src) =
      .ok ⟨done ++ src ++ free.drop src.length, (done ++ src).length⟩ := by
  rw [List.length_append] at hsize
  have hsplice : splice (done ++ free) done.length src = done ++ src ++ free.drop src.length := by
    rw [splice, List.take_left, List.drop_append, List.drop_eq_nil_of_le (by omega),
      Nat.add_sub_cancel_left, List.nil_append]
  unfold ArchiveWriter.write
  dsimp only
  rw [addSize_eq (by omega), List.length_append, if_neg (by omega), hsplice, List.length_append]
  rfl

/-- An entry is written behind what is done. -/
lemma writeEntry_eq {e : Entry κ} (hdone : done ≠ []) (hvalue : 0 < e.value.length)
    (hfit : (entryBytes pod e).length ≤ free.length) (hsize : (done ++ free).length < 2 ^ 64) :
    ArchiveWriter.writeEntry ⟨done ++ free, done.length⟩ (pod.toBytes e.key) e.value =
      .ok ⟨done ++ entryBytes pod e ++ free.drop (entryBytes pod e).length,
        (done ++ entryBytes pod e).length⟩ := by
  have hpos := pod.size_pos
  have hkey := pod.length_toBytes e.key
  rw [length_entryBytes] at hfit
  rw [List.length_append] at hsize
  have hne : ¬done.length = 0 := fun h => hdone (List.length_eq_zero_iff.mp h)
  have hheader := length_archiveEntryHeader (pod.toBytes e.key).length e.value.length
  unfold ArchiveWriter.writeEntry
  rw [if_neg hne, write_eq (by omega) (by omega) (by rw [List.length_append]; omega), ok_bind,
    write_eq (by omega) (by rw [List.length_drop]; omega)
      (by simp only [List.length_append, List.length_drop]; omega), ok_bind,
    write_eq hvalue (by simp only [List.length_drop]; omega)
      (by simp only [List.length_append, List.length_drop]; omega)]
  have hsum : (archiveEntryHeader (pod.toBytes e.key).length e.value.length).length +
      (pod.toBytes e.key).length + e.value.length = (entryBytes pod e).length := by
    rw [hheader, hkey, length_entryBytes]
  rw [List.drop_drop, List.drop_drop, ← Nat.add_assoc, hsum, entryBytes, hkey]
  simp only [List.append_assoc]

/-- A write of nothing is rejected. -/
lemma write_nil (w : ArchiveWriter) : rAssert (w.write []) = .error .aborted := by
  have hle : addSize w.offset ([] : List UInt8).length ≤ w.offset := Nat.mod_le _ _
  rw [ArchiveWriter.write, if_pos (.inr hle)]
  rfl

/-- `Save` ends the process at a value that is empty. -/
lemma writeEntries_of_empty {es : List (Entry κ)} (h : ∃ e ∈ es, e.value = []) (w : ArchiveWriter) :
    ∃ f, writeEntries pod w es = .error f := by
  induction es generalizing w with
  | nil =>
    obtain ⟨e, he, -⟩ := h
    cases he
  | cons e es ih =>
    rw [writeEntries]
    cases hentry : w.writeEntry (pod.toBytes e.key) e.value with
    | error f => exact ⟨f, rfl⟩
    | ok w' =>
      obtain ⟨e', he', hvalue⟩ := h
      rcases List.mem_cons.mp he' with rfl | he'
      · rw [hvalue, ArchiveWriter.writeEntry] at hentry
        split at hentry
        · cases hentry
        · cases hheader : rAssert (w.write (archiveEntryHeader (pod.toBytes e'.key).length
            ([] : List UInt8).length)) with
          | error f =>
            rw [hheader] at hentry
            cases hentry
          | ok w₁ =>
            rw [hheader, ok_bind] at hentry
            cases hkey : rAssert (w₁.write (pod.toBytes e'.key)) with
            | error f =>
              rw [hkey] at hentry
              cases hentry
            | ok w₂ =>
              rw [hkey, ok_bind, write_nil] at hentry
              cases hentry
      · exact ih ⟨e', he', hvalue⟩ w'

/-- The entries are written one behind the other, up to the end of the buffer. -/
lemma writeEntries_eq {es : List (Entry κ)} (hdone : done ≠ []) (hvalues : ∀ e ∈ es, 0 < e.value.length)
    (hfree : free.length = (es.flatMap (entryBytes pod)).length) (hsize : (done ++ free).length < 2 ^ 64) :
    writeEntries pod ⟨done ++ free, done.length⟩ es =
      .ok ⟨done ++ es.flatMap (entryBytes pod), (done ++ es.flatMap (entryBytes pod)).length⟩ := by
  induction es generalizing done free with
  | nil =>
    rw [List.flatMap_nil, List.length_nil, List.length_eq_zero_iff] at hfree
    rw [writeEntries, hfree, List.flatMap_nil, List.append_nil]
  | cons e es ih =>
    rw [List.flatMap_cons, List.length_append] at hfree
    rw [writeEntries, writeEntry_eq hdone (hvalues e (by simp)) (by omega) hsize, ok_bind,
      ih (List.append_ne_nil_of_left_ne_nil hdone _)
        (fun e' he' => hvalues e' (List.mem_cons_of_mem _ he')) (by rw [List.length_drop]; omega) ?_]
    · rw [List.flatMap_cons, List.append_assoc]
    · rw [List.length_append] at hsize
      simp only [List.length_append, List.length_drop]
      omega

/-- `Save` fills its buffer with the archive, whatever was in the memory before. -/
lemma saveArchive_eq {x : Index κ} {memory : List UInt8} (hcount : x.live.length = x.count)
    (hvalues : ∀ e ∈ x.live, 0 < e.value.length) (hsize : (archiveBytes pod x.live).length < 2 ^ 64)
    (hmemory : memory.length = getArchiveSize pod x.live) :
    saveArchive pod memory x = .ok ⟨archiveBytes pod x.live, memory.length⟩ := by
  rw [getArchiveSize_eq pod x.live hsize] at hmemory
  have hheader := length_archiveHeader x.count
  have hlength : (archiveBytes pod x.live).length =
      0xC + (x.live.flatMap (entryBytes pod)).length := by
    rw [archiveBytes, List.length_append, length_archiveHeader]
  have hfirst : ArchiveWriter.writeHeader ⟨memory, 0⟩ x.count =
      .ok ⟨archiveHeader x.count ++ memory.drop 0xC, (archiveHeader x.count).length⟩ := by
    have hwrite : rAssert (ArchiveWriter.write ⟨[] ++ memory, ([] : List UInt8).length⟩
        (archiveHeader x.count)) = _ :=
      write_eq (by omega) (by omega) (by rw [List.nil_append]; omega)
    rw [hheader] at hwrite
    exact hwrite
  rw [saveArchive, hfirst, ok_bind, writeEntries_eq (archiveHeader_ne_nil _) hvalues
    (by rw [List.length_drop]; omega) ?_,
    hmemory, archiveBytes, hcount]
  rw [List.length_append, List.length_drop]
  omega

end Write

section Read

variable {pod : Pod κ} {pre bytes rest : List UInt8}

/-- What stands at the reader's offset is read. -/
lemma peek_eq (hpos : 0 < bytes.length) (hsize : (pre ++ bytes ++ rest).length < 2 ^ 64) :
    ArchiveReader.peek ⟨pre ++ bytes ++ rest, pre.length⟩ bytes.length = .ok bytes := by
  simp only [List.length_append] at hsize
  have hslice : slice (pre ++ bytes ++ rest) pre.length bytes.length = bytes := by
    rw [slice, List.append_assoc, List.drop_left, List.take_left]
  unfold ArchiveReader.peek
  dsimp only
  rw [addSize_eq (by omega), List.length_append, List.length_append, if_neg (by omega), hslice]

lemma read_eq (hpos : 0 < bytes.length) (hsize : (pre ++ bytes ++ rest).length < 2 ^ 64) :
    ArchiveReader.read ⟨pre ++ bytes ++ rest, pre.length⟩ bytes.length =
      .ok (bytes, ⟨pre ++ bytes ++ rest, (pre ++ bytes).length⟩) := by
  rw [ArchiveReader.read, peek_eq hpos hsize, ok_bind, List.length_append]

lemma validate_entryHeader (m n : Nat) :
    validate archiveEntryMagic (archiveEntryHeader m n) = .ok () := rfl

lemma field32_entryHeader (m n : Nat) :
    field32 (archiveEntryHeader m n) 4 = m % 2 ^ 32 ∧
      field32 (archiveEntryHeader m n) 8 = n % 2 ^ 32 :=
  ⟨leValue_leBytes 4 m, leValue_leBytes 4 n⟩

lemma field32_header (n : Nat) : field32 (archiveHeader n) 8 = n % 2 ^ 32 := leValue_leBytes 4 n

/-- The sizes of the next entry, as far as its header holds them. -/
lemma getEntrySize_eq {m n : Nat} (hpre : pre ≠ []) (hsize : (pre ++ archiveEntryHeader m n ++ rest).length < 2 ^ 64) :
    ArchiveReader.getEntrySize ⟨pre ++ archiveEntryHeader m n ++ rest, pre.length⟩ =
      .ok (m % 2 ^ 32, n % 2 ^ 32) := by
  have hne : ¬pre.length = 0 := fun h => hpre (List.length_eq_zero_iff.mp h)
  have hpeek : ArchiveReader.peek ⟨pre ++ archiveEntryHeader m n ++ rest, pre.length⟩ 0xC = _ :=
    peek_eq (by rw [length_archiveEntryHeader]; decide) hsize
  obtain ⟨hkey, hvalue⟩ := field32_entryHeader m n
  rw [ArchiveReader.getEntrySize, if_neg hne, hpeek, ok_bind, validate_entryHeader, ok_bind, hkey, hvalue]

/-- The next entry is read, its value as far as its size in the header says. -/
lemma readEntry_eq {key value : List UInt8} {m n : Nat} (hpre : pre ≠ []) (hkey : key.length = m)
    (hm : 0 < m) (hm' : m < 2 ^ 32) (hn : 0 < value.length) (hn' : value.length = n % 2 ^ 32)
    (hsize : (pre ++ (archiveEntryHeader m n ++ key ++ value) ++ rest).length < 2 ^ 64) :
    ArchiveReader.readEntry ⟨pre ++ (archiveEntryHeader m n ++ key ++ value) ++ rest, pre.length⟩ m
        value.length =
      .ok (key, value, ⟨pre ++ (archiveEntryHeader m n ++ key ++ value) ++ rest,
        (pre ++ (archiveEntryHeader m n ++ key ++ value)).length⟩) := by
  have hne : ¬pre.length = 0 := fun h => hpre (List.length_eq_zero_iff.mp h)
  have hheader := length_archiveEntryHeader m n
  obtain ⟨hfieldKey, hfieldValue⟩ := field32_entryHeader m n
  have hshape₁ : pre ++ (archiveEntryHeader m n ++ key ++ value) ++ rest =
      pre ++ archiveEntryHeader m n ++ (key ++ value ++ rest) := by
    simp only [List.append_assoc]
  have hshape₂ : pre ++ (archiveEntryHeader m n ++ key ++ value) ++ rest =
      pre ++ archiveEntryHeader m n ++ key ++ (value ++ rest) := by
    simp only [List.append_assoc]
  have hshape₃ : pre ++ (archiveEntryHeader m n ++ key ++ value) ++ rest =
      pre ++ archiveEntryHeader m n ++ key ++ value ++ rest := by
    simp only [List.append_assoc]
  generalize pre ++ (archiveEntryHeader m n ++ key ++ value) ++ rest = buffer at *
  have hread₁ : ArchiveReader.read ⟨buffer, pre.length⟩ 0xC =
      .ok (archiveEntryHeader m n, ⟨buffer, (pre ++ archiveEntryHeader m n).length⟩) := by
    rw [hshape₁] at hsize ⊢
    rw [← hheader]
    exact read_eq (by omega) hsize
  have hread₂ : ArchiveReader.read ⟨buffer, (pre ++ archiveEntryHeader m n).length⟩ m =
      .ok (key, ⟨buffer, (pre ++ archiveEntryHeader m n ++ key).length⟩) := by
    rw [hshape₂] at hsize ⊢
    have hread : ArchiveReader.read ⟨pre ++ archiveEntryHeader m n ++ key ++ (value ++ rest), _⟩
        key.length = _ := read_eq (by omega) hsize
    rwa [hkey] at hread
  have hread₃ : ArchiveReader.read ⟨buffer, (pre ++ archiveEntryHeader m n ++ key).length⟩
      value.length =
      .ok (value, ⟨buffer, (pre ++ archiveEntryHeader m n ++ key ++ value).length⟩) := by
    rw [hshape₃] at hsize ⊢
    exact read_eq hn hsize
  rw [ArchiveReader.readEntry, if_neg hne, hread₁, ok_bind]
  dsimp only
  rw [validate_entryHeader, ok_bind, if_neg, hread₂]
  · rw [rAssert_ok, ok_bind]
    dsimp only
    rw [hread₃, rAssert_ok, ok_bind]
    simp only [List.append_assoc]
  · rw [hfieldKey, hfieldValue, ← hn', Nat.mod_eq_of_lt hm']
    simp

end Read

/-! ## The round trip -/

section RoundTrip

variable {pod : Pod κ} {allocates : Nat → Bool}

lemma length_live {x : Index κ} (hcount : x.count ≤ x.capacity) : x.live.length = x.count := by
  rw [Index.live, List.length_take]
  exact Nat.min_eq_left hcount

/-- An entry that was added is behind the others. -/
lemma addUnsafe_live (x : Index κ) (e : Entry κ) (hroom : x.count < x.capacity) :
    x.addUnsafe e.key e.value = (.success, ⟨x.entries.set x.count e, x.count + 1⟩) ∧
      Index.live ⟨x.entries.set x.count e, x.count + 1⟩ = x.live ++ [e] := by
  refine ⟨?_, ?_⟩
  · rw [Index.addUnsafe, if_neg (Nat.not_le.mpr hroom)]
  · rw [Index.live, Index.live, List.take_add_one, List.take_set_of_le le_rfl,
      List.getElem?_set_self hroom]
    rfl

/-- An entry of the archive is loaded, its value as far as its size in the header says. -/
lemma loadEntry_eq {pre rest : List UInt8} {e : Entry κ} {x : Index κ} (hpre : pre ≠ []) (hkey : pod.size < 2 ^ 32)
    (hvalue : 0 < e.value.length % 2 ^ 32) (hsize : (pre ++ entryBytes pod e ++ rest).length < 2 ^ 64)
    (halloc : allocates (e.value.length % 2 ^ 32) = true) (hroom : x.count < x.capacity) :
    loadEntry pod allocates ⟨pre ++ entryBytes pod e ++ rest, pre.length⟩ x =
      .ok (⟨pre ++ entryBytes pod e ++ rest, pre.length + 0xC + pod.size + e.value.length % 2 ^ 32⟩,
        ⟨x.entries.set x.count ⟨e.key, e.value.take (e.value.length % 2 ^ 32)⟩, x.count + 1⟩) := by
  have hle : e.value.length % 2 ^ 32 ≤ e.value.length := Nat.mod_le _ _
  have hlen : (e.value.take (e.value.length % 2 ^ 32)).length = e.value.length % 2 ^ 32 := by
    rw [List.length_take, Nat.min_eq_left hle]
  have hcut : e.value = e.value.take (e.value.length % 2 ^ 32) ++
      e.value.drop (e.value.length % 2 ^ 32) := (List.take_append_drop _ _).symm
  have hshape₁ : pre ++ entryBytes pod e ++ rest = pre ++
      archiveEntryHeader pod.size e.value.length ++ (pod.toBytes e.key ++ e.value ++ rest) := by
    simp only [entryBytes, List.append_assoc]
  have hshape₂ : pre ++ entryBytes pod e ++ rest = pre ++
      (archiveEntryHeader pod.size e.value.length ++ pod.toBytes e.key ++ e.value.take (e.value.length % 2 ^ 32)) ++
          (e.value.drop (e.value.length % 2 ^ 32) ++ rest) := by
    rw [entryBytes]
    nth_rewrite 2 [hcut]
    simp only [List.append_assoc]
  generalize pre ++ entryBytes pod e ++ rest = buffer at *
  have hsizes : ArchiveReader.getEntrySize ⟨buffer, pre.length⟩ =
      .ok (pod.size % 2 ^ 32, e.value.length % 2 ^ 32) := by
    rw [hshape₁] at hsize ⊢
    exact getEntrySize_eq hpre hsize
  have hread : ArchiveReader.readEntry ⟨buffer, pre.length⟩ pod.size
      (e.value.take (e.value.length % 2 ^ 32)).length = .ok (pod.toBytes e.key,
        e.value.take (e.value.length % 2 ^ 32), ⟨buffer, (pre ++
          (archiveEntryHeader pod.size e.value.length ++ pod.toBytes e.key ++
            e.value.take (e.value.length % 2 ^ 32))).length⟩) := by
    rw [hshape₂] at hsize ⊢
    exact readEntry_eq hpre (pod.length_toBytes e.key) pod.size_pos hkey (by omega) hlen hsize
  obtain ⟨hadd, -⟩ := addUnsafe_live x ⟨e.key, e.value.take (e.value.length % 2 ^ 32)⟩ hroom
  rw [hlen] at hread
  rw [loadEntry, hsizes, ok_bind]
  dsimp only
  rw [if_neg (by rw [halloc]; decide), hread, ok_bind]
  dsimp only
  rw [pod.ofBytes_toBytes, hadd]
  simp only [List.length_append, length_archiveEntryHeader, pod.length_toBytes, hlen, Nat.add_assoc]

/-- The entries of the archive are loaded behind those the store has. -/
lemma loadEntries_eq {pre : List UInt8} {es : List (Entry κ)} {x : Index κ} (hpre : pre ≠ [])
    (hkey : pod.size < 2 ^ 32)
    (hvalues : ∀ e ∈ es, 0 < e.value.length ∧ e.value.length < 2 ^ 32 ∧
      allocates e.value.length = true)
    (hsize : (pre ++ es.flatMap (entryBytes pod)).length < 2 ^ 64)
    (hroom : x.count + es.length ≤ x.capacity) :
    ∃ y, loadEntries pod allocates es.length ⟨pre ++ es.flatMap (entryBytes pod), pre.length⟩ x =
      .ok y ∧ y.live = x.live ++ es := by
  induction es generalizing pre x with
  | nil => exact ⟨x, rfl, (List.append_nil _).symm⟩
  | cons e es ih =>
    obtain ⟨hpos, hlt, halloc⟩ := hvalues e List.mem_cons_self
    rw [List.flatMap_cons, ← List.append_assoc] at hsize ⊢
    rw [List.length_cons] at hroom
    have hroom' : x.count < x.capacity := by omega
    have hmod : e.value.length % 2 ^ 32 = e.value.length := Nat.mod_eq_of_lt hlt
    have hload : loadEntry pod allocates _ x = _ :=
      loadEntry_eq hpre hkey (by rwa [hmod]) hsize (by rwa [hmod]) hroom'
    have hoffset : pre.length + 0xC + pod.size + e.value.length = (pre ++ entryBytes pod e).length := by
      rw [List.length_append, length_entryBytes]
      omega
    rw [hmod, List.take_length, hoffset] at hload
    obtain ⟨-, hlive⟩ := addUnsafe_live x e hroom'
    obtain ⟨y, hy, hylive⟩ := ih (x := ⟨x.entries.set x.count e, x.count + 1⟩)
      (List.append_ne_nil_of_left_ne_nil hpre _)
      (fun e' he' => hvalues e' (List.mem_cons_of_mem _ he')) hsize
      (by simp only [Index.capacity, List.length_set] at hroom ⊢; omega)
    refine ⟨y, ?_, ?_⟩
    · rw [List.length_cons, loadEntries, hload, ok_bind]
      exact hy
    · rw [hylive, hlive, List.append_assoc]
      rfl

/-- The header of an archive is read, its count as far as 32 bits hold it. -/
lemma readEntryCount_eq {n : Nat} {rest : List UInt8} (hsize : (archiveHeader n ++ rest).length < 2 ^ 64) :
    ArchiveReader.readEntryCount ⟨archiveHeader n ++ rest, 0⟩ =
      .ok (n % 2 ^ 32, ⟨archiveHeader n ++ rest, 0xC⟩) := by
  have hread : ArchiveReader.read ⟨[] ++ archiveHeader n ++ rest, 0⟩ (archiveHeader n).length = _ :=
    read_eq (by rw [length_archiveHeader]; decide) hsize
  rw [List.nil_append, length_archiveHeader] at hread
  have hvalid : validate archiveHeaderMagic (archiveHeader n) = .ok () := rfl
  rw [ArchiveReader.readEntryCount, if_neg (fun h => h rfl), hread, ok_bind]
  dsimp only
  rw [hvalid, ok_bind, field32_header]

/-- `Load` gets the entries of an archive back. -/
lemma loadArchive_eq {es : List (Entry κ)} {y : Index κ} (hkey : pod.size < 2 ^ 32)
    (hcount : es.length < 2 ^ 32)
    (hvalues : ∀ e ∈ es, 0 < e.value.length ∧ e.value.length < 2 ^ 32 ∧
      allocates e.value.length = true)
    (hsize : (archiveBytes pod es).length < 2 ^ 64) (hroom : es.length ≤ y.capacity) :
    ∃ y', loadArchive pod allocates (archiveBytes pod es) y = .ok y' ∧ y'.live = es := by
  have hheader := length_archiveHeader es.length
  obtain ⟨y', hy', hlive⟩ := loadEntries_eq (x := { y with count := 0 })
    (archiveHeader_ne_nil _) hkey hvalues hsize (by rwa [Nat.zero_add])
  refine ⟨y', ?_, hlive⟩
  rw [archiveBytes, loadArchive, readEntryCount_eq hsize, ok_bind, Nat.mod_eq_of_lt hcount]
  rwa [hheader] at hy'

/-- A store is saved and loaded: `Save` writes the whole of the buffer it computed the size of, over
whatever was in the memory, and `Load` gets the entries back where 32 bits hold their number and
their sizes. -/
theorem loadArchive_saveArchive (pod : Pod κ) (allocates : Nat → Bool) (x : Index κ)
    (hcount : x.count ≤ x.capacity) (hvalues : ∀ e ∈ x.live, e.value ≠ [])
    (hsize : 0xC + (x.live.map fun e => 0xC + pod.size + e.value.length).sum < 2 ^ 64) :
    (∀ memory : List UInt8, memory.length = getArchiveSize pod x.live →
      saveArchive pod memory x = .ok ⟨archiveBytes pod x.live, memory.length⟩) ∧
    (x.count < 2 ^ 32 → pod.size < 2 ^ 32 → (∀ e ∈ x.live, e.value.length < 2 ^ 32) →
      (∀ e ∈ x.live, allocates e.value.length = true) →
      ∀ y : Index κ, x.count ≤ y.capacity →
        ∃ y', loadArchive pod allocates (archiveBytes pod x.live) y = .ok y' ∧ y'.live = x.live) := by
  rw [← length_archiveBytes] at hsize
  have hlive := length_live hcount
  have hpos : ∀ e ∈ x.live, 0 < e.value.length := fun e he => List.length_pos_iff.mpr (hvalues e he)
  refine ⟨?_, ?_⟩
  · intro memory hmemory
    exact saveArchive_eq hlive hpos hsize hmemory
  · intro hcount32 hkey32 hvalues32 halloc y hroom
    rw [← hlive] at hcount32 hroom
    exact loadArchive_eq hkey32 hcount32
      (fun e he => ⟨hpos e he, hvalues32 e he, halloc e he⟩) hsize hroom

end RoundTrip

/-- Keys of one byte. -/
def bytePod : Pod UInt8 where
  size := 1
  size_pos := Nat.one_pos
  toBytes k := [k]
  ofBytes bytes := bytes.headD 0
  length_toBytes _ := rfl
  ofBytes_toBytes _ := rfl

/-- Two entries, in a store with room for three. -/
theorem loadArchive_saveArchive_two :
    let x : Index UInt8 := ⟨[⟨1, [5, 6]⟩, ⟨2, [7]⟩, ⟨0, []⟩], 2⟩
    (∀ memory : List UInt8, memory.length = getArchiveSize bytePod x.live →
      saveArchive bytePod memory x = .ok ⟨archiveBytes bytePod x.live, memory.length⟩) ∧
    ∃ y', loadArchive bytePod (fun _ => true) (archiveBytes bytePod x.live)
      ⟨[⟨9, [9]⟩, ⟨0, []⟩], 1⟩ = .ok y' ∧ y'.live = x.live := by
  intro x
  obtain ⟨hsave, hload⟩ := loadArchive_saveArchive bytePod (fun _ => true) x (by decide) (by decide)
    (by decide)
  exact ⟨hsave, hload (by decide) (by decide) (by decide) (by decide) _ (by decide)⟩

/-- A value of more than 32 bits of bytes comes back cut off. -/
lemma loadArchive_cuts_value {value : List UInt8} (hvalue : value.length = 2 ^ 32 + 1) :
    loadArchive bytePod (fun _ => true) (archiveBytes bytePod [⟨7, value⟩]) ⟨[⟨0, []⟩], 0⟩ =
      .ok ⟨[⟨7, value.take 1⟩], 1⟩ := by
  have hmod : value.length % 2 ^ 32 = 1 := by omega
  have hentry : [(⟨7, value⟩ : Entry UInt8)].flatMap (entryBytes bytePod) =
      entryBytes bytePod ⟨7, value⟩ := List.append_nil _
  have hsize : (archiveHeader 1 ++ entryBytes bytePod ⟨7, value⟩).length < 2 ^ 64 := by
    rw [List.length_append, length_archiveHeader, length_entryBytes, hvalue]
    decide
  have hload := @loadEntry_eq _ bytePod (fun _ => true) (archiveHeader 1) [] ⟨7, value⟩
    ⟨[⟨0, []⟩], 0⟩ nofun (by decide) (by rw [hmod]; decide) (by rwa [List.append_nil]) rfl (by decide)
  rw [List.append_nil, length_archiveHeader, hmod] at hload
  rw [archiveBytes, hentry, List.length_singleton, loadArchive, readEntryCount_eq hsize, ok_bind]
  dsimp only
  rw [show 1 % 2 ^ 32 = 1 from rfl, loadEntries, hload, ok_bind]
  rfl

/-- A value that is not empty, in an archive whose size fits 64 bits, is not loaded as it was saved. -/
theorem loadArchive_loses_value :
    let x : Index UInt8 := ⟨[⟨7, List.replicate (2 ^ 32 + 1) 1⟩], 1⟩
    x.count ≤ x.capacity ∧ (∀ e ∈ x.live, e.value ≠ []) ∧
    0xC + (x.live.map fun e => 0xC + bytePod.size + e.value.length).sum < 2 ^ 64 ∧
    (∀ memory : List UInt8, memory.length = getArchiveSize bytePod x.live →
      saveArchive bytePod memory x = .ok ⟨archiveBytes bytePod x.live, memory.length⟩) ∧
    ∃ y', loadArchive bytePod (fun _ => true) (archiveBytes bytePod x.live) ⟨[⟨0, []⟩], 0⟩ = .ok y' ∧
      y'.live ≠ x.live := by
  have hlength : (List.replicate (2 ^ 32 + 1) (1 : UInt8)).length = 2 ^ 32 + 1 := List.length_replicate
  revert hlength
  generalize List.replicate (2 ^ 32 + 1) (1 : UInt8) = value
  intro hlength x
  have hlive : x.live = [⟨7, value⟩] := rfl
  have hpos : ∀ e ∈ x.live, 0 < e.value.length := by
    intro e he
    rw [hlive, List.mem_singleton] at he
    rw [he]
    exact hlength ▸ Nat.succ_pos _
  have hsize : 0xC + (x.live.map fun e => 0xC + bytePod.size + e.value.length).sum < 2 ^ 64 := by
    rw [hlive, List.map_singleton, List.sum_singleton, hlength]
    decide
  refine ⟨le_rfl, fun e he => List.length_pos_iff.mp (hpos e he), hsize, ?_, ⟨_, loadArchive_cuts_value hlength, ?_⟩⟩
  · intro memory hmemory
    exact saveArchive_eq rfl hpos (by rwa [length_archiveBytes]) hmemory
  · intro h
    have hvalue : [(⟨7, value.take 1⟩ : Entry UInt8)] = [⟨7, value⟩] := h
    have hcut := congrArg List.length (congrArg Entry.value (List.singleton_inj.mp hvalue))
    rw [List.length_take, hlength] at hcut
    omega

end RajNX.Kvdb
