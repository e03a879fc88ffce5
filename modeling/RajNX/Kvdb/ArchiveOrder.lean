import RajNX.Kvdb.Archive
import RajNX.Lib.Fallible

/-!
# The order of an archive

`Load` adds the entries of an archive in their order, unchecked, and the store searches them by bisection. A
store that was loaded from any bytes is sorted exactly when the keys in the bytes are.
-/

namespace RajNX.Kvdb

open Fallible Splice LittleEndian

variable {κ : Type} {pod : Pod κ} {allocates : Nat → Bool}

/-- The keys of so many entries in the bytes of an archive, from an offset on: each entry is as long as its
header says. -/
def keysFrom (pod : Pod κ) (buffer : List UInt8) : Nat → Nat → List κ
  | 0, _ => []
  | n + 1, offset => pod.ofBytes (slice buffer (offset + 0xC) pod.size) ::
      keysFrom pod buffer n (offset + 0xC + pod.size + field32 (slice buffer offset 0xC) 8)

/-- The keys in the bytes of an archive. -/
def storedKeys (pod : Pod κ) (buffer : List UInt8) : List κ :=
  keysFrom pod buffer (field32 (slice buffer 0 0xC) 8) 0xC

/-! ## What reading gives -/

lemma rAssert_eq_ok {α : Type} {p : Except KvFailure α} {a : α} (h : rAssert p = .ok a) : p = .ok a := by
  cases p with
  | ok => exact h
  | error => cases h

variable {r : ArchiveReader}

lemma peek_ok {size : Nat} {bytes : List UInt8} (h : r.peek size = .ok bytes) :
    bytes = slice r.buffer r.offset size := by
  unfold ArchiveReader.peek at h
  split at h
  next => cases h
  next => exact (Except.ok.inj h).symm

variable {r r' : ArchiveReader}

lemma read_ok {size : Nat} {bytes : List UInt8} (h : r.read size = .ok (bytes, r')) :
    bytes = slice r.buffer r.offset size ∧ r' = { r with offset := r.offset + size } := by
  obtain ⟨bytes', hpeek, hresult⟩ := bind_eq_ok h
  cases hresult
  exact ⟨peek_ok hpeek, rfl⟩

lemma getEntrySize_ok {keySize valueSize : Nat}
    (h : r.getEntrySize = .ok (keySize, valueSize)) : valueSize = field32 (slice r.buffer r.offset 0xC) 8 := by
  unfold ArchiveReader.getEntrySize at h
  split at h
  next => cases h
  next =>
    obtain ⟨header, hpeek, hrest⟩ := bind_eq_ok h
    obtain ⟨-, -, hresult⟩ := bind_eq_ok hrest
    cases hresult
    rw [peek_ok hpeek]

lemma readEntry_ok {keySize valueSize : Nat} {key value : List UInt8}
    (h : r.readEntry keySize valueSize = .ok (key, value, r')) :
    key = slice r.buffer (r.offset + 0xC) keySize ∧
      r' = { r with offset := r.offset + 0xC + keySize + valueSize } := by
  unfold ArchiveReader.readEntry at h
  split at h
  next => cases h
  next =>
    obtain ⟨⟨header, r₁⟩, hheader, hrest⟩ := bind_eq_ok h
    obtain ⟨-, -, hrest⟩ := bind_eq_ok hrest
    split at hrest
    next => cases hrest
    next =>
      obtain ⟨⟨key', r₂⟩, hkey, hrest⟩ := bind_eq_ok hrest
      obtain ⟨⟨value', r₃⟩, hvalue, hresult⟩ := bind_eq_ok hrest
      cases hresult
      obtain ⟨-, rfl⟩ := read_ok hheader
      obtain ⟨rfl, rfl⟩ := read_ok (rAssert_eq_ok hkey)
      obtain ⟨-, rfl⟩ := read_ok (rAssert_eq_ok hvalue)
      exact ⟨rfl, rfl⟩

lemma readEntryCount_ok {n : Nat} (h : r.readEntryCount = .ok (n, r')) :
    r.offset = 0 ∧ n = field32 (slice r.buffer 0 0xC) 8 ∧ r' = { r with offset := 0xC } := by
  unfold ArchiveReader.readEntryCount at h
  split at h
  next => cases h
  next hzero =>
    rw [ne_eq, not_not] at hzero
    obtain ⟨⟨header, r₁⟩, hheader, hrest⟩ := bind_eq_ok h
    obtain ⟨-, -, hresult⟩ := bind_eq_ok hrest
    cases hresult
    obtain ⟨rfl, rfl⟩ := read_ok hheader
    rw [hzero]
    exact ⟨rfl, rfl, rfl⟩

/-! ## Loading -/

/-- An entry that is loaded is behind the others, with the key that is next in the bytes. -/
lemma loadEntry_ok {x x' : Index κ} (h : loadEntry pod allocates r x = .ok (r', x')) :
    r' = { r with
      offset := r.offset + 0xC + pod.size + field32 (slice r.buffer r.offset 0xC) 8 } ∧
    x'.count = x.count + 1 ∧ x'.count ≤ x'.capacity ∧
      x'.live.map (·.key) = x.live.map (·.key) ++ [pod.ofBytes (slice r.buffer (r.offset + 0xC) pod.size)] := by
  obtain ⟨⟨keySize, valueSize⟩, hsize, hrest⟩ := bind_eq_ok h
  obtain rfl := getEntrySize_ok hsize
  dsimp only at hrest
  split at hrest
  next => cases hrest
  next =>
    obtain ⟨⟨key, value, r₁⟩, hentry, hadd⟩ := bind_eq_ok hrest
    obtain ⟨rfl, rfl⟩ := readEntry_ok hentry
    by_cases hroom : x.count < x.capacity
    · obtain ⟨hsuccess, hlive⟩ :=
        addUnsafe_live x ⟨pod.ofBytes (slice r.buffer (r.offset + 0xC) pod.size), value⟩ hroom
      dsimp only at hsuccess hadd
      rw [hsuccess] at hadd
      cases hadd
      refine ⟨rfl, rfl, ?_, ?_⟩
      · rw [Index.capacity, List.length_set]
        exact hroom
      · rw [hlive, List.map_append]
        rfl
    · dsimp only at hadd
      rw [Index.addUnsafe, if_pos (Nat.le_of_not_lt hroom)] at hadd
      cases hadd

/-- The loop adds the keys in their order. -/
lemma loadEntries_ok {n : Nat} {x y : Index κ} (h : loadEntries pod allocates n r x = .ok y)
    (hcount : x.count ≤ x.capacity) :
    y.count ≤ y.capacity ∧ y.live.map (·.key) = x.live.map (·.key) ++ keysFrom pod r.buffer n r.offset := by
  induction n generalizing r x with
  | zero =>
    cases h
    exact ⟨hcount, (List.append_nil _).symm⟩
  | succ n ih =>
    obtain ⟨⟨r₁, x₁⟩, hentry, hrest⟩ := bind_eq_ok h
    obtain ⟨rfl, -, hcount₁, hkeys⟩ := loadEntry_ok hentry
    obtain ⟨hcapacity, hall⟩ := ih hrest hcount₁
    refine ⟨hcapacity, ?_⟩
    rw [hall, hkeys, keysFrom, List.append_assoc]
    rfl

/-- The keys of the store are those in the bytes, in their order. -/
lemma loadArchive_ok {buffer : List UInt8} {x y : Index κ} (h : loadArchive pod allocates buffer x = .ok y) :
    y.count ≤ y.capacity ∧ y.live.map (·.key) = storedKeys pod buffer := by
  obtain ⟨⟨n, r⟩, hheader, hrest⟩ := bind_eq_ok h
  obtain ⟨-, rfl, rfl⟩ := readEntryCount_ok hheader
  obtain ⟨hcapacity, hkeys⟩ := loadEntries_ok hrest (Nat.zero_le _)
  exact ⟨hcapacity, hkeys.trans (List.nil_append _)⟩

section Usable

variable [LinearOrder κ]

/-- A store that works: its keys are distinct and sorted, and `Get` finds every entry. -/
structure Usable (y : Index κ) : Prop where
  sorted : Sorted y.live
  nodup : (y.live.map (·.key)).Nodup
  get : ∀ e ∈ y.live, ∀ maxOutSize, y.get e.key maxOutSize =
    ⟨.success, some (min maxOutSize e.value.length), e.value.take (min maxOutSize e.value.length)⟩

/-- `Get` finds the entries of a sorted store. -/
lemma get_of_mem {y : Index κ} (hcount : y.count ≤ y.capacity) (hsorted : Sorted y.live) {e : Entry κ}
    (he : e ∈ y.live) (maxOutSize : Nat) : y.get e.key maxOutSize =
      ⟨.success, some (min maxOutSize e.value.length), e.value.take (min maxOutSize e.value.length)⟩ := by
  cases located hcount hsorted e.key with
  | hit L e' R rest hentries hcount' hbound hkey hL hR =>
    have hlive : y.live = L ++ e' :: R := by
      rw [Index.live, hentries, hcount']
      exact List.take_left' (by simp; omega)
    obtain rfl : e = e' := by
      rw [hlive] at he
      rcases List.mem_append.mp he with hmem | hmem
      · exact absurd rfl (hL e hmem).ne
      · rcases List.mem_cons.mp hmem with heq | hmem
        · exact heq
        · exact absurd rfl (hR e hmem).ne
    obtain ⟨hfind, hentry⟩ := find_hit hentries hcount' hbound hkey
    have hne : L.length ≠ y.count := by omega
    simp only [Index.get, hfind, if_neg hne, hentry]
  | miss L R rest hentries hcount' hbound hL hR =>
    have hlive : y.live = L ++ R := by
      rw [Index.live, hentries, hcount']
      exact List.take_left' (by simp)
    rw [hlive] at he
    rcases List.mem_append.mp he with hmem | hmem
    · exact absurd rfl (hL e hmem).ne
    · exact absurd rfl (hR e hmem).ne

/-- After `Load` of any bytes the store works exactly when the keys in the bytes are strictly sorted. -/
theorem loadArchive_usable_iff {buffer : List UInt8} {x y : Index κ} (h : loadArchive pod allocates buffer x = .ok y) :
    Usable y ↔ (storedKeys pod buffer).Pairwise (· < ·) := by
  obtain ⟨hcount, hkeys⟩ := loadArchive_ok h
  rw [← hkeys, List.pairwise_map]
  constructor
  · exact fun hy => hy.sorted
  · intro hsorted
    refine ⟨hsorted, ?_, fun e he => get_of_mem hcount hsorted he⟩
    exact List.pairwise_map.mpr (hsorted.imp fun hlt => hlt.ne)

end Usable

/-- Ordered keys of one byte. -/
def finPod : Pod (Fin 256) where
  size := 1
  size_pos := Nat.one_pos
  toBytes k := [UInt8.ofNat k.val]
  ofBytes bytes := Fin.ofNat 256 (bytes.headD 0).toNat
  length_toBytes _ := rfl
  ofBytes_toBytes k := by
    apply Fin.ext
    have hlt := k.isLt
    simp only [List.headD_cons, UInt8.toNat_ofNat', Fin.val_ofNat]
    omega

/-- Two entries in their order. -/
theorem loadArchive_usable_iff_sorted :
    ∃ y, loadArchive finPod (fun _ => true) (archiveBytes finPod [⟨1, [5]⟩, ⟨2, [6]⟩])
        ⟨[⟨0, []⟩, ⟨0, []⟩], 0⟩ = .ok y ∧
      (Usable y ↔ (storedKeys finPod (archiveBytes finPod [⟨1, [5]⟩, ⟨2, [6]⟩])).Pairwise (· < ·)) := by
  obtain ⟨y, hy, -⟩ := @loadArchive_eq _ finPod (fun _ => true) [⟨1, [5]⟩, ⟨2, [6]⟩] ⟨[⟨0, []⟩, ⟨0, []⟩], 0⟩
    (by decide) (by decide) (by decide) (by decide) (by decide)
  exact ⟨y, hy, loadArchive_usable_iff hy⟩

/-- Two entries the other way around are loaded all the same, and the first one is not found. -/
theorem loadArchive_unsorted :
    ∃ y, loadArchive finPod (fun _ => true) (archiveBytes finPod [⟨2, [6]⟩, ⟨1, [5]⟩])
        ⟨[⟨0, []⟩, ⟨0, []⟩], 0⟩ = .ok y ∧
      ¬Sorted y.live ∧ ⟨2, [6]⟩ ∈ y.live ∧ (y.get 2 1).result = .keyNotFound := by
  refine ⟨⟨[⟨2, [6]⟩, ⟨1, [5]⟩], 2⟩, by rfl, ?_, by decide, by decide +kernel⟩
  exact fun h => absurd (List.rel_of_pairwise_cons h (List.mem_singleton_self _)) (by decide)

end RajNX.Kvdb
