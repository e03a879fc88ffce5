import RajNX.Kvdb.FileKeyValueStore

/-!
# The cache of the file store is invisible

What the buffer of the cache holds is a list of keys with their values (`Holds`): an entry for each of
them at the start, the values behind the room for all the entries. The operations of the cache are said
by what they do to that list. Every value in it is the contents of the key's file, so that the store
replies as one without a cache does.

The size of the array of entries is computed in 64 bits and must not overflow: else the values lie over
the entries.
-/

namespace RajNX.Kvdb

open FlatMemory LittleEndian

/-! ## Paths -/

lemma appendPath_eq {path s path' : List UInt8} (h : appendPath path s = some path') : path' = path ++ s := by
  unfold appendPath at h
  split at h
  · cases h
  · exact (Option.some.inj h).symm

lemma appendKey_eq {path key path' : List UInt8} (h : appendKey path key = some path') :
    path' = path ++ key.flatMap hexByte := by
  induction key generalizing path with
  | nil =>
    rw [List.flatMap_nil, List.append_nil]
    exact (Option.some.inj h).symm
  | cons b key ih =>
    obtain ⟨path₁, h₁, h⟩ := Option.bind_eq_some_iff.mp h
    rw [ih h, appendPath_eq h₁, List.flatMap_cons, List.append_assoc]

lemma getPath_eq {dirPath key path : List UInt8} (h : getPath dirPath key = some path) :
    path = dirPath ++ [0x2F] ++ key.flatMap hexByte ++ fileExtension := by
  obtain ⟨path₁, h₁, h⟩ := Option.bind_eq_some_iff.mp h
  obtain ⟨path₂, h₂, h⟩ := Option.bind_eq_some_iff.mp h
  rw [appendPath_eq h, appendKey_eq h₂, appendPath_eq h₁]

lemma hexChar_inj {m n : Nat} (hm : m < 16) (hn : n < 16) (h : hexChar m = hexChar n) : m = n := by
  have hall : ∀ i < 16, (hexChar i).toNat = if i < 10 then 0x30 + i else 0x57 + i := by decide
  have heq := congrArg UInt8.toNat h
  rw [hall m hm, hall n hn] at heq
  split at heq <;> split at heq <;> omega

lemma hexByte_inj {a b : UInt8} (h : hexByte a = hexByte b) : a = b := by
  have ha := a.toNat_lt
  have hb := b.toNat_lt
  have hhigh := hexChar_inj (by omega) (by omega) (List.head_eq_of_cons_eq h)
  have hlow := hexChar_inj (by omega) (by omega)
    (List.head_eq_of_cons_eq (List.tail_eq_of_cons_eq h))
  exact UInt8.toNat_inj.mp (by omega)

lemma flatMap_hexByte_inj {key key' : List UInt8} (h : key.flatMap hexByte = key'.flatMap hexByte) : key = key' := by
  induction key generalizing key' with
  | nil =>
    cases key' with
    | nil => rfl
    | cons b key' => cases h
  | cons a key ih =>
    cases key' with
    | nil => cases h
    | cons b key' =>
      rw [List.flatMap_cons, List.flatMap_cons] at h
      obtain ⟨hbyte, hrest⟩ := List.append_inj h rfl
      rw [ih hrest, hexByte_inj hbyte]

/-- Different keys have different files. -/
lemma getPath_inj {dirPath key key' path : List UInt8} (h : getPath dirPath key = some path)
    (h' : getPath dirPath key' = some path) : key = key' := by
  have heq := (getPath_eq h).symm.trans (getPath_eq h')
  rw [List.append_left_inj, List.append_right_inj] at heq
  exact flatMap_hexByte_inj heq

/-! ## What the cache holds -/

namespace Cache

/-- The entry at an address holds a key and its value, the value between two addresses. -/
structure HoldsEntry (m : Memory) (a lo hi : Nat) (kv : List UInt8 × List UInt8) : Prop where
  key_le : kv.1.length ≤ maxKeySize
  value_pos : 0 < kv.2.length
  key : m.load a kv.1.length = some kv.1
  keySize : m.load (a + keySizeOffset) 8 = some (leBytes 8 kv.1.length)
  value : ∃ v, lo ≤ v ∧ v + kv.2.length ≤ hi ∧ m.load (a + valueOffset) 8 = some (leBytes 8 v) ∧
    m.load v kv.2.length = some kv.2
  valueSize : m.load (a + valueSizeOffset) 8 = some (leBytes 8 kv.2.length)

/-- The cache holds these keys and values. -/
structure Holds (c : Cache) (m : Memory) (contents : List (List UInt8 × List UInt8)) : Prop where
  buffer : c.backingBuffer = some m
  entries : c.entries = some m.base
  capacity_pos : 0 < c.capacity
  entries_le : entrySize * c.capacity ≤ c.freeOffset
  free_le : c.freeOffset ≤ m.size
  count_eq : c.count = contents.length
  count_le : contents.length ≤ c.capacity
  entry : ∀ i kv, contents[i]? = some kv →
    HoldsEntry m (m.base + entrySize * i) (m.base + entrySize * c.capacity) (m.base + c.freeOffset) kv

section Holds

variable {c : Cache} {m : Memory} {contents : List (List UInt8 × List UInt8)} {key value : List UInt8}

lemma Holds.hasEntries (h : c.Holds m contents) : c.hasEntries = true := by
  have hpos := h.capacity_pos
  rw [Cache.hasEntries, h.entries]
  simp only [Option.isSome_some, Bool.true_and, decide_eq_true_eq, ne_eq]
  omega

/-- The size of the array of entries is what it is computed to be. -/
lemma Holds.entriesSize_eq (h : c.Holds m contents) : c.entriesSize = entrySize * c.capacity := by
  have hroom := h.entries_le
  have hfree := h.free_le
  have hfits := m.fits
  rw [Memory.size] at hfree
  refine Nat.mod_eq_of_lt ?_
  unfold entrySize at hroom ⊢
  omega

/-- A value of the cache is in the address space. -/
lemma Holds.value_bounds (h : c.Holds m contents) {v n : Nat}
    (hlo : m.base + entrySize * c.capacity ≤ v) (hhi : v + n ≤ m.base + c.freeOffset) :
    v + n ≤ 2 ^ 64 ∧ n < 2 ^ 64 := by
  have hfree := h.free_le
  have hfits := m.fits
  have hpos := h.capacity_pos
  rw [Memory.size] at hfree
  unfold entrySize at hlo
  omega

lemma allocate_some {size : Nat} (hbuffer : c.backingBuffer = some m) (hsize : size ≤ m.size - c.freeOffset) :
    c.allocate size = (some (m.base + c.freeOffset), { c with freeOffset := c.freeOffset + size }) := by
  rw [allocate, hbuffer]
  exact if_neg (Nat.not_lt.mpr hsize)

lemma allocate_none {size : Nat} (hbuffer : c.backingBuffer = some m)
    (hsize : m.size - c.freeOffset < size) : c.allocate size = (none, c) := by
  rw [allocate, hbuffer]
  exact if_pos hsize

/-- An empty cache, with the room for the entries taken. -/
lemma holds_nil (hbuffer : c.backingBuffer = some m) (hentries : c.entries = some m.base)
    (hcapacity : 0 < c.capacity) (hfree : c.freeOffset = entrySize * c.capacity)
    (hsize : entrySize * c.capacity ≤ m.size) (hcount : c.count = 0) : c.Holds m [] where
  buffer := hbuffer
  entries := hentries
  capacity_pos := hcapacity
  entries_le := hfree.ge
  free_le := hfree ▸ hsize
  count_eq := hcount
  count_le := Nat.zero_le _
  entry := nofun

/-- A cache that was given up is empty. -/
lemma Holds.invalidate (h : c.Holds m contents) : ∃ c', c.invalidate = some c' ∧ c'.Holds m [] := by
  have hroom := h.entries_le
  have hfree := h.free_le
  have hsize := h.entriesSize_eq
  have hallocate : allocate { c with freeOffset := 0, count := 0 } c.entriesSize = _ :=
    allocate_some h.buffer (by rw [hsize]; exact hroom.trans hfree)
  refine ⟨{ c with freeOffset := 0 + c.entriesSize, count := 0, entries := some (m.base + 0) }, ?_, ?_⟩
  · rw [Cache.invalidate, if_neg (by rw [h.hasEntries]; decide)]
    dsimp only
    rw [show entriesSize { c with freeOffset := 0, count := 0 } = c.entriesSize from rfl, hallocate]
  · refine holds_nil h.buffer rfl h.capacity_pos ?_ (hroom.trans hfree) rfl
    rw [← hsize]
    exact Nat.zero_add _

/-- An accepted buffer holds an empty cache, if the size of the array of entries does not overflow. -/
lemma initializeCache_holds {capacity : Nat} (hcapacity : 0 < capacity) (hsize : entrySize * capacity < 2 ^ 64)
    (h : initializeCache (some m) capacity = (resultSuccess, c)) : c.Holds m [] := by
  have hentries : entriesSize ⟨some m, 0, none, 0, capacity⟩ = entrySize * capacity :=
    Nat.mod_eq_of_lt hsize
  rw [initializeCache, hentries] at h
  rcases Nat.lt_or_ge m.size (entrySize * capacity) with hlt | hge
  · rw [allocate_none rfl hlt] at h
    cases h
  · rw [allocate_some rfl hge] at h
    cases h
    exact holds_nil rfl rfl hcapacity (Nat.zero_add _) hge rfl

/-! ## Looking up -/

lemma Holds.matchesKey (h : c.Holds m contents) {i : Nat} {kv : List UInt8 × List UInt8}
    (hkv : contents[i]? = some kv) : c.matchesKey i key = some (decide (kv.1 = key)) := by
  have hentry := h.entry i kv hkv
  have hle : kv.1.length < 2 ^ 64 := hentry.key_le.trans_lt (by decide)
  have hword := Memory.loadWord_eq hle hentry.keySize
  rw [Cache.matchesKey, h.buffer, entryAddress, h.entries]
  simp only [Option.map_some, Option.bind_eq_bind, Option.bind_some, hword]
  by_cases hlen : kv.1.length = key.length
  · rw [if_pos hlen, ← hlen, hentry.key, Option.bind_some]
  · rw [if_neg hlen, decide_eq_false (fun heq => hlen (congrArg List.length heq))]

/-- The loop over the entries finds an entry of the key, if there is one. -/
lemma Holds.findEntry (h : c.Holds m contents) (key : List UInt8) (n i : Nat) (hn : i + n = contents.length) :
    ∃ r, c.findEntry key n i = some r ∧
      (r = none → ∀ kv ∈ contents.drop i, kv.1 ≠ key) ∧
      ∀ j, r = some j → ∃ kv, contents[j]? = some kv ∧ kv.1 = key := by
  induction n generalizing i with
  | zero =>
    refine ⟨none, rfl, ?_, nofun⟩
    intro _ kv hkv
    rw [List.drop_eq_nil_of_le (by omega)] at hkv
    cases hkv
  | succ n ih =>
    have hi : i < contents.length := by omega
    have hget := List.getElem?_eq_getElem hi
    rw [Cache.findEntry, h.matchesKey hget]
    by_cases hkey : contents[i].1 = key
    · refine ⟨some i, ?_, nofun, ?_⟩
      · rw [decide_eq_true hkey]
        rfl
      · intro j hj
        cases hj
        exact ⟨_, hget, hkey⟩
    · obtain ⟨r, hr, hnone, hsome⟩ := ih (i + 1) (by omega)
      refine ⟨r, ?_, ?_, hsome⟩
      · rw [decide_eq_false hkey]
        exact hr
      · intro hr kv hkv
        rw [List.drop_eq_getElem_cons hi] at hkv
        rcases List.mem_cons.mp hkv with rfl | hkv
        · exact hkey
        · exact hnone hr kv hkv

/-- What `TryGet` finds is a value of the key. -/
lemma Holds.tryGet (h : c.Holds m contents) (maxOutSize : Nat) :
    ∃ r, c.tryGet maxOutSize key = some r ∧
      ∀ v, r = some v → (key, v) ∈ contents ∧ v.length ≤ maxOutSize := by
  obtain ⟨r, hr, -, hsome⟩ := h.findEntry key c.count 0 (by rw [h.count_eq, Nat.zero_add])
  rw [Cache.tryGet, if_neg (by rw [h.hasEntries]; decide), hr]
  cases r with
  | none => exact ⟨none, rfl, nofun⟩
  | some j =>
    obtain ⟨kv, hkv, hkey⟩ := hsome j rfl
    have hentry := h.entry j kv hkv
    obtain ⟨v, hlo, hhi, hload, hvalue⟩ := hentry.value
    have hbounds := h.value_bounds hlo hhi
    have hsize := Memory.loadWord_eq hbounds.2 hentry.valueSize
    have hpos := hentry.value_pos
    have hpointer := Memory.loadWord_eq (by omega) hload
    simp only [Option.bind_eq_bind, Option.bind_some, h.buffer, entryAddress, h.entries, Option.map_some, hsize]
    by_cases hmax : maxOutSize < kv.2.length
    · rw [if_pos hmax]
      exact ⟨none, rfl, nofun⟩
    · rw [if_neg hmax, hpointer, Option.bind_some, hvalue, Option.bind_some]
      refine ⟨some kv.2, rfl, ?_⟩
      intro v' hv'
      cases hv'
      rw [← hkey]
      exact ⟨List.mem_of_getElem? hkv, Nat.le_of_not_lt hmax⟩

/-- What `TryGetSize` finds is the size of a value of the key, and there is none if it finds nothing. -/
lemma Holds.tryGetSize (h : c.Holds m contents) :
    ∃ r, c.tryGetSize key = some r ∧ (r = none → ∀ kv ∈ contents, kv.1 ≠ key) ∧
      ∀ n, r = some n → ∃ v, (key, v) ∈ contents ∧ n = v.length := by
  obtain ⟨r, hr, hnone, hsome⟩ := h.findEntry key c.count 0 (by rw [h.count_eq, Nat.zero_add])
  rw [Cache.tryGetSize, if_neg (by rw [h.hasEntries]; decide), hr]
  cases r with
  | none => exact ⟨none, rfl, fun _ => hnone rfl, nofun⟩
  | some j =>
    obtain ⟨kv, hkv, hkey⟩ := hsome j rfl
    have hentry := h.entry j kv hkv
    obtain ⟨v, hlo, hhi, -, -⟩ := hentry.value
    have hsize := Memory.loadWord_eq (h.value_bounds hlo hhi).2 hentry.valueSize
    simp only [Option.bind_eq_bind, Option.bind_some, h.buffer, entryAddress, h.entries, Option.map_some, hsize]
    refine ⟨some kv.2.length, rfl, nofun, ?_⟩
    intro n hn
    cases hn
    rw [← hkey]
    exact ⟨kv.2, List.mem_of_getElem? hkv, rfl⟩

/-! ## Adding a value -/

/-- An entry stays where neither it nor its value is written to. -/
lemma HoldsEntry.frame {m' : Memory} {a lo hi hi' : Nat} {kv : List UInt8 × List UInt8} (h : HoldsEntry m a lo hi kv)
    (hentry : ∀ b n, a ≤ b → b + n ≤ a + entrySize → m'.load b n = m.load b n)
    (hvalue : ∀ b n, lo ≤ b → b + n ≤ hi → m'.load b n = m.load b n) (hhi : hi ≤ hi') :
    HoldsEntry m' a lo hi' kv where
  key_le := h.key_le
  value_pos := h.value_pos
  key := by
    have hle := h.key_le
    rw [hentry a _ le_rfl (by unfold maxKeySize at hle; unfold entrySize; omega), h.key]
  keySize := by
    rw [hentry _ _ (Nat.le_add_right _ _) (by unfold keySizeOffset entrySize; omega), h.keySize]
  value := by
    obtain ⟨v, hlo, hv, hpointer, hload⟩ := h.value
    refine ⟨v, hlo, hv.trans hhi, ?_, ?_⟩
    · rw [hentry _ _ (Nat.le_add_right _ _) (by unfold valueOffset entrySize; omega), hpointer]
    · rw [hvalue v _ hlo hv, hload]
  valueSize := by
    rw [hentry _ _ (Nat.le_add_right _ _) (by unfold valueSizeOffset entrySize; omega), h.valueSize]

/-- The writes for an entry at `a` and its value at `v`, which lies apart. -/
lemma writeEntry_holds {a v hi : Nat} (hkey : key.length ≤ maxKeySize) (hvalue : 0 < value.length)
    (hentry : m.Inside a entrySize) (hinside : m.Inside v value.length)
    (hapart : a + entrySize ≤ v) (hhi : v + value.length ≤ hi) :
    ∃ m', writeEntry m a v key value = some m' ∧ m'.base = m.base ∧ m'.size = m.size ∧
      HoldsEntry m' a v hi (key, value) ∧
      ∀ b n, b + n ≤ a ∨ a + entrySize ≤ b → b + n ≤ v ∨ v + value.length ≤ b →
        m'.load b n = m.load b n := by
  have hfits := m.fits
  obtain ⟨hentry₀, hentry₁⟩ := hentry
  obtain ⟨hinside₀, hinside₁⟩ := hinside
  unfold maxKeySize at hkey
  unfold entrySize at hentry₁ hapart
  have hsize : m.size = m.bytes.length := rfl
  obtain ⟨m₁, hstore₁, hm₁⟩ := m.store_inside a key ⟨hentry₀, by omega⟩
  obtain ⟨hbase₁, hsize₁, hkey₁, happly₁⟩ := hm₁
  obtain ⟨m₂, hstore₂, hm₂⟩ := m₁.storeWord_inside (a + keySizeOffset) key.length
    ⟨by omega, by unfold keySizeOffset; omega⟩
  obtain ⟨hbase₂, hsize₂, hkeySize₂, happly₂⟩ := hm₂
  obtain ⟨m₃, hstore₃, hm₃⟩ := m₂.storeWord_inside (a + valueOffset) v
    ⟨by omega, by unfold valueOffset; omega⟩
  obtain ⟨hbase₃, hsize₃, hvalue₃, happly₃⟩ := hm₃
  obtain ⟨m₄, hstore₄, hm₄⟩ := m₃.store_inside v value ⟨by omega, by omega⟩
  obtain ⟨hbase₄, hsize₄, hload₄, happly₄⟩ := hm₄
  obtain ⟨m₅, hstore₅, hm₅⟩ := m₄.storeWord_inside (a + valueSizeOffset) value.length
    ⟨by omega, by unfold valueSizeOffset; omega⟩
  obtain ⟨hbase₅, hsize₅, hvalueSize₅, happly₅⟩ := hm₅
  have hpointer := Memory.loadWord_eq (by omega) hvalue₃
  unfold keySizeOffset at happly₂
  unfold valueOffset at happly₃
  unfold valueSizeOffset at happly₅
  refine ⟨m₅, ?_, by omega, by omega, ?_, ?_⟩
  · simp only [writeEntry, hstore₁, hstore₂, hstore₃, hpointer, hstore₄, hstore₅,
      Option.bind_eq_bind, Option.bind_some]
  · refine ⟨hkey, hvalue, ?_, ?_, ⟨v, le_rfl, hhi, ?_, ?_⟩, hvalueSize₅⟩
    · show m₅.load a key.length = some key
      rw [happly₅ _ _ (by omega), happly₄ _ _ (by omega), happly₃ _ _ (by omega), happly₂ _ _ (by omega), hkey₁]
    · unfold keySizeOffset at *
      rw [happly₅ _ _ (by omega), happly₄ _ _ (by omega), happly₃ _ _ (by omega), hkeySize₂]
    · unfold valueOffset at *
      rw [happly₅ _ _ (by omega), happly₄ _ _ (by omega), hvalue₃]
    · show m₅.load v value.length = some value
      rw [happly₅ _ _ (by omega), hload₄]
  · intro b n hb hb'
    unfold entrySize at hb
    rw [happly₅ _ _ (by omega), happly₄ _ _ (by omega), happly₃ _ _ (by omega),
      happly₂ _ _ (by omega), happly₁ _ _ (by omega)]

/-- An entry is added, with its value at the free memory. -/
lemma Holds.setAt (h : c.Holds m contents) (hcount : contents.length < c.capacity) (hkey : key.length ≤ maxKeySize)
    (hvalue : 0 < value.length) (hfree : c.freeOffset + value.length ≤ m.size) :
    ∃ c' m', Cache.setAt { c with freeOffset := c.freeOffset + value.length } (m.base + c.freeOffset) key
        value = some c' ∧ c'.Holds m' (contents ++ [(key, value)]) := by
  have hroom := h.entries_le
  have hstep : entrySize * contents.length + entrySize ≤ entrySize * c.capacity := by
    unfold entrySize
    omega
  obtain ⟨m', hwrite, hbase, hsize, hentry, happly⟩ :=
    writeEntry_holds (m := m) (a := m.base + entrySize * contents.length) (v := m.base + c.freeOffset)
      hkey hvalue ⟨by omega, by omega⟩ ⟨by omega, by omega⟩ (by omega) le_rfl
  refine ⟨⟨some m', c.freeOffset + value.length, c.entries, c.count + 1, c.capacity⟩, m', ?_, ?_⟩
  · simp only [Cache.setAt, h.buffer, entryAddress, h.entries, h.count_eq, Option.map_some,
      Option.bind_eq_bind, Option.bind_some, hwrite]
  · refine ⟨rfl, hbase ▸ h.entries, h.capacity_pos, by dsimp only; omega, by dsimp only; omega, ?_, ?_, ?_⟩
    · rw [List.length_append, List.length_singleton, ← h.count_eq]
    · rw [List.length_append]
      exact hcount
    · intro i kv hkv
      dsimp only
      rw [hbase]
      rcases Nat.lt_trichotomy i contents.length with hi | rfl | hi
      · rw [List.getElem?_append_left hi] at hkv
        have hi' : entrySize * i + entrySize ≤ entrySize * contents.length := by
          unfold entrySize
          omega
        refine (h.entry i kv hkv).frame ?_ ?_ (by omega)
        · intro b n hb hb'
          exact happly b n (by omega) (by omega)
        · intro b n hb hb'
          exact happly b n (by omega) (by omega)
      · rw [List.getElem?_concat_length, Option.some_inj] at hkv
        rw [← hkv]
        obtain ⟨hkey, hvalue, hload, hkeySize, ⟨v, hlo, hhi, hpointer, hbytes⟩, hvalueSize⟩ := hentry
        exact ⟨hkey, hvalue, hload, hkeySize, ⟨v, by omega, by omega, hpointer, hbytes⟩, hvalueSize⟩
      · rw [List.getElem?_eq_none (by rw [List.length_append, List.length_singleton]; omega)] at hkv
        cases hkv

/-- The value is added where there is memory for it. -/
lemma Holds.allocate_setAt (h : c.Holds m contents) (hcount : contents.length < c.capacity)
    (hkey : key.length ≤ maxKeySize) (hvalue : 0 < value.length) (hfree : value.length ≤ m.size - c.freeOffset) :
    ∃ valueBuf c₁ c' m', c.allocate value.length = (some valueBuf, c₁) ∧
      c₁.setAt valueBuf key value = some c' ∧ c'.Holds m' (contents ++ [(key, value)]) := by
  have hle := h.free_le
  obtain ⟨c', m', hset, hholds⟩ := h.setAt hcount hkey hvalue (by omega)
  exact ⟨_, _, c', m', allocate_some h.buffer hfree, hset, hholds⟩

/-- A free entry is made by giving up the cache if there is none. -/
lemma Holds.freeEntry (h : c.Holds m contents) :
    ∃ c₁ contents₁, c.freeEntry = some c₁ ∧ c₁.Holds m contents₁ ∧
      contents₁.length < c₁.capacity ∧ contents₁ ⊆ contents := by
  by_cases hfull : c.count = c.capacity
  · obtain ⟨c₁, hinvalidate, hholds⟩ := h.invalidate
    exact ⟨c₁, [], by rw [Cache.freeEntry, if_pos hfull, hinvalidate], hholds, hholds.capacity_pos, List.nil_subset _⟩
  · have hle := h.count_le
    rw [h.count_eq] at hfull
    refine ⟨c, contents, ?_, h, by omega, List.Subset.refl _⟩
    rw [Cache.freeEntry, if_neg (by rwa [h.count_eq])]

/-- `Set` keeps some of what the cache holds, and may add the value. -/
lemma Holds.set (h : c.Holds m contents) (hkey : key.length ≤ maxKeySize) (hvalue : 0 < value.length) :
    ∃ c' m' contents', c.set key value = some c' ∧ c'.Holds m' contents' ∧
      ∀ kv ∈ contents', kv ∈ contents ∨ kv = (key, value) := by
  obtain ⟨c₁, contents₁, hfirst, h₁, hcount₁, hsub⟩ := h.freeEntry
  rw [Cache.set, if_neg (by rw [h.hasEntries]; decide), if_neg (Nat.not_lt.mpr hkey), hfirst]
  simp only [Option.bind_eq_bind, Option.bind_some]
  rcases Nat.lt_or_ge (m.size - c₁.freeOffset) value.length with hlt | hge
  · obtain ⟨c₂, hinvalidate, h₂⟩ := h₁.invalidate
    rw [allocate_none h₁.buffer hlt]
    simp only [hinvalidate, Option.bind_some]
    rcases Nat.lt_or_ge (m.size - c₂.freeOffset) value.length with hlt | hge
    · rw [allocate_none h₂.buffer hlt]
      exact ⟨c₂, m, [], rfl, h₂, nofun⟩
    · obtain ⟨valueBuf, c₃, c', m', hallocate, hset, hholds⟩ :=
        h₂.allocate_setAt h₂.capacity_pos hkey hvalue hge
      rw [hallocate]
      refine ⟨c', m', _, hset, hholds, ?_⟩
      intro kv hkv
      exact .inr (List.mem_singleton.mp hkv)
  · obtain ⟨valueBuf, c₃, c', m', hallocate, hset, hholds⟩ :=
      h₁.allocate_setAt hcount₁ hkey hvalue hge
    rw [hallocate]
    refine ⟨c', m', _, hset, hholds, ?_⟩
    intro kv hkv
    rcases List.mem_append.mp hkv with hkv | hkv
    · exact .inl (hsub hkv)
    · exact .inr (List.mem_singleton.mp hkv)

end Holds

/-! ## The cache as a partial copy -/

/-- The cache is off, or holds these keys and values. -/
def Caches (c : Cache) (contents : List (List UInt8 × List UInt8)) : Prop :=
  (c.hasEntries = false ∧ contents = []) ∨ ∃ m, c.Holds m contents

section Caches

variable {c : Cache} {contents : List (List UInt8 × List UInt8)} {key value : List UInt8}

lemma tryGet_off (h : c.hasEntries = false) (maxOutSize : Nat) :
    c.tryGet maxOutSize key = some none := if_pos (by rw [h]; decide)

lemma tryGetSize_off (h : c.hasEntries = false) : c.tryGetSize key = some none :=
  if_pos (by rw [h]; decide)

lemma set_off (h : c.hasEntries = false) : c.set key value = some c := if_pos (by rw [h]; decide)

lemma Caches.tryGet (h : c.Caches contents) (key : List UInt8) (maxOutSize : Nat) :
    ∃ r, c.tryGet maxOutSize key = some r ∧
      ∀ v, r = some v → (key, v) ∈ contents ∧ v.length ≤ maxOutSize := by
  rcases h with ⟨hoff, -⟩ | ⟨m, h⟩
  · exact ⟨none, tryGet_off hoff maxOutSize, nofun⟩
  · exact h.tryGet maxOutSize

lemma Caches.tryGetSize (h : c.Caches contents) (key : List UInt8) :
    ∃ r, c.tryGetSize key = some r ∧ (r = none → ∀ kv ∈ contents, kv.1 ≠ key) ∧
      ∀ n, r = some n → ∃ v, (key, v) ∈ contents ∧ n = v.length := by
  rcases h with ⟨hoff, rfl⟩ | ⟨m, h⟩
  · exact ⟨none, tryGetSize_off hoff, nofun, nofun⟩
  · exact h.tryGetSize

lemma Caches.set (h : c.Caches contents) (hkey : key.length ≤ maxKeySize) (hvalue : 0 < value.length) :
    ∃ c' contents', c.set key value = some c' ∧ c'.Caches contents' ∧
      ∀ kv ∈ contents', kv ∈ contents ∨ kv = (key, value) := by
  rcases h with ⟨hoff, rfl⟩ | ⟨m, h⟩
  · exact ⟨c, [], set_off hoff, .inl ⟨hoff, rfl⟩, nofun⟩
  · obtain ⟨c', m', contents', hset, hholds, hsub⟩ := h.set hkey hvalue
    exact ⟨c', contents', hset, .inr ⟨m', hholds⟩, hsub⟩

/-- Before the file of a key changes, the cache is without the key. -/
lemma Caches.invalidateKey (h : c.Caches contents) (key : List UInt8) :
    ∃ c' contents', FileKeyValueStore.invalidateKey c key = some c' ∧ c'.Caches contents' ∧
      ∀ kv ∈ contents', kv ∈ contents ∧ kv.1 ≠ key := by
  obtain ⟨r, hr, hnone, -⟩ := h.tryGetSize key
  rw [FileKeyValueStore.invalidateKey, contains, hr]
  cases r with
  | none => exact ⟨c, contents, rfl, h, fun kv hkv => ⟨hkv, hnone rfl kv hkv⟩⟩
  | some n =>
    rcases h with ⟨hoff, -⟩ | ⟨m, h⟩
    · rw [tryGetSize_off hoff] at hr
      cases hr
    · obtain ⟨c', hinvalidate, hholds⟩ := h.invalidate
      exact ⟨c', [], hinvalidate, .inr ⟨m, hholds⟩, nofun⟩

lemma invalidateKey_off (h : c.hasEntries = false) : FileKeyValueStore.invalidateKey c key = some c := by
  rw [FileKeyValueStore.invalidateKey, contains, tryGetSize_off h]
  rfl

end Caches

end Cache

/-! ## The simulation -/

/-- A key and its value are in the directory. -/
def InDirectory (dirPath : List UInt8) (disk : Disk) (kv : List UInt8 × List UInt8) : Prop :=
  kv.2 ≠ [] ∧ ∃ path, getPath dirPath kv.1 = some path ∧ disk.files path = some kv.2

/-- A store with a cache and one without, over the same directory, whose files the cache copies. -/
structure Agree (s u : FileKeyValueStore) : Prop where
  dirPath_eq : u.dirPath = s.dirPath
  disk_eq : u.disk = s.disk
  off : u.cache.hasEntries = false
  copies : ∃ contents, s.cache.Caches contents ∧ ∀ kv ∈ contents, InDirectory s.dirPath s.disk kv

/-- Two stores do the same in a call, and agree after it. -/
def SameStep (s u : Option (StoreReply × FileKeyValueStore)) : Prop :=
  (s = none ∧ u = none) ∨ ∃ reply s' u', s = some (reply, s') ∧ u = some (reply, u') ∧ Agree s' u'

section Simulation

variable {s u : FileKeyValueStore} {key : List UInt8}

lemma SameStep.same {reply : StoreReply} {s' u' : FileKeyValueStore} (h : Agree s' u') :
    SameStep (some (reply, s')) (some (reply, u')) := .inr ⟨reply, s', u', rfl, rfl, h⟩

/-- A change of the file of a key only. -/
def SameBut (path : List UInt8) (d d' : Disk) : Prop := ∀ p, p ≠ path → d'.files p = d.files p

lemma remove_sameBut (d : Disk) (path : List UInt8) : SameBut path d (d.remove path).2 := by
  intro p hp
  rw [Disk.remove]
  cases d.files path with
  | none => rfl
  | some contents => exact Function.update_of_ne hp _ _

lemma write_sameBut (d : Disk) (path value : List UInt8) (fault : Option Disk.WriteFault) :
    SameBut path d (d.write path value fault).2 := by
  intro p hp
  have hset : ∀ contents, (d.setFile path contents).files p = d.files p :=
    fun contents => Function.update_of_ne hp _ _
  cases fault with
  | none =>
    rw [Disk.write]
    split <;> exact hset _
  | some f =>
    cases f with
    | atOpen result => rfl
    | atWrite written result | atFlush written result =>
      rw [Disk.write]
      split <;> exact hset _

variable (h : Agree s u)

include h

lemma Agree.get (maxOutSize : Nat) : SameStep (s.get key maxOutSize) (u.get key maxOutSize) := by
  obtain ⟨dirPath, cache, disk⟩ := u
  obtain ⟨rfl, rfl, hoff, contents, hcaches, hcopies⟩ := id h
  rw [FileKeyValueStore.get, FileKeyValueStore.get]
  by_cases hkey : maxKeySize < key.length
  · rw [if_pos hkey, if_pos hkey]
    exact .same h
  rw [if_neg hkey, if_neg hkey, Cache.tryGet_off hoff]
  obtain ⟨r, hr, hsome⟩ := hcaches.tryGet key maxOutSize
  rw [hr]
  simp only [Option.bind_eq_bind, Option.bind_some]
  cases r with
  | some v =>
    -- A value from the cache is what is read from the file.
    obtain ⟨hmem, hle⟩ := hsome v rfl
    obtain ⟨hne, path, hpath, hfile⟩ := hcopies (key, v) hmem
    simp only [hpath, Option.bind_some, hfile]
    rw [if_neg (Nat.not_lt.mpr hle), if_neg hne, Cache.set_off hoff]
    exact .same h
  | none =>
    cases hpath : getPath s.dirPath key with
    | none => exact .inl ⟨rfl, rfl⟩
    | some path =>
      simp only [Option.bind_some]
      cases hfile : s.disk.files path with
      | none => exact .same ⟨rfl, rfl, hoff, contents, hcaches, hcopies⟩
      | some value =>
        dsimp only
        by_cases hmax : maxOutSize < value.length
        · rw [if_pos hmax, if_pos hmax]
          exact .same h
        by_cases hempty : value = []
        · rw [if_neg hmax, if_neg hmax, if_pos hempty, if_pos hempty]
          exact .same h
        obtain ⟨c', contents', hset, hcaches', hsub⟩ := hcaches.set (Nat.le_of_not_lt hkey)
          (List.length_pos_iff.mpr hempty)
        rw [if_neg hmax, if_neg hmax, if_neg hempty, if_neg hempty, hset, Cache.set_off hoff]
        refine .same ⟨rfl, rfl, hoff, contents', hcaches', ?_⟩
        intro kv hkv
        rcases hsub kv hkv with hkv | rfl
        · exact hcopies kv hkv
        · exact ⟨hempty, path, hpath, hfile⟩

lemma Agree.getSize : SameStep (s.getSize key) (u.getSize key) := by
  obtain ⟨dirPath, cache, disk⟩ := u
  obtain ⟨rfl, rfl, hoff, contents, hcaches, hcopies⟩ := id h
  rw [FileKeyValueStore.getSize, FileKeyValueStore.getSize]
  by_cases hkey : maxKeySize < key.length
  · rw [if_pos hkey, if_pos hkey]
    exact .same h
  rw [if_neg hkey, if_neg hkey, Cache.tryGetSize_off hoff]
  obtain ⟨r, hr, -, hsome⟩ := hcaches.tryGetSize key
  rw [hr]
  simp only [Option.bind_eq_bind, Option.bind_some]
  cases r with
  | some n =>
    obtain ⟨v, hmem, rfl⟩ := hsome n rfl
    obtain ⟨-, path, hpath, hfile⟩ := hcopies (key, v) hmem
    simp only [hpath, Option.bind_some, hfile]
    exact .same h
  | none =>
    cases hpath : getPath s.dirPath key with
    | none => exact .inl ⟨rfl, rfl⟩
    | some path =>
      simp only [Option.bind_some]
      cases hfile : s.disk.files path with
      | none => exact .same ⟨rfl, rfl, hoff, contents, hcaches, hcopies⟩
      | some value => exact .same h

/-- The stores agree after a change of a key's file, for which the cache was made ready. -/
lemma Agree.change {path : List UInt8} (hpath : getPath s.dirPath key = some path)
    {disk : Disk} (hdisk : SameBut path s.disk disk) :
    ∃ cache, FileKeyValueStore.invalidateKey s.cache key = some cache ∧
      Agree { s with cache, disk } { u with disk } := by
  obtain ⟨contents, hcaches, hcopies⟩ := h.copies
  obtain ⟨c', contents', hinvalidate, hcaches', hsub⟩ := hcaches.invalidateKey key
  refine ⟨c', hinvalidate, h.dirPath_eq, rfl, h.off, contents', hcaches', ?_⟩
  intro kv hkv
  obtain ⟨hmem, hne⟩ := hsub kv hkv
  obtain ⟨hvalue, path', hpath', hfile⟩ := hcopies kv hmem
  refine ⟨hvalue, path', hpath', ?_⟩
  rw [hdisk path' ?_, hfile]
  intro heq
  rw [heq] at hpath'
  exact hne (getPath_inj hpath' hpath)

/-- A change of a key's file, in both stores. -/
lemma Agree.sameStep {f : List UInt8 → StoreReply × Disk}
    (hf : ∀ path, SameBut path s.disk (f path).2) :
    SameStep
      ((FileKeyValueStore.invalidateKey s.cache key).bind fun cache =>
        (getPath s.dirPath key).bind fun path =>
          some ((f path).1, { s with cache, disk := (f path).2 }))
      ((getPath s.dirPath key).bind fun path => some ((f path).1, { u with disk := (f path).2 })) := by
  cases hpath : getPath s.dirPath key with
  | none =>
    refine .inl ⟨?_, rfl⟩
    cases FileKeyValueStore.invalidateKey s.cache key with
    | none => rfl
    | some cache => rfl
  | some path =>
    obtain ⟨cache, hinvalidate, hagree⟩ := h.change hpath (hf path)
    rw [hinvalidate]
    exact .same hagree

lemma Agree.set (value : List UInt8) (fault : Option Disk.WriteFault) :
    SameStep (s.set key value fault) (u.set key value fault) := by
  obtain ⟨dirPath, cache, disk⟩ := u
  obtain ⟨rfl, rfl, hoff, -⟩ := id h
  rw [FileKeyValueStore.set, FileKeyValueStore.set]
  by_cases hkey : maxKeySize < key.length
  · rw [if_pos hkey, if_pos hkey]
    exact .same h
  rw [if_neg hkey, if_neg hkey, Cache.invalidateKey_off hoff]
  refine h.sameStep (f := fun path => (.plain ((s.disk.remove path).2.write path value fault).1,
    ((s.disk.remove path).2.write path value fault).2)) ?_
  intro path p hp
  exact (write_sameBut _ path value fault p hp).trans (remove_sameBut s.disk path p hp)

lemma Agree.remove : SameStep (s.remove key) (u.remove key) := by
  obtain ⟨dirPath, cache, disk⟩ := u
  obtain ⟨rfl, rfl, hoff, -⟩ := id h
  rw [FileKeyValueStore.remove, FileKeyValueStore.remove]
  by_cases hkey : maxKeySize < key.length
  · rw [if_pos hkey, if_pos hkey]
    exact .same h
  rw [if_neg hkey, if_neg hkey, Cache.invalidateKey_off hoff]
  exact h.sameStep (f := fun path => (.plain (if (s.disk.remove path).1 then resultSuccess
    else resultKvdbKeyNotFound), (s.disk.remove path).2)) (remove_sameBut s.disk)

/-- One call. -/
lemma Agree.call (c : StoreCall) : SameStep (s.call c) (u.call c) := by
  cases c with
  | get key maxOutSize => exact h.get maxOutSize
  | getSize key => exact h.getSize
  | set key value fault => exact h.set value fault
  | remove key => exact h.remove

/-- A sequence of calls. -/
lemma Agree.replies (cs : List StoreCall) : s.replies cs = u.replies cs := by
  induction cs generalizing s u with
  | nil => rfl
  | cons c cs ih =>
    rw [FileKeyValueStore.replies, FileKeyValueStore.replies]
    rcases h.call c with ⟨hs, hu⟩ | ⟨reply, s', u', hs, hu, hagree⟩
    · rw [hs, hu]
    · rw [hs, hu]
      exact congrArg (some reply :: ·) (ih hagree)

end Simulation

/-- The cache is invisible: on every buffer and capacity that are accepted, where the size of the array
of entries fits 64 bits, the replies to every sequence of calls are those of a store without a cache
over the same directory. -/
theorem replies_eq_without_cache (dirPath : List UInt8) (disk : Disk) (buffer : Option Memory)
    (capacity : Nat) (s u : FileKeyValueStore) (hcapacity : 1 ≤ capacity)
    (hentries : Cache.entrySize * capacity < 2 ^ 64)
    (hs : FileKeyValueStore.initializeWithCache dirPath disk buffer capacity = some (resultSuccess, s))
    (hu : FileKeyValueStore.initializeStore dirPath disk = some (resultSuccess, u))
    (cs : List StoreCall) : s.replies cs = u.replies cs := by
  refine Agree.replies ?_ cs
  rw [FileKeyValueStore.initializeStore] at hu
  unfold FileKeyValueStore.initializeWithCache at hs hu
  by_cases hdir : maxPathLength ≤ dirPath.length
  · rw [if_pos hdir] at hu
    cases hu
  rw [if_neg hdir] at hs hu
  cases hu
  cases hcache : Cache.initializeCache buffer capacity with
  | mk result cache =>
    rw [hcache] at hs
    cases hs
    refine ⟨rfl, rfl, rfl, [], ?_, nofun⟩
    cases buffer with
    | none =>
      cases hcache
      exact .inl ⟨rfl, rfl⟩
    | some m => exact .inr ⟨m, Cache.initializeCache_holds hcapacity hentries hcache⟩

/-- A buffer of `n` zeros. -/
def zeroBuffer (n : Nat) (h : 0x1000 + n ≤ 2 ^ 64) : Memory :=
  ⟨0x1000, List.replicate n 0, by rwa [List.length_replicate]⟩

lemma size_zeroBuffer (n : Nat) (h : 0x1000 + n ≤ 2 ^ 64) : (zeroBuffer n h).size = n :=
  List.length_replicate

/-- A directory with one value, of the key 01. -/
def oneValue : Disk :=
  ⟨Function.update (fun _ => none) [0x73, 0x2F, 0x30, 0x31, 0x2E, 0x76, 0x61, 0x6C] (some [2, 7]), 0⟩

/-- Calls with a cache of one entry. -/
theorem replies_eq_without_cache_one :
    ∃ s u, FileKeyValueStore.initializeWithCache [0x73] oneValue
        (some (zeroBuffer 0xA0 (by decide))) 1 = some (resultSuccess, s) ∧
      FileKeyValueStore.initializeStore [0x73] oneValue = some (resultSuccess, u) ∧
      s.replies [.get [1] 16, .getSize [1], .set [1] [3] none, .get [1] 16] =
        u.replies [.get [1] 16, .getSize [1], .set [1] [3] none, .get [1] 16] := by
  obtain ⟨s, hs⟩ : ∃ s, FileKeyValueStore.initializeWithCache [0x73] oneValue
      (some (zeroBuffer 0xA0 (by decide))) 1 = some (resultSuccess, s) := by
    rw [FileKeyValueStore.initializeWithCache, if_neg (by decide), Cache.initializeCache,
      Cache.allocate_some rfl (by rw [size_zeroBuffer]; decide)]
    exact ⟨_, rfl⟩
  obtain ⟨u, hu⟩ : ∃ u, FileKeyValueStore.initializeStore [0x73] oneValue = some (resultSuccess, u) := ⟨_, rfl⟩
  exact ⟨s, u, hs, hu, replies_eq_without_cache [0x73] oneValue _ 1 s u (by decide) (by decide) hs hu _⟩

/-- A capacity for which the size of the array of entries is zero in 64 bits is accepted. The value of
the key 01 is then written over its entry, and found as the value of the key 02. -/
theorem replies_differ_of_overflow :
    ∃ s u, FileKeyValueStore.initializeWithCache [0x73] oneValue
        (some (zeroBuffer 0x98 (by decide))) (2 ^ 61) = some (resultSuccess, s) ∧
      FileKeyValueStore.initializeStore [0x73] oneValue = some (resultSuccess, u) ∧
      s.replies [.get [1] 16, .get [2] 16] ≠ u.replies [.get [1] 16, .get [2] 16] := by
  refine ⟨_, _, rfl, rfl, ?_⟩
  decide +kernel

end RajNX.Kvdb
