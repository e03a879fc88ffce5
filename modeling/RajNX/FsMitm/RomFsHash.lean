import RajNX.Lib.HashChain
import RajNX.FsMitm.RomFsReader

/-!
# The hash tables of a built RomFS

`Build` puts each entry in front of the chain of its bucket: the entry takes the head of the bucket for its link,
and its offset becomes the head. The reader of a RomFS looks for a name in a directory along the chain of one
bucket, comparing the entry of the directory and the name. Over the tables that `Build` wrote every entry is on
the chain of its bucket and on no other, and a search finds the entry of each name that is there and of no other.
-/

namespace RajNX.FsMitm.RomFs

open Forest LittleEndian Splice RecordTable HashChain

/-- What a search reads of an entry: the entry of its directory, the next entry of its bucket and its name -/
structure HashedEntry where
  parent : Nat
  hash : Nat
  name : List UInt8
deriving DecidableEq

/-- An entry whose name is behind its first `header` bytes, as a search reads it -/
def readHashedEntry (header : Nat) (table : List UInt8) (offset : Nat) : Option HashedEntry := do
  let parent ← readField table offset 4
  let hash ← readField table (offset + (header - 8)) 4
  let nameSize ← readField table (offset + (header - 4)) 4
  let name ← readExactly nameSize (offset + header) table
  some ⟨parent, hash, name⟩

namespace HashedTable

variable (t : HashedTable) (header : Nat)

/-- The bucket of a name in a directory -/
def bucketOf (parent : UInt32) (name : List UInt8) : Nat :=
  (romfsCalcPathHash parent name).toNat % t.hashTable.length

/-- The offsets of the entries along the chain of a bucket -/
def bucketEntries (fuel b : Nat) : Option (List Nat) :=
  t.hashTable[b]?.bind (walk (readHashedEntry header t.table) HashedEntry.hash romfsEntryEmpty fuel)

/-- Search for a name in a directory; the offset of its entry, if there is one. -/
def lookup (fuel : Nat) (parent : UInt32) (name : List UInt8) : Option (Option Nat) :=
  t.hashTable[t.bucketOf parent name]?.bind (search (readHashedEntry header t.table) HashedEntry.hash
    romfsEntryEmpty (fun e => e.parent = parent.toNat ∧ e.name = name) fuel)

end HashedTable

/-- The chains of a table are those of the elements of a list, each of which has an offset, the entry of its
directory and a name. -/
structure HashesAll {α : Type} (t : HashedTable) (header : Nat) (offset : α → Nat) (parent : α → Option Nat)
    (name : α → List UInt8) (xs : List α) : Prop where
  chains : ∀ b < t.hashTable.length, ∃ offsets : List Nat, offsets.Nodup ∧
    (∀ fuel, xs.length < fuel → t.bucketEntries header fuel b = some offsets) ∧
    (∀ o ∈ offsets, ∃ x ∈ xs, offset x = o) ∧
    ∀ x ∈ xs, offset x ∈ offsets ↔ ∃ p : UInt32, parent x = some p.toNat ∧ t.bucketOf p (name x) = b
  found : ∀ x ∈ xs, ∃ p : UInt32, parent x = some p.toNat ∧
    ∀ fuel, xs.length < fuel → t.lookup header fuel p (name x) = some (some (offset x))
  absent : ∀ (p : UInt32) (n : List UInt8), (∀ x ∈ xs, parent x = some p.toNat → name x ≠ n) →
    ∀ fuel, xs.length < fuel → t.lookup header fuel p n = some none

/-- The bytes of an entry, with what is of no matter to a search between its directory and its link -/
def hashedEntryBytes (parent : Nat) (middle : List UInt8) (hash : Nat) (name : List UInt8) : List UInt8 :=
  leBytes 4 parent ++ (middle ++ (leBytes 4 hash ++ (leBytes 4 name.length ++ paddedName name)))

lemma fileEntryBytes_eq (parent sibling offset size hash : Nat) (name : List UInt8) :
    fileEntryBytes parent sibling offset size hash name =
      hashedEntryBytes parent (leBytes 4 sibling ++ leBytes 8 offset ++ leBytes 8 size) hash name := by
  simp only [fileEntryBytes, hashedEntryBytes, List.append_assoc]

lemma dirEntryBytes_eq (parent sibling child file hash : Nat) (name : List UInt8) :
    dirEntryBytes parent sibling child file hash name =
      hashedEntryBytes parent (leBytes 4 sibling ++ leBytes 4 child ++ leBytes 4 file) hash name := by
  simp only [dirEntryBytes, hashedEntryBytes, List.append_assoc]

lemma length_hashedEntryBytes (parent : Nat) (middle : List UInt8) (hash : Nat) (name : List UInt8) :
    (hashedEntryBytes parent middle hash name).length = middle.length + 12 + alignUp name.length 4 := by
  simp only [hashedEntryBytes, List.length_append, length_leBytes, length_paddedName]
  omega

/-- An entry is read back by a search. -/
lemma readHashedEntry_append (before middle behind : List UInt8) {parent hash : Nat} {name : List UInt8}
    (hparent : parent < 2 ^ 32) (hhash : hash < 2 ^ 32) (hname : name.length < 2 ^ 32) :
    readHashedEntry (middle.length + 12) (before ++ hashedEntryBytes parent middle hash name ++ behind)
      before.length = some ⟨parent, hash, name⟩ := by
  -- Each field behind those in front of it
  have hp := readField_append before (middle ++ (leBytes 4 hash ++ (leBytes 4 name.length ++
    (paddedName name ++ behind)))) 4 hparent
  have hh := readField_append (before ++ (leBytes 4 parent ++ middle)) (leBytes 4 name.length ++
    (paddedName name ++ behind)) 4 hhash
  have hl := readField_append (before ++ (leBytes 4 parent ++ (middle ++ leBytes 4 hash)))
    (paddedName name ++ behind) 4 hname
  have hn := readExactly_append (before ++ (leBytes 4 parent ++ (middle ++ (leBytes 4 hash ++
    leBytes 4 name.length)))) name (List.replicate (alignUp name.length 4 - name.length) 0 ++ behind)
  have h8 : middle.length + 12 - 8 = 4 + middle.length := by omega
  have h4 : middle.length + 12 - 4 = 4 + (middle.length + 4) := by omega
  have h0 : middle.length + 12 = 4 + (middle.length + (4 + 4)) := by omega
  simp only [List.length_append, length_leBytes, List.append_assoc] at hp hh hl hn
  rw [readHashedEntry, hashedEntryBytes, h8, h4]
  simp only [List.append_assoc, hp, hh, hl, Option.bind_eq_bind, Option.bind_some]
  rw [h0, paddedName, List.append_assoc, hn]
  rfl

/-- What stands at an offset of a table is read there. -/
lemma readHashedEntry_of_slice {table middle name : List UInt8} {offset parent hash : Nat}
    (hslice : slice table offset (hashedEntryBytes parent middle hash name).length =
      hashedEntryBytes parent middle hash name)
    (hfits : offset + (hashedEntryBytes parent middle hash name).length ≤ table.length)
    (hparent : parent < 2 ^ 32) (hhash : hash < 2 ^ 32) (hname : name.length < 2 ^ 32) :
    readHashedEntry (middle.length + 12) table offset = some ⟨parent, hash, name⟩ := by
  have hparts := splice_slice_self hfits
  have hbefore : (table.take offset).length = offset := List.length_take_of_le (by omega)
  rw [hslice, splice] at hparts
  have hread := readHashedEntry_append (table.take offset) middle
    (table.drop (offset + (hashedEntryBytes parent middle hash name).length)) hparent hhash hname
  rw [hparts, hbefore] at hread
  exact hread

/-- Adding an entry gives it the head of its bucket for its link, and makes it the head. -/
lemma HashedTable.addEntry_some {t t' : HashedTable} {parent offset : Nat} {name : List UInt8}
    {entry : Nat → List UInt8} (h : t.addEntry parent offset name entry = some t') :
    ∃ head, t.hashTable[t.bucketOf (UInt32.ofNat parent) name]? = some head ∧
      offset + (entry head).length ≤ t.table.length ∧
      t' = ⟨t.hashTable.set (t.bucketOf (UInt32.ofNat parent) name) offset,
        splice t.table offset (entry head)⟩ := by
  simp only [HashedTable.addEntry, writeEntry, Option.bind_eq_bind, Option.bind_eq_some_iff,
    Option.ite_none_right_eq_some] at h
  obtain ⟨head, hhead, table, ⟨hfits, htable⟩, heq⟩ := h
  cases htable
  cases heq
  exact ⟨head, hhead, hfits, rfl⟩

section Fill

variable {α : Type} {step : HashedTable → α → Option HashedTable} {offset : α → Nat} {parent : α → Option Nat}
  {name middle : α → List UInt8}

/-- The bytes of an element of a table, for a link -/
def entryOf (parent : α → Option Nat) (name middle : α → List UInt8) (link : α → Nat) (x : α) : List UInt8 :=
  hashedEntryBytes ((parent x).getD 0) (middle x) (link x) (name x)

/-- The bucket of an element among `n` buckets -/
def entryBucket (n : Nat) (parent : α → Option Nat) (name : α → List UInt8) (x : α) : Nat :=
  (romfsCalcPathHash (UInt32.ofNat ((parent x).getD 0)) (name x)).toNat % n

/-- A step that adds the entry of an element to a table -/
def AddsEntry (step : HashedTable → α → Option HashedTable) (offset : α → Nat) (parent : α → Option Nat)
    (name middle : α → List UInt8) : Prop :=
  ∀ t x, step t x = (parent x).bind fun p =>
    t.addEntry p (offset x) (name x) fun hash => hashedEntryBytes p (middle x) hash (name x)

/-- A table that holds the entries of some elements, each bucket a chain through its elements -/
structure Chained (n : Nat) (offset : α → Nat) (parent : α → Option Nat) (name middle : α → List UInt8)
    (link : α → Nat) (t : HashedTable) (done : List α) : Prop where
  buckets : t.hashTable.length = n
  threaded : Threaded (entryBucket n parent name) offset link romfsEntryEmpty t.hashTable done
  parents : ∀ x ∈ done, (parent x).isSome
  fits : ∀ x ∈ done, offset x + (entryOf parent name middle link x).length ≤ t.table.length
  stands : ∀ x ∈ done, slice t.table (offset x) (entryOf parent name middle link x).length =
    entryOf parent name middle link x

lemma length_entryOf (parent : α → Option Nat) (name middle : α → List UInt8) (link : α → Nat) (x : α) :
    (entryOf parent name middle link x).length = (middle x).length + 12 + alignUp (name x).length 4 :=
  length_hashedEntryBytes _ _ _ _

lemma entryOf_update [DecidableEq α] (parent : α → Option Nat) (name middle : α → List UInt8) (link : α → Nat)
    {x y : α} (h : y ≠ x) (head : Nat) :
    entryOf parent name middle (Function.update link x head) y = entryOf parent name middle link y := by
  rw [entryOf, Function.update_of_ne h]
  rfl

/-- One more entry, behind the others -/
lemma Chained.snoc [DecidableEq α] (hstep : AddsEntry step offset parent name middle) {n : Nat} {link : α → Nat}
    {t t' : HashedTable} {done : List α} {x : α} (h : Chained n offset parent name middle link t done)
    (hadd : step t x = some t') (hx : x ∉ done) (hne : offset x ≠ romfsEntryEmpty)
    (hbehind : ∀ y ∈ done, offset y + ((middle y).length + 12 + alignUp (name y).length 4) ≤ offset x) :
    ∃ next, Chained n offset parent name middle next t' (done ++ [x]) := by
  rw [hstep, Option.bind_eq_some_iff] at hadd
  obtain ⟨p, hp, hadd⟩ := hadd
  obtain ⟨head, hhead, hfits, rfl⟩ := HashedTable.addEntry_some hadd
  have hbucket : t.bucketOf (UInt32.ofNat p) (name x) = entryBucket n parent name x := by
    rw [HashedTable.bucketOf, entryBucket, h.buckets, hp, Option.getD_some]
  have hentry : hashedEntryBytes p (middle x) head (name x) =
      entryOf parent name middle (Function.update link x head) x := by
    rw [entryOf, Function.update_self, hp, Option.getD_some]
  have hold : ∀ y ∈ done, y ≠ x := fun y hy heq => hx (heq ▸ hy)
  rw [hbucket] at hhead
  rw [hentry] at hfits
  rw [hbucket, hentry]
  refine ⟨Function.update link x head, List.length_set.trans h.buckets, h.threaded.insert hx hne hhead, ?_, ?_, ?_⟩
  · intro y hy
    obtain hy | rfl := List.mem_append.mp hy |>.imp_right List.mem_singleton.mp
    · exact h.parents y hy
    · rw [hp]
      rfl
  · intro y hy
    rw [length_splice hfits]
    obtain hy | rfl := List.mem_append.mp hy |>.imp_right List.mem_singleton.mp
    · rw [entryOf_update _ _ _ _ (hold y hy)]
      exact h.fits y hy
    · exact hfits
  · intro y hy
    obtain hy | rfl := List.mem_append.mp hy |>.imp_right List.mem_singleton.mp
    · have hfront := hbehind y hy
      rw [entryOf_update _ _ _ _ (hold y hy), slice_splice_of_apart hfits (.inl (by rw [length_entryOf]; exact hfront))]
      exact h.stands y hy
    · exact slice_splice_self hfits

/-- The loop over the elements -/
lemma Chained.run [DecidableEq α] (hstep : AddsEntry step offset parent name middle) {n : Nat} {link : α → Nat}
    {t t' : HashedTable} {done xs : List α} (h : Chained n offset parent name middle link t done)
    (hrun : xs.foldlM step t = some t') (hnodup : (done ++ xs).Nodup)
    (hne : ∀ x ∈ xs, offset x ≠ romfsEntryEmpty)
    (hapart : (done ++ xs).Pairwise fun y x =>
      offset y + ((middle y).length + 12 + alignUp (name y).length 4) ≤ offset x) :
    ∃ next, Chained n offset parent name middle next t' (done ++ xs) := by
  induction xs generalizing t link done with
  | nil =>
    cases hrun
    rw [List.append_nil]
    exact ⟨link, h⟩
  | cons x xs ih =>
    rw [List.foldlM_cons, Option.bind_eq_bind, Option.bind_eq_some_iff] at hrun
    obtain ⟨t₁, hadd, hrest⟩ := hrun
    have hx : x ∉ done := fun hmem => (List.nodup_append.mp hnodup).2.2 x hmem x List.mem_cons_self rfl
    have hbehind := fun y hy => (List.pairwise_append.mp hapart).2.2 y hy x List.mem_cons_self
    obtain ⟨next, h₁⟩ := h.snoc hstep hadd hx (hne x List.mem_cons_self) hbehind
    rw [List.append_cons] at hnodup hapart ⊢
    exact ih h₁ hrest hnodup (fun y hy => hne y (List.mem_cons_of_mem x hy)) hapart

/-- What a search reads of an element -/
def hashedEntry (parent : α → Option Nat) (name : α → List UInt8) (link : α → Nat) (x : α) : HashedEntry :=
  ⟨(parent x).getD 0, link x, name x⟩

section Search

variable {header n : Nat} {link : α → Nat} {t : HashedTable} {xs : List α}

section

variable (h : Chained n offset parent name middle link t xs)

include h

/-- An entry of a filled table is read back by a search. -/
lemma Chained.read_eq (hn : 0 < n) (hheader : ∀ x, (middle x).length + 12 = header)
    (hoffset : ∀ x ∈ xs, offset x + (header + alignUp (name x).length 4) < 2 ^ 32)
    (hparent : ∀ x ∈ xs, (parent x).getD 0 < 2 ^ 32) {x : α} (hx : x ∈ xs) :
    readHashedEntry header t.table (offset x) = some (hashedEntry parent name link x) := by
  have hlink : link x < 2 ^ 32 := by
    have hbucket : entryBucket n parent name x < t.hashTable.length := by
      rw [h.buckets]
      exact Nat.mod_lt _ hn
    obtain hstop | ⟨y, hy, heq⟩ := h.threaded.link_eq hx hbucket
    · rw [hstop, romfsEntryEmpty]
      omega
    · have hlt := hoffset y hy
      omega
  have hname : (name x).length < 2 ^ 32 := by
    have hlt := hoffset x hx
    rw [alignUp] at hlt
    omega
  rw [← hheader x]
  exact readHashedEntry_of_slice (h.stands x hx) (h.fits x hx) (hparent x hx) hlink hname

/-- The chain of a bucket of a filled table -/
lemma Chained.chain {b : Nat} (hb : b < n) :
    ∃ head, t.hashTable[b]? = some head ∧ ChainFrom offset link romfsEntryEmpty head
      (inBucket (entryBucket n parent name) b xs) := by
  have hlt : b < t.hashTable.length := by rwa [h.buckets]
  exact ⟨_, List.getElem?_eq_getElem hlt, h.threaded b _ (List.getElem?_eq_getElem hlt)⟩

/-- A search goes through the elements of one bucket. -/
lemma Chained.lookup_eq (hn : 0 < n)
    (hread : ∀ x ∈ xs, readHashedEntry header t.table (offset x) = some (hashedEntry parent name link x))
    (p : UInt32) (key : List UInt8) {fuel : Nat} (hfuel : xs.length < fuel) :
    t.lookup header fuel p key =
      some (((inBucket (entryBucket n parent name) (t.bucketOf p key) xs).find? fun x =>
        (hashedEntry parent name link x).parent = p.toNat ∧ (hashedEntry parent name link x).name = key).map
          offset) := by
  have hb : t.bucketOf p key < n := by
    rw [HashedTable.bucketOf, h.buckets]
    exact Nat.mod_lt _ hn
  obtain ⟨head, hhead, hchain⟩ := h.chain hb
  have hlength := length_inBucket_le (entryBucket n parent name) (t.bucketOf p key) xs
  rw [HashedTable.lookup, hhead, Option.bind_some]
  exact hchain.search_eq (fun x hx => ⟨hread x (mem_inBucket.mp hx).1, rfl⟩) _ (by omega)

/-- The bucket of an element is that of its directory and its name. -/
lemma Chained.bucketOf_eq {x : α} {p : UInt32}
    (hp : parent x = some p.toNat) : t.bucketOf p (name x) = entryBucket n parent name x := by
  rw [HashedTable.bucketOf, entryBucket, h.buckets, hp, Option.getD_some, UInt32.ofNat_toNat]

/-- A filled table hashes its elements, if no two of them have the same name in the same directory. -/
lemma Chained.hashesAll (hn : 0 < n) (hheader : ∀ x, (middle x).length + 12 = header)
    (hoffset : ∀ x ∈ xs, offset x + (header + alignUp (name x).length 4) < 2 ^ 32)
    (hparent : ∀ x ∈ xs, (parent x).getD 0 < 2 ^ 32) (hnodup : (xs.map offset).Nodup)
    (hkeys : ∀ x ∈ xs, ∀ y ∈ xs, parent x = parent y → name x = name y → x = y) :
    HashesAll t header offset parent name xs := by
  have hread := fun x hx => h.read_eq hn hheader hoffset hparent (x := x) hx
  have hparents : ∀ x ∈ xs, ∃ p : UInt32, parent x = some p.toNat := by
    intro x hx
    obtain ⟨p, hp⟩ := Option.isSome_iff_exists.mp (h.parents x hx)
    have hlt := hparent x hx
    rw [hp, Option.getD_some] at hlt
    refine ⟨UInt32.ofNat p, ?_⟩
    rw [hp, UInt32.toNat_ofNat_of_lt' hlt]
  constructor
  case chains =>
    intro b hb
    rw [h.buckets] at hb
    obtain ⟨head, hhead, hchain⟩ := h.chain hb
    have hlength := length_inBucket_le (entryBucket n parent name) b xs
    -- the chain of a bucket has the entries of the bucket, the last one filled in first
    refine ⟨(inBucket (entryBucket n parent name) b xs).map offset, ?_, ?_, ?_, ?_⟩
    · apply (nodup_inBucket (hnodup.of_map _) _ b).map_on
      intro x hx y hy heq
      exact List.inj_on_of_nodup_map hnodup (mem_inBucket.mp hx).1 (mem_inBucket.mp hy).1 heq
    · intro fuel hfuel
      rw [HashedTable.bucketEntries, hhead, Option.bind_some]
      exact hchain.walk_eq (fun x hx => ⟨hread x (mem_inBucket.mp hx).1, rfl⟩) (by omega)
    · intro o ho
      obtain ⟨x, hx, rfl⟩ := List.mem_map.mp ho
      exact ⟨x, (mem_inBucket.mp hx).1, rfl⟩
    · intro x hx
      constructor
      · intro hmem
        obtain ⟨y, hy, heq⟩ := List.mem_map.mp hmem
        obtain ⟨hy, hbucket⟩ := mem_inBucket.mp hy
        cases List.inj_on_of_nodup_map hnodup hy hx heq
        obtain ⟨p, hp⟩ := hparents x hx
        exact ⟨p, hp, (h.bucketOf_eq hp).trans hbucket⟩
      · rintro ⟨p, hp, hbucket⟩
        exact List.mem_map_of_mem (mem_inBucket.mpr ⟨hx, (h.bucketOf_eq hp).symm.trans hbucket⟩)
  case found =>
    intro x hx
    obtain ⟨p, hp⟩ := hparents x hx
    refine ⟨p, hp, fun fuel hfuel => ?_⟩
    rw [h.lookup_eq hn hread p (name x) hfuel]
    cases hfind : (inBucket (entryBucket n parent name) (t.bucketOf p (name x)) xs).find? fun y =>
        (hashedEntry parent name link y).parent = p.toNat ∧ (hashedEntry parent name link y).name = name x with
    | none =>
      have hnone := List.find?_eq_none.mp hfind x (mem_inBucket.mpr ⟨hx, (h.bucketOf_eq hp).symm⟩)
      simp [hashedEntry, hp] at hnone
    | some y =>
      -- the first hit has the key that is looked for, and no other element has it
      have hmem := (mem_inBucket.mp (List.mem_of_find?_eq_some hfind)).1
      have hhit := List.find?_some hfind
      rw [decide_eq_true_iff] at hhit
      obtain ⟨q, hq⟩ := hparents y hmem
      have hsame : parent y = parent x := by
        rw [hp, ← hhit.1, hashedEntry, hq, Option.getD_some]
      rw [hkeys y hmem x hx hsame hhit.2]
      rfl
  case absent =>
    intro p key habsent fuel hfuel
    rw [h.lookup_eq hn hread p key hfuel, List.find?_eq_none.mpr, Option.map_none]
    intro x hx hhit
    rw [decide_eq_true_iff] at hhit
    have hmem := (mem_inBucket.mp hx).1
    obtain ⟨q, hq⟩ := hparents x hmem
    refine habsent x hmem ?_ hhit.2
    rw [← hhit.1, hashedEntry, hq, Option.getD_some]

end

end Search

/-- The loop over the elements fills new tables. -/
lemma Chained.of_newTable [DecidableEq α] (hstep : AddsEntry step offset parent name middle) {memory : Nat → UInt8}
    {count size : Nat} {t : HashedTable} {xs : List α} (hrun : xs.foldlM step (newTable memory count size) = some t)
    (hxs : Consecutive offset (fun x => (middle x).length + 12 + alignUp (name x).length 4) 0 xs)
    (hne : ∀ x ∈ xs, offset x ≠ romfsEntryEmpty) : ∃ link, Chained count offset parent name middle link t xs := by
  have hempty : Chained count offset parent name middle (fun _ => 0) (newTable memory count size) [] := by
    refine ⟨List.length_replicate, threaded_replicate count, ?_, ?_, ?_⟩
    all_goals
      intro x hx
      cases hx
  have hnodup := (hxs.nodup_offset fun x => by omega).of_map
  exact hempty.run hstep hrun hnodup hne hxs.pairwise

end Fill

/-- What a search steps over in a file entry -/
def fileMiddle (fileLinks : Forest.Links RomFSBuildFileContext RomPath) (f : RomFSBuildFileContext) : List UInt8 :=
  leBytes 4 (fileLink (fileLinks.next f)) ++ leBytes 8 f.offset ++ leBytes 8 f.size

/-- What a search steps over in a directory entry -/
def dirMiddle (fileLinks : Forest.Links RomFSBuildFileContext RomPath)
    (dirLinks : Forest.Links RomFSBuildDirectoryContext RomPath) (d : RomFSBuildDirectoryContext) : List UInt8 :=
  leBytes 4 (dirLink (dirLinks.next d)) ++ leBytes 4 (dirLink (dirLinks.first d.path)) ++
    leBytes 4 (fileLink (fileLinks.first d.path))

lemma addsEntry_populateFile (directories : List RomFSBuildDirectoryContext)
    (fileLinks : Forest.Links RomFSBuildFileContext RomPath) :
    AddsEntry (populateFile directories fileLinks) (·.entryOffset) (fun f => dirEntryOffset directories f.parent)
      (fun f => f.name.bytes) (fileMiddle fileLinks) := by
  intro t f
  simp only [populateFile, fileEntryBytes_eq, fileMiddle]
  rfl

lemma addsEntry_populateDirectory (directories : List RomFSBuildDirectoryContext)
    (fileLinks : Forest.Links RomFSBuildFileContext RomPath)
    (dirLinks : Forest.Links RomFSBuildDirectoryContext RomPath) :
    AddsEntry (populateDirectory directories fileLinks dirLinks) (·.entryOffset) (parentEntryOffset directories)
      (·.name) (dirMiddle fileLinks dirLinks) := by
  intro t d
  simp only [populateDirectory, dirEntryBytes_eq, dirMiddle]
  rfl

/-- The loops of `Build` that fill the tables -/
lemma build_fills {memory : Nat → UInt8} {saved : Bool} {ctx : RomFSBuildContext} {built : BuiltRomFS}
    (h : build memory saved ctx = some built) :
    (∃ partitionSize, assignFileOffsets 0 0 none ctx.files.entries = some (built.files, partitionSize)) ∧
      built.files.foldlM (populateFile built.directories (linkFiles built.files))
        (newTable memory (romfsGetHashTableCount ctx.numFiles) ctx.fileTableSize) = some built.fileTables ∧
      built.directories.foldlM
        (populateDirectory built.directories (linkFiles built.files) (linkDirectories built.directories))
        (newTable memory (romfsGetHashTableCount ctx.numDirs) ctx.dirTableSize) = some built.dirs := by
  simp only [build, Option.bind_eq_bind, Option.bind_eq_some_iff, Prod.exists] at h
  obtain ⟨files, partitionSize, hplaced, fileTables, hfiles, infos, -, dirs, hdirs, heq⟩ := h
  cases heq
  exact ⟨⟨partitionSize, hplaced⟩, hfiles, hdirs⟩

section Tables

variable {ctx : RomFSBuildContext} {saved : Bool} {partitionSize : Nat} {built : BuiltRomFS}

/-- The entry of a directory is found by the path of the directory, and no other directory has it. -/
lemma dirEntryOffset_eq_some {directories : List RomFSBuildDirectoryContext} {path : RomPath} {offset : Nat}
    (h : dirEntryOffset directories path = some offset) :
    ∃ d ∈ directories, d.path = path ∧ d.entryOffset = offset := by
  rw [dirEntryOffset, Option.map_eq_some_iff] at h
  obtain ⟨d, hfind, hoffset⟩ := h
  exact ⟨d, List.mem_of_find?_eq_some hfind, by simpa using List.find?_some hfind, hoffset⟩

section

variable (h : Merging ctx) (hbuilt : BuildsTo ctx saved partitionSize built)

include h hbuilt

lemma BuildsTo.consecutive_files (hfiles : ctx.fileTableSize < 2 ^ 32) :
    Consecutive (·.entryOffset) (fun f => fileEntrySize f.name.bytes) 0 built.files :=
  assignFileOffsets_consecutive hbuilt.placed (by rwa [Nat.zero_add, ← h.fileTableSize])

lemma BuildsTo.nodup_fileOffset (hfiles : ctx.fileTableSize < 2 ^ 32) : (built.files.map (·.entryOffset)).Nodup :=
  (hbuilt.consecutive_files h hfiles).nodup_offset fun f => by rw [fileEntrySize]; omega

/-- Every file of what is built has an entry for its directory. -/
lemma BuildsTo.file_parent {f : RomFSBuildFileContext} (hf : f ∈ built.files) :
    ∃ offset, dirEntryOffset built.directories f.parent = some offset := by
  obtain ⟨g, hg, hsame⟩ := exists_of_map_unplaced (assignFileOffsets_unplaced hbuilt.placed) hf
  have hparent : g.parent = f.parent := congrArg (·.parent) hsame
  rw [← hparent, hbuilt.directories_eq]
  exact (h.fileParents g hg).dirEntryOffset

/-- Files of the same path are the same. -/
lemma BuildsTo.file_path_inj
    {f g : RomFSBuildFileContext} (hf : f ∈ built.files) (hg : g ∈ built.files) (hpath : f.path = g.path) : f = g := by
  have hmap := hbuilt.map_unplaced h
  have hnodup := ctx.files.nodup
  have hfMem := List.mem_map_of_mem (f := (·.unplaced)) hf
  have hgMem := List.mem_map_of_mem (f := (·.unplaced)) hg
  rw [hmap] at hfMem hgMem
  have hkey : strcmpKey f.unplaced.path = strcmpKey g.unplaced.path := congrArg strcmpKey hpath
  rw [← hmap] at hnodup
  exact List.inj_on_of_nodup_map hnodup hf hg (OrderedMap.key_inj hfMem hgMem hkey)

variable (hdirs : ctx.dirTableSize < 2 ^ 32)

include hdirs

lemma BuildsTo.consecutive_directories :
    Consecutive (·.entryOffset) (fun d => dirEntrySize d.name) 0 built.directories := by
  rw [hbuilt.directories_eq]
  exact assignDirectoryOffsets_consecutive (by rwa [Nat.zero_add, ← h.dirTableSize])

lemma BuildsTo.nodup_dirOffset : (built.directories.map (·.entryOffset)).Nodup :=
  (hbuilt.consecutive_directories h hdirs).nodup_offset fun d => by rw [dirEntrySize]; omega

/-- Directories with the same entry have the same path. -/
lemma BuildsTo.path_inj {p q : RomPath} {offset : Nat}
    (hp : dirEntryOffset built.directories p = some offset)
    (hq : dirEntryOffset built.directories q = some offset) : p = q := by
  obtain ⟨d, hd, rfl, hoffset⟩ := dirEntryOffset_eq_some hp
  obtain ⟨e, he, rfl, hsame⟩ := dirEntryOffset_eq_some hq
  rw [List.inj_on_of_nodup_map (hbuilt.nodup_dirOffset h hdirs) hd he (hoffset.trans hsame.symm)]

/-- The entry of a directory is there, and is a number of 32 bits. -/
lemma BuildsTo.dirEntryOffset_lt (path : RomPath) :
    (dirEntryOffset built.directories path).getD 0 < 2 ^ 32 := by
  cases hfind : dirEntryOffset built.directories path with
  | none => exact Nat.two_pow_pos 32
  | some offset =>
    obtain ⟨d, hd, -, rfl⟩ := dirEntryOffset_eq_some hfind
    exact (Nat.le_add_right _ _).trans_lt (hbuilt.dirOffset_le h hdirs hd)

/-- No two files have the same name in the same directory. -/
lemma BuildsTo.file_key_inj {f g : RomFSBuildFileContext} (hf : f ∈ built.files)
    (hg : g ∈ built.files)
    (hparent : dirEntryOffset built.directories f.parent = dirEntryOffset built.directories g.parent)
    (hname : f.name.bytes = g.name.bytes) : f = g := by
  obtain ⟨offset, hoffset⟩ := hbuilt.file_parent h hf
  have hsame := hbuilt.path_inj h hdirs hoffset (hparent.symm.trans hoffset)
  apply hbuilt.file_path_inj h hf hg
  rw [RomFSBuildFileContext.path, RomFSBuildFileContext.path, childPath, childPath, hsame, hname]

/-- No two directories have the same name in the same directory, if only the root has no name. -/
lemma BuildsTo.dir_key_inj (hnames : ∀ d ∈ built.directories, d.place.isSome → d.name ≠ [])
    {d e : RomFSBuildDirectoryContext} (hd : d ∈ built.directories) (he : e ∈ built.directories)
    (hparent : parentEntryOffset built.directories d = parentEntryOffset built.directories e)
    (hname : d.name = e.name) : d = e := by
  apply List.inj_on_of_nodup_map hbuilt.nodup_path hd he
  cases hdPlace : d.place with
  | none =>
    have hnil : d.name = [] := by
      rw [RomFSBuildDirectoryContext.name, hdPlace]
    cases hePlace : e.place with
    | none => rw [RomFSBuildDirectoryContext.path, RomFSBuildDirectoryContext.path, hdPlace, hePlace]
    | some place => exact absurd (hname.symm.trans hnil) (hnames e he (by rw [hePlace]; rfl))
  | some place =>
    have hne := hnames d hd (by rw [hdPlace]; rfl)
    cases hePlace : e.place with
    | none =>
      have hnil : e.name = [] := by
        rw [RomFSBuildDirectoryContext.name, hePlace]
      exact absurd (hname.trans hnil) hne
    | some place' =>
      obtain ⟨parent, name⟩ := place
      obtain ⟨parent', name'⟩ := place'
      have hmem := List.mem_map_of_mem (f := (·.place)) hd
      rw [hbuilt.directories_eq, assignDirectoryOffsets_place] at hmem
      obtain ⟨d', hd', hsame⟩ := List.mem_map.mp hmem
      obtain ⟨offset, hoffset⟩ := (h.parents d' hd' parent name (hsame.trans hdPlace)).dirEntryOffset
      rw [← hbuilt.directories_eq] at hoffset
      rw [parentEntryOffset, parentEntryOffset, hdPlace, hePlace] at hparent
      rw [RomFSBuildDirectoryContext.name, RomFSBuildDirectoryContext.name, hdPlace, hePlace] at hname
      have hpaths := hbuilt.path_inj h hdirs hoffset (hparent.symm.trans hoffset)
      rw [RomFSBuildDirectoryContext.path, RomFSBuildDirectoryContext.path, hdPlace, hePlace]
      dsimp only at hname ⊢
      rw [childPath, childPath, hpaths, hname]

/-- The hash table of the files -/
lemma BuildsTo.fileHashes (hfiles : ctx.fileTableSize < 2 ^ 32) {memory : Nat → UInt8}
    (hrun : built.files.foldlM (populateFile built.directories (linkFiles built.files))
      (newTable memory (romfsGetHashTableCount ctx.numFiles) ctx.fileTableSize) = some built.fileTables) :
    HashesAll built.fileTables 0x20 (·.entryOffset) (fun f => dirEntryOffset built.directories f.parent)
      (fun f => f.name.bytes) built.files := by
  have hend := fun f hf => hbuilt.fileOffset_le h hfiles (f := f) hf
  have hne : ∀ f ∈ built.files, f.entryOffset ≠ romfsEntryEmpty := by
    intro f hf
    have hlt := hend f hf
    rw [fileEntrySize] at hlt
    rw [romfsEntryEmpty]
    omega
  have hmiddle : ∀ f, (fileMiddle (linkFiles built.files) f).length + 12 = 0x20 := by
    intro f
    simp only [fileMiddle, List.length_append, length_leBytes]
  have hconsecutive := hbuilt.consecutive_files h hfiles
  obtain ⟨link, hchained⟩ := Chained.of_newTable
    (addsEntry_populateFile built.directories (linkFiles built.files)) hrun
    (by simp only [hmiddle]; exact hconsecutive) hne
  exact hchained.hashesAll (romfsGetHashTableCount_pos _) hmiddle hend
    (fun f _ => hbuilt.dirEntryOffset_lt h hdirs f.parent) (hbuilt.nodup_fileOffset h hfiles)
    (fun f hf g hg => hbuilt.file_key_inj h hdirs hf hg)

/-- The hash table of the directories -/
lemma BuildsTo.dirHashes (hnames : ∀ d ∈ built.directories, d.place.isSome → d.name ≠ [])
    {memory : Nat → UInt8}
    (hrun : built.directories.foldlM
      (populateDirectory built.directories (linkFiles built.files) (linkDirectories built.directories))
      (newTable memory (romfsGetHashTableCount ctx.numDirs) ctx.dirTableSize) = some built.dirs) :
    HashesAll built.dirs 0x18 (·.entryOffset) (parentEntryOffset built.directories) (·.name)
      built.directories := by
  have hend := fun d hd => hbuilt.dirOffset_le h hdirs (d := d) hd
  have hne : ∀ d ∈ built.directories, d.entryOffset ≠ romfsEntryEmpty := by
    intro d hd
    have hlt := hend d hd
    rw [dirEntrySize] at hlt
    rw [romfsEntryEmpty]
    omega
  have hmiddle : ∀ d, (dirMiddle (linkFiles built.files) (linkDirectories built.directories) d).length + 12 =
      0x18 := by
    intro d
    simp only [dirMiddle, List.length_append, length_leBytes]
  have hparent : ∀ d ∈ built.directories, (parentEntryOffset built.directories d).getD 0 < 2 ^ 32 := by
    intro d _
    rw [parentEntryOffset]
    cases d.place with
    | none => exact Nat.two_pow_pos 32
    | some place => exact hbuilt.dirEntryOffset_lt h hdirs place.1
  have hconsecutive := hbuilt.consecutive_directories h hdirs
  obtain ⟨link, hchained⟩ := Chained.of_newTable (addsEntry_populateDirectory built.directories
    (linkFiles built.files) (linkDirectories built.directories)) hrun
    (by simp only [hmiddle]; exact hconsecutive) hne
  exact hchained.hashesAll (romfsGetHashTableCount_pos _) hmiddle hend hparent
    (hbuilt.nodup_dirOffset h hdirs) (fun d hd e he => hbuilt.dir_key_inj h hdirs hnames hd he)

end

end Tables

/-- In the tables that `Build` writes, every directory and every file that was merged is on the chain of the bucket
of its name in its directory and on no other, and every chain ends; a search for a name in a directory finds its
entry, and ends without one if there is none. A directory entry has a name, but for the root. -/
theorem build_hashes_all {sources : LayeredSources} (hwalks : sources.Walks)
    (hdirs : sources.merged.dirTableSize < 2 ^ 32) (hfiles : sources.merged.fileTableSize < 2 ^ 32)
    (hnames : ∀ d ∈ sources.merged.directories.entries, d.place.isSome → d.name ≠ []) {memory : Nat → UInt8}
    {saved : Bool} {built : BuiltRomFS} (hbuild : build memory saved sources.merged = some built) :
    (built.files.map (·.unplaced) = sources.merged.files.entries ∧
      built.fileTables.hashTable.length = romfsGetHashTableCount sources.merged.numFiles ∧
      HashesAll built.fileTables 0x20 (·.entryOffset) (fun f => dirEntryOffset built.directories f.parent)
        (fun f => f.name.bytes) built.files) ∧
    (built.directories.map (·.place) = sources.merged.directories.entries.map (·.place) ∧
      built.dirs.hashTable.length = romfsGetHashTableCount sources.merged.numDirs ∧
      HashesAll built.dirs 0x18 (·.entryOffset) (parentEntryOffset built.directories) (·.name)
        built.directories) := by
  have h := hwalks.merging
  obtain ⟨⟨partitionSize, hplaced⟩, hfileRun, hdirRun⟩ := build_fills hbuild
  obtain ⟨built', hbuild', hbuilt⟩ := h.build_eq
    (fun f hf => (LayeredSources.isFrom_of_mem hf).isMerged) hdirs hfiles hplaced memory saved
  cases Option.some_inj.mp (hbuild.symm.trans hbuild')
  have hplaces : built.directories.map (·.place) = sources.merged.directories.entries.map (·.place) := by
    rw [hbuilt.directories_eq, assignDirectoryOffsets_place]
  have hbuiltNames : ∀ d ∈ built.directories, d.place.isSome → d.name ≠ [] := by
    intro d hd hsome
    have hmem := List.mem_map_of_mem (f := (·.place)) hd
    rw [hplaces] at hmem
    obtain ⟨d', hd', hsame⟩ := List.mem_map.mp hmem
    have hname := hnames d' hd' (by rw [hsame]; exact hsome)
    rw [RomFSBuildDirectoryContext.name, hsame] at hname
    exact hname
  exact ⟨⟨hbuilt.map_unplaced h, hbuilt.fileBuckets, hbuilt.fileHashes h hdirs hfiles hfileRun⟩,
    hplaces, hbuilt.dirBuckets, hbuilt.dirHashes h hdirs hbuiltNames hdirRun⟩

/-- The hash tables of a small tree -/
theorem build_hashes_all_tree :
    ∃ built, build (fun _ => 0xFF) true exampleTree.merged = some built ∧
      HashesAll built.fileTables 0x20 (·.entryOffset) (fun f => dirEntryOffset built.directories f.parent)
        (fun f => f.name.bytes) built.files ∧
      HashesAll built.dirs 0x18 (·.entryOffset) (parentEntryOffset built.directories) (·.name)
        built.directories := by
  have hwalks : exampleTree.Walks := by
    refine ⟨⟨List.mem_singleton_self _, List.mem_cons_self, trivial⟩, ?_, ?_⟩
    · intro storage hstorage
      cases hstorage
    · intro storage hstorage
      cases hstorage
  have hsome : (build (fun _ => 0xFF) true exampleTree.merged).isSome = true := by decide +kernel
  obtain ⟨built, hbuild⟩ := Option.isSome_iff_exists.mp hsome
  have hall := build_hashes_all hwalks (by decide +kernel) (by decide +kernel) (by decide +kernel) hbuild
  exact ⟨built, hbuild, hall.1.2.2, hall.2.2.2⟩

end RajNX.FsMitm.RomFs
