import Mathlib.Data.List.TakeWhile
import RajNX.Lib.BoundedMap
import RajNX.Lib.LowerBound
import RajNX.Lib.Splice

/-!
# The in-memory key-value store

`MemoryKeyValueStore` of `kvdb_memory_key_value_store.hpp`: an array of entries kept sorted by key, with
binary search for finding a key and for the place of a new one, and moves of the entries behind it. The
store is a finite map with at most as many keys as the array has room for.
-/

namespace RajNX.Kvdb

open Splice LowerBound

variable {κ : Type}

/-- The results of the store. -/
inductive KvResult
  | success
  | keyCapacityInsufficient
  | keyNotFound
  | allocationFailed
  | invalidKeyValue
deriving Repr, DecidableEq

/-- `MemoryKeyValueStore::Entry` -/
structure Entry (κ : Type) where
  key : κ
  value : List UInt8
deriving Repr, DecidableEq

/-- `MemoryKeyValueStore::Index`: the memory for the entries, as many as the capacity is, and how many
of them are in use. -/
structure Index (κ : Type) where
  entries : List (Entry κ)
  count : Nat

namespace Index

/-- `GetCapacity` -/
def capacity (x : Index κ) : Nat := x.entries.length

/-- The entries in use. -/
def live (x : Index κ) : List (Entry κ) := x.entries.take x.count

variable [LinearOrder κ]

/-- `lower_bound`, the index of the first entry whose key is not less than the key -/
def lowerBound (x : Index κ) (key : κ) : Nat :=
  LowerBound.lowerBound (fun i => (x.entries[i]?).any (·.key < key)) x.count

/-- Whether an index is not the end and its entry has the key. -/
def hasKeyAt (x : Index κ) (i : Nat) (key : κ) : Bool :=
  i ≠ x.count ∧ (x.entries[i]?).any (·.key = key)

/-- `Find` -/
def find (x : Index κ) (key : κ) : Nat :=
  let it := x.lowerBound key
  if x.hasKeyAt it key then it else x.count

/-- `Set`, given whether memory for the value could be allocated -/
def set (x : Index κ) (key : κ) (value : List UInt8) (allocated : Bool) : KvResult × Index κ :=
  if ¬allocated then (.allocationFailed, x)
  else
    let it := x.lowerBound key
    if x.hasKeyAt it key then
      (.success, { x with entries := x.entries.set it ⟨key, value⟩ })
    else if x.capacity ≤ x.count then (.keyCapacityInsufficient, x)
    else
      let moved := splice x.entries (it + 1) (slice x.entries it (x.count - it))
      (.success, ⟨moved.set it ⟨key, value⟩, x.count + 1⟩)

/-- `AddUnsafe` -/
def addUnsafe (x : Index κ) (key : κ) (value : List UInt8) : KvResult × Index κ :=
  if x.capacity ≤ x.count then (.keyCapacityInsufficient, x)
  else (.success, ⟨x.entries.set x.count ⟨key, value⟩, x.count + 1⟩)

/-- `Remove` -/
def remove (x : Index κ) (key : κ) : KvResult × Index κ :=
  let it := x.find key
  if it ≠ x.count then
    let moved := splice x.entries it (slice x.entries (it + 1) (x.count - (it + 1)))
    (.success, ⟨moved, x.count - 1⟩)
  else (.keyNotFound, x)

end Index

/-- The calls of a client. -/
inductive KvCall (κ : Type)
  | set (key : κ) (value : List UInt8) (allocated : Bool)
  | get (key : κ) (maxOutSize : Nat)
  | getValueSize (key : κ)
  | remove (key : κ)

/-- What a call gives back: its result and, if it sets them, the size and the bytes of the value. -/
structure KvReply where
  result : KvResult
  outSize : Option Nat
  outValue : List UInt8
deriving Repr, DecidableEq

/-- A reply without data. -/
def KvReply.plain (result : KvResult) : KvReply := ⟨result, none, []⟩

section Store

variable [LinearOrder κ]

/-- `MemoryKeyValueStore::Get` -/
def Index.get (x : Index κ) (key : κ) (maxOutSize : Nat) : KvReply :=
  let it := x.find key
  if it = x.count then .plain .keyNotFound
  else
    match x.entries[it]? with
    | some e =>
      let size := min maxOutSize e.value.length
      ⟨.success, some size, e.value.take size⟩
    | none => .plain .keyNotFound

/-- `MemoryKeyValueStore::GetValueSize` -/
def Index.getValueSize (x : Index κ) (key : κ) : KvReply :=
  let it := x.find key
  if it = x.count then .plain .keyNotFound
  else
    match x.entries[it]? with
    | some e => ⟨.success, some e.value.length, []⟩
    | none => .plain .keyNotFound

/-- One call. -/
def Index.call (x : Index κ) : KvCall κ → KvReply × Index κ
  | .set key value allocated => (.plain (x.set key value allocated).1, (x.set key value allocated).2)
  | .get key maxOutSize => (x.get key maxOutSize, x)
  | .getValueSize key => (x.getValueSize key, x)
  | .remove key => (.plain (x.remove key).1, (x.remove key).2)

/-- A sequence of calls, with the replies. -/
def Index.calls (x : Index κ) : List (KvCall κ) → List KvReply × Index κ
  | [] => ([], x)
  | c :: cs =>
    let next := x.call c
    let rest := next.2.calls cs
    (next.1 :: rest.1, rest.2)

end Store

/-! ## The bounded map -/

section Spec

variable [DecidableEq κ] {capacity : Nat}

/-- What a call does to a bounded finite map. -/
def specCall (m : BoundedMap κ (List UInt8) capacity) :
    KvCall κ → KvReply × BoundedMap κ (List UInt8) capacity
  | .set key value allocated =>
    if ¬allocated then (.plain .allocationFailed, m)
    else if h : m.HasRoom key then (.plain .success, m.insert key value h)
    else (.plain .keyCapacityInsufficient, m)
  | .get key maxOutSize =>
    match m.lookup key with
    | some value => (⟨.success, some (min maxOutSize value.length), value.take maxOutSize⟩, m)
    | none => (.plain .keyNotFound, m)
  | .getValueSize key =>
    match m.lookup key with
    | some value => (⟨.success, some value.length, []⟩, m)
    | none => (.plain .keyNotFound, m)
  | .remove key =>
    if key ∈ m.keys then (.plain .success, m.erase key) else (.plain .keyNotFound, m)

/-- A sequence of calls on a bounded finite map. -/
def specCalls (m : BoundedMap κ (List UInt8) capacity) :
    List (KvCall κ) → List KvReply × BoundedMap κ (List UInt8) capacity
  | [] => ([], m)
  | c :: cs =>
    let next := specCall m c
    let rest := specCalls next.2 cs
    (next.1 :: rest.1, rest.2)

end Spec

/-! ## Where a key is -/

section Located

variable [LinearOrder κ] {x : Index κ} {key : κ}

/-- The entries are sorted by their keys, each key once. -/
def Sorted (l : List (Entry κ)) : Prop := l.Pairwise fun a b => a.key < b.key

/-- Where the search for a key ends: at the key's entry, or between the smaller and the greater keys. -/
inductive Located (x : Index κ) (key : κ) : Prop
  | hit (L : List (Entry κ)) (e : Entry κ) (R rest : List (Entry κ)) :
    x.entries = L ++ e :: R ++ rest → x.count = L.length + 1 + R.length →
    x.lowerBound key = L.length → e.key = key → (∀ a ∈ L, a.key < key) → (∀ a ∈ R, key < a.key) →
    Located x key
  | miss (L R rest : List (Entry κ)) :
    x.entries = L ++ R ++ rest → x.count = L.length + R.length → x.lowerBound key = L.length →
    (∀ a ∈ L, a.key < key) → (∀ a ∈ R, key < a.key) → Located x key

/-- The search ends between the keys that are smaller and those that are not. -/
lemma lowerBound_eq_length {L R rest : List (Entry κ)} (hentries : x.entries = L ++ R ++ rest)
    (hcount : x.count = L.length + R.length) (hL : ∀ a ∈ L, a.key < key)
    (hR : ∀ a ∈ R, key ≤ a.key) : x.lowerBound key = L.length := by
  refine lowerBound_eq (by omega) ?_ ?_
  · intro i hi
    rw [hentries, List.getElem?_append_left (by rw [List.length_append]; omega),
      List.getElem?_append_left hi, List.getElem?_eq_getElem hi]
    simpa using hL _ (List.getElem_mem hi)
  · intro i hi hi'
    have hlt : i - L.length < R.length := by omega
    rw [hentries, List.getElem?_append_left (by rw [List.length_append]; omega),
      List.getElem?_append_right hi, List.getElem?_eq_getElem hlt]
    simpa using hR _ (List.getElem_mem hlt)

lemma located (hcount : x.count ≤ x.capacity) (hsorted : Sorted x.live) (key : κ) : Located x key := by
  have hlive : x.live.length = x.count := by
    rw [Index.live, List.length_take]
    exact Nat.min_eq_left hcount
  have hentries : x.entries = x.live ++ x.entries.drop x.count := by
    rw [Index.live, List.take_append_drop]
  generalize x.entries.drop x.count = rest at hentries
  have hsplit : x.live = x.live.takeWhile (·.key < key) ++ x.live.dropWhile (·.key < key) :=
    (List.takeWhile_append_dropWhile).symm
  have hL : ∀ a ∈ x.live.takeWhile (·.key < key), a.key < key := fun a ha => by
    simpa using List.mem_takeWhile_imp ha
  have hhead : ∀ e R, x.live.dropWhile (·.key < key) = e :: R → key ≤ e.key := by
    intro e R hR
    have hnil : x.live.dropWhile (·.key < key) ≠ [] := by simp [hR]
    simpa [hR] using List.head_dropWhile_not (fun a : Entry κ => decide (a.key < key)) hnil
  generalize x.live.takeWhile (·.key < key) = L at hsplit hL
  generalize x.live.dropWhile (·.key < key) = R at hsplit hhead
  rw [hsplit] at hlive hentries hsorted
  rw [List.length_append] at hlive
  cases R with
  | nil =>
    refine .miss L [] rest hentries hlive.symm ?_ hL (by simp)
    exact lowerBound_eq_length hentries hlive.symm hL (by simp)
  | cons e R =>
    obtain ⟨-, hsortedR, -⟩ := List.pairwise_append.mp hsorted
    obtain ⟨hgreater, -⟩ := List.pairwise_cons.mp hsortedR
    have hge := hhead e R rfl
    have hR : ∀ a ∈ R, key < a.key := fun a ha => hge.trans_lt (hgreater a ha)
    have hbound : x.lowerBound key = L.length := by
      refine lowerBound_eq_length hentries hlive.symm hL ?_
      intro a ha
      rcases List.mem_cons.mp ha with rfl | ha
      · exact hge
      · exact (hR a ha).le
    rcases hge.lt_or_eq with hlt | heq
    · refine .miss L (e :: R) rest hentries hlive.symm hbound hL ?_
      intro a ha
      rcases List.mem_cons.mp ha with rfl | ha
      · exact hlt
      · exact hR a ha
    · refine .hit L e R rest hentries ?_ hbound heq.symm hL hR
      rw [← hlive, List.length_cons]
      omega

section Hit

variable {L R rest : List (Entry κ)} {e : Entry κ}

section

variable (hentries : x.entries = L ++ e :: R ++ rest) (hcount : x.count = L.length + 1 + R.length)

include hentries hcount

lemma hasKeyAt_hit (he : e.key = key) : x.hasKeyAt L.length key = true := by
  have hget : x.entries[L.length]? = some e := by
    rw [hentries, List.append_assoc, List.getElem?_append_right le_rfl, Nat.sub_self]
    rfl
  have hne : L.length ≠ x.count := by omega
  simp [Index.hasKeyAt, hget, he, hne]

lemma find_hit (hbound : x.lowerBound key = L.length)
    (he : e.key = key) : x.find key = L.length ∧ x.entries[L.length]? = some e := by
  refine ⟨?_, ?_⟩
  · rw [Index.find, hbound]
    exact if_pos (hasKeyAt_hit hentries hcount he)
  · rw [hentries, List.append_assoc, List.getElem?_append_right le_rfl, Nat.sub_self]
    rfl

lemma set_hit (hbound : x.lowerBound key = L.length) (he : e.key = key) (value : List UInt8) :
    x.set key value true = (.success, ⟨L ++ ⟨key, value⟩ :: R ++ rest, x.count⟩) := by
  rw [Index.set, if_neg (by simp), hbound]
  dsimp only
  rw [if_pos (hasKeyAt_hit hentries hcount he), hentries, List.append_assoc,
    List.set_append_right _ _ le_rfl, Nat.sub_self, List.append_assoc]
  rfl

/-- The entries behind a removed one are moved over it. -/
lemma remove_hit (hbound : x.lowerBound key = L.length) (he : e.key = key) : ∃ rest', (x.remove key).1 = .success ∧
      (x.remove key).2 = ⟨L ++ R ++ rest', L.length + R.length⟩ ∧
      rest'.length = rest.length + 1 := by
  have hfind := (find_hit hentries hcount hbound he).1
  have hne : L.length ≠ x.count := by omega
  have hslice : slice x.entries (L.length + 1) (x.count - (L.length + 1)) = R := by
    rw [hcount, Nat.add_sub_cancel_left, hentries, slice, List.append_assoc, List.drop_append,
      Nat.add_sub_cancel_left, List.drop_eq_nil_of_le (Nat.le_succ _)]
    exact List.take_left
  have hsplice : splice x.entries L.length R =
      L ++ R ++ (L ++ e :: R ++ rest).drop (L.length + R.length) := by
    rw [splice, hentries, List.append_assoc L, List.take_left]
  refine ⟨(L ++ e :: R ++ rest).drop (L.length + R.length), ?_, ?_, ?_⟩
  · rw [Index.remove, hfind]
    simp only [if_pos hne]
  · rw [Index.remove, hfind]
    simp only [if_pos hne]
    rw [hslice, hsplice, hcount]
    congr 1
    omega
  · simp only [List.length_drop, List.length_append, List.length_cons]
    omega

end

end Hit

section Miss

variable {L R rest : List (Entry κ)}

section

variable (hentries : x.entries = L ++ R ++ rest) (hcount : x.count = L.length + R.length)

include hentries hcount

lemma hasKeyAt_miss (hR : ∀ a ∈ R, key < a.key) : x.hasKeyAt L.length key = false := by
  rw [Index.hasKeyAt, decide_eq_false_iff_not]
  rintro ⟨hne, hany⟩
  cases R with
  | nil =>
    rw [List.length_nil, Nat.add_zero] at hcount
    exact hne hcount.symm
  | cons e R =>
    have hget : x.entries[L.length]? = some e := by
      rw [hentries, List.append_assoc, List.getElem?_append_right le_rfl, Nat.sub_self]
      rfl
    rw [hget] at hany
    simp only [Option.any_some, decide_eq_true_eq] at hany
    exact (hR e (by simp)).ne' hany

section

variable (hbound : x.lowerBound key = L.length) (hR : ∀ a ∈ R, key < a.key)

include hbound hR

lemma find_miss : x.find key = x.count := by
  rw [Index.find, hbound]
  simp [hasKeyAt_miss hentries hcount hR]

/-- The entries behind a new one are moved away from its place. -/
lemma set_miss (value : List UInt8) (hroom : x.count < x.capacity) : ∃ rest', (x.set key value true).1 = .success ∧
      (x.set key value true).2 = ⟨L ++ ⟨key, value⟩ :: R ++ rest', x.count + 1⟩ ∧
      rest'.length + 1 = rest.length := by
  have hmiss : ¬x.hasKeyAt L.length key = true := by
    rw [hasKeyAt_miss hentries hcount hR]
    decide
  obtain ⟨r, rest', rfl⟩ : ∃ r rest', rest = r :: rest' := by
    cases rest with
    | nil =>
      rw [Index.capacity, hentries, List.append_nil, List.length_append] at hroom
      omega
    | cons r rest' => exact ⟨r, rest', rfl⟩
  have hslice : slice x.entries L.length (x.count - L.length) = R := by
    rw [hcount, Nat.add_sub_cancel_left, hentries, slice, List.append_assoc, List.drop_left, List.take_left]
  have hsplice : (splice x.entries (L.length + 1) R).set L.length ⟨key, value⟩ =
      L ++ ⟨key, value⟩ :: R ++ rest' := by
    have htake : ∃ y, x.entries.take (L.length + 1) = L ++ [y] := by
      rw [hentries, List.append_assoc]
      cases R with
      | nil => exact ⟨r, by simp [List.take_append]⟩
      | cons e R => exact ⟨e, by simp [List.take_append]⟩
    obtain ⟨y, hy⟩ := htake
    have hdrop : x.entries.drop (L.length + 1 + R.length) = rest' := by
      rw [hentries, show L.length + 1 + R.length = (L ++ R).length + 1 by
        rw [List.length_append]; omega, List.drop_append]
      simp
    rw [splice, hy, hdrop, List.append_assoc, List.append_assoc,
      List.set_append_right _ _ le_rfl, Nat.sub_self, List.append_assoc]
    rfl
  refine ⟨rest', ?_, ?_, rfl⟩
  · rw [Index.set, if_neg (by simp), hbound]
    dsimp only
    rw [if_neg hmiss, if_neg (Nat.not_le.mpr hroom)]
  · rw [Index.set, if_neg (by simp), hbound]
    dsimp only
    rw [if_neg hmiss, if_neg (Nat.not_le.mpr hroom), hslice, hsplice]

lemma set_miss_full (value : List UInt8)
    (hfull : x.capacity ≤ x.count) : x.set key value true = (.keyCapacityInsufficient, x) := by
  have hmiss : ¬x.hasKeyAt L.length key = true := by
    rw [hasKeyAt_miss hentries hcount hR]
    decide
  rw [Index.set, if_neg (by simp), hbound]
  dsimp only
  rw [if_neg hmiss, if_pos hfull]

end

end

end Miss

end Located

/-! ## The store is a bounded map -/

section Refinement

variable [LinearOrder κ] {x : Index κ} {key : κ}

/-- The value of a key in a list of entries. -/
def lookupIn (l : List (Entry κ)) (key : κ) : Option (List UInt8) :=
  (l.find? (·.key = key)).map (·.value)

lemma lookupIn_eq_none {l : List (Entry κ)} (h : ∀ a ∈ l, a.key ≠ key) : lookupIn l key = none := by
  rw [lookupIn, Option.map_eq_none_iff, List.find?_eq_none]
  simpa using h

lemma lookupIn_append (l l' : List (Entry κ)) (key : κ) :
    lookupIn (l ++ l') key = (lookupIn l key).or (lookupIn l' key) := by
  rw [lookupIn, List.find?_append, lookupIn, lookupIn]
  cases l.find? (·.key = key) <;> rfl

lemma lookupIn_cons (e : Entry κ) (l : List (Entry κ)) (key : κ) :
    lookupIn (e :: l) key = if e.key = key then some e.value else lookupIn l key := by
  rw [lookupIn, List.find?_cons]
  by_cases h : e.key = key
  · simp [h]
  · simp [h, lookupIn]

variable {L R : List (Entry κ)}

/-- An entry between smaller keys and any others is what is found of its key, and nothing else of other
keys. -/
lemma lookupIn_insert (e : Entry κ) (hL : ∀ a ∈ L, a.key < e.key) :
    lookupIn (L ++ e :: R) = Function.update (lookupIn (L ++ R)) e.key (some e.value) := by
  funext k
  rw [lookupIn_append, lookupIn_cons]
  by_cases hk : k = e.key
  · subst hk
    rw [Function.update_self, lookupIn_eq_none fun a ha => (hL a ha).ne]
    simp
  · rw [Function.update_of_ne hk, if_neg (Ne.symm hk), lookupIn_append]

/-- Changing one value of a sorted list twice is changing it once. -/
lemma lookupIn_remove (e : Entry κ) (hL : ∀ a ∈ L, a.key < e.key) (hR : ∀ a ∈ R, e.key < a.key) :
    lookupIn (L ++ R) = Function.update (lookupIn (L ++ e :: R)) e.key none := by
  rw [lookupIn_insert e hL, Function.update_idem, eq_comm, Function.update_eq_self_iff, eq_comm]
  refine lookupIn_eq_none fun a ha => ?_
  rcases List.mem_append.mp ha with ha | ha
  · exact (hL a ha).ne
  · exact (hR a ha).ne'

/-- The entries in use are sorted and hold what the map does. -/
structure Represents {capacity : Nat} (x : Index κ) (m : BoundedMap κ (List UInt8) capacity) :
    Prop where
  room : x.capacity = capacity
  count_le : x.count ≤ x.capacity
  sorted : Sorted x.live
  lookup : m.lookup = lookupIn x.live

lemma lookupIn_ne_none_iff {l : List (Entry κ)} : lookupIn l key ≠ none ↔ key ∈ l.map (·.key) := by
  rw [lookupIn, ne_eq, Option.map_eq_none_iff, List.find?_eq_none]
  simp

variable {capacity : Nat} {m : BoundedMap κ (List UInt8) capacity}

lemma Represents.mem_keys (h : Represents x m) : key ∈ m.keys ↔ key ∈ x.live.map (·.key) := by
  rw [m.mem_keys, h.lookup, lookupIn_ne_none_iff]

/-- As many keys have a value as entries are in use. -/
lemma Represents.card (h : Represents x m) : m.keys.card = x.count := by
  have hkeys : m.keys = (x.live.map (·.key)).toFinset := by
    ext k
    rw [List.mem_toFinset, h.mem_keys]
  have hnodup : (x.live.map (·.key)).Nodup :=
    List.pairwise_map.mpr (List.Pairwise.imp (fun hlt => hlt.ne) h.sorted)
  rw [hkeys, List.toFinset_card_of_nodup hnodup, List.length_map, Index.live, List.length_take]
  exact Nat.min_eq_left h.count_le

omit [LinearOrder κ] in
/-- An index in parts. -/
lemma live_eq {l rest : List (Entry κ)} {n : Nat} (hn : n = l.length) : Index.live ⟨l ++ rest, n⟩ = l := by
  rw [Index.live, hn, List.take_left]

/-- Entries around a key stay sorted with an entry of the key. -/
lemma sorted_insert (e : Entry κ) (hsorted : Sorted (L ++ R))
    (hL : ∀ a ∈ L, a.key < e.key) (hR : ∀ a ∈ R, e.key < a.key) : Sorted (L ++ e :: R) := by
  obtain ⟨hsortedL, hsortedR, hcross⟩ := List.pairwise_append.mp hsorted
  refine List.pairwise_append.mpr ⟨hsortedL, List.pairwise_cons.mpr ⟨hR, hsortedR⟩, ?_⟩
  intro a ha b hb
  rcases List.mem_cons.mp hb with rfl | hb
  · exact hL a ha
  · exact hcross a ha b hb

lemma sorted_remove {e : Entry κ} (hsorted : Sorted (L ++ e :: R)) : Sorted (L ++ R) :=
  hsorted.sublist ((List.sublist_cons_self e R).append_left L)

section

variable (h : Represents x m)

include h

/-- The parts of an index around the place of a key, with what the map knows of it. -/
lemma Represents.set (key : κ) (value : List UInt8) (allocated : Bool) :
    (x.call (.set key value allocated)).1 = (specCall m (.set key value allocated)).1 ∧
      Represents (x.call (.set key value allocated)).2
        (specCall m (.set key value allocated)).2 := by
  simp only [Index.call, specCall]
  cases allocated with
  | false => exact ⟨rfl, h⟩
  | true =>
    simp only [not_true_eq_false, if_false]
    -- the search ends at the entry of the key or at the place for a new one
    cases located h.count_le h.sorted key with
    | hit L e R rest hentries hcount hbound he hL hR =>
      subst he
      have hlive : x.live = L ++ e :: R := by
        rw [Index.live, hentries]
        exact List.take_left' (by simp; omega)
      have hmem : m.HasRoom e.key := .inl (by rw [h.mem_keys, hlive]; simp)
      have hsorted := h.sorted
      rw [hlive] at hsorted
      rw [set_hit hentries hcount hbound rfl, dif_pos hmem]
      refine ⟨rfl, ?_, ?_, ?_, ?_⟩
      · rw [← h.room, Index.capacity, Index.capacity, hentries]
        simp
      · have := h.count_le
        rw [Index.capacity, hentries] at this
        simpa [Index.capacity] using this
      · rw [live_eq (by simp; omega)]
        exact sorted_insert ⟨e.key, value⟩ (sorted_remove hsorted) hL hR
      · rw [live_eq (by simp; omega), lookupIn_insert ⟨e.key, value⟩ hL, BoundedMap.lookup_insert,
          h.lookup, hlive, lookupIn_remove e hL hR, Function.update_idem]
    | miss L R rest hentries hcount hbound hL hR =>
      have hlive : x.live = L ++ R := by
        rw [Index.live, hentries]
        exact List.take_left' (by simp; omega)
      have hnot : key ∉ m.keys := by
        rw [h.mem_keys, hlive, List.map_append, List.mem_append]
        rintro (hmem | hmem)
        · obtain ⟨a, ha, rfl⟩ := List.mem_map.mp hmem
          exact lt_irrefl _ (hL a ha)
        · obtain ⟨a, ha, rfl⟩ := List.mem_map.mp hmem
          exact lt_irrefl _ (hR a ha)
      have hsorted := h.sorted
      rw [hlive] at hsorted
      rcases Nat.lt_or_ge x.count x.capacity with hroom | hfull
      · obtain ⟨rest', hresult, hnext, hlen⟩ := set_miss hentries hcount hbound hR value hroom
        have hhas : m.HasRoom key := .inr (by rw [h.card, ← h.room]; exact hroom)
        rw [hresult, hnext, dif_pos hhas]
        refine ⟨rfl, ?_, ?_, ?_, ?_⟩
        · rw [← h.room, Index.capacity, Index.capacity, hentries]
          simp
          omega
        · rw [Index.capacity, hentries] at hroom
          simp only [Index.capacity, List.length_append, List.length_cons] at hroom ⊢
          omega
        · rw [live_eq (by simp; omega)]
          exact sorted_insert ⟨key, value⟩ hsorted hL hR
        · rw [live_eq (by simp; omega), lookupIn_insert ⟨key, value⟩ hL, BoundedMap.lookup_insert,
            h.lookup, hlive]
      -- there is no room for a new entry
      · have hhas : ¬m.HasRoom key := by
          rintro (hmem | hlt)
          · exact hnot hmem
          · rw [h.card, ← h.room] at hlt
            omega
        rw [set_miss_full hentries hcount hbound hR value hfull, dif_neg hhas]
        exact ⟨rfl, h⟩

/-- What is found of a key. -/
lemma Represents.found (key : κ) :
    (m.lookup key = none ∧ x.find key = x.count) ∨
      ∃ e, m.lookup key = some e.value ∧ x.find key ≠ x.count ∧ x.entries[x.find key]? = some e := by
  cases located h.count_le h.sorted key with
  | hit L e R rest hentries hcount hbound he hL hR =>
    subst he
    have hlive : x.live = L ++ e :: R := by
      rw [Index.live, hentries]
      exact List.take_left' (by simp; omega)
    obtain ⟨hfind, hget⟩ := find_hit hentries hcount hbound rfl
    refine .inr ⟨e, ?_, ?_, ?_⟩
    · rw [h.lookup, hlive, lookupIn_insert e hL, Function.update_self]
    · omega
    · rw [hfind, hget]
  | miss L R rest hentries hcount hbound hL hR =>
    have hlive : x.live = L ++ R := by
      rw [Index.live, hentries]
      exact List.take_left' (by simp; omega)
    refine .inl ⟨?_, find_miss hentries hcount hbound hR⟩
    rw [h.lookup, hlive]
    refine lookupIn_eq_none fun a ha => ?_
    rcases List.mem_append.mp ha with ha | ha
    · exact (hL a ha).ne
    · exact (hR a ha).ne'

lemma Represents.get (key : κ) (maxOutSize : Nat) : x.get key maxOutSize = (specCall m (.get key maxOutSize)).1 := by
  simp only [specCall, Index.get]
  rcases h.found key with ⟨hnone, hfind⟩ | ⟨e, hsome, hne, hget⟩
  · rw [hnone, if_pos hfind]
  · rw [hsome, if_neg hne, hget]
    simp only [KvReply.mk.injEq, true_and]
    rw [List.take_eq_take_iff]
    omega

lemma Represents.getValueSize (key : κ) : x.getValueSize key = (specCall m (.getValueSize key)).1 := by
  simp only [specCall, Index.getValueSize]
  rcases h.found key with ⟨hnone, hfind⟩ | ⟨e, hsome, hne, hget⟩
  · rw [hnone, if_pos hfind]
  · rw [hsome, if_neg hne, hget]

lemma Represents.remove (key : κ) :
    (x.call (.remove key)).1 = (specCall m (.remove key)).1 ∧
      Represents (x.call (.remove key)).2 (specCall m (.remove key)).2 := by
  simp only [Index.call, specCall]
  cases located h.count_le h.sorted key with
  | hit L e R rest hentries hcount hbound he hL hR =>
    subst he
    have hlive : x.live = L ++ e :: R := by
      rw [Index.live, hentries]
      exact List.take_left' (by simp; omega)
    have hmem : e.key ∈ m.keys := by
      rw [h.mem_keys, hlive]
      simp
    have hsorted := h.sorted
    rw [hlive] at hsorted
    obtain ⟨rest', hresult, hnext, hlen⟩ := remove_hit hentries hcount hbound rfl
    rw [hresult, hnext, if_pos hmem]
    refine ⟨rfl, ?_, ?_, ?_, ?_⟩
    · rw [← h.room, Index.capacity, Index.capacity, hentries]
      simp
      omega
    · simp only [Index.capacity, List.length_append]
      omega
    · rw [live_eq (by simp)]
      exact sorted_remove hsorted
    · rw [live_eq (by simp), BoundedMap.lookup_erase, h.lookup, hlive, ← lookupIn_remove e hL hR]
  | miss L R rest hentries hcount hbound hL hR =>
    have hfind := find_miss hentries hcount hbound hR
    have hnot : key ∉ m.keys := by
      rw [m.mem_keys, not_not]
      rcases h.found key with ⟨hnone, -⟩ | ⟨e, -, hne, -⟩
      · exact hnone
      · exact (hne hfind).elim
    rw [Index.remove, hfind, if_neg hnot]
    simp only [ne_eq, not_true_eq_false, if_false]
    exact ⟨trivial, h⟩

/-- One call: the same reply, and the entries go on to be what the map is. -/
lemma Represents.call (c : KvCall κ) : (x.call c).1 = (specCall m c).1 ∧ Represents (x.call c).2 (specCall m c).2 := by
  cases c with
  | set key value allocated => exact h.set key value allocated
  | get key maxOutSize =>
    refine ⟨h.get key maxOutSize, ?_⟩
    simp only [Index.call, specCall]
    cases m.lookup key <;> exact h
  | getValueSize key =>
    refine ⟨h.getValueSize key, ?_⟩
    simp only [Index.call, specCall]
    cases m.lookup key <;> exact h
  | remove key => exact h.remove key

/-- Any sequence of calls. -/
lemma Represents.calls (cs : List (KvCall κ)) :
    (x.calls cs).1 = (specCalls m cs).1 ∧ Represents (x.calls cs).2 (specCalls m cs).2 := by
  induction cs generalizing x m with
  | nil => exact ⟨rfl, h⟩
  | cons c cs ih =>
    obtain ⟨hreply, hnext⟩ := h.call c
    obtain ⟨hreplies, hlast⟩ := ih hnext
    exact ⟨congrArg₂ List.cons hreply hreplies, hlast⟩

end

/-- An index with no entries in use, in any memory. -/
def Index.initial (memory : List (Entry κ)) : Index κ := ⟨memory, 0⟩

/-- The store is a finite map with at most as many keys as its capacity: every sequence of calls on an
empty store gives the replies of the map, and leaves the entries strictly sorted by key and no more than
there is room for. -/
theorem memoryKeyValueStore_refines_boundedMap (memory : List (Entry κ)) (cs : List (KvCall κ)) :
    let last := ((Index.initial memory).calls cs).2
    let spec := specCalls (BoundedMap.empty κ (List UInt8) memory.length) cs
    ((Index.initial memory).calls cs).1 = spec.1 ∧
      (last.live.map (·.key)).Pairwise (· < ·) ∧ last.live.length = last.count ∧
      last.count ≤ memory.length ∧ ∀ key, spec.2.lookup key = lookupIn last.live key := by
  intro last spec
  have hstart : Represents (Index.initial memory)
      (BoundedMap.empty κ (List UInt8) memory.length) :=
    ⟨rfl, Nat.zero_le _, List.Pairwise.nil, rfl⟩
  obtain ⟨hreplies, hlast⟩ := hstart.calls cs
  refine ⟨hreplies, List.pairwise_map.mpr hlast.sorted, ?_, ?_, congrFun hlast.lookup⟩
  · rw [Index.live, List.length_take]
    exact Nat.min_eq_left hlast.count_le
  · rw [← hlast.room]
    exact hlast.count_le

end Refinement

end RajNX.Kvdb
