import RajNX.Lib.LittleEndian
import RajNX.Lib.Splice

/-!
# Flat memory

A block of bytes at an address, with loads and stores that are defined inside of the block only. A store
is said by what the loads see after it: what was stored, and everything that it does not overlap as
before.
-/

namespace RajNX.FlatMemory

open Splice LittleEndian

/-- A block of bytes in an address space of 64 bits. -/
structure Memory where
  base : Nat
  bytes : List UInt8
  fits : base + bytes.length ≤ 2 ^ 64

namespace Memory

/-- The size of the block. -/
def size (m : Memory) : Nat := m.bytes.length

/-- The `n` bytes from an address on are in the block. -/
def Inside (m : Memory) (a n : Nat) : Prop := m.base ≤ a ∧ a + n ≤ m.base + m.size

instance (m : Memory) (a n : Nat) : Decidable (m.Inside a n) :=
  inferInstanceAs (Decidable (m.base ≤ a ∧ a + n ≤ m.base + m.size))

/-- The `n` bytes from an address on. -/
def load (m : Memory) (a n : Nat) : Option (List UInt8) :=
  if m.Inside a n then some (slice m.bytes (a - m.base) n) else none

/-- Store bytes from an address on. -/
def store (m : Memory) (a : Nat) (xs : List UInt8) : Option Memory :=
  if h : m.Inside a xs.length then
    some ⟨m.base, splice m.bytes (a - m.base) xs, by
      obtain ⟨hbase, hend⟩ := h
      have hle : a - m.base + xs.length ≤ m.bytes.length := by
        unfold size at hend
        omega
      rw [length_splice hle]
      exact m.fits⟩
  else none

/-- A word of 64 bits. -/
def loadWord (m : Memory) (a : Nat) : Option Nat := (m.load a 8).map leValue

/-- Store a word of 64 bits. -/
def storeWord (m : Memory) (a w : Nat) : Option Memory := m.store a (leBytes 8 w)

/-- What a store of `n` bytes at an address makes of a memory. -/
structure Stores (m : Memory) (a n : Nat) (xs : List UInt8) (m' : Memory) : Prop where
  base_eq : m'.base = m.base
  size_eq : m'.size = m.size
  load_same : m'.load a n = some xs
  load_apart : ∀ b k, b + k ≤ a ∨ a + n ≤ b → m'.load b k = m.load b k

/-- A store inside of the block. -/
lemma store_inside (m : Memory) (a : Nat) (xs : List UInt8) (h : m.Inside a xs.length) :
    ∃ m', m.store a xs = some m' ∧ m.Stores a xs.length xs m' := by
  obtain ⟨m', hstore, hbase', hbytes'⟩ : ∃ m', m.store a xs = some m' ∧ m'.base = m.base ∧
    m'.bytes = splice m.bytes (a - m.base) xs := ⟨_, dif_pos h, rfl, rfl⟩
  obtain ⟨hbase, hend⟩ := id h
  have hle : a - m.base + xs.length ≤ m.bytes.length := by
    unfold size at hend
    omega
  have hsize : m'.size = m.size := by
    rw [size, hbytes', length_splice hle, size]
  have hinside : ∀ b n, m'.Inside b n ↔ m.Inside b n := by
    intro b n
    rw [Inside, Inside, hbase', hsize]
  refine ⟨m', hstore, hbase', hsize, ?_, ?_⟩
  · rw [load, if_pos ((hinside a xs.length).mpr h), hbase', hbytes']
    refine congrArg some (List.ext_getElem? fun k => ?_)
    rw [getElem?_slice]
    by_cases hk : k < xs.length
    · rw [if_pos hk, getElem?_splice_of_mem hle (Nat.le_add_right _ _) (by omega),
        Nat.add_sub_cancel_left]
    · rw [if_neg hk, List.getElem?_eq_none (Nat.le_of_not_lt hk)]
  · intro b n hapart
    rw [load, load]
    by_cases hb : m.Inside b n
    · rw [if_pos ((hinside b n).mpr hb), if_pos hb, hbase', hbytes']
      refine congrArg some (List.ext_getElem? fun k => ?_)
      rw [getElem?_slice, getElem?_slice]
      by_cases hk : k < n
      · have hb' := hb.1
        rw [if_pos hk, if_pos hk, getElem?_splice_of_notMem hle (by omega)]
      · rw [if_neg hk, if_neg hk]
    · rw [if_neg (fun h' => hb ((hinside b n).mp h')), if_neg hb]

lemma storeWord_inside (m : Memory) (a w : Nat) (h : m.Inside a 8) :
    ∃ m', m.storeWord a w = some m' ∧ m.Stores a 8 (leBytes 8 w) m' := by
  have hlength := length_leBytes 8 w
  obtain ⟨m', hstore, hm'⟩ := m.store_inside a (leBytes 8 w) (by rwa [hlength])
  rw [hlength] at hm'
  exact ⟨m', hstore, hm'⟩

lemma loadWord_eq {m : Memory} {a w : Nat} (hw : w < 2 ^ 64) (h : m.load a 8 = some (leBytes 8 w)) :
    m.loadWord a = some w := by
  rw [loadWord, h, Option.map_some, leValue_leBytes, Nat.mod_eq_of_lt (show w < 256 ^ 8 by omega)]

end Memory

end RajNX.FlatMemory
