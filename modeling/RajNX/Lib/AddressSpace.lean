import RajNX.Lib.Regions

/-!
# A space of bytes

Bytes at all addresses, with reads and writes of regions. A write is said by what is read after it. A device
may write to places that do not follow each other; if they do then that is a write as well.
-/

namespace RajNX.AddressSpace

open Regions

/-- The bytes of a region. -/
def read (mem : Nat → UInt8) (r : Region) : List UInt8 := (List.range r.size).map fun i => mem (r.start + i)

/-- Bytes written from an address on. -/
def write (mem : Nat → UInt8) (a : Nat) (bytes : List UInt8) : Nat → UInt8 := fun x =>
  if a ≤ x then bytes.getD (x - a) (mem x) else mem x

/-- The bytes of a region in the place of as many others. -/
def copy (mem : Nat → UInt8) (dst : Nat) (src : Region) : Nat → UInt8 := fun x =>
  if dst ≤ x ∧ x < dst + src.size then mem (src.start + (x - dst)) else mem x

/-- A region filled with one byte. -/
def fill (mem : Nat → UInt8) (r : Region) (byte : UInt8) : Nat → UInt8 := fun x =>
  if r.Contains x then byte else mem x

/-- The bytes at some places, one for each index. -/
def gather (mem : Nat → UInt8) (place : Nat → Nat) (n : Nat) : List UInt8 :=
  (List.range n).map fun i => mem (place i)

/-- Bytes written to some places, one after the other. -/
def scatter (mem : Nat → UInt8) (place : Nat → Nat) : List UInt8 → Nat → UInt8
  | [] => mem
  | byte :: bytes => scatter (Function.update mem (place 0) byte) (fun i => place (i + 1)) bytes

variable {mem mem' : Nat → UInt8} {r : Region} {a x : Nat} {bytes : List UInt8}

@[simp] lemma length_read : (read mem r).length = r.size := by
  rw [read, List.length_map, List.length_range]

lemma read_congr (h : ∀ x, r.Contains x → mem x = mem' x) : read mem r = read mem' r := by
  refine List.map_congr_left fun i hi => h _ ?_
  rw [List.mem_range] at hi
  exact ⟨Nat.le_add_right _ _, Nat.add_lt_add_left hi _⟩

lemma read_getElem {i : Nat} (h : i < r.size) : (read mem r)[i]? = some (mem (r.start + i)) := by
  rw [read, List.getElem?_map, List.getElem?_range h, Option.map_some]

/-- A region of two parts. -/
lemma read_add (mem : Nat → UInt8) (a n m : Nat) : read mem ⟨a, n + m⟩ = read mem ⟨a, n⟩ ++ read mem ⟨a + n, m⟩ := by
  rw [read, read, read]
  dsimp only
  rw [List.range_add, List.map_append, List.map_map]
  congr 1
  refine List.map_congr_left fun i _ => ?_
  rw [Function.comp_apply, Nat.add_assoc]

/-- A part of a region. -/
lemma read_part (mem : Nat → UInt8) {a k n m : Nat} (h : k + n ≤ m) :
    read mem ⟨a + k, n⟩ = ((read mem ⟨a, m⟩).drop k).take n := by
  obtain ⟨rest, rfl⟩ := Nat.exists_eq_add_of_le h
  have hfront : (read mem ⟨a, k⟩).length = k := length_read
  have hpart : (read mem ⟨a + k, n⟩).length = n := length_read
  rw [Nat.add_assoc, read_add, List.drop_left' hfront, read_add, List.take_left' hpart]

lemma write_inside {i : Nat} {byte : UInt8} (h : bytes[i]? = some byte) : write mem a bytes (a + i) = byte := by
  rw [write, if_pos (Nat.le_add_right _ _), Nat.add_sub_cancel_left, List.getD_eq_getElem?_getD, h]
  rfl

lemma write_outside (h : ¬(Region.mk a bytes.length).Contains x) : write mem a bytes x = mem x := by
  rw [write]
  split
  · next hle =>
    have hnone : bytes.length ≤ x - a := by
      by_contra hlt
      exact h ⟨hle, by rw [Region.stop]; dsimp only; omega⟩
    rw [List.getD_eq_getElem?_getD, List.getElem?_eq_none hnone]
    rfl
  · rfl

lemma read_write (mem : Nat → UInt8) (a : Nat) (bytes : List UInt8) :
    read (write mem a bytes) ⟨a, bytes.length⟩ = bytes := by
  refine List.ext_getElem? fun i => ?_
  rcases Nat.lt_or_ge i bytes.length with hi | hi
  · rw [read_getElem hi, write_inside (List.getElem?_eq_getElem hi), List.getElem?_eq_getElem hi]
  · rw [List.getElem?_eq_none (by rw [length_read]; exact hi), List.getElem?_eq_none hi]

lemma read_write_apart (h : r.Apart ⟨a, bytes.length⟩) : read (write mem a bytes) r = read mem r :=
  read_congr fun _ hx => write_outside (h.not_contains hx)

lemma copy_eq_write (mem : Nat → UInt8) (dst : Nat) (src : Region) :
    copy mem dst src = write mem dst (read mem src) := by
  funext x
  rw [copy]
  split
  · next h =>
    obtain ⟨i, rfl⟩ := Nat.exists_eq_add_of_le h.1
    rw [Nat.add_sub_cancel_left]
    exact (write_inside (read_getElem (Nat.lt_of_add_lt_add_left h.2))).symm
  · next h =>
    refine (write_outside fun hin => h ?_).symm
    rw [length_read] at hin
    exact hin

/-- What has been copied. -/
lemma read_copy (mem : Nat → UInt8) (dst : Nat) (src : Region) :
    read (copy mem dst src) ⟨dst, src.size⟩ = read mem src := by
  have hread := read_write mem dst (read mem src)
  rwa [length_read, ← copy_eq_write] at hread

lemma fill_inside {byte : UInt8} (h : r.Contains x) : fill mem r byte x = byte := if_pos h

lemma fill_outside {byte : UInt8} (h : ¬r.Contains x) : fill mem r byte x = mem x := if_neg h

/-- A write of two parts. -/
lemma write_append (mem : Nat → UInt8) (a : Nat) (bytes bytes' : List UInt8) :
    write (write mem a bytes) (a + bytes.length) bytes' = write mem a (bytes ++ bytes') := by
  funext x
  rw [write, write, write, List.getD_eq_getElem?_getD, List.getD_eq_getElem?_getD, List.getD_eq_getElem?_getD,
    List.getElem?_append]
  rcases Nat.lt_or_ge x a with hlow | hlow
  · rw [if_neg (by omega), if_neg (by omega), if_neg (by omega)]
  rcases Nat.lt_or_ge x (a + bytes.length) with hhigh | hhigh
  · rw [if_neg (by omega), if_pos hlow, if_pos hlow, if_pos (by omega)]
  · have hnone : bytes[x - a]? = none := List.getElem?_eq_none (by omega)
    rw [if_pos hhigh, if_pos hlow, if_pos hlow, if_neg (by omega), hnone, Nat.sub_add_eq]
    rfl

lemma write_nil (mem : Nat → UInt8) (a : Nat) : write mem a [] = mem := by
  funext x
  exact write_outside fun hin => Nat.not_lt_of_le hin.1 hin.2

lemma write_singleton (mem : Nat → UInt8) (a : Nat) (byte : UInt8) :
    write mem a [byte] = Function.update mem a byte := by
  funext x
  rw [Function.update_apply]
  split
  · next h => rw [h]; exact write_inside (i := 0) rfl
  · next h => exact write_outside fun hin => h (Nat.le_antisymm (Nat.le_of_lt_succ hin.2) hin.1)

/-! ## Places -/

lemma gather_eq_read {place : Nat → Nat} (h : ∀ i < r.size, place i = r.start + i) :
    gather mem place r.size = read mem r :=
  List.map_congr_left fun i hi => congrArg mem (h i (List.mem_range.mp hi))

lemma scatter_outside {place : Nat → Nat} (h : ∀ i < bytes.length, place i ≠ x) :
    scatter mem place bytes x = mem x := by
  induction bytes generalizing mem place with
  | nil => rfl
  | cons byte bytes ih =>
    rw [scatter, ih fun i hi => h (i + 1) (Nat.succ_lt_succ hi)]
    exact Function.update_of_ne (h 0 (Nat.succ_pos _)).symm _ _

lemma scatter_eq_write {place : Nat → Nat} (h : ∀ i < bytes.length, place i = a + i) :
    scatter mem place bytes = write mem a bytes := by
  induction bytes generalizing mem place a with
  | nil =>
    funext x
    exact (congrFun (write_nil mem a) x).symm
  | cons byte bytes ih =>
    have hplace : ∀ i < bytes.length, place (i + 1) = a + 1 + i := by
      intro i hi
      rw [h (i + 1) (Nat.succ_lt_succ hi)]
      omega
    rw [scatter, ih hplace, h 0 (Nat.succ_pos _), Nat.add_zero, ← write_singleton]
    exact write_append mem a [byte] bytes

end RajNX.AddressSpace
