import RajNX.Lib.Splice

/-!
# Maps of sectors

Lists that consist of sectors of one size, and maps that work on one sector at a time and know its number. A map of a
range of sectors is the range of the map of all of them, so that a list can be mapped in any pieces.
-/

namespace RajNX

open Splice

variable {α : Type}

/-- The first `n` sectors, mapped one by one. The first one has the number `k`. -/
def mapSectors (size : Nat) (f : Nat → List α → List α) : Nat → Nat → List α → List α
  | _, 0, _ => []
  | k, n + 1, xs => f k (xs.take size) ++ mapSectors size f (k + 1) n (xs.drop size)

/-- A map of sectors gives sectors. -/
def KeepsLength (size : Nat) (f : Nat → List α → List α) : Prop :=
  ∀ (k : Nat) (xs : List α), xs.length = size → (f k xs).length = size

/-- A map of sectors with its inverse. -/
structure SectorCipher (α : Type) (size : Nat) where
  enc : Nat → List α → List α
  dec : Nat → List α → List α
  length_enc : KeepsLength size enc
  length_dec : KeepsLength size dec
  enc_dec {k : Nat} {xs : List α} : xs.length = size → enc k (dec k xs) = xs
  dec_enc {k : Nat} {xs : List α} : xs.length = size → dec k (enc k xs) = xs

/-- The map that leaves every sector as it is. -/
def SectorCipher.plain (α : Type) (size : Nat) : SectorCipher α size where
  enc _ xs := xs
  dec _ xs := xs
  length_enc _ _ h := h
  length_dec _ _ h := h
  enc_dec _ := rfl
  dec_enc _ := rfl

/-- Each sector is masked with a byte that depends on its number. -/
def xorCipher (size : Nat) (key : Nat → UInt8) : SectorCipher UInt8 size where
  enc k xs := xs.map (· ^^^ key k)
  dec k xs := xs.map (· ^^^ key k)
  length_enc _ _ h := (List.length_map _).trans h
  length_dec _ _ h := (List.length_map _).trans h
  enc_dec _ := by simp [Function.comp_def, UInt8.xor_assoc]
  dec_enc _ := by simp [Function.comp_def, UInt8.xor_assoc]

section Map

variable {size k m n : Nat} {f g : Nat → List α → List α} {xs ys : List α}

/-- Two neighbouring ranges. -/
lemma mapSectors_add (m n : Nat) :
    mapSectors size f k (m + n) xs = mapSectors size f k m xs ++ mapSectors size f (k + m) n (xs.drop (size * m)) := by
  induction m generalizing k xs with
  | zero => rw [Nat.zero_add, mapSectors, List.nil_append, Nat.mul_zero, List.drop_zero, Nat.add_zero]
  | succ m ih =>
    rw [Nat.succ_add, mapSectors, mapSectors, ih, List.append_assoc, List.drop_drop, Nat.mul_succ, Nat.add_right_comm,
      Nat.add_assoc k m 1, Nat.add_comm size]

/-- Only the sectors of the range count. -/
lemma mapSectors_take (n : Nat) : mapSectors size f k n (xs.take (size * n)) = mapSectors size f k n xs := by
  induction n generalizing k xs with
  | zero => rfl
  | succ n ih =>
    have hmin : min size (size * (n + 1)) = size := Nat.min_eq_left (Nat.le_mul_of_pos_right _ (Nat.succ_pos n))
    have hdrop : (xs.take (size * (n + 1))).drop size = (xs.drop size).take (size * n) := by
      rw [List.drop_take, Nat.mul_succ, Nat.add_sub_cancel]
    rw [mapSectors, mapSectors, List.take_take, hmin, hdrop, ih]

lemma mapSectors_id (n : Nat) : mapSectors size (fun _ xs => xs) k n xs = xs.take (size * n) := by
  induction n generalizing k xs with
  | zero => rw [mapSectors, Nat.mul_zero, List.take_zero]
  | succ n ih => rw [mapSectors, ih, Nat.mul_succ, Nat.add_comm, List.take_add]

variable (hf : KeepsLength size f)

include hf

lemma length_mapSectors (hxs : size * n ≤ xs.length) : (mapSectors size f k n xs).length = size * n := by
  induction n generalizing k xs with
  | zero => rfl
  | succ n ih =>
    rw [Nat.mul_succ] at hxs
    have htake : (xs.take size).length = size := by
      rw [List.length_take]
      omega
    have hdrop : size * n ≤ (xs.drop size).length := by
      rw [List.length_drop]
      omega
    rw [mapSectors, List.length_append, hf k _ htake, ih hdrop, Nat.mul_succ, Nat.add_comm]

/-- Sectors behind mapped sectors are mapped and put there. -/
lemma splice_mapSectors_add {i : Nat} (hxs : size * (m + n) ≤ xs.length) (hys : i + size * (m + n) ≤ ys.length) :
    splice (splice ys i (mapSectors size f k m xs)) (i + size * m)
        (mapSectors size f (k + m) n (slice xs (size * m) (size * n))) =
      splice ys i (mapSectors size f k (m + n) xs) := by
  rw [Nat.mul_add] at hxs hys
  have hm : (mapSectors size f k m xs).length = size * m := length_mapSectors hf (by omega)
  have hn : (mapSectors size f (k + m) n (xs.drop (size * m))).length = size * n :=
    length_mapSectors hf (by rw [List.length_drop]; omega)
  rw [slice, mapSectors_take, mapSectors_add, ← hm]
  apply splice_splice_append
  rwa [hm, hn]

/-- A range of the map is the map of the range. -/
lemma slice_mapSectors {total : Nat} (hn : m + n ≤ total) (hxs : size * total ≤ xs.length) :
    slice (mapSectors size f k total xs) (size * m) (size * n) =
      mapSectors size f (k + m) n (slice xs (size * m) (size * n)) := by
  obtain ⟨rest, rfl⟩ := Nat.exists_eq_add_of_le hn
  rw [Nat.mul_add, Nat.mul_add] at hxs
  have hm : (mapSectors size f k m xs).length = size * m := length_mapSectors hf (by omega)
  have hmid : (mapSectors size f (k + m) n (xs.drop (size * m))).length = size * n :=
    length_mapSectors hf (by rw [List.length_drop]; omega)
  rw [Nat.add_assoc, mapSectors_add, mapSectors_add, slice_middle hm hmid, slice, mapSectors_take]

/-- The inverse of a map. -/
lemma mapSectors_mapSectors
    (hinv : ∀ k (xs : List α), xs.length = size → g k (f k xs) = xs) (hxs : size * n ≤ xs.length) :
    mapSectors size g k n (mapSectors size f k n xs) = xs.take (size * n) := by
  induction n generalizing k xs with
  | zero => rw [mapSectors, Nat.mul_zero, List.take_zero]
  | succ n ih =>
    rw [Nat.mul_succ] at hxs
    have htake : (xs.take size).length = size := by
      rw [List.length_take]
      omega
    have hdrop : size * n ≤ (xs.drop size).length := by
      rw [List.length_drop]
      omega
    have hlen := hf k _ htake
    rw [mapSectors, mapSectors, List.take_left' hlen, List.drop_left' hlen, hinv k _ htake, ih hdrop, Nat.mul_succ,
      Nat.add_comm, List.take_add]

/-- Mapped sectors are replaced by mapped sectors. -/
lemma mapSectors_splice {total : Nat}
    (hn : m + n ≤ total) (hxs : size * total ≤ xs.length) (hys : ys.length = size * n) :
    mapSectors size f k total (splice xs (size * m) ys) =
      splice (mapSectors size f k total xs) (size * m) (mapSectors size f (k + m) n ys) := by
  obtain ⟨rest, rfl⟩ := Nat.exists_eq_add_of_le hn
  rw [Nat.mul_add, Nat.mul_add] at hxs
  have hm : (mapSectors size f k m xs).length = size * m := length_mapSectors hf (by omega)
  have hmid : (mapSectors size f (k + m) n (xs.drop (size * m))).length = size * n :=
    length_mapSectors hf (by rw [List.length_drop]; omega)
  have hnew : (mapSectors size f (k + m) n ys).length = size * n := length_mapSectors hf hys.ge
  have htake : (splice xs (size * m) ys).take (size * m) = xs.take (size * m) :=
    take_splice_of_le (by omega) (Nat.le_refl _)
  have hdrop : (splice xs (size * m) ys).drop (size * m) = ys ++ xs.drop (size * m + size * n) := by
    rw [splice, List.append_assoc, List.drop_left' (by rw [List.length_take]; omega), hys]
  rw [Nat.add_assoc, mapSectors_add, mapSectors_add, mapSectors_add, mapSectors_add,
    splice_middle hm (hmid.trans hnew.symm), ← mapSectors_take m, htake, mapSectors_take, hdrop, ← mapSectors_take n,
    List.take_left' hys, List.drop_left' hys, List.drop_drop]

end Map

end RajNX
