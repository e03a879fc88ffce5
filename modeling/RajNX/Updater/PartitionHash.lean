import RajNX.Updater.BisManagement

/-!
# Hashing a partition

`BisAccessor::GetHash` for a size that comes from a file of the boot image package. The loop goes on until that many
bytes have been read, and reads up to the end of the partition. A partition of whole sectors that is smaller than the
file is read to its end, and then nothing is read again and again.
-/

namespace RajNX.Updater

open AddressSpace Interruptible Regions

/-- Two contents of NAND with the same bytes in a partition. -/
def SamePartition (id : FsBisStorageId) (offset size : Nat) (s t : Nand) : Prop :=
  ∀ x, (Region.mk offset size).Contains x → s id x = t id x

/-- Hashing ends, unless an operation does not; it reads in the partition only, and gives the hash of the first bytes
of the partition. -/
structure HashesPartition (sha256 : List UInt8 → List UInt8) (id : FsBisStorageId)
    (offset size hashSize workBufferSize : Nat) : Prop where
  ends (s : Nand) (schedule : List (Option Failure)) : some .noReturn ∉ schedule →
    ((BisAccessor.getHash sha256 id offset size hashSize workBufferSize).play schedule s).result ≠
      some (.error .noReturn)
  inside : (BisAccessor.getHash sha256 id offset size hashSize workBufferSize).LooksOnly (SamePartition id offset size)
  hash (s : Nand) (schedule : List (Option Failure)) (hash : List UInt8) :
    ((BisAccessor.getHash sha256 id offset size hashSize workBufferSize).play schedule s).result = some (.ok hash) →
    hashSize ≤ size ∧ hash = sha256 (read (s id) ⟨offset, hashSize⟩)

namespace BisAccessor

section Loop

variable {s : Nand} {sha256 : List UInt8 → List UInt8} {id : FsBisStorageId}
  {offset size hashSize workBufferSize fuel totalRead : Nat} {hashed : List UInt8}

lemma looksOnly_read {look : Nand → Nand → Prop}
    (h : ∀ s t, look s t → ∀ x, (Region.mk offset size).Contains x → s id x = t id x) :
    (read id size offset).LooksOnly look := by
  rw [read]
  split
  · trivial
  · exact Proc.looksOnly_atomic fun s t hlook => congrArg Except.ok (read_congr (h s t hlook))

lemma avoids_read : (read id size offset).Avoids Failure.noReturn := by
  rw [read]
  split
  · exact Proc.avoids_fail (by rintro ⟨⟩)
  · exact Proc.avoids_atomic (by rintro _ ⟨⟩)

/-- What is read by the loop is in the partition. -/
lemma looksOnly_getHashLoop :
    (getHashLoop id offset size hashSize workBufferSize fuel totalRead hashed).LooksOnly
      (SamePartition id offset size) := by
  induction fuel generalizing totalRead hashed with
  | zero =>
    rw [getHashLoop]
    split <;> trivial
  | succ fuel ih =>
    rw [getHashLoop]
    split
    · refine Proc.looksOnly_bind (looksOnly_read fun s t hsame x hx => hsame x ?_) fun _ => ih
      obtain ⟨hstart, hstop⟩ := hx
      simp only [Region.stop] at hstart hstop
      exact ⟨by dsimp only; omega, by rw [Region.stop]; dsimp only; omega⟩
    · trivial

/-- The loop gets on as long as there is something left of the partition; at its end, it stops or aborts. -/
lemma avoids_getHashLoop (hoffset : offset % sectorAlignment = 0) (hpos : 0 < workBufferSize)
    (hsize : hashSize ≤ size ∨ size % sectorAlignment ≠ 0) (hread : hashSize ≤ size ∨ totalRead ≤ size)
    (hfuel : hashSize ≤ totalRead + fuel) :
    (getHashLoop id offset size hashSize workBufferSize fuel totalRead hashed).Avoids .noReturn := by
  induction fuel generalizing totalRead hashed with
  | zero =>
    rw [getHashLoop, if_neg (by omega)]
    exact Proc.avoids_pure
  | succ fuel ih =>
    rw [getHashLoop]
    split
    · next hlt =>
      rcases Nat.lt_or_ge totalRead size with hin | hend
      · exact Proc.avoids_bind avoids_read fun _ => ih (by omega) (by omega)
      · -- The end of the partition is not the start of a sector.
        have hlast : totalRead = size := by omega
        have hmisaligned : (offset + totalRead) % sectorAlignment ≠ 0 := by
          rw [Nat.add_mod, hoffset, Nat.zero_add, Nat.mod_mod, hlast]
          exact hsize.resolve_left (by omega)
        dsimp only
        rw [BisAccessor.read, if_pos hmisaligned]
        exact Proc.avoids_fail (by rintro ⟨⟩)
    · exact Proc.avoids_pure

/-- More than there is in the partition is never read by the loop. -/
lemma getHashLoop_not_ok (hlt : size < hashSize) (hread : totalRead ≤ size) (all : List UInt8) :
    ((getHashLoop id offset size hashSize workBufferSize fuel totalRead hashed).run s).result ≠ .ok all := by
  induction fuel generalizing totalRead hashed with
  | zero =>
    rw [getHashLoop, if_pos (by omega)]
    rintro ⟨⟩
  | succ fuel ih =>
    rw [getHashLoop, if_pos (by omega)]
    dsimp only
    rw [BisAccessor.read]
    split
    · rintro ⟨⟩
    · exact ih (by omega)

/-- In a partition of whole sectors, the loop does not end however far it goes. -/
lemma getHashLoop_noReturn (hoffset : offset % sectorAlignment = 0) (hsize : size % sectorAlignment = 0)
    (hwork : workBufferSize % sectorAlignment = 0) (hlt : size < hashSize) (hread : totalRead ≤ size)
    (haligned : totalRead % sectorAlignment = 0) :
    ((getHashLoop id offset size hashSize workBufferSize fuel totalRead hashed).run s).result = .error .noReturn := by
  induction fuel generalizing totalRead hashed with
  | zero =>
    rw [getHashLoop, if_pos (by omega)]
    rfl
  | succ fuel ih =>
    have hsector : (offset + totalRead) % sectorAlignment = 0 := by
      rw [Nat.add_mod, hoffset, haligned]
      rfl
    rw [getHashLoop, if_pos (by omega)]
    dsimp only
    rw [BisAccessor.read, if_neg (not_not.mpr hsector)]
    refine ih (by omega) ?_
    rcases Nat.le_total workBufferSize (size - totalRead) with hwhole | hlast
    · rw [Nat.min_eq_left hwhole, Nat.add_mod, haligned, hwork]
      rfl
    · rw [Nat.min_eq_right hlast, Nat.add_sub_cancel' hread, hsize]

end Loop

end BisAccessor

section Hash

open BisAccessor

variable {sha256 : List UInt8 → List UInt8} {id : FsBisStorageId} {offset size hashSize workBufferSize : Nat}

/-- More than there is in the partition is never hashed. -/
lemma getHash_not_ok {s : Nand} (hlt : size < hashSize) (hash : List UInt8) :
    ((getHash sha256 id offset size hashSize workBufferSize).run s).result ≠ .ok hash := by
  rw [getHash]
  split
  · rintro ⟨⟩
  · cases hloop : ((getHashLoop id offset size hashSize workBufferSize hashSize 0 []).run s).result with
    | ok all => exact absurd hloop (getHashLoop_not_ok hlt (Nat.zero_le _) all)
    | error e =>
      rw [Proc.run_bind_error hloop]
      rintro ⟨⟩

lemma getHash_noReturn (hoffset : offset % sectorAlignment = 0) (hsize : size % sectorAlignment = 0)
    (hwork : workBufferSize % sectorAlignment = 0) (hlt : size < hashSize) :
    ¬HashesPartition sha256 id offset size hashSize workBufferSize := by
  intro h
  have hloop (s : Nand) := @getHashLoop_noReturn s id offset size hashSize workBufferSize hashSize 0 [] hoffset hsize
    hwork hlt (Nat.zero_le _) rfl
  have hrun (s : Nand) : ((getHash sha256 id offset size hashSize workBufferSize).run s).result = .error .noReturn := by
    rw [getHash, if_neg (by omega), Proc.run_bind_error (hloop s)]
  have hplay := Proc.play_replicate (getHash sha256 id offset size hashSize workBufferSize) fun _ _ => 0
  have hfaults (n : Nat) : some Failure.noReturn ∉ List.replicate n none :=
    fun hmem => Option.some_ne_none _ (List.eq_of_mem_replicate hmem)
  exact h.ends (fun _ _ => 0) _ (hfaults _) ((congrArg Play.result hplay).trans (congrArg some (hrun _)))

/-- A hash is got as it should be exactly if there is as much in the partition as is hashed, or if the partition does
not start or does not end with a sector. -/
theorem getHash_iff (hwork : workBufferSize % sectorAlignment = 0) (hpos : 0 < workBufferSize) :
    HashesPartition sha256 id offset size hashSize workBufferSize ↔
      hashSize ≤ size ∨ offset % sectorAlignment ≠ 0 ∨ size % sectorAlignment ≠ 0 := by
  refine ⟨fun h => ?_, fun h => ?_⟩
  · by_contra hcontra
    rw [not_or, not_or, not_not, not_not] at hcontra
    obtain ⟨hlt, hoffset, hsize⟩ := hcontra
    exact getHash_noReturn hoffset hsize hwork (by omega) h
  · by_cases hoffset : offset % sectorAlignment = 0
    · have hsize : hashSize ≤ size ∨ size % sectorAlignment ≠ 0 := by omega
      refine ⟨fun s schedule => Proc.Avoids.play ?_, ?_, fun s schedule hash hhash => ?_⟩
      · rw [getHash, if_neg (by omega)]
        exact Proc.avoids_bind (avoids_getHashLoop hoffset hpos hsize (by omega) (by omega)) fun _ => Proc.avoids_pure
      · rw [getHash, if_neg (by omega)]
        exact Proc.looksOnly_bind looksOnly_getHashLoop fun _ => trivial
      · -- A run with faults that has a hash has that of the run without.
        have hreadOnly : Proc.ReadOnly Eq (getHash sha256 id offset size hashSize workBufferSize) :=
          readOnly_getHash fun _ _ heq _ _ => heq ▸ rfl
        have hrun := (((hreadOnly.guards_ok s).play schedule).2 _ hhash).2 hash rfl
        rcases Nat.lt_or_ge size hashSize with hlt | hle
        · exact absurd hrun (getHash_not_ok hlt hash)
        · rw [getHash_result hoffset hwork hpos hle] at hrun
          exact ⟨hle, (Except.ok.inj hrun).symm⟩
    · have habort : getHash sha256 id offset size hashSize workBufferSize = .fail .abort := if_pos (.inl hoffset)
      refine ⟨?_, ?_, ?_⟩ <;> rw [habort]
      · exact fun _ _ _ => by rintro ⟨⟩
      · trivial
      · exact fun _ _ _ => by rintro ⟨⟩

/-- The first package of the first storage, and a file that is as long as the partition. -/
theorem getHash_iff_example : HashesPartition (List.take 32) .boot0 0x100000 0x40000 0x40000 0x10000 :=
  (getHash_iff (by decide) (by decide)).mpr (.inl (by decide))

/-- A file that is longer by a byte: the loop goes on forever. -/
theorem getHash_not_hashes :
    (∀ sha256, ¬HashesPartition sha256 .boot0 0x100000 0x40000 0x40001 0x10000) ∧
      ∀ (s : Nand) (fuel : Nat),
        ((getHashLoop .boot0 0x100000 0x40000 0x40001 0x10000 fuel 0 []).run s).result = .error .noReturn :=
  ⟨fun _ => getHash_noReturn (by decide) (by decide) (by decide) (by decide),
    fun _ _ => getHashLoop_noReturn (by decide) (by decide) (by decide) (by decide) (by decide) (by decide)⟩

end Hash

end RajNX.Updater
