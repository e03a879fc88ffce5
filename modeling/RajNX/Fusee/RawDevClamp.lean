import RajNX.Fusee.RawDev

/-!
# The end of a raw block device

`rawdev_read` and `rawdev_write` at the end of a device. A range whose last sector is not in front of the last sector
of the device is taken to go up to the end, also if less was asked for. Behind the end the length is a difference that
wraps.
-/

namespace RajNX.Fusee

open Splice

section Results

variable {σ : Type} {fns : DeviceFunctions σ} {ciphers : DeviceCiphers} {f f' : RawdevFile σ} {ptr ptr' : List UInt8}
  {len n data current : Nat} {range : RawdevRange}

/-- The length of a range. -/
lemma len_rawdevRange (f : RawdevFile σ) (hpos : 0 < f.devpart.sectorSize) (len : Nat) :
    (rawdevRange f len).len =
      if f.devpart.sectorSize * f.devpart.numSectors ≤ (f.offset + len + f.devpart.sectorSize - 1) % 2 ^ 64 then
        (f.devpart.sectorSize * f.devpart.numSectors + 2 ^ 64 - f.offset) % 2 ^ 32
      else len := by
  rw [rawdevRange]
  dsimp only
  simp only [ge_iff_le, Nat.le_div_iff_mul_le hpos, Nat.mul_comm f.devpart.numSectors]
  split <;> rfl

lemma readRest_ok (hread : f.readRest fns ciphers ptr range data current = some (.ok n, ptr', f')) : n = range.len := by
  rw [RawdevFile.readRest] at hread
  obtain ⟨⟨no, ptr₁, f₁⟩, -, hread⟩ := Option.bind_eq_some_iff.mp hread
  dsimp only at hread
  split at hread
  · cases hread
  · obtain ⟨⟨no₂, ptr₂, f₂⟩, -, hread⟩ := Option.bind_eq_some_iff.mp hread
    dsimp only at hread
    split at hread <;> cases hread
    rfl

/-- A read that succeeds returns the length of its range. -/
lemma rawdevRead_ok (hread : rawdevRead fns ciphers f ptr len = some (.ok n, ptr', f')) :
    n = (rawdevRange f len).len := by
  rw [rawdevRead] at hread
  dsimp only at hread
  split at hread
  · next hzero =>
    cases hread
    exact hzero.symm
  split at hread
  · obtain ⟨⟨no, ptr₁, f₁⟩, -, hread⟩ := Option.bind_eq_some_iff.mp hread
    dsimp only at hread
    split at hread
    · cases hread
    split at hread
    · cases hread
      rfl
    · exact readRest_ok hread
  split at hread
  · cases hread
    rfl
  · exact readRest_ok hread

lemma writeRest_ok (hwrite : f.writeRest fns ciphers ptr range data current = some (.ok n, f')) : n = range.len := by
  rw [RawdevFile.writeRest] at hwrite
  obtain ⟨⟨no, f₁⟩, -, hwrite⟩ := Option.bind_eq_some_iff.mp hwrite
  dsimp only at hwrite
  split at hwrite
  · cases hwrite
  · obtain ⟨⟨no₂, f₂⟩, -, hwrite⟩ := Option.bind_eq_some_iff.mp hwrite
    dsimp only at hwrite
    split at hwrite <;> cases hwrite
    rfl

/-- A write that succeeds returns the length of its range. -/
lemma rawdevWrite_ok (hwrite : rawdevWrite fns ciphers f ptr len = some (.ok n, f')) : n = (rawdevRange f len).len := by
  rw [rawdevWrite] at hwrite
  dsimp only at hwrite
  split at hwrite
  · next hzero =>
    cases hwrite
    exact hzero.symm
  split at hwrite
  · obtain ⟨⟨no, f₁⟩, -, hwrite⟩ := Option.bind_eq_some_iff.mp hwrite
    dsimp only at hwrite
    split at hwrite
    · cases hwrite
    split at hwrite
    · cases hwrite
      rfl
    · exact writeRest_ok hwrite
  split at hwrite
  · cases hwrite
    rfl
  · exact writeRest_ok hwrite

end Results

/-! ## What the range should be -/

/-- The length that is asked for is kept, or the range goes up to the end of the device anyway. Behind the end, nothing
is asked for, or the difference is a multiple of what `size_t` holds. -/
def ClampExact (size deviceSize offset len : Nat) : Prop :=
  if offset ≤ deviceSize then
    offset + len + size ≤ deviceSize ∨ deviceSize ≤ offset + len ∧ offset + len + size ≤ 2 ^ 64
  else if deviceSize ≤ (offset + len + size - 1) % 2 ^ 64 then 2 ^ 32 ∣ offset - deviceSize
  else len = 0

section Exact

variable (fns : DeviceFunctions (List UInt8)) (ciphers : DeviceCiphers) {size : Nat} (k : SectorCipher UInt8 size)
  (first total : Nat)

/-- A read gives as many bytes as are asked for, or as there are. The rest of the buffer is not changed. -/
def ReadsExactly (f : RawdevFile (List UInt8)) (flat ptr : List UInt8) (len : Nat) : Prop :=
  let m := min len (flat.length - f.offset)
  ∃ f', rawdevRead fns ciphers f ptr len = some (.ok m, splice ptr 0 (slice flat f.offset m), f') ∧
    Holds fns ciphers k first total f' flat ∧ f'.storage = f.storage ∧ f'.offset = f.offset + m

/-- A write replaces as many bytes as are given, or as there are. -/
def WritesExactly (f : RawdevFile (List UInt8)) (flat ptr : List UInt8) (len : Nat) : Prop :=
  let m := min len (flat.length - f.offset)
  ∃ f', rawdevWrite fns ciphers f ptr len = some (.ok m, f') ∧
    Holds fns ciphers k first total f' (splice flat f.offset (ptr.take m)) ∧
    SameOutside (size * first) (size * (first + total)) f.storage f'.storage ∧ f'.offset = f.offset + m

variable {fns ciphers k first total} {f : RawdevFile (List UInt8)} {flat ptr : List UInt8} {len : Nat}

lemma clampExact_iff {deviceSize offset : Nat} (hpos : 0 < size) (hlt : size < 2 ^ 32)
    (hmax : deviceSize + size ≤ 2 ^ 64) (hlen : len < 2 ^ 32) (hoffset : offset < 2 ^ 64) :
    (if deviceSize ≤ (offset + len + size - 1) % 2 ^ 64 then (deviceSize + 2 ^ 64 - offset) % 2 ^ 32 else len) =
      min len (deviceSize - offset) ↔ ClampExact size deviceSize offset len := by
  rw [ClampExact]
  split <;> split <;> omega

/-- The range of an exact length is that length in sectors, if there is anything to transfer. -/
lemma ClampExact.rawdevRange (hexact : ClampExact size (size * total) f.offset len)
    (hsize : f.devpart.sectorSize = size) (htotal : f.devpart.numSectors = total) (hpos : 0 < size)
    (hmax : size * total + size ≤ 2 ^ 64) (hlen : len < 2 ^ 32) (hm : 0 < min len (size * total - f.offset)) :
    Fusee.rawdevRange f len = flatRange size f.offset (min len (size * total - f.offset)) := by
  have hinside : f.offset ≤ size * total := by omega
  rw [ClampExact, if_pos hinside] at hexact
  rcases hexact with hbefore | ⟨hcut, hnowrap⟩
  · have hmin : min len (size * total - f.offset) = len := by omega
    rw [hmin]
    exact rawdevRange_eq hsize htotal hpos hbefore (by omega)
  · have hmin : min len (size * total - f.offset) = size * total - f.offset := by omega
    have hend : f.offset + (size * total - f.offset) = size * total := by omega
    have hwrap : (f.offset + len + size - 1) % 2 ^ 64 = f.offset + len + size - 1 := Nat.mod_eq_of_lt (by omega)
    have hlast : total ≤ (f.offset + len + size - 1) / size := by
      rw [Nat.le_div_iff_mul_le hpos, Nat.mul_comm]
      omega
    have hclamp : (size * total + 2 ^ 64 - f.offset) % 2 ^ 32 = size * total - f.offset := by omega
    have htotal' : total < 2 ^ 64 := (Nat.le_mul_of_pos_left total hpos).trans_lt (by omega)
    have hmod : size * total % 2 ^ 64 = size * total := Nat.mod_eq_of_lt (by omega)
    rw [hmin, flatRange, Fusee.rawdevRange, hsize, htotal]
    dsimp only
    rw [hwrap, if_pos hlast]
    dsimp only
    rw [hclamp, hend, hmod, Nat.mul_mod_right, if_neg (not_not.mpr rfl), wrap_sub (Nat.zero_le _) htotal',
      Nat.mul_div_cancel_left total hpos]
    rfl

/-- Reads and writes transfer what they should exactly for these ranges. -/
theorem rawdev_exact_iff (hf : Holds fns ciphers k first total f flat) (hplain : PlainCopies fns imageStore)
    (hpos : 0 < size) (hlt : size < 2 ^ 32) (hmax : size * total + size ≤ 2 ^ 64) (hlen : len < 2 ^ 32)
    (hoffset : f.offset < 2 ^ 64) (hptr : len ≤ ptr.length) :
    (ReadsExactly fns ciphers k first total f flat ptr len ↔ ClampExact size (size * total) f.offset len) ∧
      (WritesExactly fns ciphers k first total f flat ptr len ↔ ClampExact size (size * total) f.offset len) := by
  have hflat := hf.length
  have hrange := len_rawdevRange f (hf.sectorSize ▸ hpos) len
  rw [hf.sectorSize, hf.numSectors] at hrange
  have hiff := clampExact_iff hpos hlt hmax hlen hoffset
  rw [← hrange] at hiff
  rw [ReadsExactly, WritesExactly, hflat]
  refine ⟨⟨fun ⟨_, hread, _⟩ => hiff.mp (rawdevRead_ok hread).symm, fun hexact => ?_⟩,
    ⟨fun ⟨_, hwrite, _⟩ => hiff.mp (rawdevWrite_ok hwrite).symm, fun hexact => ?_⟩⟩
  · rcases Nat.eq_zero_or_pos (min len (size * total - f.offset)) with hzero | hm
    · rw [hzero, slice, List.take_zero, splice_nil]
      refine ⟨f, ?_, hf, rfl, rfl⟩
      rw [rawdevRead]
      dsimp only
      rw [if_pos ((hiff.mpr hexact).trans hzero)]
      rfl
    · exact hf.read hplain hpos hlt (by omega) (by omega) (by omega) (by omega)
        (hexact.rawdevRange hf.sectorSize hf.numSectors hpos hmax hlen hm)
  · rcases Nat.eq_zero_or_pos (min len (size * total - f.offset)) with hzero | hm
    · rw [hzero, List.take_zero, splice_nil]
      refine ⟨f, ?_, hf, .refl _ _ _, rfl⟩
      rw [rawdevWrite]
      dsimp only
      rw [if_pos ((hiff.mpr hexact).trans hzero)]
      rfl
    · exact hf.write hplain hpos hlt (by omega) (by omega) (by omega) (by omega)
        (hexact.rawdevRange hf.sectorSize hf.numSectors hpos hmax hlen hm)

/-- All bytes from the second one on, up to the end. -/
theorem rawdev_exact_iff_example :
    ClampExact 2 6 1 5 ∧ ReadsExactly imageFunctions (mappingCiphers exampleCipher) exampleCipher 1 3 exampleRawdev
      [3, 4, 4, 7, 5, 10] [0, 0, 0, 0, 0] 5 := by
  have hprepared : Prepared imageFunctions (mappingCiphers exampleCipher) exampleRawdev.devpart :=
    ⟨fun _ _ => Nat.one_pos, fun _ h => absurd rfl h⟩
  have hf : Holds imageFunctions (mappingCiphers exampleCipher) exampleCipher 1 3 exampleRawdev [3, 4, 4, 7, 5, 10] :=
    ⟨rfl, rfl, rfl, crypts_mapping _ nofun, hprepared, rfl, by decide, by decide⟩
  have hexact : ClampExact 2 6 1 5 := by
    rw [ClampExact]
    decide
  exact ⟨hexact, (rawdev_exact_iff hf plainCopies_image (by decide) (by decide) (by decide) (by decide) (by decide)
    (by decide)).1.mpr hexact⟩

/-- Two sectors without a cipher, with the position at the second one. -/
def twoSectors : RawdevFile (List UInt8) where
  devpart := ⟨512, 0, 2, .none, 0, true, [], false⟩
  tmpSector := List.replicate 512 0
  offset := 512
  storage := List.replicate 1024 7

lemma holds_twoSectors : Holds imageFunctions ⟨none, none⟩ (.plain UInt8 512) 0 2 twoSectors
    (List.replicate 1024 7) where
  sectorSize := rfl
  startSector := rfl
  numSectors := rfl
  crypts := .plain rfl rfl
  prepared := ⟨fun _ h => h.elim nofun nofun, fun _ h => absurd rfl h⟩
  tmpSector := List.length_replicate
  room := by rw [twoSectors, List.length_replicate]
  flat_eq := by
    rw [SectorCipher.plain, mapSectors_id, twoSectors, Nat.mul_zero, List.drop_zero, List.take_replicate]
    rfl

/-- Of ten bytes that are asked for, 512 are transferred. -/
theorem rawdev_not_exact :
    ¬ReadsExactly imageFunctions ⟨none, none⟩ (.plain UInt8 512) 0 2 twoSectors (List.replicate 1024 7)
        (List.replicate 512 0) 10 ∧
      ¬WritesExactly imageFunctions ⟨none, none⟩ (.plain UInt8 512) 0 2 twoSectors (List.replicate 1024 7)
        (List.replicate 512 0) 10 ∧
      ∃ f', rawdevRead imageFunctions ⟨none, none⟩ twoSectors (List.replicate 512 0) 10 =
        some (.ok 512, List.replicate 512 7, f') := by
  have hlen : (rawdevRange twoSectors 10).len = 512 := by decide
  refine ⟨fun ⟨_, hread, _⟩ => ?_, fun ⟨_, hwrite, _⟩ => ?_, ?_⟩
  · have hten := rawdevRead_ok hread
    rw [hlen, List.length_replicate] at hten
    exact absurd hten (by decide)
  · have hten := rawdevWrite_ok hwrite
    rw [hlen, List.length_replicate] at hten
    exact absurd hten (by decide)
  · have hptr : 512 ≤ (List.replicate 512 (0 : UInt8)).length := List.length_replicate.ge
    have hrange : rawdevRange twoSectors 10 = ⟨1, 2, 2, 512⟩ := rfl
    obtain ⟨f', hread, -⟩ := holds_twoSectors.read plainCopies_image (by decide) (by decide) (by decide) hptr
      (by decide) (by decide) hrange
    refine ⟨f', ?_⟩
    have hsector : slice (List.replicate 1024 (7 : UInt8)) 512 512 = List.replicate 512 7 := by
      rw [slice, List.drop_replicate, List.take_replicate]
      rfl
    rw [hread, twoSectors, hsector, splice, List.length_replicate, List.drop_replicate, List.take_zero, List.nil_append]
    exact congrArg (fun bytes => some (_, bytes, f')) (List.append_nil _)

end Exact

end RajNX.Fusee
