import RajNX.Fusee.RawDev
import RajNX.Lib.Parts

/-!
# Emulated device partitions

`emu_device_partition_read_data` and `emu_device_partition_write_data` of fusee's `device_partition.c`, for a device
that is kept in files. The file and the sector in it are computed from the first sector of a range, and everything else
goes on from there: the reader and the writer get the whole range at the one file, and the ciphers get the number of
the sector in the file. `onePartition_iff` says for which ranges this is what the partition functions do on one image.
-/

namespace RajNX.Fusee

open Splice

/-! ## The functions -/

/-- The decimal digits of a number. -/
def decimalDigits (n : Nat) : List UInt8 := (Nat.digits 10 n).reverse.map fun d => 0x30 + .ofNat d

/-- `%02d` -/
def twoDigits (n : Int) : List UInt8 :=
  if n < 0 then 0x2D :: decimalDigits n.natAbs
  else List.replicate (2 - (decimalDigits n.toNat).length) 0x30 ++ decimalDigits n.toNat

/-- The path of a part, as `target_path` has room for it. -/
def partPath (origin_path : List UInt8) (target_part : Int) : List UInt8 :=
  (origin_path ++ 0x2F :: twoDigits target_part).take 0x2FF

/-- The part that a range starts in, a number of type `int`. -/
def targetPart (data_offset part_limit : UInt64) : Int :=
  if data_offset ≥ part_limit then
    let data_offset_aligned := (data_offset + (part_limit - 1)) &&& ~~~(part_limit - 1)
    let part := if data_offset_aligned = data_offset then data_offset / part_limit
      else data_offset_aligned / part_limit - 1
    (part.toNat : Int).bmod (2 ^ 32)
  else 0

/-- The sector in the file that a range starts at, and the partition with the path of the file. Nothing when the part
is invalid. -/
def emuTarget (devpart : DevicePartition) (sector : Nat) (origin_path : Option (List UInt8)) (num_parts : Int)
    (part_limit : UInt64) : Option (Nat × DevicePartition) :=
  match origin_path with
  | none => some (sector, devpart)
  | some origin_path =>
    if ¬devpart.emuUseFile then some (sector, devpart)
    else if num_parts > 0 then
      let data_offset : UInt64 := .ofNat (sector * devpart.sectorSize)
      let target_part := targetPart data_offset part_limit
      let target_sector :=
        if data_offset ≥ part_limit then
          ((data_offset - .ofInt target_part * part_limit) / .ofNat devpart.sectorSize).toNat
        else sector
      if data_offset ≥ part_limit ∧ target_part > num_parts then none
      else some (target_sector, { devpart with emuFilePath := partPath origin_path target_part })
    else some (sector, { devpart with emuFilePath := origin_path })

section Code

variable {σ : Type} (fns : DeviceFunctions σ) (ciphers : DeviceCiphers)

/-- `emu_device_partition_read_data`, with the partition, the destination and the device afterwards. -/
def emuDevicePartitionReadData (devpart : DevicePartition) (dst : List UInt8) (sector num_sectors : Nat)
    (origin_path : Option (List UInt8)) (num_parts : Int) (part_limit : UInt64) (s : σ) :
    Option (Int × List UInt8 × DevicePartition × σ) := do
  let (rc, devpart, s) := ensureInitialized fns devpart s
  if rc ≠ 0 then return (rc, dst, devpart, s)
  match emuTarget devpart sector origin_path num_parts part_limit with
  | none => return (-1, dst, devpart, s)
  | some (target_sector, devpart) =>
    let (rc, dst, s) ← readSectors fns ciphers devpart dst target_sector num_sectors s
    return (rc, dst, devpart, s)

/-- `emu_device_partition_write_data`, with the partition and the device afterwards. -/
def emuDevicePartitionWriteData (devpart : DevicePartition) (src : List UInt8) (sector num_sectors : Nat)
    (origin_path : Option (List UInt8)) (num_parts : Int) (part_limit : UInt64) (s : σ) :
    Option (Int × DevicePartition × σ) := do
  let (rc, devpart, s) := ensureInitialized fns devpart s
  if rc ≠ 0 then return (rc, devpart, s)
  match emuTarget devpart sector origin_path num_parts part_limit with
  | none => return (-1, devpart, s)
  | some (target_sector, devpart) =>
    let (rc, s) ← writeSectors fns ciphers devpart src target_sector num_sectors s
    return (rc, devpart, s)

end Code

/-! ## Paths -/

/-- The number that decimal digits stand for. -/
def ofDecimal (digits : List UInt8) : Nat := Nat.ofDigits 10 (digits.reverse.map fun d => (d - 0x30).toNat)

lemma ofDecimal_twoDigits (n : Nat) : ofDecimal (twoDigits n) = n := by
  have hdigits : (Nat.digits 10 n).map (fun d => ((0x30 + UInt8.ofNat d) - 0x30).toNat) = Nat.digits 10 n := by
    refine (List.map_congr_left fun d hd => ?_).trans (List.map_id _)
    have hlt : d < 10 := Nat.digits_lt_base (by decide) hd
    rw [UInt8.add_comm, UInt8.add_sub_cancel]
    exact UInt8.toNat_ofNat_of_lt' (hlt.trans (by decide))
  rw [ofDecimal, twoDigits, if_neg (by omega), Int.toNat_natCast, decimalDigits, List.reverse_append, List.map_append,
    ← List.map_reverse, List.reverse_reverse, List.map_map, Function.comp_def, hdigits, List.reverse_replicate,
    List.map_replicate]
  exact (Nat.ofDigits_append_replicate_zero _).trans (Nat.ofDigits_digits 10 n)

lemma length_twoDigits_le {n : Nat} (hn : n < 2 ^ 31) : (twoDigits n).length ≤ 10 := by
  have hdigits : (Nat.digits 10 n).length ≤ 10 := (Nat.digits_length_le_iff (by decide) n).mpr (hn.trans (by decide))
  rw [twoDigits, if_neg (by omega), Int.toNat_natCast, List.length_append, List.length_replicate, decimalDigits,
    List.length_map, List.length_reverse]
  omega

/-- Different parts have different paths. -/
lemma partPath_injective {origin_path : List UInt8} {p q : Nat} (horigin : origin_path.length ≤ 0x100) (hp : p < 2 ^ 31)
    (hq : q < 2 ^ 31) (heq : partPath origin_path p = partPath origin_path q) : p = q := by
  have hfit {n : Nat} (hn : n < 2 ^ 31) : partPath origin_path n = origin_path ++ 0x2F :: twoDigits n := by
    have hlen := length_twoDigits_le hn
    apply List.take_of_length_le
    rw [List.length_append, List.length_cons]
    omega
  rw [hfit hp, hfit hq] at heq
  have hdigits := (List.cons.inj (List.append_cancel_left heq)).2
  rw [← ofDecimal_twoDigits p, hdigits, ofDecimal_twoDigits]

/-! ## The part of a range -/

section Target

variable {e : Nat} {data_offset part_limit : UInt64}

lemma toNat_sub_one (hlimit : part_limit.toNat = 2 ^ e) : (part_limit - 1).toNat = 2 ^ e - 1 := by
  rw [UInt64.toNat_sub_of_le _ _ (by rw [UInt64.le_iff_toNat_le, hlimit]; exact Nat.one_le_two_pow), hlimit]
  rfl

/-- Rounding down to a power of two. -/
lemma toNat_and_not_sub_one (x : UInt64) (hlimit : part_limit.toNat = 2 ^ e) :
    (x &&& ~~~(part_limit - 1)).toNat = x.toNat / 2 ^ e * 2 ^ e := by
  have hmask := toNat_sub_one hlimit
  have hnot : (~~~(part_limit - 1)).toNat = 2 ^ 64 - ((2 ^ e - 1) + 1) := by
    rw [UInt64.toNat_not, hmask, Nat.sub_sub, Nat.add_comm 1]
    rfl
  have hlt : 2 ^ e - 1 < 2 ^ 64 := hmask ▸ (part_limit - 1).toNat_lt
  rw [UInt64.toNat_and, hnot, ← Nat.shiftRight_eq_div_pow, ← Nat.shiftLeft_eq]
  apply Nat.eq_of_testBit_eq
  intro i
  rw [Nat.testBit_and, Nat.testBit_two_pow_sub_succ hlt, Nat.testBit_two_pow_sub_one, Nat.testBit_shiftLeft,
    Nat.testBit_shiftRight]
  rcases Nat.lt_or_ge i e with hi | hi
  · simp [hi, Nat.not_le.mpr hi]
  · have hback : e + (i - e) = i := by omega
    rw [hback, decide_eq_false (Nat.not_lt.mpr hi), decide_eq_true hi, Bool.not_false, Bool.and_true, Bool.true_and]
    rcases Nat.lt_or_ge i 64 with hi64 | hi64
    · rw [decide_eq_true hi64, Bool.and_true]
    · rw [Nat.testBit_lt_two_pow (x.toNat_lt.trans_le (Nat.pow_le_pow_right Nat.two_pos hi64)), Bool.false_and]

/-- The rounded offset. -/
lemma toNat_aligned (hlimit : part_limit.toNat = 2 ^ e) :
    ((data_offset + (part_limit - 1)) &&& ~~~(part_limit - 1)).toNat =
      (data_offset.toNat + (2 ^ e - 1)) % 2 ^ 64 / 2 ^ e * 2 ^ e := by
  rw [toNat_and_not_sub_one _ hlimit, UInt64.toNat_add, toNat_sub_one hlimit]

/-- The part is the quotient, cut to 32 bits, as long as the offset can be rounded up. -/
lemma targetPart_of_le (hlimit : part_limit.toNat = 2 ^ e) (hge : part_limit ≤ data_offset)
    (hwrap : data_offset.toNat + 2 ^ e ≤ 2 ^ 64) :
    targetPart data_offset part_limit = ((data_offset.toNat / 2 ^ e : Nat) : Int).bmod (2 ^ 32) := by
  have hpos : 0 < 2 ^ e := Nat.two_pow_pos e
  have haligned := @toNat_aligned e data_offset part_limit hlimit
  have hround : data_offset.toNat + (2 ^ e - 1) = data_offset.toNat + 2 ^ e - 1 := by omega
  rw [Nat.mod_eq_of_lt (by omega), hround, ceil_div hpos] at haligned
  rw [targetPart, if_pos hge]
  dsimp only
  split
  · rw [UInt64.toNat_div, hlimit]
  · rename_i hne
    have hmod : data_offset.toNat % 2 ^ e ≠ 0 := by
      intro hzero
      rw [hzero, if_neg (not_not.mpr rfl), Nat.add_zero, Nat.div_mul_cancel (Nat.dvd_of_mod_eq_zero hzero)] at haligned
      exact hne (UInt64.toNat_inj.mp haligned)
    rw [if_pos hmod] at haligned
    have hquotient : (((data_offset + (part_limit - 1)) &&& ~~~(part_limit - 1)) / part_limit).toNat =
        data_offset.toNat / 2 ^ e + 1 := by
      rw [UInt64.toNat_div, haligned, hlimit, Nat.mul_div_cancel _ hpos]
    have hone : 1 ≤ ((data_offset + (part_limit - 1)) &&& ~~~(part_limit - 1)) / part_limit := by
      rw [UInt64.le_iff_toNat_le, hquotient]
      exact Nat.le_add_left 1 _
    rw [UInt64.toNat_sub_of_le _ _ hone, hquotient]
    rfl

/-- If it cannot be rounded up, the part is minus one. -/
lemma targetPart_of_gt (hlimit : part_limit.toNat = 2 ^ e) (hge : part_limit ≤ data_offset)
    (hwrap : 2 ^ 64 < data_offset.toNat + 2 ^ e) : targetPart data_offset part_limit = -1 := by
  have hpos : 0 < 2 ^ e := Nat.two_pow_pos e
  have haligned := @toNat_aligned e data_offset part_limit hlimit
  have hlt := data_offset.toNat_lt
  have hle : 2 ^ e < 2 ^ 64 := hlimit ▸ part_limit.toNat_lt
  have hover : (data_offset.toNat + (2 ^ e - 1)) % 2 ^ 64 = data_offset.toNat + (2 ^ e - 1) - 2 ^ 64 := by
    rw [Nat.mod_eq_sub_mod (by omega), Nat.mod_eq_of_lt (by omega)]
  rw [hover, Nat.div_eq_of_lt (by omega), Nat.zero_mul] at haligned
  have hzero : (data_offset + (part_limit - 1)) &&& ~~~(part_limit - 1) = 0 := UInt64.toNat_inj.mp haligned
  have hne : 0 ≠ data_offset := by
    rintro rfl
    rw [UInt64.le_iff_toNat_le, hlimit] at hge
    exact absurd hge (Nat.not_le.mpr hpos)
  rw [targetPart, if_pos hge, hzero]
  dsimp only
  rw [if_neg hne, UInt64.zero_div]
  decide

end Target

/-! ## Split images -/

/-- A device in files of one size, a power of two that is a multiple of the sector size. The folder has a path as its
caller makes it, and the bytes of the device have 64-bit offsets. -/
structure SplitImage where
  sectorSize : Nat
  origin : List UInt8
  numParts : Nat
  limitBits : Nat
  dvd : sectorSize ∣ 2 ^ limitBits
  sectorSize_lt : sectorSize < 2 ^ 32
  numParts_pos : 0 < numParts
  numParts_lt : numParts < 2 ^ 31
  total_lt : numParts * 2 ^ limitBits < 2 ^ 64
  origin_le : origin.length ≤ 0x100

namespace SplitImage

variable (g : SplitImage)

/-- `part_limit` -/
def partLimit : Nat := 2 ^ g.limitBits

/-- How many sectors a file has. -/
def partSectors : Nat := g.partLimit / g.sectorSize

/-- The ranges that are refused: the number of the part is computed, as an `int`, and is more than the number of
parts. -/
def Refuses (sector : Nat) : Prop :=
  let data_offset := sector * g.sectorSize % 2 ^ 64
  g.partLimit ≤ data_offset ∧ data_offset + g.partLimit ≤ 2 ^ 64 ∧
    (g.numParts : Int) < ((data_offset / g.partLimit : Nat) : Int).bmod (2 ^ 32)

lemma partLimit_pos : 0 < g.partLimit := Nat.two_pow_pos _

lemma sectorSize_pos : 0 < g.sectorSize := Nat.pos_of_dvd_of_pos g.dvd g.partLimit_pos

lemma sectorSize_mul : g.sectorSize * g.partSectors = g.partLimit := Nat.mul_div_cancel' g.dvd

lemma partSectors_pos : 0 < g.partSectors := Nat.div_pos (Nat.le_of_dvd g.partLimit_pos g.dvd) g.sectorSize_pos

lemma partLimit_lt : g.partLimit < 2 ^ 64 := (Nat.le_mul_of_pos_left _ g.numParts_pos).trans_lt g.total_lt

lemma toNat_partLimit : (UInt64.ofNat g.partLimit).toNat = 2 ^ g.limitBits :=
  UInt64.toNat_ofNat_of_lt' g.partLimit_lt

/-- There is room for one more part. -/
lemma succ_total_le : (g.numParts + 1) * g.partLimit ≤ 2 ^ 64 := by
  have hbits : g.limitBits ≤ 64 := by
    by_contra hgt
    exact absurd g.partLimit_lt (Nat.not_lt.mpr (Nat.pow_le_pow_right Nat.two_pos (Nat.not_le.mp hgt).le))
  obtain ⟨c, hc⟩ := Nat.pow_dvd_pow 2 hbits
  have htotal := g.total_lt
  rw [hc, Nat.mul_comm (2 ^ g.limitBits)] at htotal ⊢
  exact Nat.mul_le_mul_right _ (Nat.lt_of_mul_lt_mul_right htotal)

/-- Where a sector of the partition is. -/
lemma position_eq (start sector : Nat) :
    g.sectorSize * (start + sector) =
      sector / g.partSectors * g.partLimit + g.sectorSize * (start + sector % g.partSectors) := by
  rw [← g.sectorSize_mul, Nat.mul_left_comm, ← Nat.mul_add, Nat.add_left_comm, Nat.mul_comm (sector / _),
    Nat.div_add_mod]

variable {g} {devpart : DevicePartition} {sector : Nat}

/-- A sector of the device lies in one of the parts. -/
lemma div_partSectors_lt (hsector : sector < g.numParts * g.partSectors) : sector / g.partSectors < g.numParts :=
  (Nat.div_lt_iff_lt_mul g.partSectors_pos).mpr hsector

lemma limit_le_iff {data_offset : UInt64} :
    UInt64.ofNat g.partLimit ≤ data_offset ↔ g.partLimit ≤ data_offset.toNat := by
  rw [UInt64.le_iff_toNat_le, g.toNat_partLimit, partLimit]

/-- Which ranges are refused. -/
lemma refused_iff (hsize : devpart.sectorSize = g.sectorSize) :
    (UInt64.ofNat (sector * devpart.sectorSize) ≥ .ofNat g.partLimit ∧
      targetPart (.ofNat (sector * devpart.sectorSize)) (.ofNat g.partLimit) > g.numParts) ↔ g.Refuses sector := by
  have hoffset : (UInt64.ofNat (sector * devpart.sectorSize)).toNat = sector * g.sectorSize % 2 ^ 64 := by
    rw [UInt64.toNat_ofNat', hsize]
  rw [ge_iff_le, limit_le_iff, hoffset, Refuses]
  refine and_congr_right fun hge => ?_
  have hge' : UInt64.ofNat g.partLimit ≤ .ofNat (sector * devpart.sectorSize) := limit_le_iff.mpr (hoffset.symm ▸ hge)
  rcases Nat.lt_or_ge (2 ^ 64) (sector * g.sectorSize % 2 ^ 64 + g.partLimit) with hwrap | hwrap
  · rw [targetPart_of_gt g.toNat_partLimit hge' (by rw [hoffset]; exact hwrap)]
    exact iff_of_false (by omega) fun h => absurd h.1 (Nat.not_le.mpr hwrap)
  · rw [targetPart_of_le g.toNat_partLimit hge' (by rw [hoffset]; exact hwrap), hoffset]
    exact (and_iff_right hwrap).symm

lemma emuTarget_eq_none_iff (hsize : devpart.sectorSize = g.sectorSize) (huse : devpart.emuUseFile) :
    emuTarget devpart sector (some g.origin) g.numParts (.ofNat g.partLimit) = none ↔ g.Refuses sector := by
  have hparts : (g.numParts : Int) > 0 := Int.natCast_pos.mpr g.numParts_pos
  rw [← refused_iff hsize, emuTarget]
  dsimp only
  rw [if_neg (not_not.mpr huse), if_pos hparts]
  split
  · exact iff_of_true rfl ‹_›
  · exact iff_of_false nofun ‹_›

/-- Where a range of the device starts. -/
lemma emuTarget_eq (hsize : devpart.sectorSize = g.sectorSize) (huse : devpart.emuUseFile)
    (hsector : sector < g.numParts * g.partSectors) :
    emuTarget devpart sector (some g.origin) g.numParts (.ofNat g.partLimit) = some (sector % g.partSectors,
        { devpart with emuFilePath := partPath g.origin (sector / g.partSectors : Nat) }) := by
  have hparts : (g.numParts : Int) > 0 := Int.natCast_pos.mpr g.numParts_pos
  have hsucc := g.succ_total_le
  have hlt := g.numParts_lt
  have hmul : g.partSectors * g.sectorSize = g.partLimit := (Nat.mul_comm _ _).trans g.sectorSize_mul
  have hend : sector * g.sectorSize < g.numParts * g.partLimit := by
    rw [← hmul, ← Nat.mul_assoc]
    exact Nat.mul_lt_mul_of_pos_right hsector g.sectorSize_pos
  rw [Nat.add_mul, Nat.one_mul] at hsucc
  have hoffset : (UInt64.ofNat (sector * devpart.sectorSize)).toNat = sector * g.sectorSize := by
    rw [hsize]
    exact UInt64.toNat_ofNat_of_lt' (hend.trans_le (Nat.le_of_add_right_le hsucc))
  have hdiv : sector * g.sectorSize / g.partLimit = sector / g.partSectors := by
    rw [← hmul, Nat.mul_div_mul_right _ _ g.sectorSize_pos]
  have hindex := div_partSectors_lt hsector
  have hroom : sector * g.sectorSize + g.partLimit ≤ 2 ^ 64 := by omega
  have hsmall (hlt : ¬UInt64.ofNat g.partLimit ≤ .ofNat (sector * devpart.sectorSize)) : sector < g.partSectors := by
    rw [limit_le_iff, hoffset, ← hmul, Nat.not_le] at hlt
    exact Nat.lt_of_mul_lt_mul_right hlt
  obtain ⟨p, hp⟩ : ∃ p, sector / g.partSectors = p := ⟨_, rfl⟩
  rw [hp] at hdiv hindex ⊢
  have htarget : targetPart (.ofNat (sector * devpart.sectorSize)) (.ofNat g.partLimit) = p := by
    by_cases hge : UInt64.ofNat g.partLimit ≤ .ofNat (sector * devpart.sectorSize)
    · rw [targetPart_of_le g.toNat_partLimit hge (by rw [hoffset]; exact hroom), hoffset]
      refine (congrArg (fun q : Nat => (q : Int).bmod (2 ^ 32)) hdiv).trans ?_
      exact Int.bmod_eq_of_le (by omega) (by omega)
    · rw [targetPart, if_neg hge, ← hp, Nat.div_eq_of_lt (hsmall hge)]
      rfl
  rw [emuTarget]
  dsimp only
  rw [if_neg (not_not.mpr huse), if_pos hparts, htarget, if_neg (by omega)]
  by_cases hge : UInt64.ofNat g.partLimit ≤ .ofNat (sector * devpart.sectorSize)
  · have hsplit : sector * g.sectorSize = (sector % g.partSectors) * g.sectorSize + p * g.partLimit := by
      rw [← hmul, ← Nat.mul_assoc, ← Nat.add_mul, ← hp, Nat.mul_comm (sector / _), Nat.mod_add_div]
    have hpart : (UInt64.ofInt p * UInt64.ofNat g.partLimit).toNat = p * g.partLimit := by
      have hp64 : p < 2 ^ 64 := by omega
      have hint : ((p : Int) % 2 ^ 64).toNat = p := by omega
      rw [UInt64.ofInt, hint, UInt64.toNat_mul, UInt64.toNat_ofNat_of_lt' hp64,
        UInt64.toNat_ofNat_of_lt' g.partLimit_lt]
      exact Nat.mod_eq_of_lt (by omega)
    have hle : UInt64.ofInt p * .ofNat g.partLimit ≤ .ofNat (sector * devpart.sectorSize) := by
      rw [UInt64.le_iff_toNat_le, hpart, hoffset, hsplit]
      exact Nat.le_add_left _ _
    have hlocal : ((UInt64.ofNat (sector * devpart.sectorSize) - .ofInt p * .ofNat g.partLimit) /
        .ofNat devpart.sectorSize).toNat = sector % g.partSectors := by
      rw [UInt64.toNat_div, UInt64.toNat_sub_of_le _ _ hle, hpart, hoffset, hsplit, Nat.add_sub_cancel, hsize,
        UInt64.toNat_ofNat_of_lt' (g.sectorSize_lt.trans (by decide)), Nat.mul_div_cancel _ g.sectorSize_pos]
    rw [if_pos hge, hlocal]
  · rw [if_neg hge, Nat.mod_eq_of_lt (hsmall hge)]

end SplitImage

/-! ## Files -/

/-- The ciphers of a partition know neither its file nor its work buffer. -/
lemma Crypts.inFile {ciphers : DeviceCiphers} {devpart : DevicePartition} {size : Nat} {k : SectorCipher UInt8 size}
    (hcrypts : Crypts ciphers devpart k) (sectors : Nat) (path : List UInt8) :
    Crypts ciphers { devpart.ready sectors with emuFilePath := path } k := by
  cases hcrypts with
  | plain hread hwrite => exact .plain hread hwrite
  | mapped hread hwrite hdec henc => exact .mapped hread hwrite hdec henc

/-- Without a cipher, the numbers of the sectors do not count. -/
lemma Crypts.mapSectors_congr {ciphers : DeviceCiphers} {devpart : DevicePartition} {size i j n : Nat}
    {k : SectorCipher UInt8 size} (hcrypts : Crypts ciphers devpart k) (hij : UsesCipher ciphers devpart → i = j)
    (xs : List UInt8) :
    mapSectors size k.dec i n xs = mapSectors size k.dec j n xs ∧
      mapSectors size k.enc i n xs = mapSectors size k.enc j n xs := by
  cases hcrypts with
  | plain hread hwrite =>
    have hplain (i : Nat) : mapSectors size (SectorCipher.plain UInt8 size).dec i n xs = xs.take (size * n) :=
      mapSectors_id n
    exact ⟨(hplain i).trans (hplain j).symm, (hplain i).trans (hplain j).symm⟩
  | mapped hread hwrite hdec henc =>
    obtain rfl := hij (.inl (hread ▸ Option.some_ne_none _))
    exact ⟨rfl, rfl⟩

/-- The files of the SD card. -/
abbrev Files := List UInt8 → Option (List UInt8)

/-- The bytes of a partition in a file are those of the file of its path. -/
def fileStore : ByteStore Files where
  get path files := files path
  set path files bytes := Function.update files path (some bytes)
  get_set _ := Function.update_self ..
  set_set := Function.update_idem ..
  set_get h := by rw [← h, Function.update_eq_self]

namespace SplitImage

/-- The files of the parts, one after another. -/
def image (g : SplitImage) (files : Files) : List UInt8 :=
  ((List.range g.numParts).map fun p : Nat => (files (partPath g.origin p)).getD []).flatten

/-- The files of the parts are there and have their size. -/
structure Stores (g : SplitImage) (files : Files) (parts : List (List UInt8)) : Prop where
  length : parts.length = g.numParts
  size : ∀ part ∈ parts, part.length = g.partLimit
  file {p : Nat} : p < g.numParts → files (partPath g.origin p) = parts[p]?

section Stores

variable {g : SplitImage} {files : Files} {parts : List (List UInt8)} {part xs : List UInt8} {p : Nat}

lemma Stores.image_eq (h : g.Stores files parts) : g.image files = parts.flatten := by
  refine congrArg List.flatten (List.ext_getElem ?_ fun p hp hp' => ?_)
  · rw [List.length_map, List.length_range, h.length]
  · rw [List.getElem_map, List.getElem_range, h.file (h.length ▸ hp'), List.getElem?_eq_getElem hp', Option.getD_some]

lemma Stores.length_image (h : g.Stores files parts) : (g.image files).length = g.numParts * g.partLimit := by
  rw [h.image_eq, Parts.length_flatten h.size, h.length]

/-- The file of a part is replaced by one as long. -/
lemma Stores.update (h : g.Stores files parts) (hp : p < g.numParts) (hxs : xs.length = g.partLimit) :
    g.Stores (Function.update files (partPath g.origin p) (some xs)) (parts.set p xs) where
  length := (List.length_set ..).trans h.length
  size ys hys := (List.mem_or_eq_of_mem_set hys).elim (h.size ys) fun heq => heq ▸ hxs
  file {q} hq := by
    rcases eq_or_ne q p with rfl | hne
    · rw [Function.update_self, List.getElem?_set_self (h.length ▸ hp)]
    · have hlt := g.numParts_lt
      have hpath : partPath g.origin q ≠ partPath g.origin p :=
        fun heq => hne (partPath_injective g.origin_le (hq.trans hlt) (hp.trans hlt) heq)
      rw [Function.update_of_ne hpath, List.getElem?_set_ne (Ne.symm hne), h.file hq]

end Stores

/-! ## One image -/

/-- A partition of a split device, with all that its functions work with: the files, the functions for the files and
for the image, and the ciphers. -/
structure Setting (g : SplitImage) (start : Nat) (crypted : Prop) where
  devpart : DevicePartition
  emuFns : DeviceFunctions Files
  imageFns : DeviceFunctions (List UInt8)
  ciphers : DeviceCiphers
  cipher : SectorCipher UInt8 g.sectorSize
  files : Files
  parts : List (List UInt8)
  sectorSize : devpart.sectorSize = g.sectorSize
  startSector : devpart.startSector = start
  useFile : devpart.emuUseFile
  emuPlain : PlainCopies emuFns fileStore
  imagePlain : PlainCopies imageFns imageStore
  emuPrepared : Prepared emuFns ciphers devpart
  imagePrepared : Prepared imageFns ciphers devpart
  crypts : Crypts ciphers devpart cipher
  crypted_iff : crypted ↔ UsesCipher ciphers devpart
  stores : g.Stores files parts

namespace Setting

variable {g : SplitImage} {start : Nat} {crypted : Prop} (t : g.Setting start crypted)

/-- A read of the emulated partition: the result code, the destination, and the image. -/
def emuRead (dst : List UInt8) (sector n : Nat) : Option (Int × List UInt8 × List UInt8) :=
  (emuDevicePartitionReadData t.emuFns t.ciphers t.devpart dst sector n (some g.origin) g.numParts
    (.ofNat g.partLimit) t.files).map fun (rc, dst, _, files) => (rc, dst, g.image files)

/-- A read of the partition on the image. -/
def imageRead (dst : List UInt8) (sector n : Nat) : Option (Int × List UInt8 × List UInt8) :=
  (devicePartitionReadData t.imageFns t.ciphers t.devpart dst sector n (g.image t.files)).map
    fun (rc, dst, _, image) => (rc, dst, image)

/-- A write of the emulated partition: the result code and the image. -/
def emuWrite (src : List UInt8) (sector n : Nat) : Option (Int × List UInt8) :=
  (emuDevicePartitionWriteData t.emuFns t.ciphers t.devpart src sector n (some g.origin) g.numParts
    (.ofNat g.partLimit) t.files).map fun (rc, _, files) => (rc, g.image files)

/-- A write of the partition on the image. -/
def imageWrite (src : List UInt8) (sector n : Nat) : Option (Int × List UInt8) :=
  (devicePartitionWriteData t.imageFns t.ciphers t.devpart src sector n (g.image t.files)).map
    fun (rc, _, image) => (rc, image)

end Setting

variable (g : SplitImage) (start : Nat) (crypted : Prop) (sector n : Nat)

/-- A range of sectors of the partition is inside of the image, and its bytes fit in memory. -/
structure Inside : Prop where
  first : start + sector < g.numParts * g.partSectors
  last : start + sector + n ≤ g.numParts * g.partSectors
  size : g.sectorSize * n < 2 ^ 32

/-- A range starts behind the last part. -/
def Past : Prop := g.numParts * g.partSectors ≤ start + sector

/-- Reads and writes do what they do on the image. -/
def SameEffect : Prop :=
  ∀ (t : g.Setting start crypted) (buf : List UInt8), g.sectorSize * n ≤ buf.length →
    t.emuRead buf sector n = t.imageRead buf sector n ∧ t.emuWrite buf sector n = t.imageWrite buf sector n

/-- Reads and writes fail, and change nothing. -/
def Refused : Prop :=
  ∀ (t : g.Setting start crypted) (buf : List UInt8), g.sectorSize * n ≤ buf.length →
    t.emuRead buf sector n = some (-1, buf, g.image t.files) ∧
      t.emuWrite buf sector n = some (-1, g.image t.files)

/-- A range lies in one file, and if it is encrypted, in the first one. -/
def Fits : Prop :=
  n = 0 ∨ start + sector % g.partSectors + n ≤ g.partSectors ∧ (crypted → sector < g.partSectors)

section Effects

variable {g start crypted sector n} {t : g.Setting start crypted} {buf part : List UInt8}

/-- The partition, prepared for the file of a path. -/
structure Setting.Target (t : g.Setting start crypted) (target : DevicePartition) (path : List UInt8) : Prop where
  sectorSize : target.sectorSize = g.sectorSize
  startSector : target.startSector = start
  emuFilePath : target.emuFilePath = path
  crypts : Crypts t.ciphers target t.cipher
  workBuffer : UsesCipher t.ciphers target → 0 < target.cryptoWorkBufferNumSectors

lemma Setting.Target.position {target : DevicePartition} {path : List UInt8} (h : t.Target target path) (i : Nat) :
    target.position i = g.sectorSize * (start + i) := by
  rw [DevicePartition.position, h.sectorSize, h.startSector]

lemma Setting.target_ready {sectors : Nat} (hpos : UsesCipher t.ciphers t.devpart → 0 < sectors) (path : List UInt8) :
    t.Target { t.devpart.ready sectors with emuFilePath := path } path where
  sectorSize := t.sectorSize
  startSector := t.startSector
  emuFilePath := rfl
  crypts := t.crypts.inFile sectors path
  workBuffer := hpos

/-- The sectors of a range in one part are sectors of its file. -/
lemma Setting.Target.range {target : DevicePartition} {path : List UInt8} (h : t.Target target path)
    (hlen : part.length = g.partLimit) (hfit : n = 0 ∨ start + sector % g.partSectors + n ≤ g.partSectors) :
    n = 0 ∨ target.position (sector % g.partSectors + n) ≤ part.length := by
  refine hfit.imp_right fun hfit => ?_
  rw [h.position, hlen, ← g.sectorSize_mul, ← Nat.add_assoc]
  exact Nat.mul_le_mul_left _ hfit

lemma Setting.position (t : g.Setting start crypted) (i : Nat) : t.devpart.position i = g.sectorSize * (start + i) := by
  rw [DevicePartition.position, t.sectorSize, t.startSector]

/-- The bytes of a range in one part are bytes of its file. -/
lemma Setting.slice_image (t : g.Setting start crypted) (hpart : t.parts[sector / g.partSectors]? = some part)
    (hfit : start + sector % g.partSectors + n ≤ g.partSectors) :
    slice (g.image t.files) (g.sectorSize * (start + sector)) (g.sectorSize * n) =
      slice part (g.sectorSize * (start + sector % g.partSectors)) (g.sectorSize * n) := by
  have hlen : part.length = g.partLimit := t.stores.size part (List.mem_of_getElem? hpart)
  have hin : g.sectorSize * (start + sector % g.partSectors) + g.sectorSize * n ≤ part.length := by
    rw [hlen, ← g.sectorSize_mul, ← Nat.mul_add]
    exact Nat.mul_le_mul_left _ hfit
  rw [t.stores.image_eq, g.position_eq, (Parts.sized_of_forall t.stores.size).slice_flatten hpart hin]

variable (hin : g.Inside start sector n)

include hin

lemma Inside.sector_lt : sector < g.numParts * g.partSectors :=
  (Nat.le_add_left _ _).trans_lt hin.first

lemma Inside.exists_part (t : g.Setting start crypted) :
    ∃ part, t.parts[sector / g.partSectors]? = some part ∧ part.length = g.partLimit := by
  have hp : sector / g.partSectors < t.parts.length := t.stores.length.symm ▸ div_partSectors_lt hin.sector_lt
  exact ⟨_, List.getElem?_eq_getElem hp, t.stores.size _ (List.getElem_mem hp)⟩

lemma Inside.file (hpart : t.parts[sector / g.partSectors]? = some part) :
    t.files (partPath g.origin (sector / g.partSectors : Nat)) = some part :=
  (t.stores.file (div_partSectors_lt hin.sector_lt)).trans hpart

/-- Where a range of the partition goes. -/
lemma Setting.exists_target (t : g.Setting start crypted) :
    ∃ devpart target, ensureInitialized t.emuFns t.devpart t.files = (0, devpart, t.files) ∧
      emuTarget devpart sector (some g.origin) g.numParts (.ofNat g.partLimit) = some (sector % g.partSectors, target) ∧
      t.Target target (partPath g.origin (sector / g.partSectors : Nat)) := by
  obtain ⟨sectors, hpos, hinit⟩ := t.emuPrepared.ensureInitialized t.files
  have htarget := @emuTarget_eq g (t.devpart.ready sectors) sector t.sectorSize t.useFile hin.sector_lt
  exact ⟨_, _, hinit, htarget, t.target_ready hpos _⟩

/-- A read in one part is a read of its file. -/
lemma Setting.emuRead_eq (hpart : t.parts[sector / g.partSectors]? = some part)
    (hfit : n = 0 ∨ start + sector % g.partSectors + n ≤ g.partSectors) (hbuf : g.sectorSize * n ≤ buf.length) :
    t.emuRead buf sector n = some (0, splice buf 0 (mapSectors g.sectorSize t.cipher.dec (sector % g.partSectors) n
        (part.drop (g.sectorSize * (start + sector % g.partSectors)))), g.image t.files) := by
  obtain ⟨devpart, target, hinit, htarget, ht⟩ := t.exists_target hin
  have hlen : part.length = g.partLimit := t.stores.size part (List.mem_of_getElem? hpart)
  have hstore : fileStore.get target.emuFilePath t.files = some part := ht.emuFilePath ▸ hin.file hpart
  have hread := readSectors_eq ht.sectorSize t.emuPlain ht.crypts hstore (ht.range hlen hfit) hin.size
    ht.workBuffer hbuf
  rw [Setting.emuRead, emuDevicePartitionReadData, hinit]
  dsimp only
  rw [if_neg (not_not.mpr rfl), htarget]
  dsimp only
  rw [hread, ht.position]
  rfl

/-- A write in one part is a write of its file. -/
lemma Setting.emuWrite_eq (hpart : t.parts[sector / g.partSectors]? = some part)
    (hfit : n = 0 ∨ start + sector % g.partSectors + n ≤ g.partSectors) (hbuf : g.sectorSize * n ≤ buf.length) :
    t.emuWrite buf sector n =
      some (0, g.image (Function.update t.files (partPath g.origin (sector / g.partSectors : Nat))
        (some (splice part (g.sectorSize * (start + sector % g.partSectors))
          (mapSectors g.sectorSize t.cipher.enc (sector % g.partSectors) n buf))))) := by
  obtain ⟨devpart, target, hinit, htarget, ht⟩ := t.exists_target hin
  have hlen : part.length = g.partLimit := t.stores.size part (List.mem_of_getElem? hpart)
  have hstore : fileStore.get target.emuFilePath t.files = some part := ht.emuFilePath ▸ hin.file hpart
  have hwrite := writeSectors_eq ht.sectorSize t.emuPlain ht.crypts hstore (ht.range hlen hfit) hin.size
    ht.workBuffer hbuf
  rw [Setting.emuWrite, emuDevicePartitionWriteData, hinit]
  dsimp only
  rw [if_neg (not_not.mpr rfl), htarget]
  dsimp only
  rw [hwrite, ht.position, ht.emuFilePath]
  rfl

lemma Inside.range (t : g.Setting start crypted) :
    n = 0 ∨ t.devpart.position (sector + n) ≤ (g.image t.files).length := by
  refine .inr ?_
  rw [DevicePartition.position, t.sectorSize, t.startSector, t.stores.length_image, ← g.sectorSize_mul,
    Nat.mul_left_comm, ← Nat.add_assoc]
  exact Nat.mul_le_mul_left _ hin.last

/-- A read of the image. -/
lemma Setting.imageRead_eq (hbuf : g.sectorSize * n ≤ buf.length) :
    t.imageRead buf sector n = some (0, splice buf 0 (mapSectors g.sectorSize t.cipher.dec sector n
        ((g.image t.files).drop (g.sectorSize * (start + sector)))), g.image t.files) := by
  have hstore : imageStore.get t.devpart.emuFilePath (g.image t.files) = some (g.image t.files) := rfl
  obtain ⟨sectors, -, hread⟩ := devicePartitionReadData_eq t.sectorSize t.imagePlain t.crypts hstore (hin.range t)
    hin.size t.imagePrepared hbuf
  rw [Setting.imageRead, hread, t.position]
  rfl

/-- A write of the image. -/
lemma Setting.imageWrite_eq (hbuf : g.sectorSize * n ≤ buf.length) :
    t.imageWrite buf sector n = some (0, splice (g.image t.files) (g.sectorSize * (start + sector))
        (mapSectors g.sectorSize t.cipher.enc sector n buf)) := by
  have hstore : imageStore.get t.devpart.emuFilePath (g.image t.files) = some (g.image t.files) := rfl
  obtain ⟨sectors, -, hwrite⟩ := devicePartitionWriteData_eq t.sectorSize t.imagePlain t.crypts hstore (hin.range t)
    hin.size t.imagePrepared hbuf
  rw [Setting.imageWrite, hwrite, t.position]
  rfl

/-- A write of the file of a part is a write of the image. -/
lemma Setting.image_update (t : g.Setting start crypted)
    (hpart : t.parts[sector / g.partSectors]? = some part)
    (hfit : start + sector % g.partSectors + n ≤ g.partSectors) (hbuf : buf.length = g.sectorSize * n) :
    g.image (Function.update t.files (partPath g.origin (sector / g.partSectors : Nat))
        (some (splice part (g.sectorSize * (start + sector % g.partSectors)) buf))) =
      splice (g.image t.files) (g.sectorSize * (start + sector)) buf := by
  have hlen : part.length = g.partLimit := t.stores.size part (List.mem_of_getElem? hpart)
  have hend : g.sectorSize * (start + sector % g.partSectors) + buf.length ≤ part.length := by
    rw [hlen, hbuf, ← g.sectorSize_mul, ← Nat.mul_add]
    exact Nat.mul_le_mul_left _ hfit
  have hnew := t.stores.update (div_partSectors_lt hin.sector_lt) ((length_splice hend).trans hlen)
  rw [hnew.image_eq, t.stores.image_eq, g.position_eq start sector,
    (Parts.sized_of_forall t.stores.size).splice_flatten hpart hend]

/-- In one part, and in the first one if it is encrypted, a range of the partition is a range of the image. -/
lemma sameEffect_of_fits (hfit : g.Fits start crypted sector n) :
    g.SameEffect start crypted sector n := by
  intro t buf hbuf
  obtain ⟨part, hpart, hlen⟩ := hin.exists_part t
  have hfit' : n = 0 ∨ start + sector % g.partSectors + n ≤ g.partSectors := hfit.imp_right And.left
  rw [t.emuRead_eq hin hpart hfit' hbuf, t.imageRead_eq hin hbuf, t.emuWrite_eq hin hpart hfit' hbuf,
    t.imageWrite_eq hin hbuf]
  rcases hfit with rfl | ⟨hend, hcrypted⟩
  · have hfile := hin.file hpart
    rw [mapSectors, mapSectors, mapSectors, mapSectors, splice_nil, splice_nil, splice_nil, ← hfile,
      Function.update_eq_self]
    exact ⟨rfl, rfl⟩
  · have hnumber : UsesCipher t.ciphers t.devpart → sector % g.partSectors = sector :=
      fun hused => Nat.mod_eq_of_lt (hcrypted (t.crypted_iff.mpr hused))
    have hslice := t.slice_image hpart hend
    have henc := length_mapSectors (k := sector) t.cipher.length_enc hbuf
    rw [(t.crypts.mapSectors_congr hnumber _).1, (t.crypts.mapSectors_congr hnumber _).2,
      t.image_update hin hpart hend henc]
    refine ⟨?_, rfl⟩
    rw [← mapSectors_take, ← slice, ← hslice, slice, mapSectors_take]

end Effects

/-! ## Ranges whose effect is another -/

/-- Files of zeros. -/
def zeroFiles : Files := fun path =>
  if ∃ p < g.numParts, path = partPath g.origin p then some (List.replicate g.partLimit 0) else none

lemma stores_zeroFiles : g.Stores g.zeroFiles (List.replicate g.numParts (List.replicate g.partLimit 0)) where
  length := List.length_replicate ..
  size part hpart := by rw [List.eq_of_mem_replicate hpart, List.length_replicate]
  file {p} hp := by rw [zeroFiles, if_pos ⟨p, hp, rfl⟩, List.getElem?_replicate_of_lt hp]

/-- Functions that copy the sectors of files. They give a result code for ranges that are not inside of a file. -/
def fileFunctions (short : Int) : DeviceFunctions Files where
  initializer devpart files := (0, devpart.ready 1, files)
  reader devpart sector n files := (files devpart.emuFilePath).map fun bytes =>
    if n = 0 ∨ devpart.position (sector + n) ≤ bytes.length then
      (0, slice bytes (devpart.position sector) (devpart.sectorSize * n), files)
    else (short, [], files)
  writer devpart src sector n files := (files devpart.emuFilePath).map fun bytes =>
    if n = 0 ∨ devpart.position (sector + n) ≤ bytes.length then
      (0, Function.update files devpart.emuFilePath
        (some (splice bytes (devpart.position sector) (src.take (devpart.sectorSize * n)))))
    else (short, files)

lemma plainCopies_file (short : Int) : PlainCopies (fileFunctions short) fileStore where
  reader {devpart s bytes sector n} hstore hrange := by
    have hfile : s devpart.emuFilePath = some bytes := hstore
    dsimp only [fileFunctions]
    rw [hfile, Option.map_some, if_pos hrange]
  writer {devpart s bytes src sector n} hstore hrange hsrc := by
    have hfile : s devpart.emuFilePath = some bytes := hstore
    dsimp only [fileFunctions]
    rw [hfile, Option.map_some, if_pos hrange]
    rfl

/-- A partition of files of zeros that is initialized and has a large work buffer. -/
def zeroDevpart [Decidable crypted] : DevicePartition where
  sectorSize := g.sectorSize
  startSector := start
  numSectors := g.numParts * g.partSectors
  cryptoMode := if crypted then .ctr else .none
  cryptoWorkBufferNumSectors := n + 1
  initialized := true
  emuFilePath := []
  emuUseFile := true

lemma zeroDevpart_mode_iff [Decidable crypted] : (g.zeroDevpart start crypted n).cryptoMode = .none ↔ ¬crypted := by
  rw [zeroDevpart]
  split
  · exact iff_of_false nofun (not_not.mpr ‹_›)
  · exact iff_of_true rfl ‹_›

/-- The partition with its functions. -/
def zeroSetting [Decidable crypted] (short : Int) (k : SectorCipher UInt8 g.sectorSize) : g.Setting start crypted where
  devpart := g.zeroDevpart start crypted n
  emuFns := fileFunctions short
  imageFns := imageFunctions
  ciphers := mappingCiphers k
  cipher := if crypted then k else .plain UInt8 g.sectorSize
  files := g.zeroFiles
  parts := List.replicate g.numParts (List.replicate g.partLimit 0)
  sectorSize := rfl
  startSector := rfl
  useFile := rfl
  emuPlain := plainCopies_file short
  imagePlain := plainCopies_image
  emuPrepared := ⟨fun _ _ => Nat.succ_pos n, fun _ h => absurd rfl h⟩
  imagePrepared := ⟨fun _ _ => Nat.succ_pos n, fun _ h => absurd rfl h⟩
  crypts := by
    by_cases hcrypted : crypted
    · rw [if_pos hcrypted]
      exact crypts_mapping k (mt (zeroDevpart_mode_iff g start crypted n).mp (not_not.mpr hcrypted))
    · have hmode := (zeroDevpart_mode_iff g start crypted n).mpr hcrypted
      rw [if_neg hcrypted]
      exact .plain (if_pos hmode) (if_pos hmode)
  crypted_iff := by
    by_cases hcrypted : crypted
    · refine iff_of_true hcrypted (.inl ?_)
      rw [usedCipher, if_neg (mt (zeroDevpart_mode_iff g start crypted n).mp (not_not.mpr hcrypted))]
      nofun
    · have hmode := (zeroDevpart_mode_iff g start crypted n).mpr hcrypted
      exact iff_of_false hcrypted (not_or.mpr ⟨not_not.mpr (if_pos hmode), not_not.mpr (if_pos hmode)⟩)
  stores := g.stores_zeroFiles

section Sectors

variable {σ : Type} {fns : DeviceFunctions σ} {ciphers : DeviceCiphers} {devpart : DevicePartition}
  {dst data : List UInt8} {rc : Int} {s : σ} {sector n}

/-- The result code of a reader that fails for the whole range. -/
lemma readSectors_of_reader (hn : n ≠ 0) (hwork : n ≤ devpart.cryptoWorkBufferNumSectors) (hrc : rc ≠ 0)
    (hread : fns.reader devpart sector n s = some (rc, data, s)) :
    (readSectors fns ciphers devpart dst sector n s).map Prod.fst = some rc := by
  rw [readSectors]
  split
  · have hchunk : chunkSectors devpart n 0 = n := by
      rw [chunkSectors]
      split <;> omega
    cases n with
    | zero => exact absurd rfl hn
    | succ n =>
      unfold readCrypted
      rw [if_pos (Nat.succ_pos n)]
      dsimp only
      rw [hchunk, Nat.add_zero, hread, Fallible.some_bind]
      dsimp only
      rw [if_pos hrc]
      rfl
  · rw [hread]
    rfl

/-- A reader and a cipher that do not fail. -/
lemma readCrypted_rc {cipher : DeviceCipher} {num_sectors rounds i : Nat}
    (hread : ∀ sector n s, ((fns.reader devpart sector n s).map Prod.fst).getD 0 = 0)
    (hcipher : ∀ sector n work, (cipher devpart sector n work).1 = 0) :
    ((readCrypted fns cipher devpart sector num_sectors rounds i dst s).map Prod.fst).getD 0 = 0 := by
  induction rounds generalizing i dst s with
  | zero =>
    unfold readCrypted
    split <;> rfl
  | succ rounds ih =>
    unfold readCrypted
    split
    · dsimp only
      have hrc := hread (sector + i) (chunkSectors devpart num_sectors i) s
      rcases hcase : fns.reader devpart (sector + i) (chunkSectors devpart num_sectors i) s with _ | ⟨rc, work, s'⟩
      · rfl
      · rw [hcase] at hrc
        obtain rfl : rc = 0 := hrc
        rw [Fallible.some_bind]
        dsimp only
        rw [if_neg (not_not.mpr rfl), if_neg (not_not.mpr (hcipher _ _ _))]
        exact ih
    · rfl

lemma readSectors_rc (hread : ∀ sector n s, ((fns.reader devpart sector n s).map Prod.fst).getD 0 = 0)
    (hcipher : ∀ cipher ∈ usedCipher devpart ciphers.readCipher, ∀ sector n work,
      (cipher devpart sector n work).1 = 0) :
    ((readSectors fns ciphers devpart dst sector n s).map Prod.fst).getD 0 = 0 := by
  rw [readSectors]
  split
  · rename_i cipher hused
    exact readCrypted_rc hread (hcipher cipher hused)
  · have hrc := hread sector n s
    rcases hcase : fns.reader devpart sector n s with _ | ⟨rc, work, s'⟩
    · rfl
    · rw [hcase] at hrc
      exact hrc

end Sectors

section Divergence

variable {g start crypted sector n}

lemma exists_buf (len : Nat) : ∃ buf : List UInt8, buf.length = len := ⟨List.replicate len 0, List.length_replicate⟩

/-- Once the file is known, the result code of a read is that of the sectors. -/
lemma Setting.emuRead_fst {t : g.Setting start crypted} {buf : List UInt8} {target : DevicePartition}
    {local_sector : Nat}
    (hinit : t.devpart.initialized) (htarget : emuTarget t.devpart sector (some g.origin) g.numParts
      (.ofNat g.partLimit) = some (local_sector, target)) :
    (t.emuRead buf sector n).map Prod.fst =
      (readSectors t.emuFns t.ciphers target buf local_sector n t.files).map Prod.fst := by
  rw [Setting.emuRead, emuDevicePartitionReadData, ensureInitialized, if_pos hinit]
  dsimp only
  rw [if_neg (not_not.mpr rfl), htarget]
  dsimp only
  rcases readSectors t.emuFns t.ciphers target buf local_sector n t.files with _ | ⟨rc, dst, s⟩
  · rfl
  · rfl

/-- A range that goes beyond its part is not read as a range of the image. -/
lemma not_sameEffect_of_crossing (hin : g.Inside start sector n) (hn : n ≠ 0)
    (hcross : g.partSectors < start + sector % g.partSectors + n) : ¬g.SameEffect start crypted sector n := by
  classical
  intro hsame
  let t := g.zeroSetting start crypted n (-1) (.plain UInt8 g.sectorSize)
  let target := { t.devpart with emuFilePath := partPath g.origin (sector / g.partSectors : Nat) }
  have htarget : emuTarget t.devpart sector (some g.origin) g.numParts (.ofNat g.partLimit) =
      some (sector % g.partSectors, target) := emuTarget_eq rfl rfl hin.sector_lt
  obtain ⟨buf, hbuf⟩ := exists_buf (g.sectorSize * n)
  obtain ⟨part, hpart, hlen⟩ := hin.exists_part t
  have hshort : ¬(n = 0 ∨ target.position (sector % g.partSectors + n) ≤ part.length) := by
    rintro (hzero | hle)
    · exact hn hzero
    · have hle' : g.sectorSize * (start + (sector % g.partSectors + n)) ≤ g.partLimit := hlen ▸ hle
      rw [← g.sectorSize_mul, ← Nat.add_assoc] at hle'
      exact Nat.not_le.mpr hcross (Nat.le_of_mul_le_mul_left hle' g.sectorSize_pos)
  have hread : t.emuFns.reader target (sector % g.partSectors) n t.files = some (-1, [], t.files) := by
    have hfile : t.files target.emuFilePath = some part := hin.file hpart
    change (t.files target.emuFilePath).map _ = _
    rw [hfile, Option.map_some, if_neg hshort]
  have hwork : n ≤ target.cryptoWorkBufferNumSectors := Nat.le_succ n
  have hrc : (t.emuRead buf sector n).map Prod.fst = some (-1) :=
    (t.emuRead_fst rfl htarget).trans (readSectors_of_reader hn hwork (by decide) hread)
  rw [(hsame t buf hbuf.ge).1, t.imageRead_eq hin hbuf.ge] at hrc
  have hzero : (0 : Int) = -1 := Option.some.inj hrc
  exact absurd hzero (by decide)

/-- An encrypted range behind the first part is not decrypted as a range of the image. -/
lemma not_sameEffect_of_crypted (hin : g.Inside start sector n) (hn : n ≠ 0) (hcrypted : crypted)
    (hend : start + sector % g.partSectors + n ≤ g.partSectors) (hsector : g.partSectors ≤ sector) :
    ¬g.SameEffect start crypted sector n := by
  classical
  intro hsame
  let key (i : Nat) : UInt8 := if i = sector then 1 else 0
  let t := g.zeroSetting start crypted n 0 (xorCipher g.sectorSize key)
  have hcipher : t.cipher = xorCipher g.sectorSize key := if_pos hcrypted
  obtain ⟨buf, hbuf⟩ := exists_buf (g.sectorSize * n)
  obtain ⟨part, hpart, hlen⟩ := hin.exists_part t
  have hslice := t.slice_image hpart hend
  obtain ⟨data, hdata⟩ : ∃ data,
      slice part (g.sectorSize * (start + sector % g.partSectors)) (g.sectorSize * n) = data :=
    ⟨_, rfl⟩
  have hlength : data.length = g.sectorSize * n := by
    rw [← hdata]
    refine length_slice ?_
    rw [hlen, ← g.sectorSize_mul, ← Nat.mul_add]
    exact Nat.mul_le_mul_left _ hend
  have hboth := (hsame t buf hbuf.ge).1
  rw [t.emuRead_eq hin hpart (.inr hend) hbuf.ge, t.imageRead_eq hin hbuf.ge, hcipher, ← mapSectors_take,
    ← slice, hdata, ← @mapSectors_take _ _ sector, ← slice, hslice, hdata] at hboth
  have hdec := (xorCipher g.sectorSize key).length_dec
  have hmap := splice_zero_inj ((length_mapSectors hdec hlength.ge).trans (length_mapSectors hdec hlength.ge).symm)
    (congrArg (fun r => r.2.1) (Option.some.inj hboth))
  obtain ⟨m, rfl⟩ := Nat.exists_eq_succ_of_ne_zero hn
  have hfirst : (data.take g.sectorSize).length = g.sectorSize := by
    rw [List.length_take, hlength]
    exact Nat.min_eq_left (Nat.le_mul_of_pos_right _ (Nat.succ_pos m))
  have hhead := (List.append_inj hmap ((hdec _ _ hfirst).trans (hdec _ _ hfirst).symm)).1
  have hlocal : sector % g.partSectors ≠ sector :=
    ((Nat.mod_lt _ g.partSectors_pos).trans_le hsector).ne
  have hkeys : key (sector % g.partSectors) = 0 ∧ key sector = 1 := ⟨if_neg hlocal, if_pos rfl⟩
  rcases hcase : data.take g.sectorSize with _ | ⟨x, xs⟩
  · rw [hcase] at hfirst
    exact absurd hfirst g.sectorSize_pos.ne
  · rw [hcase] at hhead
    have hbyte : x ^^^ key (sector % g.partSectors) = x ^^^ key sector := (List.cons.inj hhead).1
    rw [UInt8.xor_right_inj, hkeys.1, hkeys.2] at hbyte
    exact absurd hbyte (by decide)

/-- A range in one part that is read and written as a range of the image. -/
lemma fits_of_sameEffect (hin : g.Inside start sector n) (hsame : g.SameEffect start crypted sector n) :
    g.Fits start crypted sector n := by
  by_contra hfit
  obtain ⟨hn, hfit⟩ := not_or.mp hfit
  by_cases hend : start + sector % g.partSectors + n ≤ g.partSectors
  · obtain ⟨hcrypted, hsector⟩ := Classical.not_imp.mp fun h => hfit ⟨hend, h⟩
    exact not_sameEffect_of_crypted hin hn hcrypted hend (Nat.not_lt.mp hsector) hsame
  · exact not_sameEffect_of_crossing hin hn (Nat.not_le.mp hend) hsame

/-- A range that is not refused reaches a file. -/
lemma refuses_of_refused (hrefused : g.Refused start crypted sector n) : g.Refuses sector := by
  classical
  by_contra hnot
  let t := g.zeroSetting start crypted n 0 (.plain UInt8 g.sectorSize)
  obtain ⟨buf, hbuf⟩ := exists_buf (g.sectorSize * n)
  have hsome := mt (@emuTarget_eq_none_iff g t.devpart sector rfl rfl).mp hnot
  obtain ⟨⟨target_sector, target⟩, htarget⟩ := Option.ne_none_iff_exists'.mp hsome
  have hread (sector n : Nat) (files : Files) : ((t.emuFns.reader target sector n files).map Prod.fst).getD 0 = 0 := by
    change (((files target.emuFilePath).map _).map Prod.fst).getD 0 = 0
    rcases files target.emuFilePath with _ | bytes
    · rfl
    · rw [Option.map_some]
      split
      · rfl
      · rfl
  have hcipher (cipher : DeviceCipher) (hused : cipher ∈ usedCipher target t.ciphers.readCipher) (sector n : Nat)
      (work : List UInt8) : (cipher target sector n work).1 = 0 := by
    rw [usedCipher] at hused
    split at hused
    · exact absurd hused nofun
    · rw [← Option.some.inj hused]
  have hzero : ((t.emuRead buf sector n).map Prod.fst).getD 0 = 0 := by
    rw [t.emuRead_fst rfl htarget]
    exact readSectors_rc hread hcipher
  rw [(hrefused t buf hbuf.ge).1] at hzero
  have hcode : (-1 : Int) = 0 := hzero
  exact absurd hcode (by decide)

/-- A range that is refused changes nothing. -/
lemma refused_of_refuses (hrefuses : g.Refuses sector) : g.Refused start crypted sector n := by
  intro t buf hbuf
  obtain ⟨sectors, -, hinit⟩ := t.emuPrepared.ensureInitialized t.files
  have hnone := (@emuTarget_eq_none_iff g (t.devpart.ready sectors) sector t.sectorSize t.useFile).mpr hrefuses
  constructor
  · rw [Setting.emuRead, emuDevicePartitionReadData, hinit]
    dsimp only
    rw [if_neg (not_not.mpr rfl), hnone]
    rfl
  · rw [Setting.emuWrite, emuDevicePartitionWriteData, hinit]
    dsimp only
    rw [if_neg (not_not.mpr rfl), hnone]
    rfl

variable (g start crypted sector n)

/-- What a range of a split partition is meant to do: inside of the image, the same as on the image, and past the last
part, nothing. -/
def OnePartition : Prop :=
  (g.Inside start sector n → g.SameEffect start crypted sector n) ∧
    (g.Past start sector → g.Refused start crypted sector n)

/-- Which ranges do what they are meant to do. -/
theorem onePartition_iff :
    g.OnePartition start crypted sector n ↔
      (g.Inside start sector n → g.Fits start crypted sector n) ∧ (g.Past start sector → g.Refuses sector) :=
  and_congr
    (forall_congr' fun hin => ⟨fits_of_sameEffect hin, sameEffect_of_fits hin⟩)
    (forall_congr' fun _ => ⟨refuses_of_refused, refused_of_refuses⟩)

/-- Two parts of one sector of two bytes. -/
def exampleImage : SplitImage where
  sectorSize := 2
  origin := [0x65]
  numParts := 2
  limitBits := 1
  dvd := by decide
  sectorSize_lt := by decide
  numParts_pos := by decide
  numParts_lt := by decide
  total_lt := by decide
  origin_le := by decide

/-- Two sectors in two parts are not read as one range, the encrypted sector of the second part is not read as the
second one, and a range that starts right behind the last part is not refused. -/
theorem not_onePartition :
    ¬exampleImage.OnePartition 0 False 0 2 ∧ ¬exampleImage.OnePartition 0 True 1 1 ∧
      ¬exampleImage.OnePartition 0 False 2 1 := by
  refine ⟨fun h => ?_, fun h => ?_, fun h => ?_⟩
  · have hin : exampleImage.Inside 0 0 2 := ⟨by decide, by decide, by decide⟩
    exact not_sameEffect_of_crossing hin (by decide) (by decide) (h.1 hin)
  · have hin : exampleImage.Inside 0 1 1 := ⟨by decide, by decide, by decide⟩
    exact not_sameEffect_of_crypted hin (by decide) trivial (by decide) (by decide) (h.1 hin)
  · have hpast : exampleImage.numParts * exampleImage.partSectors ≤ 0 + 2 := by decide
    have hlt := (refuses_of_refused (h.2 hpast)).2.2
    exact absurd hlt (by decide)

end Divergence

end SplitImage

end RajNX.Fusee
