import RajNX.Patcher.Ips

/-!
# Where IPS patches write

Neither engine writes to the protected bytes. Past the end of the image both write for a record that starts
there: the size that is left is a difference below zero, and is taken as a 32-bit number. `IpsFits` holds of
the files with which this does not happen.
-/

namespace RajNX.Patcher

open WriteTrace

/-- The files no record of which writes past the end of the image, of the records that an engine gets to.
These are the ones before the tail, before a read that fails and before a record that starts where the image
ends. A record that the file cuts short may start anywhere, as long as the data that is left fits. -/
inductive IpsFits (mappedSize protectedSize offset : Nat) (isIps32 : Bool) : List UInt8 → Prop
  | short {f : List UInt8} : readHead isIps32 f = none →
    IpsFits mappedSize protectedSize offset isIps32 f
  | tail {f f' : List UInt8} : readHead isIps32 f = some (.tail, f') →
    IpsFits mappedSize protectedSize offset isIps32 f
  | rleSkipped {f f' : List UInt8} {o n : Nat} {value : UInt8} :
    readHead isIps32 f = some (.rle o n value, f') → Skipped protectedSize o n →
    IpsFits mappedSize protectedSize offset isIps32 f' →
    IpsFits mappedSize protectedSize offset isIps32 f
  | rle {f f' : List UInt8} {o n : Nat} {value : UInt8} :
    readHead isIps32 f = some (.rle o n value, f') → ¬Skipped protectedSize o n →
    Inside mappedSize (max o protectedSize - offset) (n - (protectedSize - o)) →
    IpsFits mappedSize protectedSize offset isIps32 f' →
    IpsFits mappedSize protectedSize offset isIps32 f
  | plainSkipped {f f' : List UInt8} {o n : Nat} :
    readHead isIps32 f = some (.plain o n, f') → Skipped protectedSize o n →
    IpsFits mappedSize protectedSize offset isIps32 (f'.drop n) →
    IpsFits mappedSize protectedSize offset isIps32 f
  | plain {f f' : List UInt8} {o n : Nat} :
    readHead isIps32 f = some (.plain o n, f') → ¬Skipped protectedSize o n →
    Inside mappedSize (max o protectedSize - offset) (n - (protectedSize - o)) → n ≤ f'.length →
    IpsFits mappedSize protectedSize offset isIps32 (f'.drop n) →
    IpsFits mappedSize protectedSize offset isIps32 f
  | atEnd {f f' : List UInt8} {o n : Nat} :
    readHead isIps32 f = some (.plain o n, f') → ¬Skipped protectedSize o n →
    max o protectedSize - offset = mappedSize → mappedSize + (n - (protectedSize - o)) < 2 ^ 32 →
    IpsFits mappedSize protectedSize offset isIps32 f
  | cut {f f' : List UInt8} {o n : Nat} :
    readHead isIps32 f = some (.plain o n, f') → ¬Skipped protectedSize o n → f'.length < n →
    Inside mappedSize (max o protectedSize - offset) (n - (protectedSize - o)) ∨
      f'.length ≤ protectedSize - o ∨
      max o protectedSize - offset + (f'.length - (protectedSize - o)) ≤ mappedSize →
    IpsFits mappedSize protectedSize offset isIps32 f

section Bounds

variable {isIps32 : Bool} {f f' : List UInt8} {value : UInt8}
  {mappedSize protectedSize offset o n fuel : Nat}

lemma readHead_nil : readHead isIps32 [] = none := by
  cases isIps32 <;> rfl

lemma ipsTurn_nil : ipsTurn mappedSize protectedSize offset isIps32 [] = .stop [] none := by
  rw [ipsTurn, readHead_nil]

lemma ipsLoop_nil : (ipsLoop mappedSize protectedSize offset isIps32 fuel []).writes = [] := by
  cases fuel with
  | zero => rfl
  | succ fuel => rw [ipsLoop_stop ipsTurn_nil]

/-- What is left of a record behind the protected bytes is not empty. -/
lemma lt_size_of_not_skipped (ho : o < 2 ^ 32) (hn0 : 0 < n) (hn : n < 2 ^ 16)
    (h : ¬Skipped protectedSize o n) : protectedSize - o < n := by
  unfold Skipped at h
  omega

lemma max_sub_lt (ho : o < 2 ^ 32) (h : ¬Skipped protectedSize o n) : max o protectedSize - offset < 2 ^ 32 :=
  Nat.lt_of_le_of_lt (Nat.sub_le _ _) (max_lt_of_not_skipped ho h)

lemma first_le : protectedSize - offset ≤ max o protectedSize - offset :=
  Nat.sub_le_sub_right (le_max_right o protectedSize) offset

/-- A record of a run fits if and only if it is inside. -/
lemma within_rle_iff {start first : Nat} (hs : start < 2 ^ 32) (hn : n < 2 ^ 16) (hfirst : first ≤ start) :
    (Write.fill start (clipSize mappedSize start n) value).Within first mappedSize ↔
      Inside mappedSize start n := by
  rw [Write.within_iff hfirst, Write.size_fill, Write.position_fill]
  constructor
  · intro h
    by_contra hinside
    obtain ⟨hpos, hpast⟩ := clipSize_of_not_inside hs hn hinside
    omega
  · intro h
    rw [clipSize_of_inside hn h]
    unfold Inside at h
    omega

/-- The data of a record is read, and the engine goes on behind it, or not enough of it is there. -/
lemma applyData_cases (start n size : Nat) (data : List UInt8) :
    (applyData start n size data = .stop [.copy start (data.take size)] none ∧
        (size = 0 ∨ data.length < size)) ∨
      applyData start n size data = .next [.copy start (data.take size)] ((data.drop size).drop (n - size)) ∧
        0 < size ∧ size ≤ data.length := by
  rw [applyData, fread]
  split
  · next heq =>
    split at heq
    · next hshort => exact .inl ⟨rfl, hshort⟩
    · cases heq
  · next heq =>
    split at heq
    · cases heq
    · next hshort =>
      cases heq
      refine .inr ⟨rfl, ?_⟩
      omega

/-- A record with data fits if and only if it is inside, or if it is cut short in time. -/
lemma within_data_iff {start first : Nat} (mappedSize : Nat) (data : List UInt8) (hs : start < 2 ^ 32)
    (hn0 : 0 < n) (hn : n < 2 ^ 16) (hfirst : first ≤ start) :
    (Write.copy start (data.take (clipSize mappedSize start n))).Within first mappedSize ↔ Inside mappedSize start n ∨
        data.length < n ∧ (data.length = 0 ∨ start + data.length ≤ mappedSize) := by
  rw [Write.within_iff hfirst, Write.size_copy, Write.position_copy, List.length_take]
  by_cases hinside : Inside mappedSize start n
  · rw [clipSize_of_inside hn hinside]
    refine iff_of_true ?_ (.inl hinside)
    unfold Inside at hinside
    omega
  · obtain ⟨hpos, hpast⟩ := clipSize_of_not_inside hs hn hinside
    have hsize : clipSize mappedSize start n = n ∨ mappedSize < start := by
      unfold Inside at hinside
      rw [clipSize]
      split <;> omega
    constructor
    · intro h
      exact .inr ⟨by omega, by omega⟩
    · rintro (h | ⟨-, h⟩)
      · exact absurd h hinside
      · omega

/-- A record with data writes once. When that fits, the engine goes on behind the record if it is inside
and before the end and all of its data is there, and stops otherwise. -/
lemma ipsLoop_plain {start left size : Nat} (fuel : Nat) (h : readHead isIps32 f = some (.plain o n, f'))
    (hoffset : offset ≤ protectedSize) (hskip : ¬Skipped protectedSize o n)
    (hstart : max o protectedSize - offset = start) (hleft : n - (protectedSize - o) = left)
    (hsize : f'.length - (protectedSize - o) = size) :
    ∃ w ws, (ipsLoop mappedSize protectedSize offset isIps32 (fuel + 1) f).writes = w :: ws ∧
      (w.Within (protectedSize - offset) mappedSize ↔
        Inside mappedSize start left ∨ size < left ∧ (size = 0 ∨ start + size ≤ mappedSize)) ∧
      (Inside mappedSize start left → start ≠ mappedSize → left ≤ size →
        ws = (ipsLoop mappedSize protectedSize offset isIps32 fuel (f'.drop n)).writes) ∧
      (Inside mappedSize start left → start = mappedSize ∨ size < left → ws = []) ∧
      (¬Inside mappedSize start left → size = 0 ∨ start + size ≤ mappedSize → ws = []) := by
  obtain ⟨ho, hn0, hn⟩ := (readHead_ok h).1
  have hlt := lt_size_of_not_skipped ho hn0 hn hskip
  have hs : start < 2 ^ 32 := hstart ▸ max_sub_lt ho hskip
  have hleft0 : 0 < left := by omega
  have hleft16 : left < 2 ^ 16 := by omega
  have hfirst : protectedSize - offset ≤ start := hstart ▸ first_le
  have hturn : ipsTurn mappedSize protectedSize offset isIps32 f = _ := ipsTurn_plain h hoffset hskip
  rw [hstart, hleft] at hturn
  have hdata : (f'.drop (protectedSize - o)).length = size := by rw [List.length_drop, hsize]
  have hwithin := within_data_iff mappedSize (f'.drop (protectedSize - o)) hs hleft0 hleft16 hfirst
  rw [hdata] at hwithin
  obtain ⟨hcase, hshort⟩ | ⟨hcase, hpos, hread⟩ := applyData_cases start left
    (clipSize mappedSize start left) (f'.drop (protectedSize - o))
  · rw [hcase] at hturn
    rw [hdata] at hshort
    rw [ipsLoop_stop hturn]
    refine ⟨_, [], rfl, hwithin, fun hinside hne hle => ?_, fun _ _ => rfl, fun _ _ => rfl⟩
    rw [clipSize_of_inside hleft16 hinside] at hshort
    unfold Inside at hinside
    omega
  · rw [hcase] at hturn
    rw [hdata] at hread
    rw [ipsLoop_next hturn]
    refine ⟨_, _, rfl, hwithin, ?_, ?_, ?_⟩
    · intro hinside hne hle
      rw [clipSize_of_inside hleft16 hinside, ← hleft, drop_data hlt.le (Nat.min_le_left _ _)]
      rfl
    · intro hinside hstop
      rw [clipSize_of_inside hleft16 hinside] at hpos hread ⊢
      rw [← hleft, drop_data hlt.le (Nat.min_le_left _ _), List.drop_of_length_le (by omega)]
      exact ipsLoop_nil
    · intro hinside hfits
      obtain ⟨-, hpast⟩ := clipSize_of_not_inside hs hleft16 hinside
      omega

/-- A file that fits writes inside the image. -/
lemma IpsFits.within (h : IpsFits mappedSize protectedSize offset isIps32 f) (hoffset : offset ≤ protectedSize) :
    ∀ w ∈ (ipsLoop mappedSize protectedSize offset isIps32 fuel f).writes,
      w.Within (protectedSize - offset) mappedSize := by
  induction fuel generalizing f with
  | zero => exact List.forall_mem_nil _
  | succ fuel ih =>
    cases h with
    | short hhead | tail hhead =>
      rw [ipsLoop_stop (by rw [ipsTurn, hhead])]
      exact List.forall_mem_nil _
    | rleSkipped hhead hskip hrest =>
      rw [ipsLoop_next (ipsTurn_rle_skipped hhead hskip)]
      exact ih hrest
    | rle hhead hskip hinside hrest =>
      obtain ⟨ho, hn⟩ := (readHead_ok hhead).1
      rw [ipsLoop_next (ipsTurn_rle hhead hoffset hskip)]
      refine List.forall_mem_cons.mpr ⟨?_, ih hrest⟩
      exact (within_rle_iff (max_sub_lt ho hskip) (Nat.lt_of_le_of_lt (Nat.sub_le _ _) hn) first_le).mpr
        hinside
    | plainSkipped hhead hskip hrest =>
      rw [ipsLoop_next (ipsTurn_plain_skipped hhead hskip)]
      exact ih hrest
    | @plain _ f' o n hhead hskip hinside hlen hrest =>
      obtain ⟨w, ws, hwrites, hw, hnext, hstop, -⟩ :=
        ipsLoop_plain fuel hhead hoffset hskip rfl rfl rfl
      rw [hwrites]
      refine List.forall_mem_cons.mpr ⟨hw.mpr (.inl hinside), ?_⟩
      -- the loop stops behind a write that ends at the end of the image
      by_cases hend : max o protectedSize - offset = mappedSize
      · rw [hstop hinside (.inl hend)]
        exact List.forall_mem_nil _
      · rw [hnext hinside hend (Nat.sub_le_sub_right hlen _)]
        exact ih hrest
    | atEnd hhead hskip hend hsize =>
      obtain ⟨w, ws, hwrites, hw, -, hstop, -⟩ := ipsLoop_plain fuel hhead hoffset hskip hend rfl rfl
      have hinside : Inside mappedSize mappedSize _ := .inr ⟨Nat.le_refl _, hsize⟩
      rw [hwrites, hstop hinside (.inl rfl)]
      exact List.forall_mem_singleton.mpr (hw.mpr (.inl hinside))
    | @cut _ f' o n hhead hskip hlen hfits =>
      obtain ⟨ho, hn0, hn⟩ := (readHead_ok hhead).1
      have hlt := lt_size_of_not_skipped ho hn0 hn hskip
      have hcut : f'.length - (protectedSize - o) < n - (protectedSize - o) := by omega
      obtain ⟨w, ws, hwrites, hw, -, hstop, hpast⟩ :=
        ipsLoop_plain fuel hhead hoffset hskip rfl rfl rfl
      rw [hwrites]
      -- a record that is cut off writes what there is of it
      by_cases hinside : Inside mappedSize (max o protectedSize - offset) (n - (protectedSize - o))
      · rw [hstop hinside (.inr hcut)]
        exact List.forall_mem_singleton.mpr (hw.mpr (.inl hinside))
      · have hdata := hfits.resolve_left hinside
        rw [← Nat.sub_eq_zero_iff_le] at hdata
        rw [hpast hinside hdata]
        exact List.forall_mem_singleton.mpr (hw.mpr (.inr ⟨hcut, hdata⟩))

/-- A file that does not fit writes past the end of the image. -/
lemma IpsFits.of_within (hoffset : offset ≤ protectedSize) (hfuel : f.length < fuel)
    (h : ∀ w ∈ (ipsLoop mappedSize protectedSize offset isIps32 fuel f).writes,
      w.Within (protectedSize - offset) mappedSize) :
    IpsFits mappedSize protectedSize offset isIps32 f := by
  induction fuel generalizing f with
  | zero => exact absurd hfuel (Nat.not_lt_zero _)
  | succ fuel ih =>
    cases hhead : readHead isIps32 f with
    | none => exact .short hhead
    | some found =>
      obtain ⟨head, f'⟩ := found
      obtain ⟨hok, hlen⟩ := readHead_ok hhead
      cases head with
      | tail => exact .tail hhead
      | rle o n value =>
        by_cases hskip : Skipped protectedSize o n
        · rw [ipsLoop_next (ipsTurn_rle_skipped hhead hskip)] at h
          exact .rleSkipped hhead hskip (ih (by omega) h)
        · rw [ipsLoop_next (ipsTurn_rle hhead hoffset hskip)] at h
          obtain ⟨hw, h⟩ := List.forall_mem_cons.mp h
          refine .rle hhead hskip ?_ (ih (by omega) h)
          exact (within_rle_iff (max_sub_lt hok.1 hskip)
            (Nat.lt_of_le_of_lt (Nat.sub_le _ _) hok.2) first_le).mp hw
      | plain o n =>
        have hdrop : (f'.drop n).length < fuel := by
          rw [List.length_drop]
          omega
        by_cases hskip : Skipped protectedSize o n
        · rw [ipsLoop_next (ipsTurn_plain_skipped hhead hskip)] at h
          exact .plainSkipped hhead hskip (ih hdrop h)
        · have hlt := lt_size_of_not_skipped hok.1 hok.2.1 hok.2.2 hskip
          obtain ⟨w, ws, hwrites, hw, hnext, -, -⟩ :=
            ipsLoop_plain fuel hhead hoffset hskip rfl rfl rfl
          rw [hwrites] at h
          obtain ⟨hwithin, h⟩ := List.forall_mem_cons.mp h
          have hfits := hw.mp hwithin
          by_cases hcut : f'.length < n
          · refine .cut hhead hskip hcut ?_
            rw [← Nat.sub_eq_zero_iff_le]
            exact hfits.imp_right And.right
          · have hinside := hfits.resolve_right fun h => by omega
            by_cases hend : max o protectedSize - offset = mappedSize
            · refine .atEnd hhead hskip hend ?_
              rw [hend] at hinside
              unfold Inside at hinside
              omega
            · rw [hnext hinside hend (by omega)] at h
              exact .plain hhead hskip hinside (by omega) (ih hdrop h)

lemma forall_within_iff (hoffset : offset ≤ protectedSize) (hfuel : f.length < fuel) :
    (∀ w ∈ (ipsLoop mappedSize protectedSize offset isIps32 fuel f).writes,
        w.Within (protectedSize - offset) mappedSize) ↔
      IpsFits mappedSize protectedSize offset isIps32 f :=
  ⟨IpsFits.of_within hoffset hfuel, fun h => h.within hoffset⟩

end Bounds

/-- Every write of `ApplyIpsPatch` is between the protected bytes and the end of the module if and only if
the file fits, and so is every write of the bootloader's `apply_ips_patch`. -/
theorem ips_writes_within_iff (isIps32 : Bool) (f : List UInt8) :
    (∀ mappedSize protectedSize offset : Nat, offset ≤ protectedSize →
      ((∀ w ∈ (applyIpsPatch mappedSize protectedSize offset isIps32 f).writes,
          w.Within (protectedSize - offset) mappedSize) ↔
        IpsFits mappedSize protectedSize offset isIps32 f)) ∧
      ∀ memSize protSize : Nat, (∀ w ∈ Fusee.applyIpsPatch memSize protSize isIps32 f, w.Within protSize memSize) ↔
          IpsFits memSize protSize 0 isIps32 f := by
  constructor
  · intro mappedSize protectedSize offset hoffset
    rw [applyIpsPatch, if_neg (Nat.not_lt.mpr hoffset)]
    exact forall_within_iff hoffset (Nat.lt_succ_self _)
  · intro memSize protSize
    have h := @forall_within_iff isIps32 f memSize protSize 0 (f.length + 1) (Nat.zero_le _)
      (Nat.lt_succ_self _)
    rw [Nat.sub_zero] at h
    exact h

/-- A module of 0x1000 bytes, a run at 0x20 that the file ends after, and a header of 0x10 bytes. -/
theorem ips_writes_within_iff_run :
    0x10 ≤ 0x10 ∧ ∀ w ∈ (applyIpsPatch 0x1000 0x10 0x10 false [0, 0, 0x20, 0, 0, 0, 4, 0xAA]).writes,
      w.Within 0 0x1000 := by
  refine ⟨Nat.le_refl _, ((ips_writes_within_iff false _).1 0x1000 0x10 0x10 (Nat.le_refl _)).mpr ?_⟩
  have hhead : readHead false [0, 0, 0x20, 0, 0, 0, 4, 0xAA] = some (.rle 0x20 4 0xAA, []) := by
    decide +kernel
  refine .rle hhead (fun h => absurd h.1 (by decide)) (.inl (by decide)) (.short rfl)

/-- A run at 0x2000 of a module of 0x1000 bytes. Both engines take the size that is left to be `2 ^ 32` less
0x1000, and write there. -/
theorem ips_writes_past_end :
    let f : List UInt8 := [0x00, 0x20, 0x00, 0, 0, 0, 1, 0xAA, 0x45, 0x4F, 0x46]
    let w : Write := .fill 0x2000 0xFFFFF000 0xAA
    (applyIpsPatch 0x1000 0x100 0 false f).writes = [w] ∧ Fusee.applyIpsPatch 0x1000 0x100 false f = [w] ∧
      ¬w.Within 0x100 0x1000 := by
  decide +kernel

end RajNX.Patcher
