import RajNX.FsMitm.SectoredStorage

/-!
# The BOOT0 write filter

`Boot0Storage` of `fsmitm_boot0storage.cpp`: writes to the BOOT0 partition are kept away from the
keyblobs, and for most titles from the public keys of the boot configuration tables, whichever way the
range of the write lies across them.
-/

namespace RajNX.FsMitm

open Interruptible Splice

/-- `BctEndOffset` -/
def bctEndOffset : Nat := 0xFC000

/-- `BctSize` -/
def bctSize : Nat := 0x4000

/-- `BctPubkStart` -/
def bctPubkStart : Nat := 0x210

/-- `BctPubkEnd`, that is `BctPubkStart + BctPubkSize` -/
def bctPubkEnd : Nat := bctPubkStart + 0x100

/-- `EksStart` -/
def eksStart : Nat := 0x180000

/-- `EksEnd`, that is `EksStart + EksSize` -/
def eksEnd : Nat := eksStart + 0x4000

/-- `TitleId::Ns` -/
def titleIdNs : UInt64 := 0x010000000000001F

/-- `Boot0Storage::CanModifyBctPubks`, given whether the console's boot ROM is patched. -/
def canModifyBctPubks (isRcmBugPatched : Bool) (titleId : UInt64) : Bool :=
  if isRcmBugPatched then titleId == titleIdNs else titleId != titleIdNs

/-- A sum of `u64` values. -/
def add64 (a b : Nat) : Nat := (a + b) % 2 ^ 64

/-- The loop of `Boot0Storage::Write` that updates the buffer of the tables, from `curOfs` on. -/
def updateBct (buffer : List UInt8) (offset size : Nat) : Nat → Nat → List UInt8 → List UInt8
  | 0, _, bct => bct
  | fuel + 1, curOfs, bct =>
    if curOfs < bctEndOffset ∧ curOfs < add64 offset size then
      let rel := curOfs % bctSize
      let bct :=
        if rel < bctPubkStart ∨ bctPubkEnd ≤ rel then bct.set curOfs (buffer.getD (curOfs - offset) 0)
        else bct
      updateBct buffer offset size fuel (curOfs + 1) bct
    else bct

section Write

variable (baseWrite : List UInt8 → Nat → StorageProc Unit) (unit : Nat) (canModify : Bool)

/-- The end of `Boot0Storage::Write`: the tables are read, updated and written back. -/
def boot0WriteBct (buffer : List UInt8) (offset size : Nat) : StorageProc Unit := do
  let bct ← proxyRead unit bctEndOffset 0
  proxyWrite unit (updateBct buffer offset size (bctEndOffset + 1) offset bct) 0

/-- `Boot0Storage::Write` after the keyblobs were left out: the public keys are protected. -/
def boot0WritePubks (buffer : List UInt8) (offset : Nat) : StorageProc Unit :=
  if buffer.length = 0 then pure ()
  else if canModify ∨ bctEndOffset ≤ offset ∨
      (bctEndOffset ≤ add64 offset bctSize ∧ bctPubkEnd ≤ offset % bctSize) then
    baseWrite buffer offset
  else if bctEndOffset ≤ add64 offset buffer.length then do
    proxyWrite unit (buffer.drop (bctEndOffset - offset)) bctEndOffset
    boot0WriteBct unit buffer offset (bctEndOffset - offset)
  else boot0WriteBct unit buffer offset buffer.length

/-- `Boot0Storage::Write`, over the `Write` of the class it extends. -/
def boot0Write (buffer : List UInt8) (offset : Nat) : StorageProc Unit :=
  if offset ≤ eksStart then
    if add64 offset buffer.length < eksStart then boot0WritePubks baseWrite unit canModify buffer offset
    else if add64 offset buffer.length < eksEnd then
      boot0WritePubks baseWrite unit canModify (buffer.take (eksStart - offset)) offset
    else do
      baseWrite (buffer.drop (eksEnd - offset)) eksEnd
      boot0WritePubks baseWrite unit canModify (buffer.take (eksStart - offset)) offset
  else if offset < eksEnd then
    if add64 offset buffer.length < eksEnd then pure ()
    else boot0WritePubks baseWrite unit canModify (buffer.drop (eksEnd - offset)) eksEnd
  else boot0WritePubks baseWrite unit canModify buffer offset

end Write

/-! ## What is protected -/

/-- A byte of the public key of a boot configuration table. -/
def IsPubk (k : Nat) : Prop :=
  k < bctEndOffset ∧ bctPubkStart ≤ k % bctSize ∧ k % bctSize < bctPubkEnd

/-- A byte of the keyblobs. -/
def IsKeyblob (k : Nat) : Prop := eksStart ≤ k ∧ k < eksEnd

instance (k : Nat) : Decidable (IsPubk k) := inferInstanceAs (Decidable (_ ∧ _ ∧ _))

instance (k : Nat) : Decidable (IsKeyblob k) := inferInstanceAs (Decidable (_ ∧ _))

/-- The bytes of a range outside of a protected set were replaced, and no others. -/
structure Filtered (guarded : Nat → Prop) (buffer : List UInt8) (offset : Nat) (s t : List UInt8) :
    Prop where
  length : t.length = s.length
  written : ∀ k, offset ≤ k → k < offset + buffer.length → ¬guarded k → t[k]? = buffer[k - offset]?
  kept : ∀ k, k < offset ∨ offset + buffer.length ≤ k ∨ guarded k → t[k]? = s[k]?

lemma filtered_splice {guarded : Nat → Prop} {buffer s : List UInt8} {offset : Nat}
    (hrange : offset + buffer.length ≤ s.length) (hfree : ∀ k, offset ≤ k → k < offset + buffer.length → ¬guarded k) :
    Filtered guarded buffer offset s (splice s offset buffer) where
  length := length_splice hrange
  written := fun _ hk hk' _ => getElem?_splice_of_mem hrange hk hk'
  kept := by
    intro k hk
    refine getElem?_splice_of_notMem hrange ?_
    by_contra hin
    rcases hk with hk | hk | hk
    · omega
    · omega
    · exact hfree k (by omega) (by omega) hk

lemma filtered_nil {guarded : Nat → Prop} {buffer : List UInt8} (s : List UInt8) (offset : Nat)
    (h : buffer.length = 0) : Filtered guarded buffer offset s s where
  length := rfl
  written := by omega
  kept := fun _ _ => rfl

/-- The loop replaces the bytes of the tables from `curOfs` on that are no public keys. -/
lemma updateBct_spec (buffer : List UInt8) {offset size : Nat} (hwrap : offset + size < 2 ^ 64) {fuel curOfs : Nat}
    (hfuel : bctEndOffset ≤ curOfs + fuel) {bct : List UInt8} (hbct : bct.length = bctEndOffset) :
    (updateBct buffer offset size fuel curOfs bct).length = bctEndOffset ∧
      ∀ k, (updateBct buffer offset size fuel curOfs bct)[k]? =
        if curOfs ≤ k ∧ k < bctEndOffset ∧ k < offset + size ∧ ¬IsPubk k then
          some (buffer.getD (k - offset) 0)
        else bct[k]? := by
  induction fuel generalizing curOfs bct with
  | zero =>
    refine ⟨hbct, fun k => ?_⟩
    rw [updateBct, if_neg (by omega)]
  | succ fuel ih =>
    rw [updateBct, add64, Nat.mod_eq_of_lt hwrap]
    by_cases hcond : curOfs < bctEndOffset ∧ curOfs < offset + size
    · rw [if_pos hcond]
      dsimp only
      have hfuel' : bctEndOffset ≤ curOfs + 1 + fuel := by omega
      have hset : (bct.set curOfs (buffer.getD (curOfs - offset) 0)).length = bctEndOffset := by
        rw [List.length_set, hbct]
      by_cases hpubk : IsPubk curOfs
      · rw [if_neg (by unfold IsPubk at hpubk; omega)]
        obtain ⟨hlen, hget⟩ := ih hfuel' hbct
        refine ⟨hlen, fun k => ?_⟩
        rw [hget]
        by_cases hk : k = curOfs
        · subst hk
          rw [if_neg (by omega), if_neg (by tauto)]
        · congr 1
          rw [eq_iff_iff]
          constructor <;> rintro ⟨h1, h2⟩ <;> exact ⟨by omega, h2⟩
      · rw [if_pos (by unfold IsPubk at hpubk; omega)]
        obtain ⟨hlen, hget⟩ := ih hfuel' hset
        refine ⟨hlen, fun k => ?_⟩
        rw [hget]
        by_cases hk : k = curOfs
        · subst hk
          rw [if_neg (by omega), if_pos ⟨le_rfl, hcond.1, hcond.2, hpubk⟩, List.getElem?_set_self (by omega)]
        · rw [List.getElem?_set_ne (Ne.symm hk)]
          congr 1
          rw [eq_iff_iff]
          constructor <;> rintro ⟨h1, h2⟩ <;> exact ⟨by omega, h2⟩
    · rw [if_neg hcond]
      refine ⟨hbct, fun k => ?_⟩
      rw [if_neg (by omega)]

section Filter

variable {unit : Nat} {canModify : Bool} {buffer : List UInt8} {offset : Nat} {s : List UInt8}

/-- Updating the tables replaces the bytes of the range that are no public keys. -/
lemma sat_boot0WriteBct {size : Nat} (hsize : size ≤ buffer.length) (hend : offset + size ≤ bctEndOffset) :
    (boot0WriteBct unit buffer offset size).Sat Proc.noFault s (fun _ => True) fun r t =>
      r = .ok () → Filtered IsPubk (buffer.take size) offset s t := by
  have hwrap : offset + size < 2 ^ 64 := by
    unfold bctEndOffset at hend
    omega
  refine Proc.sat_bind (sat_proxyRead trivial ?_ ?_)
  · intro e
    refine ⟨nofun, ?_⟩
    rintro e' ⟨⟩
    nofun
  intro hread
  rw [Nat.zero_add] at hread
  refine ⟨?_, nofun⟩
  rintro bct ⟨⟩
  have hslice : (slice s 0 bctEndOffset).length = bctEndOffset := length_slice (by omega)
  have hfuel : bctEndOffset ≤ offset + (bctEndOffset + 1) := by omega
  obtain ⟨hlen, hget⟩ := updateBct_spec buffer hwrap hfuel hslice
  refine sat_proxyWrite trivial (fun _ => nofun) ?_
  intro hrange
  refine ⟨trivial, fun _ => ⟨length_splice hrange, ?_, ?_⟩⟩
  · intro k hk hk' hfree
    rw [List.length_take, Nat.min_eq_left hsize] at hk'
    rw [getElem?_splice_of_mem hrange (Nat.zero_le k) (by omega), Nat.sub_zero, hget,
      if_pos ⟨hk, by omega, hk', hfree⟩, List.getElem?_take, if_pos (by omega), List.getD,
      List.getElem?_eq_getElem (by omega), Option.getD_some]
  · intro k hk
    rw [List.length_take, Nat.min_eq_left hsize] at hk
    rcases Nat.lt_or_ge k bctEndOffset with hlt | hge
    · rw [getElem?_splice_of_mem hrange (Nat.zero_le k) (by omega), Nat.sub_zero, hget, if_neg,
        getElem?_slice, if_pos hlt, Nat.zero_add]
      rintro ⟨h1, -, h2, hfree⟩
      rcases hk with hk | hk | hk
      · omega
      · omega
      · exact hfree hk
    · exact getElem?_splice_of_notMem hrange (.inr (by omega))

/-- The public keys that a title must not modify. -/
def GuardedPubk (canModify : Bool) (k : Nat) : Prop := ¬canModify ∧ IsPubk k

/-- In the last table, behind its public key, no write reaches a public key. -/
lemma not_isPubk_of_last {k : Nat} (hend : bctEndOffset ≤ offset + bctSize)
    (hrel : bctPubkEnd ≤ offset % bctSize) (hk : offset ≤ k) : ¬IsPubk k := by
  rintro ⟨hlt, -, hin⟩
  have hend' : 0xFC000 ≤ offset + 0x4000 := hend
  have hrel' : 0x310 ≤ offset % 0x4000 := hrel
  have hlt' : k < 0xFC000 := hlt
  have hin' : k % 0x4000 < 0x310 := hin
  omega

/-- A write across the end of the tables, in its two parts. -/
lemma filtered_past {t : List UInt8} (hpast : bctEndOffset ≤ offset + buffer.length)
    (hstart : offset < bctEndOffset)
    (hrange : bctEndOffset + (buffer.drop (bctEndOffset - offset)).length ≤ s.length)
    (h : Filtered IsPubk (buffer.take (bctEndOffset - offset)) offset
      (splice s bctEndOffset (buffer.drop (bctEndOffset - offset))) t) :
    Filtered IsPubk buffer offset s t := by
  have hlen : (buffer.drop (bctEndOffset - offset)).length = offset + buffer.length - bctEndOffset := by
    rw [List.length_drop]
    omega
  have hlen' : (buffer.take (bctEndOffset - offset)).length = bctEndOffset - offset := by
    rw [List.length_take]
    omega
  have hbelow : ∀ k, k < bctEndOffset ∨ offset + buffer.length ≤ k →
      (splice s bctEndOffset (buffer.drop (bctEndOffset - offset)))[k]? = s[k]? :=
    fun k hk => getElem?_splice_of_notMem hrange (by omega)
  refine ⟨h.length.trans (length_splice hrange), ?_, ?_⟩
  · intro k hk hk' hfree
    rcases Nat.lt_or_ge k bctEndOffset with hlt | hge
    · rw [h.written k hk (by omega) hfree, List.getElem?_take, if_pos (by omega)]
    · rw [h.kept k (.inr (.inl (by omega))), getElem?_splice_of_mem hrange hge (by omega),
        List.getElem?_drop, show bctEndOffset - offset + (k - bctEndOffset) = k - offset by omega]
  · intro k hk
    rcases hk with hk | hk | hk
    · rw [h.kept k (.inl hk), hbelow k (.inl (by omega))]
    · rw [h.kept k (.inr (.inl (by omega))), hbelow k (.inr hk)]
    · rw [h.kept k (.inr (.inr hk)), hbelow k (.inl hk.1)]

/-- Writing with the public keys protected. -/
lemma sat_boot0WritePubks (hwrap : offset + buffer.length < 2 ^ 64) :
    (boot0WritePubks (proxyWrite unit) unit canModify buffer offset).Sat Proc.noFault s
      (fun _ => True) fun r t =>
        r = .ok () → Filtered (GuardedPubk canModify) buffer offset s t := by
  have hmono : ∀ {buffer' : List UInt8} {t : List UInt8}, ¬canModify →
      Filtered IsPubk buffer' offset s t → Filtered (GuardedPubk canModify) buffer' offset s t := by
    intro buffer' t hcan h
    refine ⟨h.length, fun k hk hk' hfree => h.written k hk hk' fun hp => hfree ⟨hcan, hp⟩, ?_⟩
    exact fun k hk => h.kept k (hk.imp_right (Or.imp_right And.right))
  unfold boot0WritePubks
  split
  next hzero => exact Proc.sat_pure fun _ => filtered_nil s offset hzero
  next hne =>
    split
    next hbase =>
      refine sat_proxyWrite trivial (fun _ => nofun) ?_
      intro hrange
      refine ⟨trivial, fun _ => filtered_splice hrange ?_⟩
      rintro k hk - ⟨hcan, hpubk⟩
      rcases hbase with hcan' | hend | ⟨hend, hrel⟩
      · exact hcan hcan'
      · exact absurd hpubk.1 (by omega)
      · refine not_isPubk_of_last ?_ hrel hk hpubk
        exact hend.trans (Nat.mod_le _ _)
    next hguard =>
      rw [not_or, not_or] at hguard
      obtain ⟨hcan, hstart, -⟩ := hguard
      rw [add64, Nat.mod_eq_of_lt hwrap]
      split
      next hpast =>
        -- first what is past the tables, then the tables
        refine Proc.sat_bind (sat_proxyWrite trivial ?_ ?_)
        · intro e
          refine ⟨nofun, ?_⟩
          rintro e' ⟨⟩
          nofun
        intro hrange
        refine ⟨trivial, ?_, nofun⟩
        rintro ⟨⟩ -
        refine (sat_boot0WriteBct (by omega) (by omega)).mono (fun _ h => h) ?_
        intro r t h hr
        exact hmono hcan (filtered_past hpast (by omega) hrange (h hr))
      next hinside =>
        refine (sat_boot0WriteBct le_rfl (by omega)).mono (fun _ h => h) ?_
        intro r t h hr
        rw [List.take_length] at h
        exact hmono hcan (h hr)

/-- The bytes that a write leaves alone. -/
def Guarded (canModify : Bool) (k : Nat) : Prop := IsKeyblob k ∨ GuardedPubk canModify k

/-- A write that does not reach the keyblobs. -/
lemma Filtered.keyblob {t : List UInt8} (h : Filtered (GuardedPubk canModify) buffer offset s t)
    (hfree : ∀ k, offset ≤ k → k < offset + buffer.length → ¬IsKeyblob k) :
    Filtered (Guarded canModify) buffer offset s t := by
  refine ⟨h.length, fun k hk hk' hnot => h.written k hk hk' fun hp => hnot (.inr hp), ?_⟩
  intro k hk
  rcases hk with hk | hk | hk | hk
  · exact h.kept k (.inl hk)
  · exact h.kept k (.inr (.inl hk))
  · refine h.kept k ?_
    by_contra hin
    rw [not_or, not_or] at hin
    exact hfree k (by omega) (by omega) hk
  · exact h.kept k (.inr (.inr hk))

/-- A write whose end reaches into the keyblobs is cut before them. -/
lemma Filtered.cut {t : List UInt8} (hstart : offset ≤ eksStart)
    (hreach : eksStart ≤ offset + buffer.length) (hend : offset + buffer.length ≤ eksEnd)
    (h : Filtered (GuardedPubk canModify) (buffer.take (eksStart - offset)) offset s t) :
    Filtered (Guarded canModify) buffer offset s t := by
  have hlen : (buffer.take (eksStart - offset)).length = eksStart - offset := by
    rw [List.length_take]
    omega
  refine ⟨h.length, ?_, ?_⟩
  · intro k hk hk' hnot
    have hlt : k < eksStart := by
      by_contra hge
      exact hnot (.inl ⟨by omega, by omega⟩)
    rw [h.written k hk (by omega) fun hp => hnot (.inr hp), List.getElem?_take, if_pos (by omega)]
  · intro k hk
    rcases hk with hk | hk | hk | hk
    · exact h.kept k (.inl hk)
    · exact h.kept k (.inr (.inl (by omega)))
    · exact h.kept k (.inr (.inl (by have := hk.1; omega)))
    · exact h.kept k (.inr (.inr hk))

/-- A write across the keyblobs, in its two parts. -/
lemma Filtered.around {t : List UInt8} (hstart : offset ≤ eksStart)
    (hend : eksEnd ≤ offset + buffer.length)
    (hrange : eksEnd + (buffer.drop (eksEnd - offset)).length ≤ s.length)
    (h : Filtered (GuardedPubk canModify) (buffer.take (eksStart - offset)) offset
      (splice s eksEnd (buffer.drop (eksEnd - offset))) t) :
    Filtered (Guarded canModify) buffer offset s t := by
  have heks : eksStart < eksEnd := by decide
  have hbct : bctEndOffset < eksStart := by decide
  have hlen : (buffer.take (eksStart - offset)).length = eksStart - offset := by
    rw [List.length_take]
    omega
  have hlen' : (buffer.drop (eksEnd - offset)).length = offset + buffer.length - eksEnd := by
    rw [List.length_drop]
    omega
  have hbelow : ∀ k, k < eksEnd ∨ offset + buffer.length ≤ k →
      (splice s eksEnd (buffer.drop (eksEnd - offset)))[k]? = s[k]? :=
    fun k hk => getElem?_splice_of_notMem hrange (by omega)
  refine ⟨h.length.trans (length_splice hrange), ?_, ?_⟩
  · intro k hk hk' hnot
    rcases Nat.lt_or_ge k eksStart with hlt | hge
    · rw [h.written k hk (by omega) fun hp => hnot (.inr hp), List.getElem?_take, if_pos (by omega)]
    · have hpast : eksEnd ≤ k := by
        by_contra hlt
        exact hnot (.inl ⟨hge, by omega⟩)
      rw [h.kept k (.inr (.inl (by omega))), getElem?_splice_of_mem hrange hpast (by omega),
        List.getElem?_drop, show eksEnd - offset + (k - eksEnd) = k - offset by omega]
  · intro k hk
    rcases hk with hk | hk | hk | hk
    · rw [h.kept k (.inl hk), hbelow k (.inl (by omega))]
    · rw [h.kept k (.inr (.inl (by omega))), hbelow k (.inr hk)]
    · have hk' := hk.1
      rw [h.kept k (.inr (.inl (by omega))), hbelow k (.inl hk.2)]
    · have hk' := hk.2.1
      rw [h.kept k (.inr (.inr hk)), hbelow k (.inl (by omega))]

/-- A write that begins in the keyblobs starts behind them. -/
lemma Filtered.behind {t : List UInt8} (hstart : eksStart < offset) (hinside : offset < eksEnd)
    (hend : eksEnd ≤ offset + buffer.length)
    (h : Filtered (GuardedPubk canModify) (buffer.drop (eksEnd - offset)) eksEnd s t) :
    Filtered (Guarded canModify) buffer offset s t := by
  have hlen : (buffer.drop (eksEnd - offset)).length = offset + buffer.length - eksEnd := by
    rw [List.length_drop]
    omega
  refine ⟨h.length, ?_, ?_⟩
  · intro k hk hk' hnot
    have hpast : eksEnd ≤ k := by
      by_contra hlt
      exact hnot (.inl ⟨by omega, by omega⟩)
    rw [h.written k hpast (by omega) fun hp => hnot (.inr hp), List.getElem?_drop,
      show eksEnd - offset + (k - eksEnd) = k - offset by omega]
  · intro k hk
    rcases hk with hk | hk | hk | hk
    · exact h.kept k (.inl (by omega))
    · exact h.kept k (.inr (.inl (by omega)))
    · exact h.kept k (.inl hk.2)
    · exact h.kept k (.inr (.inr hk))

/-- `Boot0Storage::Write` over a storage whose writes are plain. -/
lemma sat_boot0Write (hwrap : offset + buffer.length < 2 ^ 64) :
    (boot0Write (proxyWrite unit) unit canModify buffer offset).Sat Proc.noFault s (fun _ => True)
      fun r t => r = .ok () → Filtered (Guarded canModify) buffer offset s t := by
  have htake : offset + (buffer.take (eksStart - offset)).length < 2 ^ 64 := by
    rw [List.length_take]
    omega
  unfold boot0Write
  rw [add64, Nat.mod_eq_of_lt hwrap]
  split
  next hstart =>
    split
    next hbefore =>
      refine (sat_boot0WritePubks hwrap).mono (fun _ h => h) ?_
      intro r t h hr
      refine (h hr).keyblob ?_
      rintro k - hk ⟨hge, -⟩
      omega
    next hreach =>
      split
      next hin =>
        refine (sat_boot0WritePubks htake).mono (fun _ h => h) ?_
        exact fun r t h hr => (h hr).cut hstart (by omega) hin.le
      next hout =>
        refine Proc.sat_bind (sat_proxyWrite trivial ?_ ?_)
        · intro e
          refine ⟨nofun, ?_⟩
          rintro e' ⟨⟩
          nofun
        intro hrange
        refine ⟨trivial, ?_, nofun⟩
        rintro ⟨⟩ -
        refine (sat_boot0WritePubks htake).mono (fun _ h => h) ?_
        exact fun r t h hr => (h hr).around hstart (by omega) hrange
  next hstart =>
    split
    next hinside =>
      split
      next hin =>
        refine Proc.sat_pure fun _ => ⟨rfl, ?_, fun _ _ => rfl⟩
        intro k hk hk' hnot
        exact (hnot (.inl ⟨by omega, by omega⟩)).elim
      next hout =>
        have hdrop : eksEnd + (buffer.drop (eksEnd - offset)).length < 2 ^ 64 := by
          rw [List.length_drop]
          omega
        refine (sat_boot0WritePubks hdrop).mono (fun _ h => h) ?_
        exact fun r t h hr => (h hr).behind (by omega) hinside (by omega)
    next hbehind =>
      refine (sat_boot0WritePubks hwrap).mono (fun _ h => h) ?_
      intro r t h hr
      refine (h hr).keyblob ?_
      rintro k hk - ⟨-, hlt⟩
      omega

/-- After a `Boot0Storage::Write` that returned, the keyblobs are unchanged, and so are the public keys
unless the title may modify them; every other byte of the range is the buffer's, and every byte outside
of it is unchanged. -/
theorem boot0Write_filters {isRcmBugPatched : Bool} {titleId : UInt64}
    (hwrap : offset + buffer.length < 2 ^ 64)
    (hok : ((boot0Write (proxyWrite unit) unit (canModifyBctPubks isRcmBugPatched titleId) buffer
      offset).run s).result = .ok ()) :
    let canModify := canModifyBctPubks isRcmBugPatched titleId
    let t := ((boot0Write (proxyWrite unit) unit canModify buffer offset).run s).final
    t.length = s.length ∧ (∀ k, IsKeyblob k → t[k]? = s[k]?) ∧
      (∀ k, IsPubk k → canModify = false → t[k]? = s[k]?) ∧
      (∀ k, offset ≤ k → k < offset + buffer.length → ¬IsKeyblob k →
        ¬(IsPubk k ∧ canModify = false) → t[k]? = buffer[k - offset]?) ∧
      ∀ k, k < offset ∨ offset + buffer.length ≤ k → t[k]? = s[k]? := by
  intro canModify t
  have h : Filtered (Guarded canModify) buffer offset s t := (sat_boot0Write hwrap).run.2 hok
  refine ⟨h.length, fun k hk => h.kept k (.inr (.inr (.inl hk))), ?_, ?_, ?_⟩
  · intro k hk hcan
    exact h.kept k (.inr (.inr (.inr ⟨by simp [hcan], hk⟩)))
  · intro k hk hk' hkeyblob hpubk
    refine h.written k hk hk' ?_
    rintro (hin | ⟨hcan, hin⟩)
    · exact hkeyblob hin
    · exact hpubk ⟨hin, by simpa using hcan⟩
  · exact fun k hk => h.kept k (hk.imp_right .inl)

/-! ## When a write returns -/

lemma sat_boot0WriteBct_returns {size : Nat} (hend : offset + size ≤ bctEndOffset) (hbct : bctEndOffset ≤ s.length) :
    (boot0WriteBct 1 buffer offset size).Sat Proc.noFault s (fun _ => True) fun r _ => r = .ok () := by
  have hwrap : offset + size < 2 ^ 64 := by
    unfold bctEndOffset at hend
    omega
  have hslice : (slice s 0 bctEndOffset).length = bctEndOffset := length_slice (by omega)
  have hfuel : bctEndOffset ≤ offset + (bctEndOffset + 1) := by omega
  refine Proc.sat_bind (sat_proxyRead_units trivial (by omega) (one_dvd _) (one_dvd _) ⟨?_, nofun⟩)
  rintro bct ⟨⟩
  have hlen := (updateBct_spec buffer hwrap hfuel hslice).1
  exact sat_proxyWrite_units (by omega) (one_dvd _) (one_dvd _) trivial rfl

lemma sat_boot0WritePubks_returns (hwrap : offset + buffer.length < 2 ^ 64)
    (hrange : offset + buffer.length ≤ s.length) (hbct : bctEndOffset ≤ s.length) :
    (boot0WritePubks (proxyWrite 1) 1 canModify buffer offset).Sat Proc.noFault s (fun _ => True)
      fun r _ => r = .ok () := by
  unfold boot0WritePubks
  split
  next => exact Proc.sat_pure rfl
  next =>
    split
    next => exact sat_proxyWrite_units hrange (one_dvd _) (one_dvd _) trivial rfl
    next hguard =>
      rw [not_or, not_or] at hguard
      rw [add64, Nat.mod_eq_of_lt hwrap]
      split
      next hpast =>
        have hlen : bctEndOffset + (buffer.drop (bctEndOffset - offset)).length ≤ s.length := by
          rw [List.length_drop]
          omega
        refine Proc.sat_bind (sat_proxyWrite_units hlen (one_dvd _) (one_dvd _) trivial ⟨?_, nofun⟩)
        rintro ⟨⟩ -
        refine sat_boot0WriteBct_returns (by omega) ?_
        rwa [length_splice hlen]
      next hinside => exact sat_boot0WriteBct_returns (by omega) hbct

/-- A write within a partition that holds the tables returns. -/
lemma boot0Write_returns (hwrap : offset + buffer.length < 2 ^ 64)
    (hrange : offset + buffer.length ≤ s.length) (hbct : bctEndOffset ≤ s.length) :
    ((boot0Write (proxyWrite 1) 1 canModify buffer offset).run s).result = .ok () := by
  have htake : offset + (buffer.take (eksStart - offset)).length ≤ offset + buffer.length := by
    rw [List.length_take]
    omega
  suffices hsat : (boot0Write (proxyWrite 1) 1 canModify buffer offset).Sat Proc.noFault s
      (fun _ => True) fun r _ => r = .ok () from hsat.run.2
  unfold boot0Write
  rw [add64, Nat.mod_eq_of_lt hwrap]
  split
  next hstart =>
    split
    next => exact sat_boot0WritePubks_returns hwrap hrange hbct
    next =>
      split
      next => exact sat_boot0WritePubks_returns (by omega) (by omega) hbct
      next hout =>
        have hlen : eksEnd + (buffer.drop (eksEnd - offset)).length ≤ s.length := by
          rw [List.length_drop]
          omega
        refine Proc.sat_bind (sat_proxyWrite_units hlen (one_dvd _) (one_dvd _) trivial ⟨?_, nofun⟩)
        rintro ⟨⟩ -
        refine sat_boot0WritePubks_returns (by omega) ?_ ?_
        · rw [length_splice hlen]
          omega
        · rwa [length_splice hlen]
  next hstart =>
    split
    next hinside =>
      split
      next => exact Proc.sat_pure rfl
      next hout =>
        have hlen : eksEnd + (buffer.drop (eksEnd - offset)).length = offset + buffer.length := by
          rw [List.length_drop]
          omega
        exact sat_boot0WritePubks_returns (by omega) (by omega) hbct
    next => exact sat_boot0WritePubks_returns hwrap hrange hbct

/-- A system title on a console with an unpatched boot ROM writes across the beginning of the first
public key. -/
theorem boot0Write_filters_ns :
    let s : List UInt8 := List.replicate 0x400000 0
    let t := ((boot0Write (proxyWrite 1) 1 (canModifyBctPubks false titleIdNs) [1, 2, 3, 4]
      0x20E).run s).final
    t[0x20F]? = some 2 ∧ t[0x210]? = s[0x210]? := by
  intro s t
  have hlen : s.length = 0x400000 := List.length_replicate
  have hwrap : 0x20E + [1, 2, 3, (4 : UInt8)].length < 2 ^ 64 := by decide
  have hbct : bctEndOffset ≤ s.length := by
    rw [hlen]
    decide
  have hok : ((boot0Write (proxyWrite 1) 1 (canModifyBctPubks false titleIdNs) [1, 2, 3, 4]
      0x20E).run s).result = .ok () :=
    boot0Write_returns hwrap (by rw [hlen]; decide) hbct
  obtain ⟨-, -, hpubk, hwritten, -⟩ := boot0Write_filters hwrap hok
  exact ⟨hwritten 0x20F (by decide) (by decide) (by decide) (by decide), hpubk 0x210 (by decide) rfl⟩

end Filter

end RajNX.FsMitm
