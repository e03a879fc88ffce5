import RajNX.Lib.Drawn
import RajNX.Lib.Mask

/-!
# The random cache of the kernel

`randomcache.c`. The bytes from the low mark up to the high mark of a ring are random bytes for the kernel, for when
the security engine is in use. A read takes bytes at the low mark and moves it, to the begin of the ring if there
may not be room for another read. A refill replaces the bytes from behind the high mark up to the low mark.

The two marks do not tell a ring that is full from one that is empty. A read that moves the low mark to the place
behind the high mark, or over it, leaves bytes that the next refill takes for unread.
-/

namespace RajNX.Exosphere

open Splice

/-- The cache with its marks. -/
structure RandomCache where
  low : Nat
  high : Nat
  bytes : Drawn

/-- `randomcache_refill_segment` -/
def randomcacheRefillSegment (s : RandomCache) (offset size : Nat) : RandomCache :=
  let size := if 0x400 ≤ offset + size then 0x400 - offset else size
  { s with bytes := s.bytes.redraw offset size }

/-- `randomcache_init` -/
def randomcacheInit : RandomCache where
  low := 0
  high := 0x3FF
  bytes := .first 0x400

/-- `randomcache_refill` -/
def randomcacheRefill (s : RandomCache) : RandomCache :=
  let highPlusOne := (s.high + 1) &&& 0x3FF
  if s.low ≠ highPlusOne then
    if s.low < highPlusOne then
      let s :=
        if s.high ≠ 0x3FF then
          { randomcacheRefillSegment s highPlusOne (0x400 - highPlusOne) with
            high := (s.high + 0x400 - highPlusOne) &&& 0x3FF }
        else s
      if 0 < s.low then
        { randomcacheRefillSegment s 0 s.low with high := (s.high + s.low) &&& 0x3FF }
      else s
    else { randomcacheRefillSegment s highPlusOne (s.low - highPlusOne) with high := s.low - 1 }
  else s

/-- `randomcache_getbytes`, with the bytes that it copies. -/
def randomcacheGetbytes (s : RandomCache) (numBytes : Nat) : List Nat × RandomCache :=
  if numBytes = 0 then ([], s)
  else
    let newLow := s.low + numBytes
    (slice s.bytes.cells s.low numBytes,
      { s with
        low := if 0x3FF < newLow + 0x38 then 0 else newLow
        bytes := s.bytes.handOut s.low numBytes })

/-- The calls: `smc_get_random_bytes_for_priv` asks for at most 0x38 bytes, or has the cache refilled. -/
inductive CacheCall
  | getbytes (numBytes : Fin 0x39)
  | refill
deriving DecidableEq

namespace RandomCache

def step (s : RandomCache) : CacheCall → RandomCache
  | .getbytes numBytes => (randomcacheGetbytes s numBytes).2
  | .refill => randomcacheRefill s

/-- Calls one after the other. -/
def run (calls : List CacheCall) (s : RandomCache) : RandomCache := calls.foldl step s

/-- Where a refill begins. -/
def next (s : RandomCache) : Nat := (s.high + 1) &&& 0x3FF

/-- A refill replaces the byte. -/
def Replaced (s : RandomCache) (k : Nat) : Prop :=
  if s.low < s.next then k < s.low ∨ (s.next ≤ k ∧ k < 0x400) else s.next ≤ k ∧ k < s.low

/-- Where the marks can be. What is in front of the low mark has been read if the ring has been read over its end, or
from its begin on. -/
structure Marks (s : RandomCache) : Prop where
  length : s.bytes.cells.length = 0x400
  low_le : s.low ≤ 0x3C7
  next_le : s.next ≤ 0x3C7
  read : s.low < s.next ∨ s.next = 0 → ∀ k < s.low, s.bytes.Spent k

/-- Bytes that have been read and that no refill replaces any more, wherever the low mark is moved to. -/
def Spoiled (s : RandomCache) : Prop := ∀ k < (if s.next = 0 then 0x3C8 else s.next), s.bytes.Spent k

/-- A refill replaces all that has been read. -/
def Covered (s : RandomCache) : Prop := ∀ k, s.bytes.Spent k → s.Replaced k

/-- The read leaves the low mark on its side of the next byte to be refilled. -/
def StaysApart (s : RandomCache) (numBytes : Nat) : Prop :=
  numBytes = 0 ∨
    if s.low < s.next then s.low + numBytes < s.next
    else s.low + numBytes + 0x38 ≤ 0x3FF ∨ 0 < s.next

instance (s : RandomCache) (numBytes : Nat) : Decidable (s.StaysApart numBytes) := by
  unfold StaysApart
  infer_instance

section RandomCache

variable {s : RandomCache} {n k : Nat} {calls : List CacheCall}

lemma next_eq : s.next = (s.high + 1) % 0x400 := Nat.and_two_pow_sub_one_eq_mod _ 10

/-- A part inside of the ring. -/
lemma refillSegment_eq {offset size : Nat} (h : offset + size ≤ 0x400) :
    randomcacheRefillSegment s offset size = { s with bytes := s.bytes.redraw offset size } := by
  rw [randomcacheRefillSegment]
  split
  · next hend => rw [show 0x400 - offset = size by omega]
  · rfl

/-- A refill to the end of the ring, and from its begin. -/
lemma refill_of_lt (h : s.Marks) (hlt : s.low < s.next) : randomcacheRefill s = if 0 < s.low then
      { s with
        bytes := (s.bytes.redraw s.next (0x400 - s.next)).redraw 0 s.low
        high := (0x3FF + s.low) &&& 0x3FF }
    else { s with bytes := s.bytes.redraw s.next (0x400 - s.next), high := 0x3FF } := by
  have hlow := h.low_le
  have hnext := h.next_le
  have hhigh := next_eq (s := s)
  have hmid : (s.high + 0x400 - s.next) &&& 0x3FF = 0x3FF := by
    rw [Nat.and_two_pow_sub_one_eq_mod _ 10]
    omega
  have hne : s.high ≠ 0x3FF := by omega
  have hsize : 0 + s.low ≤ 0x400 := by omega
  rw [randomcacheRefill, ← RandomCache.next]
  simp only [if_pos hlt.ne, if_pos hlt, if_pos hne, hmid]
  rw [refillSegment_eq (by omega), refillSegment_eq hsize]

/-- A refill of the part between the marks. -/
lemma refill_of_gt (h : s.Marks) (hgt : s.next < s.low) : randomcacheRefill s =
    { s with bytes := s.bytes.redraw s.next (s.low - s.next), high := s.low - 1 } := by
  have hlow := h.low_le
  rw [randomcacheRefill, ← RandomCache.next]
  simp only [if_pos hgt.ne', if_neg hgt.not_gt]
  rw [refillSegment_eq (by omega)]

/-- What a refill does. -/
lemma refill_spec (h : s.Marks) :
    (randomcacheRefill s).bytes.cells.length = 0x400 ∧ (randomcacheRefill s).low = s.low ∧
      (randomcacheRefill s).next = s.low ∧
      ∀ k, (randomcacheRefill s).bytes.Spent k ↔ s.bytes.Spent k ∧ ¬s.Replaced k := by
  have hlow := h.low_le
  have hnext := h.next_le
  rcases Nat.lt_trichotomy s.low s.next with hlt | heq | hgt
  · have hfirst : s.next + (0x400 - s.next) ≤ s.bytes.cells.length := by rw [h.length]; omega
    have hreplaced : ∀ k, s.Replaced k ↔ k < s.low ∨ (s.next ≤ k ∧ k < 0x400) := fun k => by
      rw [Replaced, if_pos hlt]
    rw [refill_of_lt h hlt]
    split
    · next hpos =>
      have hsecond : 0 + s.low ≤ (s.bytes.redraw s.next (0x400 - s.next)).cells.length := by
        rw [Drawn.length_cells_redraw hfirst, h.length]
        omega
      refine ⟨?_, rfl, ?_, fun k => ?_⟩
      · rw [Drawn.length_cells_redraw hsecond, Drawn.length_cells_redraw hfirst, h.length]
      · rw [next_eq, Nat.and_two_pow_sub_one_eq_mod _ 10]
        dsimp only
        omega
      · rw [Drawn.spent_redraw hsecond, Drawn.spent_redraw hfirst, hreplaced, and_assoc]
        refine and_congr_right fun _ => ?_
        omega
    · next hzero =>
      refine ⟨?_, rfl, ?_, fun k => ?_⟩
      · rw [Drawn.length_cells_redraw hfirst, h.length]
      · rw [next_eq]
        dsimp only
        omega
      · rw [Drawn.spent_redraw hfirst, hreplaced]
        refine and_congr_right fun _ => ?_
        omega
  · -- nothing
    have hrest : randomcacheRefill s = s := by
      rw [randomcacheRefill, ← RandomCache.next]
      exact if_neg (not_not_intro heq)
    rw [hrest]
    refine ⟨h.length, rfl, heq.symm, fun k => ?_⟩
    rw [Replaced, if_neg heq.not_lt]
    exact (and_iff_left fun hk => by omega).symm
  · have hpart : s.next + (s.low - s.next) ≤ s.bytes.cells.length := by rw [h.length]; omega
    rw [refill_of_gt h hgt]
    refine ⟨?_, rfl, ?_, fun k => ?_⟩
    · rw [Drawn.length_cells_redraw hpart, h.length]
    · rw [next_eq]
      dsimp only
      omega
    · rw [Drawn.spent_redraw hpart, Replaced, if_neg hgt.not_gt]
      refine and_congr_right fun _ => ?_
      omega

/-- What a read of bytes does. -/
lemma getbytes_spec (h : s.Marks) (hpos : 0 < n) (hle : n ≤ 0x38) :
    (randomcacheGetbytes s n).2.bytes.cells.length = 0x400 ∧
      (randomcacheGetbytes s n).2.low = (if 0x3FF < s.low + n + 0x38 then 0 else s.low + n) ∧
      (randomcacheGetbytes s n).2.next = s.next ∧
      ∀ k, (randomcacheGetbytes s n).2.bytes.Spent k ↔ s.bytes.Spent k ∨ (s.low ≤ k ∧ k < s.low + n) := by
  have hlow := h.low_le
  have hinside : s.low + n ≤ s.bytes.cells.length := by rw [h.length]; omega
  rw [randomcacheGetbytes, if_neg hpos.ne']
  exact ⟨h.length, rfl, rfl, fun k => Drawn.spent_handOut hinside⟩

lemma marks_init : randomcacheInit.Marks where
  length := Drawn.length_cells_first
  low_le := Nat.zero_le _
  next_le := by decide
  read := fun _ k hk => absurd hk (Nat.not_lt_zero k)

/-- A call leaves the marks where they can be. -/
lemma Marks.step (h : s.Marks) (call : CacheCall) : (s.step call).Marks := by
  have hlow := h.low_le
  cases call with
  | refill =>
    obtain ⟨hlength, hlow', hnext', -⟩ := refill_spec h
    rw [RandomCache.step]
    refine ⟨hlength, hlow'.trans_le hlow, hnext'.trans_le hlow, ?_⟩
    rw [hlow', hnext']
    rintro (hlt | hzero) k hk
    · exact absurd hlt (lt_irrefl _)
    · omega
  | getbytes numBytes =>
    obtain ⟨n, hn⟩ := numBytes
    rw [RandomCache.step]
    rcases Nat.eq_zero_or_pos n with rfl | hpos
    · exact h
    · obtain ⟨hlength, hlow', hnext', hspent⟩ := getbytes_spec h hpos (Nat.le_of_lt_succ hn)
      refine ⟨hlength, ?_, hnext'.trans_le h.next_le, ?_⟩
      · rw [hlow']
        split <;> omega
      · rw [hlow', hnext']
        intro hside k hk
        rw [hspent]
        split at hk
        · exact absurd hk (Nat.not_lt_zero k)
        · next hroom =>
          rcases Nat.lt_or_ge k s.low with hlt | hge
          · rw [if_neg hroom] at hside
            exact .inl (h.read (by omega) k hlt)
          · exact .inr ⟨hge, hk⟩

lemma Marks.run (h : s.Marks) (calls : List CacheCall) : (s.run calls).Marks := by
  induction calls generalizing s with
  | nil => exact h
  | cons call calls ih => exact ih (h.step call)

/-- After a refill the cache is fresh exactly if the refill has replaced all that had been read. -/
lemma fresh_refill_iff (h : s.Marks) : (randomcacheRefill s).bytes.Fresh ↔ s.Covered := by
  obtain ⟨-, -, -, hspent⟩ := refill_spec h
  simp only [Drawn.fresh_iff, hspent, not_and, not_not, Covered]

lemma covered_of_fresh (h : s.bytes.Fresh) : s.Covered := fun k hk => absurd hk (Drawn.fresh_iff.mp h k)

lemma Covered.getbytes (h : s.Covered) (hmarks : s.Marks) (hle : n ≤ 0x38) (hapart : s.StaysApart n) :
    (randomcacheGetbytes s n).2.Covered := by
  rcases Nat.eq_zero_or_pos n with rfl | hpos
  · exact h
  obtain ⟨-, hlow, hnext, hspent⟩ := getbytes_spec hmarks hpos hle
  have hside := hapart.resolve_left hpos.ne'
  have hlowLe := hmarks.low_le
  have hnextLe := hmarks.next_le
  intro k hk
  have hk' : s.Replaced k ∨ (s.low ≤ k ∧ k < s.low + n) := (hspent k).mp hk |>.imp_left (h k)
  simp only [Replaced, hlow, hnext] at hk' ⊢
  by_cases hlt : s.low < s.next
  · -- the read ends in front of the next byte to be refilled
    rw [if_pos hlt] at hside hk'
    rw [if_neg (show ¬0x3FF < s.low + n + 0x38 by omega), if_pos hside]
    omega
  · rw [if_neg hlt] at hside hk'
    by_cases hwrap : 0x3FF < s.low + n + 0x38
    · rw [if_pos hwrap, if_pos (by omega)]
      omega
    · rw [if_neg hwrap, if_neg (by omega)]
      omega

/-- A read that does not stay apart leaves the cache spoiled. -/
lemma spoiled_getbytes (h : s.Marks) (hle : n ≤ 0x38) (hmeets : ¬s.StaysApart n) :
    (randomcacheGetbytes s n).2.Spoiled := by
  rw [StaysApart, not_or] at hmeets
  obtain ⟨hpos, hside⟩ := hmeets
  obtain ⟨-, -, hnext, hspent⟩ := getbytes_spec h (Nat.pos_of_ne_zero hpos) hle
  intro k hk
  rw [hnext] at hk
  rw [hspent]
  by_cases hlt : s.low < s.next
  · rw [if_pos hlt] at hside
    rw [if_neg (by omega)] at hk
    rcases Nat.lt_or_ge k s.low with hfront | hge
    · exact .inl (h.read (.inl hlt) k hfront)
    · exact .inr ⟨hge, by omega⟩
  · rw [if_neg hlt] at hside
    rw [if_pos (by omega)] at hk
    rcases Nat.lt_or_ge k s.low with hfront | hge
    · exact .inl (h.read (.inr (by omega)) k hfront)
    · exact .inr ⟨hge, by omega⟩

/-- Further reads leave it so. -/
lemma Spoiled.getbytes (h : s.Spoiled) (hmarks : s.Marks) (hle : n ≤ 0x38) : (randomcacheGetbytes s n).2.Spoiled := by
  rcases Nat.eq_zero_or_pos n with rfl | hpos
  · exact h
  obtain ⟨-, -, hnext, hspent⟩ := getbytes_spec hmarks hpos hle
  intro k hk
  rw [hnext] at hk
  exact (hspent k).mpr (.inl (h k hk))

/-- The byte at the low mark is not replaced, or the one at the begin of the ring. -/
lemma Spoiled.not_covered (h : s.Spoiled) (hmarks : s.Marks) : ¬s.Covered := by
  intro hcovered
  have hlowLe := hmarks.low_le
  by_cases hzero : s.next = 0
  · have hlow : s.Replaced s.low := hcovered _ (h _ (by rw [if_pos hzero]; omega))
    rw [Replaced, if_neg (by omega)] at hlow
    omega
  by_cases hlt : s.low < s.next
  · have hlow : s.Replaced s.low := hcovered _ (h _ (by rwa [if_neg hzero]))
    rw [Replaced, if_pos hlt] at hlow
    omega
  · have hbegin : s.Replaced 0 := hcovered _ (h _ (by rw [if_neg hzero]; omega))
    rw [Replaced, if_neg hlt] at hbegin
    omega

end RandomCache

/-! ## Runs -/

/-- In a run, no byte of the cache has been handed out when a refill returns. -/
def FreshAfterRefills (calls : List CacheCall) : Prop :=
  ∀ before after, calls = before ++ .refill :: after → (randomcacheInit.run (before ++ [.refill])).bytes.Fresh

/-- In a run, each read lies inside of the cache. -/
def ReadsInside (calls : List CacheCall) : Prop :=
  ∀ before (numBytes : Fin 0x39) after, calls = before ++ .getbytes numBytes :: after →
    (randomcacheInit.run before).low + numBytes ≤ (randomcacheInit.run before).bytes.cells.length

/-- In a run, each read that a refill comes behind leaves the low mark on its side. -/
def ReadsStayApart (calls : List CacheCall) : Prop :=
  ∀ before (numBytes : Fin 0x39) after, calls = before ++ .getbytes numBytes :: after → .refill ∈ after →
    (randomcacheInit.run before).StaysApart numBytes

section Runs

variable {s : RandomCache} {calls before after : List CacheCall}

lemma run_append (first second : List CacheCall) : s.run (first ++ second) = (s.run first).run second :=
  List.foldl_append

lemma marks_run (calls : List CacheCall) : (randomcacheInit.run calls).Marks := marks_init.run calls

lemma readsInside (calls : List CacheCall) : ReadsInside calls := by
  intro before numBytes after _
  have hmarks := marks_run before
  have hlow := hmarks.low_le
  rw [hmarks.length]
  omega

/-- As long as the reads stay apart, a refill would replace all that has been read. -/
lemma covered_run (h : ∀ before (numBytes : Fin 0x39) after, calls = before ++ .getbytes numBytes :: after →
    (randomcacheInit.run before).StaysApart numBytes) : (randomcacheInit.run calls).Covered := by
  induction calls using List.reverseRecOn with
  | nil => exact covered_of_fresh (Drawn.fresh_iff.mpr fun _ => Drawn.not_spent_first)
  | append_singleton calls call ih =>
    have hcovered := ih fun before numBytes after heq =>
      h before numBytes (after ++ [call]) (by rw [heq, List.append_assoc, List.cons_append])
    rw [run_append]
    cases call with
    | refill => exact covered_of_fresh ((fresh_refill_iff (marks_run calls)).mpr hcovered)
    | getbytes numBytes =>
      exact hcovered.getbytes (marks_run calls) (Nat.le_of_lt_succ numBytes.2) (h calls numBytes [] rfl)

/-- A spoiled cache is not fresh after the next refill. -/
lemma not_fresh_of_spoiled (h : s.Spoiled) (hmarks : s.Marks) (hrefill : .refill ∈ calls) :
    ∃ before after, calls = before ++ .refill :: after ∧ ¬(s.run (before ++ [.refill])).bytes.Fresh := by
  induction calls generalizing s with
  | nil => exact absurd hrefill List.not_mem_nil
  | cons call calls ih =>
    cases call with
    | refill =>
      refine ⟨[], calls, rfl, fun hfresh => ?_⟩
      exact h.not_covered hmarks ((fresh_refill_iff hmarks).mp hfresh)
    | getbytes numBytes =>
      have hle := Nat.le_of_lt_succ numBytes.2
      have hlater := (List.mem_cons.mp hrefill).resolve_left nofun
      obtain ⟨before, after, rfl, hstale⟩ := ih (h.getbytes hmarks hle) (hmarks.step (.getbytes numBytes)) hlater
      exact ⟨.getbytes numBytes :: before, after, rfl, hstale⟩

end Runs

end RandomCache

open RandomCache

/-- In every run each read lies inside of the cache, and the cache is fresh after each refill exactly if no read in
front of a refill moves the low mark to the next byte to be refilled or over it. -/
theorem randomcache_fresh_iff (calls : List CacheCall) :
    ReadsInside calls ∧ (FreshAfterRefills calls ↔ ReadsStayApart calls) := by
  refine ⟨readsInside calls, ?_, ?_⟩
  · rintro hfresh before numBytes after rfl hrefill
    by_contra hmeets
    have hmarks := marks_run before
    have hspoiled := spoiled_getbytes hmarks (Nat.le_of_lt_succ numBytes.2) hmeets
    obtain ⟨first, rest, rfl, hstale⟩ := not_fresh_of_spoiled hspoiled (hmarks.step (.getbytes numBytes)) hrefill
    apply hstale
    have hrun := hfresh (before ++ .getbytes numBytes :: first) rest (by rw [List.append_assoc, List.cons_append])
    rw [List.append_assoc, RandomCache.run_append] at hrun
    exact hrun
  · rintro hapart before after rfl
    rw [RandomCache.run_append]
    refine (fresh_refill_iff (marks_run before)).mpr (covered_run ?_)
    rintro first numBytes rest rfl
    refine hapart first numBytes (rest ++ .refill :: after) ?_ (List.mem_append_right _ List.mem_cons_self)
    rw [List.append_assoc, List.cons_append]

/-- The kernel reads the cache to its end without a refill, and the low mark is back at the begin of the ring. -/
theorem randomcache_not_fresh : ¬∀ calls, ReadsInside calls ∧ FreshAfterRefills calls := by
  intro h
  have hmarks := marks_run (List.replicate 17 (.getbytes 0x38))
  have hmeets : ¬(randomcacheInit.run (List.replicate 17 (.getbytes 0x38))).StaysApart 0x38 := by decide
  have hspoiled := spoiled_getbytes hmarks le_rfl hmeets
  have hmarks' := hmarks.step (.getbytes 0x38)
  have hfresh := (h (List.replicate 17 (.getbytes 0x38) ++ [.getbytes 0x38] ++ [.refill])).2 _ [] rfl
  rw [RandomCache.run_append, RandomCache.run_append] at hfresh
  exact hspoiled.not_covered hmarks' ((fresh_refill_iff hmarks').mp hfresh)

end RajNX.Exosphere
