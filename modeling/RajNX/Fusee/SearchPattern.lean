import RajNX.Lib.Loop
import RajNX.Lib.Occurrence

/-!
# The search for a kernel pattern

`search_pattern` of `kernel_patches.c`. A window of the size of the pattern is moved over the memory, by what a
table says for the last byte in it. Indices and sizes are 32-bit numbers.

The last position of the window is the difference of the two sizes, which is below zero for a pattern that is
longer than the memory. It is taken as a large number, and the search reads behind the memory.
-/

namespace RajNX.Fusee

open Loop Occurrence Splice

/-- How a search ends: with a position, with `NULL`, or with a read outside of the memory. -/
inductive SearchEnd
  | found (i : Nat)
  | null
  | outside
deriving Repr, DecidableEq

/-- `table`: the loop that writes the distance of each byte from the end of the pattern. -/
def skipTable (pattern : List UInt8) : UInt8 → Nat :=
  (List.range (pattern.length - 1)).foldl
    (fun table i => Function.update table (pattern.getD i 0) (pattern.length - i - 1)) fun _ => pattern.length

/-- A turn of the loop over the windows. -/
def searchTurn (mem pattern : List UInt8) (i : Nat) : Turn Nat SearchEnd :=
  if (mem.length + 2 ^ 32 - pattern.length) % 2 ^ 32 < i then .leave .null
  else
    match mem[(i + pattern.length - 1) % 2 ^ 32]? with
    | none => .leave .outside
    | some last =>
      if pattern.getD (pattern.length - 1) 0 = last ∧
          pattern.take (pattern.length - 1) = slice mem i (pattern.length - 1) then .leave (.found i)
      else .again ((i + skipTable pattern last) % 2 ^ 32)

/-- `search_pattern`, with a number of turns -/
def searchPattern (mem pattern : List UInt8) (fuel : Nat) : Option SearchEnd :=
  loop (searchTurn mem pattern) fuel 0

/-- What the search is for: the first position of the pattern, or `NULL` if there is none. -/
def Exact (mem pattern : List UInt8) : SearchEnd → Prop
  | .found i => FirstAt pattern mem i
  | .null => ∀ i, ¬OccursAt pattern mem i
  | .outside => False

section Search

variable {mem pattern : List UInt8} {i : Nat}

/-- The table moves the window as far as it may. -/
lemma skipFor_skipTable (hne : pattern ≠ []) (c : UInt8) : SkipFor pattern c (skipTable pattern c) := by
  have hpos := List.length_pos_iff.mpr hne
  -- what holds when the first bytes have been written
  have hwritten : ∀ n ≤ pattern.length - 1, ∀ c,
      let d := (List.range n).foldl
        (fun table i => Function.update table (pattern.getD i 0) (pattern.length - i - 1))
        (fun _ => pattern.length) c
      0 < d ∧ d ≤ pattern.length ∧ ∀ k < n, pattern[k]? = some c → d + k + 1 ≤ pattern.length := by
    intro n hn
    induction n with
    | zero => exact fun c => ⟨hpos, le_rfl, fun k hk => absurd hk (Nat.not_lt_zero k)⟩
    | succ n ih =>
      intro c
      rw [List.range_succ, List.foldl_append, List.foldl_cons, List.foldl_nil]
      have hget : pattern[n]? = some (pattern.getD n 0) := by
        rw [List.getD_eq_getElem?_getD, List.getElem?_eq_getElem (by omega), Option.getD_some]
      by_cases hc : c = pattern.getD n 0
      · rw [hc, Function.update_self]
        exact ⟨by omega, by omega, fun k hk _ => by omega⟩
      · rw [Function.update_of_ne hc]
        obtain ⟨hdpos, hdle, hbound⟩ := ih (by omega) c
        refine ⟨hdpos, hdle, fun k hk hkc => ?_⟩
        rcases Nat.lt_succ_iff_lt_or_eq.mp hk with hlt | rfl
        · exact hbound k hlt hkc
        · exact absurd (Option.some.inj (hkc.symm.trans hget)) hc
  obtain ⟨hdpos, hdle, hbound⟩ := hwritten _ le_rfl c
  exact ⟨hdpos, hdle, fun k hk => hbound k (by omega)⟩

/-- The comparison of the last byte and of those in front of it is that of the window. -/
lemma occursAt_iff (hne : pattern ≠ []) (hfits : i + pattern.length ≤ mem.length) {last : UInt8}
    (hlast : mem[i + pattern.length - 1]? = some last) :
    (pattern.getD (pattern.length - 1) 0 = last ∧
        pattern.take (pattern.length - 1) = slice mem i (pattern.length - 1)) ↔ OccursAt pattern mem i := by
  have hpos := List.length_pos_iff.mpr hne
  have hsplit : pattern.take (pattern.length - 1) ++ [pattern.getD (pattern.length - 1) 0] = pattern := by
    have hparts := slice_append_slice pattern 0 (pattern.length - 1) 1
    rw [Nat.zero_add, Nat.sub_add_cancel hpos, slice_one (Nat.sub_lt hpos Nat.one_pos) 0] at hparts
    exact hparts.trans List.take_length
  have hwindow : slice mem i pattern.length = slice mem i (pattern.length - 1) ++ [last] := by
    have hend : i + (pattern.length - 1) < mem.length := by omega
    have hplace : i + (pattern.length - 1) = i + pattern.length - 1 := by omega
    have hbyte := slice_one hend 0
    rw [List.getD_eq_getElem?_getD, hplace, hlast, Option.getD_some, ← hplace] at hbyte
    rw [← hbyte, slice_append_slice]
    congr 1
    omega
  rw [OccursAt, hwindow]
  constructor
  · rintro ⟨hbyte, hfront⟩
    rw [← hfront, ← hbyte]
    exact ⟨hfits, hsplit⟩
  · rintro ⟨-, hsame⟩
    obtain ⟨hfront, hbyte⟩ := List.append_inj' (hsame.trans hsplit.symm) rfl
    exact ⟨(List.singleton_inj.mp hbyte).symm, hfront.symm⟩

/-- The search in a memory with room for the pattern. -/
lemma searchPattern_exact (hne : pattern ≠ []) (hsize : mem.length < 2 ^ 32) (hle : pattern.length ≤ mem.length) :
    ∃ r, (∀ fuel, mem.length + 1 < fuel → searchPattern mem pattern fuel = some r) ∧ Exact mem pattern r := by
  have hpos := List.length_pos_iff.mpr hne
  have hlast : (mem.length + 2 ^ 32 - pattern.length) % 2 ^ 32 = mem.length - pattern.length := by omega
  -- no occurrence is in front of the window
  have hends := @loop_ends _ _ (searchTurn mem pattern) 0
    (fun i => i ≤ mem.length ∧ ∀ j < i, ¬OccursAt pattern mem j) (Exact mem pattern)
    (fun i => mem.length + 1 - i) ?_ ?_ ⟨Nat.zero_le _, fun j hj => absurd hj (Nat.not_lt_zero j)⟩
  · obtain ⟨r, hloop, hexact⟩ := hends
    exact ⟨r, fun fuel hfuel => hloop fuel hfuel, hexact⟩
  · rintro i r ⟨hi, hbefore⟩ hturn
    rw [searchTurn, hlast] at hturn
    split at hturn
    · next hbehind =>
      cases hturn
      intro j hj
      rcases Nat.lt_or_ge j i with hlt | hge
      · exact hbefore j hlt hj
      · have hfits := hj.1
        omega
    · next hinside =>
      have hread : (i + pattern.length - 1) % 2 ^ 32 = i + pattern.length - 1 := Nat.mod_eq_of_lt (by omega)
      have hget : mem[i + pattern.length - 1]? = some mem[i + pattern.length - 1] :=
        List.getElem?_eq_getElem (by omega)
      rw [hread, hget] at hturn
      dsimp only at hturn
      split at hturn
      · next hsame =>
        cases hturn
        exact ⟨(occursAt_iff hne (by omega) hget).mp hsame, hbefore⟩
      · cases hturn
  · rintro i i' ⟨hi, hbefore⟩ hturn
    rw [searchTurn, hlast] at hturn
    split at hturn
    · cases hturn
    · next hinside =>
      have hread : (i + pattern.length - 1) % 2 ^ 32 = i + pattern.length - 1 := Nat.mod_eq_of_lt (by omega)
      have hget : mem[i + pattern.length - 1]? = some mem[i + pattern.length - 1] :=
        List.getElem?_eq_getElem (by omega)
      rw [hread, hget] at hturn
      dsimp only at hturn
      split at hturn
      · cases hturn
      · next hother =>
        rw [occursAt_iff hne (by omega) hget] at hother
        have hskip := skipFor_skipTable hne mem[i + pattern.length - 1]
        have hskipLe := hskip.le
        have hskipPos := hskip.pos
        rw [Nat.mod_eq_of_lt (by omega)] at hturn
        cases hturn
        refine ⟨⟨by omega, fun j hj => ?_⟩, by omega⟩
        rcases Nat.lt_trichotomy j i with hlt | rfl | hgt
        · exact hbefore j hlt
        · exact hother
        · exact hskip.not_occursAt hget hgt hj

/-- A pattern that is longer than the memory is compared with what is behind the memory. -/
lemma searchPattern_outside (hsize : pattern.length < 2 ^ 32) (hlt : mem.length < pattern.length) (fuel : Nat) :
    searchPattern mem pattern (fuel + 1) = some .outside := by
  have hread : (0 + pattern.length - 1) % 2 ^ 32 = pattern.length - 1 := by
    rw [Nat.zero_add]
    exact Nat.mod_eq_of_lt (by omega)
  have hnone : mem[pattern.length - 1]? = none := List.getElem?_eq_none (by omega)
  apply loop_leave
  rw [searchTurn, if_neg (Nat.not_lt_zero _), hread, hnone]

end Search

/-- The search ends, without a read outside of the memory and with the first position or with `NULL`, exactly if the
pattern is not longer than the memory. -/
theorem searchPattern_exact_iff (mem pattern : List UInt8) (hmem : mem.length < 2 ^ 32)
    (hpattern : pattern.length < 2 ^ 32) (hne : pattern ≠ []) :
    (∃ r, (∀ fuel, mem.length + 1 < fuel → searchPattern mem pattern fuel = some r) ∧ Exact mem pattern r) ↔
      pattern.length ≤ mem.length := by
  constructor
  · rintro ⟨r, hends, hexact⟩
    by_contra hlong
    have hr := hends (mem.length + 1 + 1) (Nat.lt_succ_self _)
    rw [searchPattern_outside hpattern (Nat.lt_of_not_le hlong)] at hr
    cases hr
    exact hexact
  · exact searchPattern_exact hne hmem

/-- A pattern that begins again in itself, behind a part of it. -/
theorem searchPattern_exact_iff_repeated :
    ∃ r, (∀ fuel, [1, 2, 1, 2, 1, 3].length + 1 < fuel →
      searchPattern [1, 2, 1, 2, 1, 3] [1, 2, 1, 3] fuel = some r) ∧ Exact [1, 2, 1, 2, 1, 3] [1, 2, 1, 3] r :=
  (searchPattern_exact_iff [1, 2, 1, 2, 1, 3] [1, 2, 1, 3] (by decide) (by decide) nofun).mpr (by decide)

/-- Two bytes in a memory of one. -/
theorem searchPattern_not_exact :
    ¬∃ r, (∀ fuel, [(1 : UInt8)].length + 1 < fuel → searchPattern [1] [1, 2] fuel = some r) ∧
      Exact [1] [1, 2] r := by
  rintro ⟨r, hends, hexact⟩
  have hr := hends 3 (by decide)
  have houtside : searchPattern [1] [1, 2] 3 = some .outside := by decide
  rw [houtside] at hr
  cases hr
  exact hexact

end RajNX.Fusee
