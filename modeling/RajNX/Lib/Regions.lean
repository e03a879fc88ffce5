import Mathlib.Tactic

/-!
# Regions of an address space

A region is a range of addresses. Regions that are apart from each other have no more room than the space
that they are in, and regions that are short leave one of a row of long blocks free.
-/

namespace RajNX.Regions

/-- The addresses from `start` on, `size` of them. -/
structure Region where
  start : Nat
  size : Nat
deriving Repr, DecidableEq

namespace Region

/-- Where a region ends. -/
def stop (r : Region) : Nat := r.start + r.size

/-- One of two regions ends before the other starts. -/
def Apart (r r' : Region) : Prop := r.stop ≤ r'.start ∨ r'.stop ≤ r.start

instance (r r' : Region) : Decidable (r.Apart r') := inferInstanceAs (Decidable (_ ∨ _))

/-- An address in a region. -/
def Contains (r : Region) (a : Nat) : Prop := r.start ≤ a ∧ a < r.stop

instance (r : Region) (a : Nat) : Decidable (r.Contains a) := inferInstanceAs (Decidable (_ ∧ _))

variable {r r' : Region} {a : Nat}

lemma Apart.symm (h : r.Apart r') : r'.Apart r := Or.symm h

/-- A part of a region. -/
lemma Apart.of_inside {part : Region} (h : r.Apart r') (hstart : r.start ≤ part.start) (hstop : part.stop ≤ r.stop) :
    part.Apart r' := by
  unfold Apart at h ⊢
  omega

lemma Apart.not_contains (h : r.Apart r') (ha : r.Contains a) : ¬r'.Contains a := by
  unfold Apart at h
  unfold Contains at ha ⊢
  omega

/-- The addresses of a region. -/
def addresses (r : Region) : Finset Nat := Finset.Ico r.start r.stop

lemma card_addresses (r : Region) : r.addresses.card = r.size := by
  rw [addresses, Nat.card_Ico, stop, Nat.add_sub_cancel_left]

lemma Apart.disjoint (h : r.Apart r') : Disjoint r.addresses r'.addresses := by
  rw [Finset.disjoint_left]
  intro a ha ha'
  exact h.not_contains (Finset.mem_Ico.mp ha) (Finset.mem_Ico.mp ha')

end Region

/-! ## Room -/

/-- The addresses of some regions. -/
def covered (rs : List Region) : Finset Nat := rs.foldr (fun r s => r.addresses ∪ s) ∅

lemma mem_covered {rs : List Region} {a : Nat} : a ∈ covered rs ↔ ∃ r ∈ rs, a ∈ r.addresses := by
  induction rs with
  | nil => simp [covered]
  | cons r rs ih =>
    rw [covered, List.foldr_cons, ← covered, Finset.mem_union, ih]
    simp

lemma card_covered {rs : List Region} (h : rs.Pairwise Region.Apart) :
    (covered rs).card = (rs.map Region.size).sum := by
  induction h with
  | nil => rfl
  | @cons r rs hr _ ih =>
    have hdisjoint : Disjoint r.addresses (covered rs) := by
      rw [Finset.disjoint_left]
      intro a ha hrest
      obtain ⟨r', hr', ha'⟩ := mem_covered.mp hrest
      exact Finset.disjoint_left.mp (hr r' hr').disjoint ha ha'
    rw [covered, List.foldr_cons, ← covered, Finset.card_union_of_disjoint hdisjoint, ih,
      Region.card_addresses, List.map_cons, List.sum_cons]

/-- Regions that are apart from each other are no larger than the space that they are in. -/
lemma sum_size_le {rs : List Region} {n : Nat} (hapart : rs.Pairwise Region.Apart)
    (hstop : ∀ r ∈ rs, r.stop ≤ n) : (rs.map Region.size).sum ≤ n := by
  have hsubset : covered rs ⊆ Finset.range n := by
    intro a ha
    obtain ⟨r, hr, ha⟩ := mem_covered.mp ha
    exact Finset.mem_range.mpr ((Finset.mem_Ico.mp ha).2.trans_le (hstop r hr))
  have hcard := Finset.card_le_card hsubset
  rwa [card_covered hapart, Finset.card_range] at hcard

/-! ## Regions in a row -/

/-- Regions of some sizes, each where the one in front of it ends. -/
def layOut : Nat → List Nat → List Region
  | _, [] => []
  | start, n :: ns => ⟨start, n⟩ :: layOut (start + n) ns

lemma map_size_layOut (start : Nat) (ns : List Nat) : (layOut start ns).map Region.size = ns := by
  induction ns generalizing start with
  | nil => rfl
  | cons n ns ih => rw [layOut, List.map_cons, ih]

/-- They are in the space behind the start. -/
lemma layOut_inside {start : Nat} {ns : List Nat} {r : Region} (h : r ∈ layOut start ns) :
    start ≤ r.start ∧ r.stop ≤ start + ns.sum := by
  induction ns generalizing start with
  | nil => cases h
  | cons n ns ih =>
    rw [List.sum_cons]
    cases h with
    | head =>
      refine ⟨Nat.le_refl _, ?_⟩
      rw [Region.stop]
      dsimp only
      omega
    | tail _ h =>
      have hinside := ih h
      omega

/-- They are in their order and do not overlap. -/
lemma layOut_pairwise (start : Nat) (ns : List Nat) : (layOut start ns).Pairwise fun r r' => r.stop ≤ r'.start := by
  induction ns generalizing start with
  | nil => exact .nil
  | cons n ns ih => exact .cons (fun r hr => (layOut_inside hr).1) (ih _)

lemma layOut_append (start : Nat) (ns ms : List Nat) :
    layOut start (ns ++ ms) = layOut start ns ++ layOut (start + ns.sum) ms := by
  induction ns generalizing start with
  | nil => rfl
  | cons n ns ih => rw [List.cons_append, layOut, layOut, ih, List.cons_append, List.sum_cons, Nat.add_assoc]

/-- Every address of the space is in one of them. -/
lemma exists_mem_layOut {start a : Nat} {ns : List Nat} (hstart : start ≤ a) (hstop : a < start + ns.sum) :
    ∃ r ∈ layOut start ns, r.Contains a := by
  induction ns generalizing start with
  | nil => exact absurd hstop (Nat.not_lt.mpr hstart)
  | cons n ns ih =>
    rw [List.sum_cons] at hstop
    rcases Nat.lt_or_ge a (start + n) with hlt | hge
    · exact ⟨_, .head _, hstart, hlt⟩
    · obtain ⟨r, hr, ha⟩ := ih hge (by omega)
      exact ⟨r, .tail _ hr, ha⟩

lemma dvd_start_of_mem_layOut {start d : Nat} {ns : List Nat} {r : Region} (hstart : d ∣ start)
    (hns : ∀ n ∈ ns, d ∣ n) (h : r ∈ layOut start ns) : d ∣ r.start := by
  induction ns generalizing start with
  | nil => cases h
  | cons n ns ih =>
    cases h with
    | head => exact hstart
    | tail _ h => exact ih (Nat.dvd_add hstart (hns n (.head _))) (fun m hm => hns m (.tail _ hm)) h

/-- A row that is moved. -/
lemma layOut_add (d start : Nat) (ns : List Nat) :
    layOut (d + start) ns = (layOut start ns).map fun r => ⟨d + r.start, r.size⟩ := by
  induction ns generalizing start with
  | nil => rfl
  | cons n ns ih => rw [layOut, layOut, List.map_cons, Nat.add_assoc, ih]

/-- Regions with names, that are in a row from one address to another. -/
structure Row {κ : Type} (region : κ → Region) (names : List κ) (start stop : Nat) : Prop where
  nodup : names.Nodup
  laid : names.map region = layOut start (names.map fun k => (region k).size)
  stop_eq : stop = start + (names.map fun k => (region k).size).sum

namespace Row

variable {κ : Type} {region region' : κ → Region} {names : List κ} {start stop n a d : Nat} {k k' : κ}

lemma nil (region : κ → Region) (start : Nat) : Row region [] start start :=
  ⟨.nil, rfl, rfl⟩

section

variable (h : Row region names start stop)

include h

/-- A region that is put behind the others. -/
lemma snoc (hk : k ∉ names) (hregion : region' k = ⟨stop, n⟩)
    (hsame : ∀ m ∈ names, region' m = region m) : Row region' (names ++ [k]) start (stop + n) := by
  have hregions : names.map region' = names.map region := List.map_congr_left hsame
  have hsizes : (names.map fun m => (region' m).size) = names.map fun m => (region m).size :=
    List.map_congr_left fun m hm => congrArg Region.size (hsame m hm)
  have hstop := h.stop_eq
  refine ⟨?_, ?_, ?_⟩
  · exact List.nodup_append.mpr ⟨h.nodup, List.nodup_singleton k, fun m hm m' hm' heq =>
      hk (List.mem_singleton.mp hm' ▸ heq ▸ hm)⟩
  · rw [List.map_append, List.map_append, layOut_append, hregions, hsizes, h.laid, ← hstop, List.map_singleton,
      List.map_singleton, hregion]
    rfl
  · rw [List.map_append, List.sum_append, hsizes, List.map_singleton, hregion, List.sum_singleton, hstop,
      Nat.add_assoc]

lemma mem (hk : k ∈ names) : region k ∈ layOut start (names.map fun k => (region k).size) :=
  h.laid ▸ List.mem_map_of_mem hk

lemma inside (hk : k ∈ names) : start ≤ (region k).start ∧ (region k).stop ≤ stop := by
  rw [h.stop_eq]
  exact layOut_inside (h.mem hk)

lemma apart (hk : k ∈ names) (hk' : k' ∈ names) (hne : k ≠ k') : (region k).Apart (region k') := by
  have hpairwise : names.Pairwise fun k k' => (region k).Apart (region k') := by
    rw [← List.pairwise_map (R := Region.Apart), h.laid]
    exact (layOut_pairwise _ _).imp Or.inl
  have hsymm : Std.Symm fun k k' => (region k).Apart (region k') := ⟨fun _ _ => Region.Apart.symm⟩
  exact hpairwise.forall hk hk' hne

/-- The addresses of the row are those of its regions. -/
lemma contains_iff : (start ≤ a ∧ a < stop) ↔ ∃ k ∈ names, (region k).Contains a := by
  constructor
  · intro ⟨hstart, hstop⟩
    obtain ⟨r, hr, ha⟩ := exists_mem_layOut hstart (h.stop_eq ▸ hstop)
    rw [← h.laid] at hr
    obtain ⟨k, hk, rfl⟩ := List.mem_map.mp hr
    exact ⟨k, hk, ha⟩
  · rintro ⟨k, hk, hge, hlt⟩
    have hinside := h.inside hk
    omega

lemma dvd_start (hstart : d ∣ start) (hsize : ∀ k ∈ names, d ∣ (region k).size)
    (hk : k ∈ names) : d ∣ (region k).start := by
  refine dvd_start_of_mem_layOut hstart ?_ (h.mem hk)
  intro n hn
  obtain ⟨m, hm, rfl⟩ := List.mem_map.mp hn
  exact hsize m hm

/-- Regions that are all moved by as much. -/
lemma move (hregion : ∀ m ∈ names, region' m = ⟨d + (region m).start, (region m).size⟩) :
    Row region' names (d + start) (d + stop) := by
  have hsizes : (names.map fun m => (region' m).size) = names.map fun m => (region m).size :=
    List.map_congr_left fun m hm => by rw [hregion m hm]
  refine ⟨h.nodup, ?_, ?_⟩
  · rw [hsizes, layOut_add, ← h.laid, List.map_map]
    exact List.map_congr_left hregion
  · rw [hsizes, Nat.add_assoc, ← h.stop_eq]

end

end Row

/-! ## Blocks in a row -/

/-- The `i`-th block of a row. -/
def block (base length i : Nat) : Region := ⟨base + i * length, length⟩

/-- A short region meets at most two blocks. -/
lemma apart_block {base length i : Nat} {r : Region} (hstart : base ≤ r.start) (hsize : r.size ≤ length)
    (hpos : 0 < length) (hi : i ≠ (r.start - base) / length) (hi' : i ≠ (r.start - base) / length + 1) :
    r.Apart (block base length i) := by
  have hmod := Nat.div_add_mod (r.start - base) length
  have hlt := Nat.mod_lt (r.start - base) hpos
  rw [Nat.mul_comm] at hmod
  rw [Region.Apart, Region.stop, Region.stop, block]
  dsimp only
  rcases Nat.lt_or_ge i ((r.start - base) / length) with hlow | hhigh
  · have hle := Nat.mul_le_mul_right length (Nat.succ_le_of_lt hlow)
    rw [Nat.succ_mul] at hle
    omega
  · have hle := Nat.mul_le_mul_right length (show (r.start - base) / length + 2 ≤ i by omega)
    rw [Nat.add_mul] at hle
    omega

/-- One of more than twice as many blocks is apart from all regions. -/
lemma exists_free_block {base length : Nat} {rs : List Region} (hpos : 0 < length)
    (hrs : ∀ r ∈ rs, base ≤ r.start ∧ r.size ≤ length) :
    ∃ i ≤ 2 * rs.length, ∀ r ∈ rs, r.Apart (block base length i) := by
  have hmet : ∃ met : Finset Nat, met.card ≤ 2 * rs.length ∧
      ∀ i ∉ met, ∀ r ∈ rs, r.Apart (block base length i) := by
    induction rs with
    | nil => exact ⟨∅, by simp, fun i _ r hr => nomatch hr⟩
    | cons r rs ih =>
      obtain ⟨met, hcard, hmet⟩ := ih fun r hr => hrs r (.tail _ hr)
      refine ⟨insert ((r.start - base) / length) (insert ((r.start - base) / length + 1) met), ?_, ?_⟩
      · have hfirst := Finset.card_insert_le ((r.start - base) / length)
          (insert ((r.start - base) / length + 1) met)
        have hsecond := Finset.card_insert_le ((r.start - base) / length + 1) met
        rw [List.length_cons]
        omega
      · intro i hi r' hr'
        rw [Finset.mem_insert, Finset.mem_insert, not_or, not_or] at hi
        cases hr' with
        | head =>
          obtain ⟨hstart, hsize⟩ := hrs r (.head _)
          exact apart_block hstart hsize hpos hi.1 hi.2.1
        | tail _ hr' => exact hmet i hi.2.2 r' hr'
  obtain ⟨met, hcard, hmet⟩ := hmet
  have hlt : met.card < (Finset.range (2 * rs.length + 1)).card := by
    rw [Finset.card_range]
    omega
  obtain ⟨i, hi, hfree⟩ := Finset.exists_mem_notMem_of_card_lt_card hlt
  exact ⟨i, Nat.le_of_lt_succ (Finset.mem_range.mp hi), hmet i hfree⟩

end RajNX.Regions
