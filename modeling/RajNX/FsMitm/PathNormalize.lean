import RajNX.FsMitm.PathUtils

/-!
# What `Normalize` computes

`Normalize` resolves the names of a path on a stack: with room for the path as it is spelled, it fails only if the
names climb above the root, and else writes the canonical path of the stack. `IsNormalized` tells which paths are
written as they are. A buffer that ends with the output shows which calls stay inside of it: all but one.
-/

namespace RajNX.FsMitm

open SlashPath CString

section Normalize

variable {pre out src : List UInt8} {maxOutSize : Nat}

/-- What a call that returns success has written -/
lemma normalize_success {w : Written} (hmax : 1 ≤ maxOutSize) (hsize : maxOutSize ≤ out.length)
    (hhead : src.head? = some slash) (hz : 0 ∉ src)
    (h : normalize (pre ++ out) pre.length maxOutSize src = .returned .success w) :
    ∃ names rest, resolve dot [] (components slash src) = some names ∧
      fits slash dot maxOutSize [] (components slash src) = true ∧ (∀ name ∈ names, GoodName name) ∧
      w = ⟨pre ++ (render slash names ++ 0 :: rest), some (render slash names).length⟩ := by
  have hspec := normalize_spec pre out hmax (by rw [List.length_append]; omega) hhead hz
  rw [h] at hspec
  obtain ⟨-, -, -, hfault⟩ | hspec := hspec
  · cases hfault
  · cases hspec with
    | success hnames hfit good _ => exact ⟨_, _, hnames, hfit, good, rfl⟩

/-- A call ends as its names resolve, if their text fits in an output of two bytes or more. -/
lemma normalize_of_fits (hmax : 2 ≤ maxOutSize) (hsize : maxOutSize ≤ out.length) (hhead : src.head? = some slash)
    (hz : 0 ∉ src) (hfits : fits slash dot maxOutSize [] (components slash src) = true) :
    (resolve dot [] (components slash src) = none ∧
      ∃ w, normalize (pre ++ out) pre.length maxOutSize src = .returned .directoryUnobtainable w) ∨
    ∃ names rest, resolve dot [] (components slash src) = some names ∧ (∀ name ∈ names, GoodName name) ∧
      normalize (pre ++ out) pre.length maxOutSize src =
        .returned .success ⟨pre ++ (render slash names ++ 0 :: rest), some (render slash names).length⟩ := by
  have hmax' : 1 ≤ maxOutSize := Nat.le_of_succ_le hmax
  have hspec := normalize_spec pre out hmax' (by rw [List.length_append]; omega) hhead hz
  generalize normalize (pre ++ out) pre.length maxOutSize src = ending at hspec ⊢
  obtain ⟨hone, -⟩ | hspec := hspec
  · omega
  · cases hspec with
    | success hnames _ good _ => exact .inr ⟨_, _, hnames, good, rfl⟩
    | tooLong hfit _ => exact absurd (hfits.symm.trans hfit) Bool.false_ne_true.symm
    | climbed hnone _ => exact .inl ⟨hnone, _, rfl⟩

/-- A canonical path is written as it is. -/
lemma normalize_render {names : List (List UInt8)} (good : ∀ name ∈ names, GoodName name)
    (hsize : maxOutSize ≤ out.length) (hlength : (render slash names).length < maxOutSize) :
    ∃ rest, normalize (pre ++ out) pre.length maxOutSize (render slash names) =
      .returned .success ⟨pre ++ (render slash names ++ 0 :: rest), some (render slash names).length⟩ := by
  have hhead : (render slash names).head? = some slash := by
    rw [render_eq_intercalate]
    rfl
  have hpos : 0 < (render slash names).length := by
    rw [render_eq_intercalate]
    exact Nat.zero_lt_succ _
  have hresolve : resolve dot [] (components slash (render slash names)) = some names := by
    rw [components_render fun c hc => (good c hc).plain, resolve_names slash fun c hc => (good c hc).toIsName]
    rfl
  obtain ⟨hnone, -⟩ | ⟨names', rest, hsome, -, h⟩ := @normalize_of_fits pre out _ _ (by omega) hsize hhead
    (zero_notMem_render good) (fits_components (.inr hhead) hlength)
  · rw [hresolve] at hnone
    cases hnone
  · cases hresolve.symm.trans hsome
    exact ⟨rest, h⟩

/-- With room for the path and a terminator, `Normalize` folds the names of the path over a stack: it returns
`ResultFsDirectoryUnobtainable` if and only if the fold pops the empty stack, and else success and the path of the
names on the stack. -/
theorem normalize_eq_stack (pre : List UInt8) (hsize : maxOutSize ≤ out.length)
    (hlength : src.length < maxOutSize) (hhead : src.head? = some slash) (hz : 0 ∉ src) :
    (resolve dot [] (components slash src) = none ↔
      ∃ w, normalize (pre ++ out) pre.length maxOutSize src = .returned .directoryUnobtainable w) ∧
    ∀ names, resolve dot [] (components slash src) = some names →
      ∃ text rest, text = slash :: List.intercalate [slash] names ∧
        normalize (pre ++ out) pre.length maxOutSize src =
          .returned .success ⟨pre ++ (text ++ 0 :: rest), some text.length⟩ := by
  have hpos : 0 < src.length := by
    cases src with
    | nil => cases hhead
    | cons b src => exact Nat.zero_lt_succ _
  obtain ⟨hnone, w, h⟩ | ⟨names, rest, hsome, -, h⟩ := @normalize_of_fits pre out _ _ (by omega) hsize hhead hz
    (fits_components (.inr hhead) hlength)
  · refine ⟨⟨fun _ => ⟨w, h⟩, fun _ => hnone⟩, fun names hnames => ?_⟩
    rw [hnone] at hnames
    cases hnames
  · refine ⟨⟨fun hnone => ?_, fun ⟨w, hw⟩ => ?_⟩, fun names' hnames' => ?_⟩
    · rw [hnone] at hsome
      cases hsome
    · rw [h] at hw
      cases hw
    · cases hsome.symm.trans hnames'
      exact ⟨_, rest, rfl, by rw [← render_eq_intercalate]; exact h⟩

/-- The path `/a/./b//../c/`, in a buffer with a byte in front of the output -/
theorem normalize_eq_stack_at_c :
    ∃ rest, normalize ([0x2A] ++ List.replicate 16 0x2A) [0x2A].length 16 "/a/./b//../c/".toUTF8.toList =
      .returned .success ⟨[0x2A] ++ ("/a/c".toUTF8.toList ++ 0 :: rest), some "/a/c".toUTF8.toList.length⟩ := by
  obtain ⟨-, hsuccess⟩ := @normalize_eq_stack (List.replicate 16 0x2A) "/a/./b//../c/".toUTF8.toList 16 [0x2A]
    (by decide) (by with_unfolding_all decide) (by with_unfolding_all decide) (by with_unfolding_all decide)
  obtain ⟨text, rest, htext, h⟩ := hsuccess ["a".toUTF8.toList, "c".toUTF8.toList] (by with_unfolding_all decide)
  have hrest : text = "/a/c".toUTF8.toList := htext.trans (by with_unfolding_all decide)
  rw [hrest] at h
  exact ⟨rest, h⟩

/-- Behind a separator, what `IsNormalized` accepts is a list of names that stand for themselves. -/
lemma isNormalizedLoop_separator {s : List UInt8} (hz : 0 ∉ s) (h : isNormalizedLoop .separator s = .ok true) :
    ∃ names, names ≠ [] ∧ (∀ c ∈ names, GoodName c) ∧ slash :: s = body slash names := by
  induction hlength : s.length using Nat.strong_induction_on generalizing s with
  | _ n ih =>
    obtain ⟨c, t, rfl, -, hc, ht⟩ := name_split slash s
    rw [List.mem_append, not_or] at hz
    have hname : GoodName c := by
      refine ⟨⟨?_, hc, ?_, ?_⟩, hz.1⟩
      -- The machine stops at a separator or at the end of the path behind no name, `.` and `..`.
      all_goals
        rintro rfl
        obtain rfl | hhead := ht
        · cases h
        · obtain ⟨t, rfl⟩ := List.head?_eq_some_iff.mp hhead
          cases h
    obtain rfl | hhead := ht
    · refine ⟨[c], List.cons_ne_nil c [], ?_, by rw [body_singleton, List.append_nil]⟩
      intro d hd
      rwa [List.mem_singleton.mp hd]
    · obtain ⟨t, rfl⟩ := List.head?_eq_some_iff.mp hhead
      have hnormal := isNormalizedLoop_name hname (slash :: t)
      rw [hnormal, isNormalizedLoop_normal_cons, if_pos rfl] at h
      have hpos := List.length_pos_iff.mpr hname.ne_nil
      rw [List.length_append, List.length_cons] at hlength
      have hzero : 0 ∉ t := fun hmem => hz.2 (List.mem_cons_of_mem slash hmem)
      obtain ⟨names, -, hnames, hbody⟩ := ih t.length (by omega) hzero h rfl
      refine ⟨c :: names, List.cons_ne_nil c names, ?_, by rw [body_cons, hbody]⟩
      intro d hd
      cases hd with
      | head => exact hname
      | tail _ hmem => exact hnames d hmem

/-- A path is normalized if and only if it is the canonical path of its names. -/
lemma isNormalized_iff_render {p : List UInt8} (hhead : p.head? = some slash) (hz : 0 ∉ p) :
    isNormalized p = .ok true ↔ ∃ names, (∀ c ∈ names, GoodName c) ∧ p = render slash names := by
  constructor
  · intro h
    obtain ⟨s, rfl⟩ := List.head?_eq_some_iff.mp hhead
    by_cases hnil : s = []
    · refine ⟨[], ?_, by rw [hnil, render, if_pos rfl]⟩
      intro c hc
      cases hc
    · have hseparator : isNormalizedLoop .separator s = .ok true := by
        rw [← isNormalizedLoop_firstSeparator hnil]
        exact h
      obtain ⟨names, hne, good, hbody⟩ :=
        isNormalizedLoop_separator (fun hmem => hz (List.mem_cons_of_mem slash hmem)) hseparator
      exact ⟨names, good, by rw [render, if_neg hne, hbody]⟩
  · rintro ⟨names, good, rfl⟩
    exact isNormalized_render good

/-- `IsNormalized` accepts the paths that `Normalize` writes as they are, and no other; what `Normalize` has written
it writes as it is, into any output with room for it. -/
theorem isNormalized_iff_fixed {p : List UInt8} (hhead : p.head? = some slash) (hz : 0 ∉ p) :
    (∀ (pre out : List UInt8) (maxOutSize : Nat), maxOutSize ≤ out.length → p.length < maxOutSize →
      (isNormalized p = .ok true ↔ ∃ rest, normalize (pre ++ out) pre.length maxOutSize p =
        .returned .success ⟨pre ++ (p ++ 0 :: rest), some p.length⟩)) ∧
    ∀ (pre out : List UInt8) (maxOutSize : Nat) (w : Written), maxOutSize ≤ out.length → 1 ≤ maxOutSize →
      normalize (pre ++ out) pre.length maxOutSize p = .returned .success w →
      ∃ q rest, w = ⟨pre ++ (q ++ 0 :: rest), some q.length⟩ ∧
        ∀ (pre' out' : List UInt8) (maxOutSize' : Nat), maxOutSize' ≤ out'.length → q.length < maxOutSize' →
          ∃ rest', normalize (pre' ++ out') pre'.length maxOutSize' q =
            .returned .success ⟨pre' ++ (q ++ 0 :: rest'), some q.length⟩ := by
  constructor
  · intro pre out maxOutSize hsize hlength
    rw [isNormalized_iff_render hhead hz]
    constructor
    · rintro ⟨names, good, rfl⟩
      exact normalize_render good hsize hlength
    · rintro ⟨rest, h⟩
      obtain ⟨names, rest', -, -, good, hw⟩ := normalize_success (by omega) hsize hhead hz h
      have htext := List.append_cancel_left (congrArg Written.buf hw)
      have hlen := Option.some_inj.mp (congrArg Written.outLen hw)
      exact ⟨names, good, (List.append_inj htext hlen).1⟩
  · intro pre out maxOutSize w hsize hmax h
    obtain ⟨names, rest, -, -, good, rfl⟩ := normalize_success hmax hsize hhead hz h
    exact ⟨render slash names, rest, rfl, fun pre' out' maxOutSize' hsize' hlength =>
      normalize_render good hsize' hlength⟩

/-- The path `/..a/.../b` is normalized. -/
theorem isNormalized_iff_fixed_dots :
    (isNormalized "/..a/.../b".toUTF8.toList = .ok true ↔
      ∃ rest, normalize ([] ++ List.replicate 16 0x2A) 0 16 "/..a/.../b".toUTF8.toList =
        .returned .success ⟨[] ++ ("/..a/.../b".toUTF8.toList ++ 0 :: rest), some "/..a/.../b".toUTF8.toList.length⟩) ∧
      isNormalized "/..a/.../b".toUTF8.toList = .ok true :=
  ⟨(isNormalized_iff_fixed (by with_unfolding_all decide) (by with_unfolding_all decide)).1 []
    (List.replicate 16 0x2A) 16 (by decide) (by with_unfolding_all decide), by with_unfolding_all decide⟩

/-- A path of separators has no names. -/
lemma components_eq_nil_iff {s : List UInt8} : components slash s = [] ↔ ∀ b ∈ s, b = slash := by
  rw [← components_dropWhile_sep]
  obtain hnil | ⟨name, rest, hdrop, ne, hs, -, hrest⟩ := name_after_separators s
  · rw [hnil, components_nil]
    simpa using List.dropWhile_eq_nil_iff.mp hnil
  · rw [hdrop, components_name_append ne hs hrest]
    constructor
    · intro h
      cases h
    · intro hall
      have hnil : s.dropWhile (· == slash) = [] :=
        List.dropWhile_eq_nil_iff.mpr fun b hb => by simpa using hall b hb
      rw [hdrop] at hnil
      exact absurd (List.append_eq_nil_iff.mp hnil).1 ne

lemma exists_ne_of_components {s : List UInt8} (h : components slash s ≠ []) : ∃ b ∈ s, b ≠ slash := by
  by_contra hall
  push Not at hall
  exact h (components_eq_nil_iff.mpr hall)

/-- The terminator of a text behind other bytes. -/
lemma getElem?_terminator (pre text rest : List UInt8) :
    (pre ++ (text ++ 0 :: rest))[pre.length + text.length]? = some 0 := by
  rw [List.getElem?_append_right (Nat.le_add_right _ _), Nat.add_sub_cancel_left, List.getElem?_append_right le_rfl,
    Nat.sub_self, List.getElem?_cons_zero]

/-- A call whose output is the end of the buffer, so that an access to it at `max_out_size` or behind ends in a fault
as one in front of it does: it returns, and what it has written is terminated inside of the output if it returns
success or that the path is too long. -/
def RespectsOutput (pre out src : List UInt8) : Prop :=
  ∃ result w, normalize (pre ++ out) pre.length out.length src = .returned result w ∧
    w.buf.length = (pre ++ out).length ∧
    (result = .success ∨ result = .tooLongPath → ∃ j < out.length, w.buf[pre.length + j]? = some 0)

/-- `Normalize` stays inside of its output and terminates it, but for the root in an output of one byte: there the
check in front of the terminator lets it be written behind the output. -/
theorem normalize_respectsOutput_iff (pre : List UInt8) (hout : 1 ≤ out.length)
    (hhead : src.head? = some slash) (hz : 0 ∉ src) :
    RespectsOutput pre out src ↔ 2 ≤ out.length ∨ ∃ b ∈ src, b ≠ slash := by
  have hspec := normalize_spec pre out hout (by rw [List.length_append]) hhead hz
  rw [RespectsOutput]
  generalize normalize (pre ++ out) pre.length out.length src = ending at hspec ⊢
  obtain ⟨hone, -, hfits, rfl⟩ | hspec := hspec
  · -- the output has one byte, which the separator of the root takes, and the terminator is written behind it
    constructor
    · rintro ⟨result, w, h, -⟩
      cases h
    · rintro (htwo | ⟨b, hb, hne⟩)
      · omega
      · -- a name in front of the terminator would not have fitted
        cases hnames : components slash src with
        | nil => exact absurd (components_eq_nil_iff.mp hnames b hb) hne
        | cons c cs =>
          rw [hnames, fits_cons, body_nil, List.length_nil, hone] at hfits
          omega
  · cases hspec with
    | @success names rest hnames hfit good hlength =>
      have hpos : 1 ≤ (render slash names).length := by
        rw [render_eq_intercalate]
        exact Nat.succ_le_succ (Nat.zero_le _)
      have hbuf := hlength
      simp only [List.length_append, List.length_cons] at hbuf
      refine ⟨fun _ => .inl (by omega), fun _ => ⟨_, _, rfl, hlength, fun _ => ?_⟩⟩
      exact ⟨(render slash names).length, by omega, getElem?_terminator pre _ rest⟩
    | tooLong hfit hw =>
      obtain ⟨text, rest, rfl, hlt, hlength⟩ := hw
      refine ⟨fun _ => .inr (exists_ne_of_components fun hnil => ?_), fun _ => ?_⟩
      · rw [hnil, fits_nil] at hfit
        cases hfit
      · exact ⟨_, _, rfl, hlength, fun _ => ⟨text.length, hlt, getElem?_terminator pre text rest⟩⟩
    | climbed hnone hw =>
      refine ⟨fun _ => .inr (exists_ne_of_components fun hnil => ?_), fun _ => ⟨_, _, rfl, hw, ?_⟩⟩
      · rw [hnil] at hnone
        cases hnone
      · rintro (h | h) <;> cases h

/-- A path that is cut off in an output of two bytes -/
theorem normalize_respectsOutput_cut : RespectsOutput [0x2A] [0x2A, 0x2A] "/ab".toUTF8.toList :=
  (normalize_respectsOutput_iff [0x2A] (by decide) (by with_unfolding_all decide)
    (by with_unfolding_all decide)).mpr (.inl (by decide))

/-- The root is terminated behind an output of one byte. -/
theorem not_normalize_respectsOutput : ¬RespectsOutput [] [0x2A] [slash] := by
  rintro ⟨result, w, h, -⟩
  have hfault : normalize ([] ++ [0x2A]) 0 1 [slash] = .fault := by decide
  cases hfault.symm.trans h

end Normalize

end RajNX.FsMitm
