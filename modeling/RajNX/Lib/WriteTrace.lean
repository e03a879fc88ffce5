import RajNX.Lib.Splice

/-!
# Traces of writes

What a program writes to a flat memory, as a list of writes in their order. A write is kept by its place and
its length, so that one that goes wrong can be told apart before it is applied; on an image it changes the
bytes it covers.
-/

namespace RajNX.WriteTrace

open Splice

/-- A write of one value, or of some data. -/
inductive Write
  | fill (position size : Nat) (value : UInt8)
  | copy (position : Nat) (data : List UInt8)
deriving Repr, DecidableEq

namespace Write

/-- Where a write starts. -/
def position : Write → Nat
  | .fill position _ _ => position
  | .copy position _ => position

/-- How many bytes it covers. -/
def size : Write → Nat
  | .fill _ size _ => size
  | .copy _ data => data.length

/-- The bytes that it writes, by their places in the write. -/
def byte (k : Nat) : Write → UInt8
  | .fill _ _ value => value
  | .copy _ data => data.getD k 0

/-- A write to an image. -/
def apply (w : Write) (image : List UInt8) : List UInt8 :=
  image.mapIdx fun i b => if w.position ≤ i ∧ i < w.position + w.size then w.byte (i - w.position) else b

/-- Every byte that a write covers is in a range. -/
def Within (first last : Nat) (w : Write) : Prop :=
  w.size = 0 ∨ first ≤ w.position ∧ w.position + w.size ≤ last

instance (first last : Nat) (w : Write) : Decidable (w.Within first last) :=
  inferInstanceAs (Decidable (_ ∨ _))

@[simp] lemma size_fill (position size : Nat) (value : UInt8) : (fill position size value).size = size := rfl

@[simp] lemma size_copy (position : Nat) (data : List UInt8) : (copy position data).size = data.length := rfl

@[simp] lemma position_fill (start size : Nat) (value : UInt8) : (fill start size value).position = start := rfl

@[simp] lemma position_copy (start : Nat) (data : List UInt8) : (copy start data).position = start := rfl

/-- A write behind the start of a range is in it if it covers nothing, or ends in time. -/
lemma within_iff {first last : Nat} {w : Write} (hfirst : first ≤ w.position) :
    w.Within first last ↔ w.size = 0 ∨ w.position + w.size ≤ last := by
  constructor
  · intro h
    exact h.imp id And.right
  · intro h
    exact h.imp id fun hle => ⟨hfirst, hle⟩

end Write

/-- Writes to an image, one after the other. -/
def applyAll (ws : List Write) (image : List UInt8) : List UInt8 :=
  ws.foldl (fun image w => w.apply image) image

lemma applyAll_cons (w : Write) (ws : List Write) (image : List UInt8) :
    applyAll (w :: ws) image = applyAll ws (w.apply image) := rfl

lemma applyAll_append (ws ws' : List Write) (image : List UInt8) :
    applyAll (ws ++ ws') image = applyAll ws' (applyAll ws image) := List.foldl_append

@[simp] lemma Write.length_apply (w : Write) (image : List UInt8) :
    (w.apply image).length = image.length := List.length_mapIdx

lemma length_applyAll (ws : List Write) (image : List UInt8) : (applyAll ws image).length = image.length := by
  induction ws generalizing image with
  | nil => rfl
  | cons w ws ih => rw [applyAll_cons, ih, w.length_apply]

/-! ## Writes that follow each other -/

/-- An address is covered by a write. -/
def Write.Covers (a : Nat) (w : Write) : Prop := w.position ≤ a ∧ a < w.position + w.size

/-- Writes of data that follow each other from a place on. -/
inductive Lays : Nat → List Write → List UInt8 → Prop
  | nil {start : Nat} : Lays start [] []
  | cons {start : Nat} {data rest : List UInt8} {ws : List Write} (h : Lays (start + data.length) ws rest) :
    Lays start (.copy start data :: ws) (data ++ rest)

namespace Lays

variable {start : Nat} {ws ws' : List Write} {data data' : List UInt8}

lemma singleton (start : Nat) (data : List UInt8) : Lays start [.copy start data] data := by
  have h : Lays start [.copy start data] (data ++ []) := cons nil
  rwa [List.append_nil] at h

lemma append (h : Lays start ws data) (h' : Lays (start + data.length) ws' data') :
    Lays start (ws ++ ws') (data ++ data') := by
  induction h with
  | nil => exact h'
  | cons _ ih =>
    rw [List.append_assoc]
    rw [List.length_append, ← Nat.add_assoc] at h'
    exact cons (ih h')

/-- They cover the place of the data and nothing else. -/
lemma covers_iff (h : Lays start ws data) (a : Nat) : (∃ w ∈ ws, w.Covers a) ↔ start ≤ a ∧ a < start + data.length := by
  induction h with
  | nil =>
    rw [List.length_nil]
    constructor
    · rintro ⟨w, hw, -⟩
      cases hw
    · intro ha
      omega
  | cons _ ih =>
    rw [List.exists_mem_cons_iff, ih, List.length_append, Write.Covers, Write.position_copy, Write.size_copy]
    omega

end Lays

/-! ## Writes that hold what is there already -/

instance (a : Nat) (w : Write) : Decidable (w.Covers a) := inferInstanceAs (Decidable (_ ∧ _))

/-- On some places a write holds what an image has there. -/
def Write.Keeps (P : Nat → Prop) (image : List UInt8) (w : Write) : Prop :=
  ∀ a, P a → w.Covers a → image[a]? = some (w.byte (a - w.position))

/-- Two images are the same on some places. -/
def SameOn (P : Nat → Prop) (image image' : List UInt8) : Prop := ∀ a, P a → image'[a]? = image[a]?

/-- No two writes cover the same one of some places. -/
def Apart (P : Nat → Prop) (ws : List Write) : Prop :=
  ∀ a, P a → ws.Pairwise fun w w' => w.Covers a → ¬w'.Covers a

section SameOn

variable {P : Nat → Prop} {image image' : List UInt8} {w : Write} {ws : List Write} {a : Nat}

lemma Write.getElem?_apply_of_covers (ha : w.Covers a) (hlen : a < image.length) :
    (w.apply image)[a]? = some (w.byte (a - w.position)) := by
  rw [Write.apply, List.getElem?_mapIdx, List.getElem?_eq_getElem hlen, Option.map_some]
  exact congrArg some (if_pos ha)

lemma Write.getElem?_apply_of_not_covers (ha : ¬w.Covers a) : (w.apply image)[a]? = image[a]? := by
  rw [Write.apply, List.getElem?_mapIdx]
  cases image[a]? with
  | none => rfl
  | some b => exact congrArg some (if_neg ha)

/-- A part that a write does not cover. -/
lemma slice_apply_of_not_covers {i n : Nat} (h : ∀ k < n, ¬w.Covers (i + k)) :
    slice (w.apply image) i n = slice image i n :=
  slice_congr fun k hk => Write.getElem?_apply_of_not_covers (h k hk)

/-- A part of the data of a write. -/
lemma slice_apply_copy {start i n : Nat} {data : List UInt8} (h : i + n ≤ data.length)
    (hlen : start + data.length ≤ image.length) :
    slice ((Write.copy start data).apply image) (start + i) n = slice data i n := by
  apply List.ext_getElem?
  intro k
  rw [getElem?_slice, getElem?_slice]
  split
  · next hk =>
    have hcovers : (Write.copy start data).Covers (start + i + k) := by
      rw [Write.Covers, Write.position_copy, Write.size_copy]
      omega
    have hin : i + k < data.length := by omega
    rw [Write.getElem?_apply_of_covers hcovers (by omega), Write.byte, Write.position_copy, Nat.add_assoc,
      Nat.add_sub_cancel_left, List.getD_eq_getElem?_getD, List.getElem?_eq_getElem hin, Option.getD_some]
  · rfl

lemma SameOn.trans {image'' : List UInt8} (h : SameOn P image image') (h' : SameOn P image' image'') :
    SameOn P image image'' :=
  fun a ha => (h' a ha).trans (h a ha)

lemma SameOn.keeps_iff (h : SameOn P image image') : w.Keeps P image' ↔ w.Keeps P image := by
  constructor
  · intro hw a ha hcovers
    rw [← h a ha]
    exact hw a ha hcovers
  · intro hw a ha hcovers
    rw [h a ha]
    exact hw a ha hcovers

lemma Apart.sublist {ws' : List Write} (h : Apart P ws') (hsub : ws.Sublist ws') : Apart P ws :=
  fun a ha => (h a ha).sublist hsub

lemma Write.keeps_of_not_covers (h : ∀ a, P a → ¬w.Covers a) : w.Keeps P image :=
  fun a ha hcovers => absurd hcovers (h a ha)

/-- One write leaves some places of an image as they were iff it holds what is there. -/
lemma sameOn_apply_iff (hP : ∀ a, P a → a < image.length) : SameOn P image (w.apply image) ↔ w.Keeps P image := by
  constructor
  · intro h a ha hcovers
    rw [← h a ha, Write.getElem?_apply_of_covers hcovers (hP a ha)]
  · intro h a ha
    by_cases hcovers : w.Covers a
    · rw [Write.getElem?_apply_of_covers hcovers (hP a ha), h a ha hcovers]
    · exact Write.getElem?_apply_of_not_covers hcovers

/-- What no write covers. -/
lemma getElem?_applyAll_of_not_covers (h : ∀ w ∈ ws, ¬w.Covers a) : (applyAll ws image)[a]? = image[a]? := by
  induction ws generalizing image with
  | nil => rfl
  | cons w ws ih =>
    rw [applyAll_cons, ih fun w' hw' => h w' (List.mem_cons_of_mem _ hw')]
    exact Write.getElem?_apply_of_not_covers (h w List.mem_cons_self)

/-- A part that no write covers. -/
lemma slice_applyAll_of_not_covers {i n : Nat} (h : ∀ w ∈ ws, ∀ k < n, ¬w.Covers (i + k)) :
    slice (applyAll ws image) i n = slice image i n :=
  slice_congr fun k hk => getElem?_applyAll_of_not_covers fun w hw => h w hw k hk

/-- The data of a write that no later one covers. -/
lemma slice_applyAll_of_last {before after : List Write} {start : Nat} {data : List UInt8}
    (hlen : start + data.length ≤ image.length) (h : ∀ w ∈ after, ∀ k < data.length, ¬w.Covers (start + k)) :
    slice (applyAll (before ++ .copy start data :: after) image) start data.length = data := by
  rw [applyAll_append, applyAll_cons, slice_applyAll_of_not_covers h]
  have hwrite := @slice_apply_copy (applyAll before image) start 0 data.length data (by omega)
    (by rw [length_applyAll]; exact hlen)
  rw [Nat.add_zero] at hwrite
  rw [hwrite]
  exact List.take_length

/-- Writes of which no two cover the same one of some places leave these as they were iff each of them holds
what is there. -/
theorem sameOn_applyAll_iff (hP : ∀ a, P a → a < image.length) (h : Apart P ws) :
    SameOn P image (applyAll ws image) ↔ ∀ w ∈ ws, w.Keeps P image := by
  induction ws generalizing image with
  | nil =>
    constructor
    · intro _ w hw
      cases hw
    · intro _ a _
      rfl
  | cons w ws ih =>
    have hws : Apart P ws := fun a ha => (List.pairwise_cons.mp (h a ha)).2
    have hP' : ∀ a, P a → a < (w.apply image).length := by
      intro a ha
      rw [Write.length_apply]
      exact hP a ha
    have ih := ih hP' hws
    rw [applyAll_cons, List.forall_mem_cons]
    constructor
    · intro hsame
      -- a place that the first write covers is covered by no other one
      have hfirst : SameOn P image (w.apply image) := by
        intro a ha
        by_cases hcovers : w.Covers a
        · rw [← hsame a ha]
          have hno : ∀ w' ∈ ws, ¬w'.Covers a := fun w' hw' => (List.pairwise_cons.mp (h a ha)).1 w' hw' hcovers
          exact (getElem?_applyAll_of_not_covers hno).symm
        · exact Write.getElem?_apply_of_not_covers hcovers
      have hrest : SameOn P (w.apply image) (applyAll ws (w.apply image)) :=
        fun a ha => (hsame a ha).trans (hfirst a ha).symm
      exact ⟨(sameOn_apply_iff hP).mp hfirst, fun w' hw' => hfirst.keeps_iff.mp (ih.mp hrest w' hw')⟩
    · rintro ⟨hkeeps, hrest⟩
      have hfirst := (sameOn_apply_iff hP).mpr hkeeps
      exact hfirst.trans (ih.mpr fun w' hw' => hfirst.keeps_iff.mpr (hrest w' hw'))

end SameOn

end RajNX.WriteTrace
