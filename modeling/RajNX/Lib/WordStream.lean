import Mathlib.Tactic

/-!
# Bounded word streams

A cursor over an array of words that is cut off at a limit. A fetch at or past the limit returns a
default word, leaves the cursor where it is and marks the cursor invalid; nothing makes an invalid
cursor valid again.

`Reads mem limit m n f` is the specification of a computation `m` that always fetches `n` words:
when they are all there it returns `f` of them and moves the cursor by exactly `n`, and when one of
them is missing the cursor ends invalid. The rules `Reads.pure`, `Reads.next` and
`Reads.bind` compose such specifications.
-/

namespace RajNX.WordStream

/-- The position of the next fetch, and whether every fetch so far was inside the limit. -/
structure Cursor where
  pos : Nat
  valid : Bool
deriving Repr, DecidableEq

variable {W α β : Type} {mem : Nat → W} {limit : Nat}

lemma bind_apply (m : StateM Cursor α) (k : α → StateM Cursor β) (s : Cursor) :
    (m >>= k) s = k (m s).1 (m s).2 := rfl

lemma pure_apply (a : α) (s : Cursor) : (pure a : StateM Cursor α) s = (a, s) := rfl

lemma map_apply (g : α → β) (m : StateM Cursor α) (s : Cursor) :
    (g <$> m) s = (g (m s).1, (m s).2) := rfl

/-- Fetch one word. -/
def next [Inhabited W] (mem : Nat → W) (limit : Nat) : StateM Cursor W := fun s =>
  if s.pos ≥ limit then (default, { s with valid := false })
  else (mem s.pos, { s with pos := s.pos + 1 })

/-- The `n` words of `mem` from `pos` on. -/
def window (mem : Nat → W) (pos : Nat) : Nat → List W
  | 0 => []
  | n + 1 => mem pos :: window mem (pos + 1) n

@[simp] lemma length_window (pos n : Nat) : (window mem pos n).length = n := by
  induction n generalizing pos with
  | zero => rfl
  | succ n ih => simp [window, ih]

/-- A window splits at any point. -/
lemma window_add (pos n k : Nat) : window mem pos (n + k) = window mem pos n ++ window mem (pos + n) k := by
  induction n generalizing pos with
  | zero => simp [window]
  | succ n ih =>
    rw [show n + 1 + k = (n + k) + 1 from by omega]
    simp only [window, ih, List.cons_append]
    rw [show pos + 1 + n = pos + (n + 1) from by omega]

/-- `m` fetches exactly `n` words and returns `f` of them, or leaves the cursor invalid. -/
structure Reads (mem : Nat → W) (limit : Nat) (m : StateM Cursor α) (n : Nat)
    (f : List W → α) : Prop where
  complete : ∀ s, s.pos + n ≤ limit → m s = (f (window mem s.pos n), { s with pos := s.pos + n })
  short : ∀ s, s.pos ≤ limit → limit < s.pos + n → (m s).2.valid = false
  sticky : ∀ s, s.valid = false → (m s).2.valid = false
  mono : ∀ s, s.pos ≤ (m s).2.pos
  bounded : ∀ s, s.pos ≤ limit → (m s).2.pos ≤ limit

namespace Reads

/-- Returning a value fetches nothing. -/
lemma pure (a : α) : Reads mem limit (Pure.pure a) 0 (fun _ => a) where
  complete _ _ := rfl
  short _ h1 h2 := absurd h2 (by omega)
  sticky _ h := h
  mono _ := Nat.le_refl _
  bounded _ h := h

/-- A single fetch. -/
lemma next [Inhabited W] : Reads mem limit (WordStream.next mem limit) 1 (fun ws => ws.headD default) where
  complete s h := by
    rw [WordStream.next, if_neg (by omega)]
    rfl
  short s _ h := by rw [WordStream.next, if_pos (by omega)]
  sticky s h := by
    unfold WordStream.next
    split
    · rfl
    · exact h
  mono s := by
    unfold WordStream.next
    split
    · exact Nat.le_refl _
    · exact Nat.le_succ _
  bounded s h := by
    unfold WordStream.next
    split
    · exact h
    · change s.pos + 1 ≤ limit
      omega

/-- Sequencing: the second computation fetches the words after those of the first. -/
lemma bind {m : StateM Cursor α} {k : α → StateM Cursor β} {n n' : Nat} {f : List W → α}
    {g : α → List W → β} (hm : Reads mem limit m n f) (hk : ∀ a, Reads mem limit (k a) n' (g a)) :
    Reads mem limit (m >>= k) (n + n') (fun ws => g (f (ws.take n)) (ws.drop n)) where
  complete s h := by
    have hm' := hm.complete s (by omega)
    have hk' := (hk (f (window mem s.pos n))).complete { s with pos := s.pos + n }
      (by simp only; omega)
    rw [bind_apply, hm', hk', window_add, List.take_left' (by simp), List.drop_left' (by simp)]
    simp only [Nat.add_assoc]
  short s hs h := by
    rw [bind_apply]
    by_cases hn : s.pos + n ≤ limit
    · rw [hm.complete s hn]
      exact (hk _).short _ hn (by simp only; omega)
    · exact (hk _).sticky _ (hm.short s hs (by omega))
  sticky s h := (hk _).sticky _ (hm.sticky s h)
  mono s := (hm.mono s).trans ((hk _).mono _)
  bounded s h := (hk _).bounded _ (hm.bounded s h)

end Reads

/-- The whole of a list seen as memory is the list. -/
lemma window_getD [Inhabited W] (ws : List W) : window (fun k => ws.getD k default) 0 ws.length = ws := by
  have h : ∀ pre ws : List W,
      window (fun k => (pre ++ ws).getD k default) pre.length ws.length = ws := by
    intro pre ws
    induction ws generalizing pre with
    | nil => rfl
    | cons w ws ih =>
      have ih' := ih (pre ++ [w])
      simp only [List.append_assoc, List.cons_append, List.nil_append, List.length_append,
        List.length_cons, List.length_nil, Nat.zero_add] at ih'
      simp only [List.length_cons, window, ih']
      simp
  exact h [] ws

/-- What a specified computation returns on some words is what it returns when it is run on just
these words. -/
lemma Reads.apply_eq_run [Inhabited W] {m : (Nat → W) → Nat → StateM Cursor α} {ws : List W}
    {f : List W → α} (hm : ∀ mem limit, Reads mem limit (m mem limit) ws.length f) :
    f ws = (m (fun k => ws.getD k default) ws.length ⟨0, true⟩).1 := by
  have h := (hm (fun k => ws.getD k default) ws.length).complete ⟨0, true⟩ (by simp)
  rw [h, window_getD]

end RajNX.WordStream
