import RajNX.Lib.SlashPath
import RajNX.Lib.CString

/-!
# Path utilities

`FsPathUtils::IsNormalized` and `FsPathUtils::Normalize` of `fs_path_utils.cpp`. `Normalize` writes
through a pointer into the middle of its caller's buffer; here it takes the whole buffer and the
index `p` of its first byte, so that what it does to the bytes below `p` is part of its result.

A source path is the C string the code reads, without its terminator. An index that leaves the buffer
or falls below `out` ends the call with `fault`, and the proofs show which calls never end so.
-/

namespace RajNX.FsMitm

open SlashPath CString

/-- The results of the path functions. -/
inductive FsResult
  | success
  | invalidPath
  | invalidPathFormat
  | tooLongPath
  | directoryUnobtainable
  | allocationFailureInSubDirectoryFileSystem
deriving Repr, DecidableEq

/-- How a call ends: with a result and what it wrote, in `std::abort` or a failed `R_ASSERT`, or in an
access outside of the buffer. -/
inductive Ending (α : Type)
  | returned (result : FsResult) (value : α)
  | abort
  | fault
deriving Repr, DecidableEq

/-- Carry what a call wrote on to its caller. -/
def Ending.map {α β : Type} (f : α → β) : Ending α → Ending β
  | .returned result value => .returned result (f value)
  | .abort => .abort
  | .fault => .fault

/-- `FS_MAX_PATH` of libnx, the size of an `FsPath`. -/
def fsMaxPath : Nat := 0x301

/-- The character `/`. -/
def slash : UInt8 := 0x2F

/-- The character `.`. -/
def dot : UInt8 := 0x2E

/-- `FsPathUtils::IsWindowsDriveLetter` -/
def isWindowsDriveLetter (c : UInt8) : Bool :=
  (0x61 ≤ c && c ≤ 0x7A) || (0x41 ≤ c && c ≤ 0x5A)

/-- `FsPathUtils::IsCurrentDirectory` -/
def isCurrentDirectory (path : List UInt8) : Bool :=
  path.getD 0 0 == dot && (path.getD 1 0 == 0 || path.getD 1 0 == slash)

/-- `FsPathUtils::IsParentDirectory` -/
def isParentDirectory (path : List UInt8) : Bool :=
  path.getD 0 0 == dot && path.getD 1 0 == dot &&
    (path.getD 2 0 == 0 || path.getD 2 0 == slash)

/-- `PathState` -/
inductive PathState
  | start
  | normal
  | firstSeparator
  | separator
  | currentDir
  | parentDir
  | windowsDriveLetter
deriving Repr, DecidableEq

/-- The loop of `FsPathUtils::IsNormalized` and the switch after it. -/
def isNormalizedLoop : PathState → List UInt8 → Except FsResult Bool
  | .start, [] => .error .invalidPathFormat
  | .windowsDriveLetter, [] => .error .invalidPathFormat
  | .firstSeparator, [] => .ok true
  | .normal, [] => .ok true
  | .currentDir, [] => .ok false
  | .parentDir, [] => .ok false
  | .separator, [] => .ok false
  | .start, c :: cs =>
    if isWindowsDriveLetter c then isNormalizedLoop .windowsDriveLetter cs
    else if c = slash then isNormalizedLoop .firstSeparator cs
    else .error .invalidPathFormat
  | .normal, c :: cs =>
    if c = slash then isNormalizedLoop .separator cs else isNormalizedLoop .normal cs
  | .firstSeparator, c :: cs =>
    if c = slash then .ok false
    else if c = dot then isNormalizedLoop .currentDir cs
    else isNormalizedLoop .normal cs
  | .separator, c :: cs =>
    if c = slash then .ok false
    else if c = dot then isNormalizedLoop .currentDir cs
    else isNormalizedLoop .normal cs
  | .currentDir, c :: cs =>
    if c = slash then .ok false
    else if c = dot then isNormalizedLoop .parentDir cs
    else isNormalizedLoop .normal cs
  | .parentDir, c :: cs =>
    if c = slash then .ok false else isNormalizedLoop .normal cs
  | .windowsDriveLetter, c :: _ =>
    if c = 0x3A then .ok true else .error .invalidPathFormat

section Steps

variable (c : UInt8) (cs : List UInt8)

lemma isNormalizedLoop_start_cons : isNormalizedLoop .start (c :: cs) =
    if isWindowsDriveLetter c then isNormalizedLoop .windowsDriveLetter cs
    else if c = slash then isNormalizedLoop .firstSeparator cs else .error .invalidPathFormat := rfl

lemma isNormalizedLoop_normal_cons : isNormalizedLoop .normal (c :: cs) =
    if c = slash then isNormalizedLoop .separator cs else isNormalizedLoop .normal cs := rfl

lemma isNormalizedLoop_separator_cons : isNormalizedLoop .separator (c :: cs) = if c = slash then .ok false
    else if c = dot then isNormalizedLoop .currentDir cs else isNormalizedLoop .normal cs := rfl

lemma isNormalizedLoop_currentDir_cons : isNormalizedLoop .currentDir (c :: cs) = if c = slash then .ok false
    else if c = dot then isNormalizedLoop .parentDir cs else isNormalizedLoop .normal cs := rfl

lemma isNormalizedLoop_parentDir_cons : isNormalizedLoop .parentDir (c :: cs) =
    if c = slash then .ok false else isNormalizedLoop .normal cs := rfl

end Steps

/-- `FsPathUtils::IsNormalized` -/
def isNormalized (path : List UInt8) : Except FsResult Bool := isNormalizedLoop .start path

/-- What `Normalize` leaves behind: the buffer and, where it was stored, `*out_len`. -/
structure Written where
  buf : List UInt8
  outLen : Option Nat
deriving Repr, DecidableEq

/-- The locals of the loop of `Normalize`, with the buffer that `out` points into. -/
structure Cursor where
  buf : List UInt8
  len : Nat
  skipNextSep : Bool
deriving Repr, DecidableEq

/-- `out[len++] = b` -/
def Cursor.push (p : Nat) (c : Cursor) (b : UInt8) : Except (Ending Written) Cursor :=
  if p + c.len < c.buf.length then
    .ok { c with buf := c.buf.set (p + c.len) b, len := c.len + 1 }
  else .error .fault

/-- The copying loop: `out[len++]` for each byte. -/
def Cursor.pushAll (p : Nat) (c : Cursor) (bs : List UInt8) : Except (Ending Written) Cursor :=
  bs.foldlM (Cursor.push p) c

/-- `out[len] = 0; *out_len = len; return ResultFsTooLongPath;` -/
def Cursor.tooLong (p : Nat) (c : Cursor) : Ending Written :=
  if p + c.len < c.buf.length then
    .returned .tooLongPath ⟨c.buf.set (p + c.len) 0, some c.len⟩
  else .fault

/-- `while (out[len] != '/') { len--; }` -/
def walkBack (buf : List UInt8) (p : Nat) : Nat → Option Nat
  | 0 => if buf[p]? = some slash then some 0 else none
  | len + 1 =>
    match buf[p + (len + 1)]? with
    | none => none
    | some b => if b = slash then some (len + 1) else walkBack buf p len

/-- The separator written before a name, unless the last name was `.`. -/
def Cursor.separate (p maxOutSize : Nat) (c : Cursor) : Except (Ending Written) Cursor := do
  if c.skipNextSep then
    return { c with skipNextSep := false }
  else if c.len + 1 = maxOutSize then
    throw (c.tooLong p)
  else
    return { (← c.push p slash) with skipNextSep := false }

/-- The part of the loop body after the separator: the rest of the source starts with a name of
`dirLen` bytes. -/
def Cursor.place (p maxOutSize : Nat) (src : List UInt8) (dirLen : Nat) (c : Cursor) :
    Except (Ending Written) Cursor := do
  if isCurrentDirectory src then
    return { c with skipNextSep := true }
  else if isParentDirectory src then
    if c.len = 1 then
      throw (.returned .directoryUnobtainable ⟨c.buf, none⟩)
    -- `len -= 2` below two leaves the output
    if c.len < 2 then
      throw .fault
    match walkBack c.buf p (c.len - 2) with
    | none => throw .fault
    | some len => return { c with len }
  else if c.len + dirLen + 1 ≤ maxOutSize then
    c.pushAll p (src.take dirLen)
  else if maxOutSize < c.len + 1 then
    -- `max_out_size - 1 - len` wraps and the copy runs off the buffer
    throw .fault
  else
    throw ((← c.pushAll p (src.take (maxOutSize - 1 - c.len))).tooLong p)

/-- The loop of `Normalize`. `src` is the rest of the source; each turn consumes some of it, so fuel
above its length is never used up. -/
def normalizeLoop (p maxOutSize : Nat) : Nat → List UInt8 → Cursor → Except (Ending Written) Cursor
  | 0, _, _ => throw .fault
  | fuel + 1, src, c => do
    if src = [] then
      return c
    let isSep := src.head? == some slash
    let rest := if isSep then src.dropWhile (· == slash) else src
    if rest = [] then
      return c
    let c ← if isSep then c.separate p maxOutSize else pure c
    let dirLen := (rest.takeWhile (· ≠ slash)).length
    let c ← c.place p maxOutSize rest dirLen
    normalizeLoop p maxOutSize fuel (rest.drop dirLen) c

/-- The end of `Normalize`: the last length check, the terminator and the assertion. -/
def Cursor.terminate (p maxOutSize : Nat) (c : Cursor) : Except (Ending Written) Written :=
  -- `len - 1` wraps at zero
  if c.len = 0 ∨ maxOutSize < c.len - 1 then
    throw (.returned .tooLongPath ⟨c.buf, none⟩)
  else if c.buf.length ≤ p + c.len then
    throw .fault
  else
    match isNormalized (cString ((c.buf.set (p + c.len) 0).drop p)) with
    | .ok true => return ⟨c.buf.set (p + c.len) 0, some c.len⟩
    | _ => throw .abort

/-- The root's separator when nothing is left of the path, and the end. -/
def Cursor.close (p maxOutSize : Nat) (c : Cursor) : Except (Ending Written) Written :=
  if c.len = 0 ∧ maxOutSize ≠ 0 then c.push p slash >>= Cursor.terminate p maxOutSize
  else c.terminate p maxOutSize

/-- The part of `Normalize` after its loop. -/
def Cursor.finish (p maxOutSize : Nat) (c : Cursor) : Except (Ending Written) Written :=
  if c.skipNextSep then
    if c.len = 0 then throw .fault
    else Cursor.close p maxOutSize { c with len := c.len - 1 }
  else c.close p maxOutSize

/-- `FsPathUtils::Normalize(&buf[p], max_out_size, src, out_len)` -/
def normalize (buf : List UInt8) (p maxOutSize : Nat) (src : List UInt8) : Ending Written :=
  if src.head? ≠ some slash then .returned .invalidPathFormat ⟨buf, none⟩
  else
    match normalizeLoop p maxOutSize (src.length + 1) src ⟨buf, 0, false⟩ >>=
      Cursor.finish p maxOutSize with
    | .ok written => .returned .success written
    | .error ending => ending

/-! ## Normal paths -/

/-- The names of a normal path, free of terminators. -/
structure GoodName (c : List UInt8) : Prop extends IsName slash dot c where
  zero_notMem : 0 ∉ c

lemma slash_ne_zero : slash ≠ 0 := by decide

lemma GoodName.plain {c : List UInt8} (h : GoodName c) : c ≠ [] ∧ slash ∉ c := h.toIsName.plain

variable {names : List (List UInt8)}

lemma zero_notMem_body (h : ∀ c ∈ names, GoodName c) : 0 ∉ body slash names := by
  intro hm
  obtain ⟨c, hc, hm⟩ := List.mem_flatMap.mp hm
  cases hm with
  | tail _ hm => exact (h c hc).zero_notMem hm

lemma zero_notMem_render (h : ∀ c ∈ names, GoodName c) : 0 ∉ render slash names := by
  unfold render
  split
  next => simp [slash_ne_zero.symm]
  next => exact zero_notMem_body h

/-- Inside of a name the state stays `Normal`. -/
lemma isNormalizedLoop_normal {c : List UInt8} (hc : slash ∉ c) (rest : List UInt8) :
    isNormalizedLoop .normal (c ++ rest) = isNormalizedLoop .normal rest := by
  induction c with
  | nil => rfl
  | cons b c ih =>
    rw [List.mem_cons, not_or] at hc
    rw [List.cons_append, isNormalizedLoop_normal_cons, if_neg (Ne.symm hc.1)]
    exact ih hc.2

/-- A good name takes the machine from a separator to `Normal`. -/
lemma isNormalizedLoop_name {c : List UInt8} (h : GoodName c) (rest : List UInt8) :
    isNormalizedLoop .separator (c ++ rest) = isNormalizedLoop .normal rest := by
  have hs := h.sep_notMem
  match c, h, hs with
  | [], h, _ => exact (h.ne_nil rfl).elim
  | b :: c, h, hs =>
    rw [List.mem_cons, not_or] at hs
    rw [List.cons_append, isNormalizedLoop_separator_cons, if_neg (Ne.symm hs.1)]
    split
    next hb =>
      -- a leading dot: the name goes on, and with a second dot it goes on again
      match c, h, hs with
      | [], h, _ => exact (h.ne_dot (by rw [hb])).elim
      | b' :: c, h, hs =>
        have hs' := hs.2
        rw [List.mem_cons, not_or] at hs'
        rw [List.cons_append, isNormalizedLoop_currentDir_cons, if_neg (Ne.symm hs'.1)]
        split
        next hb' =>
          match c, h, hs' with
          | [], h, _ => exact (h.ne_dotdot (by rw [hb, hb'])).elim
          | b'' :: c, _, hs' =>
            have hs'' := hs'.2
            rw [List.mem_cons, not_or] at hs''
            rw [List.cons_append, isNormalizedLoop_parentDir_cons, if_neg (Ne.symm hs''.1)]
            exact isNormalizedLoop_normal hs''.2 rest
        next => exact isNormalizedLoop_normal hs'.2 rest
    next => exact isNormalizedLoop_normal hs.2 rest

lemma isNormalizedLoop_body (h : ∀ c ∈ names, GoodName c) : isNormalizedLoop .normal (body slash names) = .ok true := by
  induction names with
  | nil => rfl
  | cons c cs ih =>
    have hbody : body slash (c :: cs) = slash :: (c ++ body slash cs) := by
      simp [body]
    rw [hbody, isNormalizedLoop_normal_cons, if_pos rfl, isNormalizedLoop_name (h c (by simp))]
    exact ih fun c' hc' => h c' (List.mem_cons_of_mem _ hc')

/-- The first separator is treated like the others. -/
lemma isNormalizedLoop_firstSeparator {s : List UInt8} (h : s ≠ []) :
    isNormalizedLoop .firstSeparator s = isNormalizedLoop .separator s := by
  cases s with
  | nil => exact (h rfl).elim
  | cons => rfl

/-- A canonical path of good names passes the check at the end of `Normalize`. -/
lemma isNormalized_render (h : ∀ c ∈ names, GoodName c) : isNormalized (render slash names) = .ok true := by
  cases names with
  | nil => rfl
  | cons c cs =>
    have hrender : render slash (c :: cs) = slash :: (c ++ body slash cs) := by
      simp [render, body]
    have hc := h c (by simp)
    rw [hrender, isNormalized, isNormalizedLoop_start_cons, if_neg (by decide), if_pos rfl,
      isNormalizedLoop_firstSeparator (by simp [hc.ne_nil]), isNormalizedLoop_name hc]
    exact isNormalizedLoop_body fun c' hc' => h c' (List.mem_cons_of_mem _ hc')

/-! ## The output of `Normalize` -/

/-- The cursor of a call whose caller's bytes are `pre`, which has written `text` so far. -/
def held (pre text tail : List UInt8) (skip : Bool) : Cursor :=
  ⟨pre ++ (text ++ tail), text.length, skip⟩

lemma held_len (pre text tail : List UInt8) (skip : Bool) :
    (held pre text tail skip).len = text.length := rfl

lemma held_buf (pre text tail : List UInt8) (skip : Bool) :
    (held pre text tail skip).buf = pre ++ (text ++ tail) := rfl

lemma push_held (pre text tail : List UInt8) (t : UInt8) (skip : Bool) (b : UInt8) :
    (held pre text (t :: tail) skip).push pre.length b =
      .ok (held pre (text ++ [b]) tail skip) := by
  simp [held, Cursor.push]

lemma pushAll_held (pre text tail bs : List UInt8) (skip : Bool) (h : bs.length ≤ tail.length) :
    (held pre text tail skip).pushAll pre.length bs =
      .ok (held pre (text ++ bs) (tail.drop bs.length) skip) := by
  induction bs generalizing text tail with
  | nil => simp [Cursor.pushAll, pure, Except.pure]
  | cons b bs ih =>
    cases tail with
    | nil => simp at h
    | cons t tail =>
      have ih' := ih (text ++ [b]) tail (by simpa using h)
      rw [Cursor.pushAll, List.foldlM_cons, push_held]
      simpa [Cursor.pushAll, bind, Except.bind] using ih'

lemma tooLong_held (pre text tail : List UInt8) (t : UInt8) (skip : Bool) :
    (held pre text (t :: tail) skip).tooLong pre.length =
      .returned .tooLongPath ⟨pre ++ (text ++ 0 :: tail), some text.length⟩ := by
  simp [held, Cursor.tooLong]

/-- Walking back over a name stops at the separator before it. -/
lemma walkBack_name (pre text name tail : List UInt8) (h : slash ∉ name) (k : Nat) (hk : k ≤ name.length) :
    walkBack (pre ++ (text ++ (slash :: (name ++ tail)))) pre.length (text.length + k) =
      some text.length := by
  induction k with
  | zero =>
    cases ht : text.length with
    | zero =>
      obtain rfl := List.length_eq_zero_iff.mp ht
      simp [walkBack]
    | succ n =>
      rw [Nat.add_zero, walkBack, ← ht]
      simp
  | succ k ih =>
    have hget : (pre ++ (text ++ (slash :: (name ++ tail))))[pre.length + (text.length + k + 1)]? =
        name[k]? := by
      rw [List.getElem?_append_right (by omega), List.getElem?_append_right (by omega),
        show pre.length + (text.length + k + 1) - pre.length - text.length = k + 1 by omega,
        List.getElem?_cons_succ, List.getElem?_append_left (by omega)]
    have hlt : k < name.length := hk
    have hne : name[k] ≠ slash := fun he => h (he ▸ List.getElem_mem hlt)
    rw [← Nat.add_assoc, walkBack, hget, List.getElem?_eq_getElem hlt]
    simp only [if_neg hne]
    exact ih (Nat.le_of_lt hlt)

/-! ## The loop of `Normalize` -/

section Source

variable {name rest : List UInt8}

/-- The byte after a name ends it. -/
lemma getD_zero_of_rest (hrest : rest = [] ∨ rest.head? = some slash) : rest.getD 0 0 = 0 ∨ rest.getD 0 0 = slash := by
  rcases hrest with rfl | hr
  · exact .inl rfl
  · exact .inr (by rw [List.getD_eq_getElem?_getD, ← List.head?_eq_getElem?, hr]; rfl)

/-- In front of a name the test for `.` compares the whole name. -/
lemma isCurrentDirectory_iff (ne : name ≠ []) (hs : slash ∉ name) (hz : 0 ∉ name)
    (hrest : rest = [] ∨ rest.head? = some slash) : isCurrentDirectory (name ++ rest) = true ↔ name = [dot] := by
  match name with
  | [] => exact (ne rfl).elim
  | [a] => simpa [isCurrentDirectory] using fun _ => getD_zero_of_rest hrest
  | a :: b :: name =>
    have hb : b ≠ slash := fun he => hs (by simp [he])
    have hb' : b ≠ 0 := fun he => hz (by simp [he])
    simp [isCurrentDirectory, hb, hb']

/-- In front of a name the test for `..` compares the whole name. -/
lemma isParentDirectory_iff (ne : name ≠ []) (hs : slash ∉ name) (hz : 0 ∉ name)
    (hrest : rest = [] ∨ rest.head? = some slash) : isParentDirectory (name ++ rest) = true ↔ name = [dot, dot] := by
  have hr := getD_zero_of_rest hrest
  match name with
  | [] => exact (ne rfl).elim
  | [a] =>
    have hd : (a :: rest).getD 1 0 ≠ dot := by
      rw [List.getD_cons_succ]
      rcases hr with hr | hr <;> rw [hr] <;> decide
    simp only [isParentDirectory, List.cons_append, List.nil_append, beq_false_of_ne hd]
    simp
  | [a, b] => simpa [isParentDirectory, and_assoc] using fun _ _ => hr
  | a :: b :: b' :: name =>
    have hb : b' ≠ slash := fun he => hs (by simp [he])
    have hb' : b' ≠ 0 := fun he => hz (by simp [he])
    simp [isParentDirectory, hb, hb']

end Source

section Loop

variable (pre : List UInt8) (maxOutSize size : Nat)

/-- The cursor has written `text`, which leaves room for the terminator, in a buffer of `size`
bytes. -/
def At (text : List UInt8) (skip : Bool) (c : Cursor) : Prop :=
  ∃ tail, c = held pre text tail skip ∧ text.length < maxOutSize ∧
    pre.length + text.length + tail.length = size

/-- The text of a stack of names; after a `.` the next separator is already there. -/
def textOf (names : List (List UInt8)) (skip : Bool) : List UInt8 :=
  body slash names ++ if skip then [slash] else []

/-- Between two turns of the loop the output is the text of the names resolved so far. -/
def Progress (names : List (List UInt8)) (c : Cursor) : Prop :=
  (∀ name ∈ names, GoodName name) ∧
    ∃ skip, At pre maxOutSize size (textOf names skip) skip c

/-- What is left behind of a path that is too long: a terminated text inside of the output. -/
def CutOff (w : Written) : Prop :=
  ∃ text rest, w = ⟨pre ++ (text ++ 0 :: rest), some text.length⟩ ∧ text.length < maxOutSize ∧
    w.buf.length = size

/-- What a part of the loop does when the names it resolves give `names?`, and `fit` tells whether their text stays
inside of the output. -/
inductive Outcome (names? : Option (List (List UInt8))) (fit : Bool) : Except (Ending Written) Cursor → Prop
  | ok {names c} : names? = some names → fit = true → Progress pre maxOutSize size names c →
    Outcome names? fit (.ok c)
  | tooLong {w} : fit = false → CutOff pre maxOutSize size w →
    Outcome names? fit (.error (.returned .tooLongPath w))
  | climbed {w} : names? = none → w.buf.length = size →
    Outcome names? fit (.error (.returned .directoryUnobtainable w))

variable {pre maxOutSize size} {c : Cursor}

/-- A cursor inside of its buffer has a byte to write to. -/
lemma At.exists_tail {text : List UInt8} {skip : Bool}
    (h : At pre maxOutSize size text skip c) (hsize : pre.length + maxOutSize ≤ size) :
    ∃ t tail, c = held pre text (t :: tail) skip ∧ text.length < maxOutSize ∧
      pre.length + text.length + (tail.length + 1) = size := by
  obtain ⟨tail, rfl, hlt, hlen⟩ := h
  cases tail with
  | nil => simp at hlen; omega
  | cons t tail => exact ⟨t, tail, rfl, hlt, hlen⟩

variable {names : List (List UInt8)}

/-- After the separator the output ends in one, or there was no room for it. -/
lemma Progress.separate (h : Progress pre maxOutSize size names c) (hsize : pre.length + maxOutSize ≤ size) :
    (∃ w, c.separate pre.length maxOutSize = .error (.returned .tooLongPath w) ∧
      maxOutSize ≤ (body slash names).length + 1 ∧ CutOff pre maxOutSize size w) ∨
    ∃ c', c.separate pre.length maxOutSize = .ok c' ∧
      At pre maxOutSize size (body slash names ++ [slash]) false c' := by
  obtain ⟨-, skip, hat⟩ := h
  obtain ⟨t, tail, rfl, hlt, hlen⟩ := hat.exists_tail hsize
  cases skip with
  | true =>
    refine .inr ⟨_, rfl, t :: tail, rfl, hlt, hlen⟩
  | false =>
    simp only [textOf, Bool.false_eq_true, if_false, List.append_nil] at hlt hlen ⊢
    by_cases hfull : (body slash names).length + 1 = maxOutSize
    · refine .inl ⟨⟨pre ++ (body slash names ++ 0 :: tail), some (body slash names).length⟩, ?_, hfull.ge,
        body slash names, tail, rfl, hlt, ?_⟩
      · rw [Cursor.separate, if_neg (by simp [held]), if_pos (by simpa [held] using hfull),
          tooLong_held]
        rfl
      · simp only [List.length_append, List.length_cons]
        omega
    · refine .inr ⟨_, ?_, tail, rfl, ?_, ?_⟩
      · rw [Cursor.separate, if_neg (by simp [held]), if_neg (by simpa [held] using hfull),
          push_held]
        rfl
      · simp only [List.length_append, List.length_singleton]
        omega
      · simp only [List.length_append, List.length_singleton]
        omega

/-- `..` goes back over the last name, to the separator before it and not further. -/
lemma At.place_parent {last src : List UInt8} (n : Nat) (hlast : GoodName last)
    (h : At pre maxOutSize size (body slash (names ++ [last]) ++ [slash]) false c)
    (hcur : ¬isCurrentDirectory src = true) (hpar : isParentDirectory src = true) :
    ∃ c', c.place pre.length maxOutSize src n = .ok c' ∧
      At pre maxOutSize size (body slash names) false c' := by
  obtain ⟨tail, rfl, hlt, hlen⟩ := h
  have htext : body slash (names ++ [last]) ++ [slash] ++ tail =
      body slash names ++ (slash :: (last ++ (slash :: tail))) := by
    simp [body_append]
  have hlength : (body slash (names ++ [last]) ++ [slash]).length =
      (body slash names).length + last.length + 2 := by
    simp only [body_append, body_singleton, List.length_append, List.length_cons, List.length_nil]
    omega
  have hpos := List.length_pos_iff.mpr hlast.ne_nil
  refine ⟨held pre (body slash names) (slash :: (last ++ (slash :: tail))) false, ?_, _, rfl, ?_, ?_⟩
  · rw [Cursor.place, if_neg hcur, if_pos hpar]
    simp only [held, htext, hlength]
    rw [if_neg (by omega), if_neg (by omega), Nat.add_sub_cancel,
      walkBack_name pre _ last (slash :: tail) hlast.sep_notMem last.length le_rfl]
    rfl
  · omega
  · simp only [List.length_cons, List.length_append]
    omega

/-- Any other name is copied, or the path is cut off and too long. -/
lemma At.place_name {text src : List UInt8} (n : Nat) (h : At pre maxOutSize size text false c)
    (hsize : pre.length + maxOutSize ≤ size) (hn : n ≤ src.length) (hcur : ¬isCurrentDirectory src = true)
    (hpar : ¬isParentDirectory src = true) :
    (∃ w, c.place pre.length maxOutSize src n = .error (.returned .tooLongPath w) ∧
      maxOutSize ≤ text.length + n ∧ CutOff pre maxOutSize size w) ∨
    ∃ c', c.place pre.length maxOutSize src n = .ok c' ∧
      At pre maxOutSize size (text ++ src.take n) false c' := by
  obtain ⟨tail, rfl, hlt, hlen⟩ := h
  rw [Cursor.place, if_neg hcur, if_neg hpar, held_len]
  by_cases hfit : text.length + n + 1 ≤ maxOutSize
  · have htake : (src.take n).length = n := by
      rw [List.length_take, Nat.min_eq_left hn]
    refine .inr ⟨_, ?_, tail.drop (src.take n).length, rfl, ?_, ?_⟩
    · rw [if_pos hfit, pushAll_held _ _ _ _ _ (by omega)]
    · rw [List.length_append, htake]
      omega
    · rw [List.length_append, List.length_drop, htake]
      omega
  · have htake : (src.take (maxOutSize - 1 - text.length)).length =
        maxOutSize - 1 - text.length := by
      rw [List.length_take]
      omega
    have hle : (src.take (maxOutSize - 1 - text.length)).length < tail.length := by
      omega
    obtain ⟨t, tail', ht⟩ := List.exists_cons_of_ne_nil
      (List.ne_nil_of_length_pos (l := tail.drop (src.take (maxOutSize - 1 - text.length)).length)
        (by rw [List.length_drop]; omega))
    have hdrop := congrArg List.length ht
    rw [List.length_drop, List.length_cons] at hdrop
    refine .inl ⟨⟨pre ++ (text ++ src.take (maxOutSize - 1 - text.length) ++ 0 :: tail'),
      some (text ++ src.take (maxOutSize - 1 - text.length)).length⟩, ?_, by omega,
      text ++ src.take (maxOutSize - 1 - text.length), tail', rfl, ?_, ?_⟩
    · rw [if_neg hfit, if_neg (by omega), pushAll_held _ _ _ _ _ hle.le, ht]
      simp only [bind, Except.bind, tooLong_held]
      rfl
    · rw [List.length_append, htake]
      omega
    · simp only [List.length_append, List.length_cons]
      omega

/-- What placing a name does: `.` only marks the next separator, `..` drops the last name and any
other name is added. -/
lemma At.place {name rest : List UInt8} (good : ∀ name ∈ names, GoodName name)
    (h : At pre maxOutSize size (body slash names ++ [slash]) false c) (hsize : pre.length + maxOutSize ≤ size)
    (ne : name ≠ []) (hs : slash ∉ name) (hz : 0 ∉ name) (hrest : rest = [] ∨ rest.head? = some slash) :
    Outcome pre maxOutSize size (resolve dot names [name]) (fits slash dot maxOutSize names [name])
      (c.place pre.length maxOutSize (name ++ rest) name.length) := by
  have hcur := isCurrentDirectory_iff ne hs hz hrest
  have hpar := isParentDirectory_iff ne hs hz hrest
  have hroom : (body slash names).length + 1 < maxOutSize := by
    obtain ⟨tail, rfl, hlt, hlen⟩ := h
    rwa [List.length_append, List.length_singleton] at hlt
  by_cases hdot : name = [dot]
  · -- the separator stays where it is, and the next one is not written
    obtain ⟨tail, rfl, hlt, hlen⟩ := h
    have hstep : resolve dot names [name] = some names := by
      rw [resolve, if_pos hdot, resolve]
    rw [Cursor.place, if_pos (hcur.mpr hdot)]
    exact .ok hstep (fits_singleton hroom fun next hnext => by
      rw [← Option.some_inj.mp (hstep.symm.trans hnext)]; omega) ⟨good, true, tail, rfl, hlt, hlen⟩
  by_cases hdd : name = [dot, dot]
  · -- the cursor goes back to the separator in front of the last name, if there is one
    cases names using List.reverseRecOn with
    | nil =>
      obtain ⟨tail, rfl, hlt, hlen⟩ := h
      rw [Cursor.place, if_neg (hdot ∘ hcur.mp), if_pos (hpar.mpr hdd)]
      refine .climbed (by rw [resolve, if_neg hdot, if_pos hdd, if_pos rfl]) ?_
      simpa [held, Nat.add_comm, Nat.add_left_comm] using hlen
    | append_singleton names last =>
      obtain ⟨c', hplace, hat⟩ := At.place_parent name.length (good last (by simp)) h
        (hdot ∘ hcur.mp) (hpar.mpr hdd)
      have hstep : resolve dot (names ++ [last]) [name] = some names := by
        rw [resolve, if_neg hdot, if_pos hdd, if_neg (by simp), List.dropLast_concat, resolve]
      rw [hplace]
      refine .ok hstep (fits_singleton hroom fun next hnext => ?_)
        ⟨fun c hc => good c (List.mem_append_left _ hc), false, ?_⟩
      · rw [body_append, List.length_append] at hroom
        rw [← Option.some_inj.mp (hstep.symm.trans hnext)]
        omega
      · simpa [textOf] using hat
  · have hname : GoodName name := ⟨⟨ne, hs, hdot, hdd⟩, hz⟩
    have hstep : resolve dot names [name] = some (names ++ [name]) := by
      rw [resolve_cons_name slash dot hname.toIsName, resolve]
    obtain ⟨w, hplace, hfull, hw⟩ | ⟨c', hplace, hat⟩ := At.place_name name.length h hsize (by simp)
      (hdot ∘ hcur.mp) (hdd ∘ hpar.mp)
    · rw [hplace]
      refine .tooLong (Bool.eq_false_iff.mpr fun hfits => ?_) hw
      have hnext := ((fits_cons.mp hfits).2 _ hstep).1
      rw [List.length_append, List.length_singleton] at hfull
      rw [body_append, body_singleton, List.length_append, List.length_cons] at hnext
      omega
    · rw [hplace]
      refine .ok hstep (fits_singleton hroom fun next hnext => ?_) ⟨?_, false, ?_⟩
      · obtain ⟨tail, -, hlt, -⟩ := hat
        rw [List.take_left, List.length_append, List.length_append, List.length_singleton] at hlt
        rw [← Option.some_inj.mp (hstep.symm.trans hnext), body_append, body_singleton, List.length_append,
          List.length_cons]
        omega
      · intro c hc
        rcases List.mem_append.mp hc with hc | hc
        · exact good c hc
        · rwa [List.mem_singleton.mp hc]
      · simpa [textOf, body_append] using hat

variable {src : List UInt8}

/-- A rest of the source that is empty, or is separators only, ends the loop. -/
lemma normalizeLoop_end (h : src.dropWhile (· == slash) = []) (p fuel : Nat)
    (c : Cursor) : normalizeLoop p maxOutSize (fuel + 1) src c = .ok c := by
  cases src with
  | nil => rfl
  | cons b src =>
    have hb : b = slash := by
      by_contra hne
      rw [List.dropWhile_cons, if_neg (by simpa using hne)] at h
      cases h
    rw [normalizeLoop, if_neg (List.cons_ne_nil b src)]
    simp only [hb, List.head?_cons, beq_self_eq_true, if_true, hb ▸ h]
    rfl

/-- One turn of the loop: the separator, the name after it and the rest. -/
lemma normalizeLoop_turn {src name rest : List UInt8} (hhead : src.head? = some slash)
    (hdrop : src.dropWhile (· == slash) = name ++ rest) (htake : (name ++ rest).takeWhile (· ≠ slash) = name)
    (ne : name ≠ []) (p fuel : Nat) (c : Cursor) :
    normalizeLoop p maxOutSize (fuel + 1) src c =
      (c.separate p maxOutSize >>= fun c => c.place p maxOutSize (name ++ rest) name.length >>=
        normalizeLoop p maxOutSize fuel rest) := by
  have hsrc : src ≠ [] := by
    rintro rfl
    cases hhead
  rw [normalizeLoop, if_neg hsrc]
  simp only [hhead, beq_self_eq_true, if_true, hdrop, htake, List.append_eq_nil_iff, ne, false_and,
    if_false, List.drop_left]

/-- The text after separators is empty or starts with a name. -/
lemma name_after_separators (src : List UInt8) :
    src.dropWhile (· == slash) = [] ∨
    ∃ name rest, src.dropWhile (· == slash) = name ++ rest ∧ name ≠ [] ∧ slash ∉ name ∧
      (name ++ rest).takeWhile (· ≠ slash) = name ∧ (rest = [] ∨ rest.head? = some slash) := by
  obtain ⟨name, rest, hsplit, htake, hs, hrest⟩ := name_split slash
    (src.dropWhile (· == slash))
  by_cases hnil : src.dropWhile (· == slash) = []
  · exact .inl hnil
  refine .inr ⟨name, rest, hsplit, ?_, hs, hsplit ▸ htake, hrest⟩
  rintro rfl
  rw [List.nil_append] at hsplit
  have hfirst := List.head_dropWhile_not (· == slash) hnil
  have hhead := hrest.resolve_left (hsplit ▸ hnil)
  rw [← hsplit, List.head?_eq_some_head hnil, Option.some.injEq] at hhead
  simp [hhead] at hfirst

/-- The loop resolves the names of the source it is given. -/
lemma Progress.normalizeLoop {fuel : Nat}
    (h : Progress pre maxOutSize size names c) (hsize : pre.length + maxOutSize ≤ size)
    (hfuel : src.length < fuel) (hsrc : src = [] ∨ src.head? = some slash) (hz : 0 ∉ src) :
    Outcome pre maxOutSize size (resolve dot names (components slash src))
      (fits slash dot maxOutSize names (components slash src)) (normalizeLoop pre.length maxOutSize fuel src c) := by
  induction fuel generalizing src names c with
  | zero => exact (Nat.not_lt_zero _ hfuel).elim
  | succ fuel ih =>
    rw [← components_dropWhile_sep src]
    obtain hend | ⟨name, rest, hdrop, ne, hs, htake, hrest⟩ := name_after_separators src
    · rw [hend, components_nil, resolve, normalizeLoop_end hend]
      exact .ok rfl fits_nil h
    have hhead : src.head? = some slash := by
      refine hsrc.resolve_left ?_
      rintro rfl
      exact ne (List.append_eq_nil_iff.mp hdrop.symm).1
    have hmem : ∀ b ∈ name ++ rest, b ∈ src := fun b hb =>
      (List.dropWhile_sublist _).subset (hdrop ▸ hb)
    have hlen : rest.length < src.length := by
      have hle := (List.dropWhile_sublist (l := src) (· == slash)).length_le
      have hpos := List.length_pos_iff.mpr ne
      rw [hdrop, List.length_append] at hle
      omega
    rw [hdrop, components_name_append ne hs hrest, ← List.singleton_append, resolve_append, List.singleton_append,
      normalizeLoop_turn hhead hdrop htake ne]
    obtain ⟨w, hsep, hfull, hw⟩ | ⟨c', hsep, hat⟩ := h.separate hsize
    · rw [hsep]
      refine .tooLong (Bool.eq_false_iff.mpr fun hfits => ?_) hw
      exact absurd (fits_cons.mp hfits).1 (by omega)
    rw [hsep]
    have hplace := hat.place h.1 hsize ne hs (fun hm => hz (hmem 0 (by simp [hm]))) hrest
    show Outcome pre maxOutSize size _ _ (c'.place _ _ _ _ >>= _)
    generalize c'.place _ _ _ _ = placed at hplace ⊢
    cases hplace with
    | @ok next c'' hnames hfit hprogress =>
      have hfits : fits slash dot maxOutSize names (name :: components slash rest) =
          fits slash dot maxOutSize next (components slash rest) := by
        apply Bool.eq_iff_iff.mpr
        rw [fits_cons_bind, hnames]
        simp [hfit]
      rw [hnames, hfits]
      exact ih hprogress (by omega) hrest fun hm => hz (hmem 0 (by simp [hm]))
    | tooLong hfit hw =>
      refine .tooLong (Bool.eq_false_iff.mpr fun hfits => ?_) hw
      exact absurd (fits_cons_bind.mp hfits).1 (by rw [hfit]; exact Bool.false_ne_true)
    | climbed hnone hw => exact .climbed (by rw [hnone]; rfl) hw

/-- The canonical path of good names is terminated and passes the assertion. -/
lemma terminate_held {rest : List UInt8} {t : UInt8} {skip : Bool} (good : ∀ name ∈ names, GoodName name)
    (hle : (render slash names).length ≤ maxOutSize + 1) :
    (held pre (render slash names) (t :: rest) skip).terminate pre.length maxOutSize =
      .ok ⟨pre ++ (render slash names ++ 0 :: rest), some (render slash names).length⟩ := by
  have hpos : (render slash names).length ≠ 0 := by
    unfold render
    split
    next => simp
    next hne =>
      cases names with
      | nil => exact (hne rfl).elim
      | cons c cs => simp [body]
  have hset : (pre ++ (render slash names ++ t :: rest)).set
      (pre.length + (render slash names).length) 0 = pre ++ (render slash names ++ 0 :: rest) := by
    simp
  rw [Cursor.terminate, held_len, held_buf, if_neg (by omega), if_neg (by simp), hset,
    List.drop_left, cString_append (zero_notMem_render good), isNormalized_render good]
  rfl

/-- What is left of the path is closed as a canonical path. The terminator of the path `/` does not
fit into an output of one byte. -/
lemma close_held {tail : List UInt8} {skip : Bool} (good : ∀ name ∈ names, GoodName name)
    (hlt : (body slash names).length < maxOutSize)
    (hlen : pre.length + (body slash names).length + tail.length = size) (hsize : pre.length + maxOutSize ≤ size) :
    (maxOutSize = 1 ∧
      (held pre (body slash names) tail skip).close pre.length maxOutSize = .error .fault) ∨
    ∃ rest, (held pre (body slash names) tail skip).close pre.length maxOutSize =
        .ok ⟨pre ++ (render slash names ++ 0 :: rest), some (render slash names).length⟩ ∧
      (pre ++ (render slash names ++ 0 :: rest)).length = size := by
  cases tail with
  | nil => simp at hlen; omega
  | cons t tail =>
    rw [List.length_cons] at hlen
    cases names with
    | cons c cs =>
      have hrender : render slash (c :: cs) = body slash (c :: cs) := by
        simp [render]
      refine .inr ⟨tail, ?_, ?_⟩
      · rw [Cursor.close, if_neg (by simp [held, body]), ← hrender,
          terminate_held good (by rw [hrender]; omega)]
      · simp only [hrender, List.length_append, List.length_cons]
        omega
    | nil =>
      rw [body_nil, List.length_nil] at hlt hlen
      rw [body_nil, Cursor.close, if_pos ⟨rfl, by omega⟩, push_held]
      cases tail with
      | nil =>
        have hmax : maxOutSize = 1 := by
          rw [List.length_nil] at hlen
          omega
        refine .inl ⟨hmax, ?_⟩
        simp [bind, Except.bind, Cursor.terminate, held, throw, throwThe, MonadExceptOf.throw]
      | cons t' rest =>
        refine .inr ⟨rest, ?_, ?_⟩
        · have hle : (render slash []).length ≤ maxOutSize + 1 := by
            simp [render]
          exact terminate_held good hle
        · simp only [render, if_true, List.length_append, List.length_cons, List.length_nil]
          rw [List.length_cons] at hlen
          omega

lemma Progress.finish (h : Progress pre maxOutSize size names c) (hsize : pre.length + maxOutSize ≤ size) :
    (maxOutSize = 1 ∧ c.finish pre.length maxOutSize = .error .fault) ∨
    ∃ rest, c.finish pre.length maxOutSize =
        .ok ⟨pre ++ (render slash names ++ 0 :: rest), some (render slash names).length⟩ ∧
      (pre ++ (render slash names ++ 0 :: rest)).length = size := by
  obtain ⟨good, skip, tail, rfl, hlt, hlen⟩ := h
  cases skip with
  | false =>
    simp only [textOf, Bool.false_eq_true, if_false, List.append_nil] at hlt hlen ⊢
    exact close_held good hlt hlen hsize
  | true =>
    simp only [textOf, if_true, List.length_append, List.length_singleton] at hlt hlen
    have hback : (held pre (textOf names true) tail true).finish pre.length maxOutSize =
        (held pre (body slash names) (slash :: tail) true).close pre.length maxOutSize := by
      simp [Cursor.finish, held, textOf]
    rw [hback]
    refine close_held good (by omega) ?_ hsize
    rw [List.length_cons]
    omega

/-- How a call of `Normalize` with room for a byte and its terminator ends. -/
inductive NormalizeSpec (pre : List UInt8) (maxOutSize size : Nat) (names? : Option (List (List UInt8)))
    (fit : Bool) : Ending Written → Prop
  | success {names rest} : names? = some names → fit = true → (∀ name ∈ names, GoodName name) →
    (pre ++ (render slash names ++ 0 :: rest)).length = size →
    NormalizeSpec pre maxOutSize size names? fit (.returned .success
      ⟨pre ++ (render slash names ++ 0 :: rest), some (render slash names).length⟩)
  | tooLong {w} : fit = false → CutOff pre maxOutSize size w →
    NormalizeSpec pre maxOutSize size names? fit (.returned .tooLongPath w)
  | climbed {w} : names? = none → w.buf.length = size →
    NormalizeSpec pre maxOutSize size names? fit (.returned .directoryUnobtainable w)

/-- On an absolute path `Normalize` resolves its names, writes the canonical path of the result after
the caller's bytes `pre` and leaves these as they are, or fails. -/
lemma normalize_spec (pre out : List UInt8) {maxOutSize : Nat} (hmax : 1 ≤ maxOutSize)
    (hsize : pre.length + maxOutSize ≤ (pre ++ out).length) (hhead : src.head? = some slash) (hz : 0 ∉ src) :
    (maxOutSize = 1 ∧ resolve dot [] (components slash src) ≠ none ∧
      fits slash dot maxOutSize [] (components slash src) = true ∧
      normalize (pre ++ out) pre.length maxOutSize src = .fault) ∨
    NormalizeSpec pre maxOutSize (pre ++ out).length (resolve dot [] (components slash src))
      (fits slash dot maxOutSize [] (components slash src)) (normalize (pre ++ out) pre.length maxOutSize src) := by
  have hinit : Progress pre maxOutSize (pre ++ out).length [] ⟨pre ++ out, 0, false⟩ :=
    ⟨by simp, false, out, rfl, hmax, by simp [textOf]⟩
  have hloop := hinit.normalizeLoop hsize (Nat.lt_succ_self src.length) (.inr hhead) hz
  rw [normalize, if_neg (not_not.mpr hhead)]
  generalize normalizeLoop _ _ _ _ _ = result at hloop ⊢
  cases hloop with
  | tooLong hfit hw => exact .inr (.tooLong hfit hw)
  | climbed hnone hw => exact .inr (.climbed hnone hw)
  | @ok names c hnames hfit hprogress =>
    have hbind : (Except.ok c >>= Cursor.finish pre.length maxOutSize) = c.finish pre.length maxOutSize := rfl
    rw [hbind]
    obtain ⟨hone, hfinish⟩ | ⟨rest, hfinish, hlen⟩ := hprogress.finish hsize
    · exact .inl ⟨hone, by simp [hnames], hfit, by rw [hfinish]⟩
    · rw [hfinish]
      exact .inr (.success hnames hfit hprogress.1 hlen)

/-- With room for a byte and its terminator `Normalize` neither aborts nor leaves its buffer. -/
lemma normalize_returns (pre out : List UInt8) {maxOutSize : Nat}
    (hmax : 2 ≤ maxOutSize) (hsize : pre.length + maxOutSize ≤ (pre ++ out).length) (hz : 0 ∉ src) :
    ∃ result w, normalize (pre ++ out) pre.length maxOutSize src = .returned result w := by
  by_cases hhead : src.head? = some slash
  · obtain ⟨hone, -, -⟩ | hspec := normalize_spec pre out (by omega) hsize hhead hz
    · omega
    · generalize normalize _ _ _ _ = ending at hspec ⊢
      cases hspec with
      | success => exact ⟨_, _, rfl⟩
      | tooLong => exact ⟨_, _, rfl⟩
      | climbed => exact ⟨_, _, rfl⟩
  · rw [normalize, if_pos hhead]
    exact ⟨_, _, rfl⟩

end Loop

end RajNX.FsMitm
