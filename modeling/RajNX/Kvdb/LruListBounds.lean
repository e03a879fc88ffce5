import RajNX.Kvdb.FileKeyValueCache
import RajNX.Lib.Fallible
import RajNX.Lib.Fields

/-!
# The list of a damaged file

`LruList` as it is read from `lru_list.dat`, and its operations with each access to the array of keys checked. The
count of the keys comes from the file as it is. While it is at most the capacity, the checked operations are those
of the list (`Checked.remove_eq` and so on); once it is greater, the first look at a key is outside of the array.
-/

namespace RajNX.Kvdb

open Splice Fallible

variable {κ : Type}

/-- How an operation goes wrong: by an access outside of the array, by an abort of `Push`, `Pop`, `Peek` or
`RemoveIndex`, by the undefined behaviour of `Pop`, or by the abort of `Get` itself. -/
inductive MemoryStop
  | outside
  | aborted
  | undefined
  | getAborted
deriving Repr, DecidableEq

namespace Checked

section

variable (l : LruList κ)

/-- A look at a key. -/
def readKey (i : Nat) : Except MemoryStop κ :=
  match l.keys[i]? with
  | none => .error .outside
  | some key => .ok key

/-- `RemoveIndex` -/
def removeIndex (i : Nat) : Except MemoryStop (LruList κ) :=
  if l.getCount ≤ i then .error .aborted
  else
    let n := l.getCount - (i + 1)
    -- nothing is moved if the key is the last one
    if 0 < n ∧ l.capacity < i + 1 + n then .error .outside
    else .ok ⟨splice l.keys i (slice l.keys (i + 1) n), l.entryCount - 1⟩

/-- `Get` -/
def get (i : Nat) : Except MemoryStop κ :=
  if l.getCount ≤ i then .error .getAborted else readKey l i

/-- `Peek` -/
def peek : Except MemoryStop κ := if l.isEmpty then .error .aborted else get l 0

/-- `Push` -/
def push (key : κ) : Except MemoryStop (LruList κ) :=
  if l.isFull then .error .aborted
  else if l.capacity ≤ l.getCount then .error .outside
  else .ok ⟨l.keys.set l.getCount key, (l.entryCount + 1) % 2 ^ 32⟩

/-- `Pop`, which is declared to return a key and has no `return`: it runs off its end -/
def pop : Except MemoryStop (LruList κ) :=
  if l.isEmpty then .error .aborted
  else do
    let _ ← removeIndex l 0
    .error .undefined

/-- `RemoveOldestKey` -/
def removeOldestKey : Except MemoryStop (LruList κ) := do
  let _ ← peek l
  pop l

end

/-- An operation goes wrong, and not by the abort of `Get`. -/
inductive Stops {α : Type} : Except MemoryStop α → Prop
  | outside : Stops (.error .outside)
  | aborted : Stops (.error .aborted)
  | undefined : Stops (.error .undefined)

lemma Stops.bind {α β : Type} {r : Except MemoryStop α} (h : Stops r) (f : α → Except MemoryStop β) :
    Stops (r >>= f) := by
  cases h with
  | outside => exact .outside
  | aborted => exact .aborted
  | undefined => exact .undefined

/-- Nothing goes on after `Pop`. -/
lemma pop_stops (l : LruList κ) : Stops (pop l) := by
  unfold pop removeIndex
  split
  · exact .aborted
  · split
    · exact .aborted
    · dsimp only
      split
      · exact .outside
      · exact .undefined

lemma removeOldestKey_stops (l : LruList κ) : Stops (removeOldestKey l) := by
  unfold removeOldestKey peek get readKey
  split
  · exact .aborted
  · next hempty =>
    rw [LruList.isEmpty, decide_eq_true_iff] at hempty
    rw [if_neg (Nat.not_le.mpr (Nat.pos_of_ne_zero hempty))]
    split
    · exact .outside
    · exact pop_stops l

lemma removeOldestKey_ne_ok {l l' : LruList κ} : removeOldestKey l ≠ .ok l' := by
  intro h
  have hstops := removeOldestKey_stops l
  rw [h] at hstops
  cases hstops

/-- The loop of `FileKeyValueCache::Set`, given the results of its attempts to write the value. -/
def setLoop (results : Nat → Nat) (attempt : Nat) (l : LruList κ) : Except MemoryStop (LruList κ) :=
  if isNotEnoughFreeSpace (results attempt) then
    if l.getCount = 1 then pop l
    else
      match h : removeOldestKey l with
      | .error e => .error e
      | .ok l => setLoop results (attempt + 1) l
  else .ok l
termination_by l.entryCount
decreasing_by
  exact absurd h removeOldestKey_ne_ok

/-- The loop of `FileKeyValueCache::RemoveAll`. -/
def removeAll (l : LruList κ) : Except MemoryStop (LruList κ) :=
  if l.isEmpty then .ok l
  else
    match _h : removeOldestKey l with
    | .error e => .error e
    | .ok l => removeAll l
termination_by l.entryCount
decreasing_by
  exact absurd _h removeOldestKey_ne_ok

variable [DecidableEq κ]

/-- The loop of `Remove` and of `Contains`. -/
def lastIndex (l : LruList κ) (key : κ) : Nat → Except MemoryStop (Option Nat)
  | 0 => .ok none
  | n + 1 => do
    if (← readKey l n) = key then return some n
    lastIndex l key n

/-- `Remove` -/
def remove (l : LruList κ) (key : κ) : Except MemoryStop (Bool × LruList κ) := do
  match ← lastIndex l key l.getCount with
  | none => return (false, l)
  | some i => return (true, ← removeIndex l i)

/-- `Contains` -/
def contains (l : LruList κ) (key : κ) : Except MemoryStop Bool := do
  return (← lastIndex l key l.getCount).isSome

/-- `Update` -/
def update (l : LruList κ) (key : κ) : Except MemoryStop (Bool × LruList κ) := do
  let (removed, l) ← remove l key
  if removed then return (true, ← push l key) else return (false, l)

/-- The first part of `FileKeyValueCache::Set`. -/
def prepare (l : LruList κ) (key : κ) : Except MemoryStop (LruList κ) := do
  let (updated, l) ← update l key
  if updated then return l
  else if l.isFull then push (← removeOldestKey l) key
  else push l key

end Checked

/-- The calls of `FileKeyValueCache` that reach the list, with the results of the attempts to write a value. -/
inductive ListCall (κ : Type)
  | set (key : κ) (results : Nat → Nat)
  | get (key : κ)
  | remove (key : κ)
  | removeAll
  | contains (key : κ)
  | getKey (i : Nat)

/-- The list after a call. -/
def LruList.call [DecidableEq κ] (l : LruList κ) : ListCall κ → Except MemoryStop (LruList κ)
  | .set key results => do Checked.setLoop results 0 (← Checked.prepare l key)
  | .get key => do return (← Checked.update l key).2
  | .remove key => do return (← Checked.remove l key).2
  | .removeAll => Checked.removeAll l
  | .contains key => do
    let _ ← Checked.contains l key
    return l
  | .getKey i => do
    let _ ← Checked.get l i
    return l

/-- The list after some calls. -/
def LruList.run [DecidableEq κ] (l : LruList κ) (calls : List (ListCall κ)) : Except MemoryStop (LruList κ) :=
  calls.foldlM LruList.call l

/-- No access is outside of the array, no abort is reached but that of `Get`, and no call is one of `Pop`. -/
def StaysInside {α : Type} (r : Except MemoryStop α) : Prop := ¬Checked.Stops r

end RajNX.Kvdb
