import RajNX.Lib.LittleEndian
import RajNX.Lib.Splice

/-!
# Fields

Little-endian numbers at places of a byte string. A field that is set is read back, cut to its width, and fields
that lie apart of what is written stay as they are.
-/

namespace RajNX.Fields

open LittleEndian Splice

/-- The field of `n` bytes at an offset. -/
def fieldAt (n : Nat) (bs : List UInt8) (offset : Nat) : Nat := leValue (slice bs offset n)

/-- The field of `n` bytes at an offset is set. -/
def setField (n : Nat) (bs : List UInt8) (offset v : Nat) : List UInt8 := splice bs offset (leBytes n v)

variable {n m v offset offset' : Nat} {bs bs' xs : List UInt8}

lemma fieldAt_lt (n : Nat) (bs : List UInt8) (offset : Nat) : fieldAt n bs offset < 256 ^ n := by
  refine (leValue_lt _).trans_le (Nat.pow_le_pow_right (by decide) ?_)
  rw [slice, List.length_take]
  exact Nat.min_le_left _ _

@[simp] lemma length_setField (h : offset + n ≤ bs.length) : (setField n bs offset v).length = bs.length := by
  apply length_splice
  rwa [length_leBytes]

/-- A field that is set is read back. -/
lemma fieldAt_setField (h : offset + n ≤ bs.length) : fieldAt n (setField n bs offset v) offset = v % 256 ^ n := by
  have hlen := length_leBytes n v
  have hfits : offset + (leBytes n v).length ≤ bs.length := by rwa [hlen]
  have hslice := slice_splice_of_inside hfits (j := 0) (n := n) (by omega)
  have hself : slice (leBytes n v) 0 n = leBytes n v := List.take_of_length_le hlen.le
  rw [Nat.add_zero, hself] at hslice
  rw [fieldAt, setField, hslice, leValue_leBytes]

/-- A field that is set to what it is. -/
lemma setField_self (h : offset + n ≤ bs.length) : setField n bs offset (fieldAt n bs offset) = bs := by
  have hbytes := leBytes_leValue (slice bs offset n)
  rw [length_slice h] at hbytes
  rw [setField, fieldAt, hbytes, splice_slice_self h]

/-- A field apart of what is written. -/
lemma fieldAt_splice_of_apart (h : offset + xs.length ≤ bs.length)
    (hapart : offset' + m ≤ offset ∨ offset + xs.length ≤ offset') :
    fieldAt m (splice bs offset xs) offset' = fieldAt m bs offset' := by
  rw [fieldAt, slice_splice_of_apart h hapart, fieldAt]

lemma fieldAt_setField_of_apart (h : offset + n ≤ bs.length) (hapart : offset' + m ≤ offset ∨ offset + n ≤ offset') :
    fieldAt m (setField n bs offset v) offset' = fieldAt m bs offset' := by
  apply fieldAt_splice_of_apart
  · rwa [length_leBytes]
  · rwa [length_leBytes]

/-- A field in the first part of a byte string. -/
lemma fieldAt_append (h : offset + m ≤ bs.length) : fieldAt m (bs ++ bs') offset = fieldAt m bs offset := by
  rw [fieldAt, slice, List.drop_append_of_le_length (by omega), List.take_append_of_le_length (by
    rw [List.length_drop]; omega)]
  rfl

lemma fieldAt_take (h : offset + m ≤ n) : fieldAt m (bs.take n) offset = fieldAt m bs offset := by
  rw [fieldAt, slice, List.drop_take, List.take_take, Nat.min_eq_left (by omega)]
  rfl

/-! ## Many fields -/

/-- Fields are set one after the other, each to a value of the bytes at that time. -/
def setFields (n : Nat) (pos : Nat → Nat) (value : List UInt8 → Nat → Nat) (is : List Nat) (bs : List UInt8) :
    List UInt8 :=
  is.foldl (fun bs i => setField n bs (pos i) (value bs i)) bs

/-- Fields that lie one behind the other, with values that do not depend on each other: all of them are set, and
what lies apart stays as it is. -/
lemma setFields_spec {len : Nat} (pos : Nat → Nat) (value : List UInt8 → Nat → Nat) {is : List Nat}
    (hlen : bs.length = len) (hfits : ∀ i ∈ is, pos i + n ≤ len) (hpos : is.Pairwise fun i j => pos i + n ≤ pos j)
    (hvalue : is.Pairwise fun i j => ∀ bs v, bs.length = len → value (setField n bs (pos i) v) j = value bs j) :
    (setFields n pos value is bs).length = len ∧
      (∀ m offset, (∀ i ∈ is, offset + m ≤ pos i ∨ pos i + n ≤ offset) →
        fieldAt m (setFields n pos value is bs) offset = fieldAt m bs offset) ∧
      ∀ i ∈ is, fieldAt n (setFields n pos value is bs) (pos i) = value bs i % 256 ^ n := by
  induction is generalizing bs with
  | nil => exact ⟨hlen, fun _ _ _ => rfl, fun _ hi => absurd hi List.not_mem_nil⟩
  | cons i is ih =>
    obtain ⟨hfit, hfits⟩ := List.forall_mem_cons.mp hfits
    obtain ⟨hbehind, hpos⟩ := List.pairwise_cons.mp hpos
    obtain ⟨hfirst, hvalue⟩ := List.pairwise_cons.mp hvalue
    have hnext : (setField n bs (pos i) (value bs i)).length = len := by rw [length_setField (by omega), hlen]
    obtain ⟨hlength, hapart, hset⟩ := ih hnext hfits hpos hvalue
    refine ⟨hlength, fun m offset hfields => ?_, fun j hj => ?_⟩
    · obtain ⟨hfield, hfields⟩ := List.forall_mem_cons.mp hfields
      exact (hapart m offset hfields).trans (fieldAt_setField_of_apart (by omega) hfield)
    · rcases List.mem_cons.mp hj with rfl | hj
      · exact (hapart n (pos j) fun k hk => .inl (hbehind k hk)).trans (fieldAt_setField (by omega))
      · rw [← hfirst j hj bs (value bs i) hlen]
        exact hset j hj

end RajNX.Fields
