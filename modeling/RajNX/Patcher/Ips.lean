import RajNX.Lib.WriteTrace

/-!
# IPS patches

The two engines that apply an IPS or IPS32 patch: `ApplyIpsPatch` of libstratosphere, for modules that are
loaded, and `apply_ips_patch` of the bootloader, for the kernel and the initial processes. Both go through
the records of a file and write to the image, of which the first bytes are protected.

Offsets and sizes of records are 32-bit numbers. The engines take sums and differences of them without a
check, so that a record past the end of the image writes outside of it; `IpsFits` says when none does.
-/

namespace RajNX.Patcher

open WriteTrace

/-- `fread` of one item. It fails on a file that is too short, and on an item of no bytes. -/
def fread (size : Nat) (f : List UInt8) : Option (List UInt8 × List UInt8) :=
  if size = 0 ∨ f.length < size then none else some (f.take size, f.drop size)

/-- `IpsTailMagic` and `Ips32TailMagic` -/
def ipsTailMagic (isIps32 : Bool) : List UInt8 :=
  if isIps32 then [0x45, 0x45, 0x4F, 0x46] else [0x45, 0x4F, 0x46]

/-- `IsIpsTail` -/
def isIpsTail (isIps32 : Bool) (buffer : List UInt8) : Bool := buffer = ipsTailMagic isIps32

/-- The byte of a buffer at an index. -/
def byteAt (buffer : List UInt8) (i : Nat) : Nat := (buffer.getD i 0).toNat

/-- `GetIpsPatchOffset` -/
def getIpsPatchOffset (isIps32 : Bool) (buffer : List UInt8) : Nat :=
  if isIps32 then
    byteAt buffer 0 * 2 ^ 24 + byteAt buffer 1 * 2 ^ 16 + byteAt buffer 2 * 2 ^ 8 + byteAt buffer 3
  else byteAt buffer 0 * 2 ^ 16 + byteAt buffer 1 * 2 ^ 8 + byteAt buffer 2

/-- `GetIpsPatchSize` -/
def getIpsPatchSize (buffer : List UInt8) : Nat := byteAt buffer 0 * 2 ^ 8 + byteAt buffer 1

/-- What is read of a record before anything is written. -/
inductive IpsHead
  | tail
  | plain (patchOffset patchSize : Nat)
  | rle (patchOffset rleSize : Nat) (value : UInt8)
deriving Repr, DecidableEq

/-- The size of a record and, if it is one, its run. -/
def readSize (patchOffset : Nat) (f : List UInt8) : Option (IpsHead × List UInt8) := do
  let (buffer, f) ← fread 2 f
  if getIpsPatchSize buffer ≠ 0 then return (.plain patchOffset (getIpsPatchSize buffer), f)
  else
    let (size, f) ← fread 2 f
    let (value, f) ← fread 1 f
    return (.rle patchOffset (getIpsPatchSize size) (value.getD 0 0), f)

/-- The head of a record. -/
def readHead (isIps32 : Bool) (f : List UInt8) : Option (IpsHead × List UInt8) := do
  let (buffer, f) ← fread (if isIps32 then 4 else 3) f
  if isIpsTail isIps32 buffer then return (.tail, f)
  else readSize (getIpsPatchOffset isIps32 buffer) f

/-- The part of a record behind the protected bytes, with how much of it is left out. There is none if the
record ends in them, by its end as a 32-bit number. -/
def skipProtected (protectedSize patchOffset size : Nat) : Option (Nat × Nat × Nat) :=
  if patchOffset < protectedSize then
    if (patchOffset + size) % 2 ^ 32 > protectedSize then
      let diff := (protectedSize - patchOffset) % 2 ^ 32
      some ((patchOffset + diff) % 2 ^ 32, (size + 2 ^ 32 - diff) % 2 ^ 32, diff)
    else none
  else some (patchOffset, size, 0)

/-- The difference of two sizes as a 32-bit number. -/
def sub32 (a b : Nat) : Nat := (a + 2 ^ 64 - b) % 2 ^ 64 % 2 ^ 32

/-- The size that is written at an offset of the image. -/
def clipSize (mappedSize patchOffset size : Nat) : Nat :=
  if (patchOffset + size) % 2 ^ 32 > mappedSize then sub32 mappedSize patchOffset else size

/-- What an engine has done: its writes, and what it left of the file if it came to the tail. -/
structure IpsResult where
  writes : List Write
  rest : Option (List UInt8)
deriving DecidableEq

/-- A turn of the loop ends the loop, or goes on with the file. -/
inductive IpsTurn
  | stop (writes : List Write) (rest : Option (List UInt8))
  | next (writes : List Write) (f : List UInt8)

/-- The record of a run. -/
def applyRle (mappedSize protectedSize offset patchOffset rleSize : Nat) (value : UInt8)
    (f : List UInt8) : IpsTurn :=
  match skipProtected protectedSize patchOffset rleSize with
  | none => .next [] f
  | some (patchOffset, rleSize, _) =>
    let patchOffset := sub32 patchOffset offset
    .next [.fill patchOffset (clipSize mappedSize patchOffset rleSize) value] f

/-- The data of a record, of which a part may be read. What is there of it has been written when the read
fails. -/
def applyData (patchOffset patchSize size : Nat) (f : List UInt8) : IpsTurn :=
  match fread size f with
  | none => .stop [.copy patchOffset (f.take size)] none
  | some (data, f) => .next [.copy patchOffset data] (f.drop (patchSize - size))

/-- A record with data. -/
def applyPlain (mappedSize protectedSize offset patchOffset patchSize : Nat) (f : List UInt8) : IpsTurn :=
  match skipProtected protectedSize patchOffset patchSize with
  | none => .next [] (f.drop patchSize)
  | some (patchOffset, patchSize, diff) =>
    let patchOffset := sub32 patchOffset offset
    applyData patchOffset patchSize (clipSize mappedSize patchOffset patchSize) (f.drop diff)

/-- A turn of the loop of both engines. -/
def ipsTurn (mappedSize protectedSize offset : Nat) (isIps32 : Bool) (f : List UInt8) : IpsTurn :=
  match readHead isIps32 f with
  | none => .stop [] none
  | some (.tail, f) => .stop [] (some f)
  | some (.rle patchOffset rleSize value, f) =>
    applyRle mappedSize protectedSize offset patchOffset rleSize value f
  | some (.plain patchOffset patchSize, f) =>
    applyPlain mappedSize protectedSize offset patchOffset patchSize f

/-- The loop of both engines. Each turn reads some of the file, so that the fuel can be its length. -/
def ipsLoop (mappedSize protectedSize offset : Nat) (isIps32 : Bool) : Nat → List UInt8 → IpsResult
  | 0, _ => ⟨[], none⟩
  | fuel + 1, f =>
    match ipsTurn mappedSize protectedSize offset isIps32 f with
    | .stop writes rest => ⟨writes, rest⟩
    | .next writes f =>
      let r := ipsLoop mappedSize protectedSize offset isIps32 fuel f
      ⟨writes ++ r.writes, r.rest⟩

/-- `ApplyIpsPatch`: the writes, and what is left of the file. Without the latter it ended in
`std::abort`. -/
def applyIpsPatch (mappedSize protectedSize offset : Nat) (isIps32 : Bool) (f : List UInt8) : IpsResult :=
  if offset > protectedSize then ⟨[], none⟩
  else ipsLoop mappedSize protectedSize offset isIps32 (f.length + 1) f

end RajNX.Patcher

namespace RajNX.Fusee

open WriteTrace Patcher

/-- `apply_ips_patch` of the bootloader, which leaves the loop where `ApplyIpsPatch` aborts. -/
def applyIpsPatch (memSize protSize : Nat) (isIps32 : Bool) (f : List UInt8) : List Write :=
  (ipsLoop memSize protSize 0 isIps32 (f.length + 1) f).writes

end RajNX.Fusee

/-! ## Records -/

namespace RajNX.Patcher

open WriteTrace

section Records

variable {isIps32 : Bool} {f f' : List UInt8} {head : IpsHead} {mappedSize protectedSize offset o n : Nat}

lemma fread_eq_some {size : Nat} {data : List UInt8} (h : fread size f = some (data, f')) :
    0 < size ∧ size ≤ f.length ∧ data = f.take size ∧ f' = f.drop size := by
  unfold fread at h
  split at h
  · cases h
  · next hsize =>
    cases h
    exact ⟨by omega, by omega, rfl, rfl⟩

lemma byteAt_lt (buffer : List UInt8) (i : Nat) : byteAt buffer i < 256 := UInt8.toNat_lt _

lemma getIpsPatchOffset_lt (buffer : List UInt8) : getIpsPatchOffset isIps32 buffer < 2 ^ 32 := by
  have h0 := byteAt_lt buffer 0
  have h1 := byteAt_lt buffer 1
  have h2 := byteAt_lt buffer 2
  have h3 := byteAt_lt buffer 3
  rw [getIpsPatchOffset]
  split <;> omega

lemma getIpsPatchSize_lt (buffer : List UInt8) : getIpsPatchSize buffer < 2 ^ 16 := by
  have h0 := byteAt_lt buffer 0
  have h1 := byteAt_lt buffer 1
  rw [getIpsPatchSize]
  omega

/-- A head as the engines can read one. -/
def IpsHead.Ok : IpsHead → Prop
  | .tail => True
  | .plain patchOffset patchSize => patchOffset < 2 ^ 32 ∧ 0 < patchSize ∧ patchSize < 2 ^ 16
  | .rle patchOffset rleSize _ => patchOffset < 2 ^ 32 ∧ rleSize < 2 ^ 16

lemma readSize_ok (ho : o < 2 ^ 32) (h : readSize o f = some (head, f')) : head.Ok ∧ f'.length ≤ f.length := by
  obtain ⟨⟨buffer, f₁⟩, hread, h⟩ := Option.bind_eq_some_iff.mp h
  obtain ⟨-, -, -, rfl⟩ := fread_eq_some hread
  have hlt := getIpsPatchSize_lt buffer
  dsimp only at h
  split at h
  · next hsize =>
    cases h
    refine ⟨⟨ho, Nat.pos_of_ne_zero hsize, hlt⟩, ?_⟩
    rw [List.length_drop]
    exact Nat.sub_le _ _
  · obtain ⟨⟨size, f₂⟩, hread, h⟩ := Option.bind_eq_some_iff.mp h
    obtain ⟨-, -, -, rfl⟩ := fread_eq_some hread
    obtain ⟨⟨value, f₃⟩, hread, h⟩ := Option.bind_eq_some_iff.mp h
    obtain ⟨-, -, -, rfl⟩ := fread_eq_some hread
    cases h
    refine ⟨⟨ho, getIpsPatchSize_lt size⟩, ?_⟩
    simp only [List.length_drop]
    omega

/-- A head that is read has sizes of 16 bits, and some of the file is behind it. -/
lemma readHead_ok (h : readHead isIps32 f = some (head, f')) : head.Ok ∧ f'.length < f.length := by
  obtain ⟨⟨buffer, f₁⟩, hread, h⟩ := Option.bind_eq_some_iff.mp h
  obtain ⟨hpos, hle, -, rfl⟩ := fread_eq_some hread
  have hdrop : (f.drop (if isIps32 then 4 else 3)).length < f.length := by
    rw [List.length_drop]
    omega
  dsimp only at h
  split at h
  · cases h
    exact ⟨trivial, hdrop⟩
  · obtain ⟨hok, hlen⟩ := readSize_ok (getIpsPatchOffset_lt buffer) h
    exact ⟨hok, Nat.lt_of_le_of_lt hlen hdrop⟩

/-- A record that the protected bytes hide, by its end as a 32-bit number. -/
def Skipped (protectedSize patchOffset size : Nat) : Prop :=
  patchOffset < protectedSize ∧ (patchOffset + size) % 2 ^ 32 ≤ protectedSize

lemma skipProtected_of_skipped (h : Skipped protectedSize o n) : skipProtected protectedSize o n = none := by
  rw [skipProtected, if_pos h.1, if_neg (Nat.not_lt.mpr h.2)]

/-- A record that is not hidden goes on behind the protected bytes. -/
lemma skipProtected_of_not_skipped (ho : o < 2 ^ 32) (hn : n < 2 ^ 16) (h : ¬Skipped protectedSize o n) :
    skipProtected protectedSize o n =
      some (max o protectedSize, n - (protectedSize - o), protectedSize - o) := by
  unfold Skipped at h
  rw [skipProtected]
  split
  · next hlt =>
    rw [if_pos (by omega)]
    -- The end is not a wrapped one, as that is below 2 ^ 16 and so not behind the offset.
    have hdiff : (protectedSize - o) % 2 ^ 32 = protectedSize - o := Nat.mod_eq_of_lt (by omega)
    have hoffset : (o + (protectedSize - o)) % 2 ^ 32 = max o protectedSize := by omega
    have hsize : (n + 2 ^ 32 - (protectedSize - o)) % 2 ^ 32 = n - (protectedSize - o) := by omega
    simp only [hdiff, hoffset, hsize]
  · next hlt =>
    have hzero : protectedSize - o = 0 := by omega
    rw [hzero, Nat.max_eq_left (Nat.not_lt.mp hlt), Nat.sub_zero]

lemma max_lt_of_not_skipped (ho : o < 2 ^ 32) (h : ¬Skipped protectedSize o n) : max o protectedSize < 2 ^ 32 := by
  unfold Skipped at h
  omega

lemma sub32_of_le {a b : Nat} (ha : a < 2 ^ 32) (h : b ≤ a) : sub32 a b = a - b := by
  rw [sub32]
  omega

/-- A place of the image from which a record is clipped to its end, or ends before. -/
def Inside (mappedSize start size : Nat) : Prop :=
  start + size ≤ mappedSize ∨ start ≤ mappedSize ∧ start + size < 2 ^ 32

lemma clipSize_of_inside {start : Nat} (hn : n < 2 ^ 16) (h : Inside mappedSize start n) :
    clipSize mappedSize start n = min n (mappedSize - start) := by
  unfold Inside at h
  rw [clipSize, sub32]
  split <;> omega

/-- A record that is not inside writes past the end. -/
lemma clipSize_of_not_inside {start : Nat} (hs : start < 2 ^ 32) (hn : n < 2 ^ 16) (h : ¬Inside mappedSize start n) :
    0 < clipSize mappedSize start n ∧ mappedSize < start + clipSize mappedSize start n := by
  unfold Inside at h
  rw [clipSize, sub32]
  split <;> omega

end Records

section Turns

variable {isIps32 : Bool} {f f' : List UInt8} {value : UInt8}
  {mappedSize protectedSize offset o n fuel : Nat}

lemma ipsTurn_rle_skipped (h : readHead isIps32 f = some (.rle o n value, f')) (hskip : Skipped protectedSize o n) :
    ipsTurn mappedSize protectedSize offset isIps32 f = .next [] f' := by
  rw [ipsTurn, h]
  simp only [applyRle, skipProtected_of_skipped hskip]

lemma ipsTurn_rle (h : readHead isIps32 f = some (.rle o n value, f')) (hoffset : offset ≤ protectedSize)
    (hskip : ¬Skipped protectedSize o n) :
    ipsTurn mappedSize protectedSize offset isIps32 f = .next [.fill (max o protectedSize - offset)
        (clipSize mappedSize (max o protectedSize - offset) (n - (protectedSize - o))) value] f' := by
  obtain ⟨ho, hn⟩ := (readHead_ok h).1
  have hmax := max_lt_of_not_skipped ho hskip
  rw [ipsTurn, h]
  simp only [applyRle, skipProtected_of_not_skipped ho hn hskip, sub32_of_le hmax (le_max_of_le_right hoffset)]

lemma ipsTurn_plain_skipped (h : readHead isIps32 f = some (.plain o n, f')) (hskip : Skipped protectedSize o n) :
    ipsTurn mappedSize protectedSize offset isIps32 f = .next [] (f'.drop n) := by
  rw [ipsTurn, h]
  simp only [applyPlain, skipProtected_of_skipped hskip]

lemma ipsTurn_plain (h : readHead isIps32 f = some (.plain o n, f')) (hoffset : offset ≤ protectedSize)
    (hskip : ¬Skipped protectedSize o n) :
    ipsTurn mappedSize protectedSize offset isIps32 f =
      applyData (max o protectedSize - offset) (n - (protectedSize - o))
        (clipSize mappedSize (max o protectedSize - offset) (n - (protectedSize - o)))
        (f'.drop (protectedSize - o)) := by
  obtain ⟨ho, -, hn⟩ := (readHead_ok h).1
  have hmax := max_lt_of_not_skipped ho hskip
  rw [ipsTurn, h]
  simp only [applyPlain, skipProtected_of_not_skipped ho hn hskip, sub32_of_le hmax (le_max_of_le_right hoffset)]

/-- What is behind the data of a record that was not read past its end. -/
lemma drop_data {d size : Nat} (hd : d ≤ n) (hsize : size ≤ n - d) :
    ((f'.drop d).drop size).drop (n - d - size) = f'.drop n := by
  rw [List.drop_drop, List.drop_drop]
  congr 1
  omega

lemma ipsLoop_stop {writes : List Write} {rest : Option (List UInt8)}
    (h : ipsTurn mappedSize protectedSize offset isIps32 f = .stop writes rest) :
    ipsLoop mappedSize protectedSize offset isIps32 (fuel + 1) f = ⟨writes, rest⟩ := by
  rw [ipsLoop, h]

lemma ipsLoop_next {writes : List Write} (h : ipsTurn mappedSize protectedSize offset isIps32 f = .next writes f') :
    ipsLoop mappedSize protectedSize offset isIps32 (fuel + 1) f =
      ⟨writes ++ (ipsLoop mappedSize protectedSize offset isIps32 fuel f').writes,
        (ipsLoop mappedSize protectedSize offset isIps32 fuel f').rest⟩ := by
  rw [ipsLoop, h]

end Turns

end RajNX.Patcher
