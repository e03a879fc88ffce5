import RajNX.Lib.CounterDrbg
import RajNX.Lib.WriteTrace

/-!
# The generator of spl

`CtrDrbg` of `spl_ctr_drbg.hpp` and `spl_ctr_drbg.cpp`. AES is any block cipher with a key. The context of the
cipher is made from the key before each use, and is not part of the state. What is generated is written to the
caller's memory, as a trace of writes.

The generator is the standard one, over all sequences of calls.
-/

namespace RajNX.Spl

open BigEndian CounterDrbg CounterMode LittleEndian Mask Splice WriteTrace

/-- Byte strings of one length. -/
abbrev Bytes (n : Nat) := { bs : List UInt8 // bs.length = n }

/-- A byte string of zeros. -/
def Bytes.zeros (n : Nat) : Bytes n := ⟨List.replicate n 0, List.length_replicate⟩

/-- `CtrDrbg::MaxRequestSize` -/
def maxRequestSize : Nat := 0x10000

/-- `CtrDrbg::ReseedInterval` -/
def reseedInterval : Nat := 0x7FFFFFF0

/-- `CtrDrbg` -/
structure CtrDrbg where
  counter : Bytes 0x10
  key : Bytes 0x10
  work0 : Bytes 0x20
  work1 : Bytes 0x20
  reseedCounter : UInt32

/-- `__builtin_bswap64` -/
def bswap64 (w : Nat) : Nat := leValue (beBytes 8 w)

/-- `CtrDrbg::IncrementCounter`, on the two words of the counter. -/
def incrementCounter (ctr : Bytes 0x10) : Bytes 0x10 :=
  let ctr64 (i : Nat) := leValue (slice ctr.val (8 * i) 8)
  let low := bswap64 ((bswap64 (ctr64 1) + 1) % 2 ^ 64)
  let high := if low = 0 then bswap64 ((bswap64 (ctr64 0) + 1) % 2 ^ 64) else ctr64 0
  ⟨leBytes 8 high ++ leBytes 8 low, by simp⟩

/-- The counter is incremented and encrypted, again and again: the blocks, and the last counter. -/
def encryptCounters (aes : BlockCipher 0x10) : Nat → Bytes 0x10 → List (List UInt8) × Bytes 0x10
  | 0, ctr => ([], ctr)
  | n + 1, ctr =>
    let ctr := incrementCounter ctr
    let (blocks, last) := encryptCounters aes n ctr
    (aes.encrypt ctr.val :: blocks, last)

lemma length_flatten_encryptCounters (aes : BlockCipher 0x10) (n : Nat) (ctr : Bytes 0x10) :
    (encryptCounters aes n ctr).1.flatten.length = n * 0x10 := by
  induction n generalizing ctr with
  | zero => rfl
  | succ n ih =>
    rw [encryptCounters]
    dsimp only
    rw [List.flatten_cons, List.length_append, aes.length_encrypt, ih, Nat.succ_mul, Nat.add_comm]

namespace CtrDrbg

/-- `CtrDrbg::Update` -/
def update (aes : List UInt8 → BlockCipher 0x10) (data : Bytes 0x20) (d : CtrDrbg) : CtrDrbg :=
  let blocks := encryptCounters (aes d.key.val) 2 d.counter
  let work1 := mask blocks.1.flatten data.val
  have hwork1 : work1.length = 0x20 := by
    have hlen := length_flatten_encryptCounters (aes d.key.val) 2 d.counter
    exact (length_mask (hlen.trans data.property.symm).le).trans hlen
  { d with
    key := ⟨work1.take 0x10, by rw [List.length_take, hwork1]; rfl⟩
    counter := ⟨work1.drop 0x10, by rw [List.length_drop, hwork1]⟩
    work1 := ⟨work1, hwork1⟩ }

/-- `CtrDrbg::Initialize` -/
def initializeDrbg (aes : List UInt8 → BlockCipher 0x10) (seed : Bytes 0x20) (d : CtrDrbg) : CtrDrbg :=
  { { d with work0 := seed, key := .zeros 0x10, counter := .zeros 0x10 }.update aes seed with reseedCounter := 1 }

/-- `CtrDrbg::Reseed` -/
def reseed (aes : List UInt8 → BlockCipher 0x10) (seed : Bytes 0x20) (d : CtrDrbg) : CtrDrbg :=
  { { d with work0 := seed }.update aes seed with reseedCounter := 1 }

end CtrDrbg

/-- Copies of blocks, one behind the other. -/
def copies (dst : Nat) : List (List UInt8) → List Write
  | [] => []
  | block :: blocks => .copy dst block :: copies (dst + block.length) blocks

/-- What `CtrDrbg::GenerateRandomBytes` returns, writes and leaves behind. -/
structure Generated where
  accepted : Bool
  writes : List Write
  drbg : CtrDrbg

namespace CtrDrbg

/-- The bytes of a request that do not fill a block, which go through the work buffer. -/
def generateTail (aes : BlockCipher 0x10) (dst size : Nat) (d : CtrDrbg) : List Write × CtrDrbg :=
  let counter := incrementCounter d.counter
  let work1 : Bytes 0x20 := ⟨splice d.work1.val 0 (aes.encrypt counter.val), by
    have hfits : 0 + (aes.encrypt counter.val).length ≤ d.work1.val.length := by
      rw [aes.length_encrypt, d.work1.property]
      decide
    rw [length_splice hfits, d.work1.property]⟩
  ([.copy dst (work1.val.take size)], { d with counter := counter, work1 := work1 })

/-- The part of `CtrDrbg::GenerateRandomBytes` that writes to the caller. -/
def generateOutput (aes : BlockCipher 0x10) (out size : Nat) (d : CtrDrbg) : List Write × CtrDrbg :=
  let alignedSize := size / 0x10 * 0x10
  let blocks := encryptCounters aes (size / 0x10) d.counter
  let d := { d with counter := blocks.2 }
  let tail := if alignedSize < size then d.generateTail aes (out + alignedSize) (size - alignedSize) else ([], d)
  (copies out blocks.1 ++ tail.1, tail.2)

/-- `CtrDrbg::GenerateRandomBytes` -/
def generateRandomBytes (aes : List UInt8 → BlockCipher 0x10) (out size : Nat) (d : CtrDrbg) : Generated :=
  if maxRequestSize < size then ⟨false, [], d⟩
  else if reseedInterval < d.reseedCounter.toNat then ⟨false, [], d⟩
  else
    let output := d.generateOutput (aes d.key.val) out size
    let d := { output.2 with work0 := .zeros 0x20 }.update aes (.zeros 0x20)
    ⟨true, output.1, { d with reseedCounter := d.reseedCounter + 1 }⟩

end CtrDrbg

/-! ## The standard generator -/

/-- What the generator allows. -/
def limits : Limits := ⟨maxRequestSize, reseedInterval⟩

/-- The state that the standard knows. -/
def CtrDrbg.working (d : CtrDrbg) : WorkingState := ⟨beValue d.counter.val, d.key.val, d.reseedCounter.toNat⟩

lemma bswap64_leValue {bs : List UInt8} (h : bs.length = 8) : bswap64 (leValue bs) = beValue bs := by
  rw [bswap64, beBytes, ← h, leBytes_leValue, beValue]

lemma leBytes_bswap64 (w : Nat) : leBytes 8 (bswap64 w) = beBytes 8 w := by
  have hbytes := leBytes_leValue (beBytes 8 w)
  rwa [length_beBytes] at hbytes

lemma bswap64_eq_zero {w : Nat} (hw : w < 2 ^ 64) : bswap64 w = 0 ↔ w = 0 := by
  constructor
  · intro h
    have hbytes := leBytes_bswap64 w
    rw [h] at hbytes
    have hvalue := congrArg beValue hbytes
    rw [beValue_beBytes, Nat.mod_eq_of_lt (show w < 256 ^ 8 from hw)] at hvalue
    exact hvalue.symm
  · rintro rfl
    rfl

/-- The two words together count up. -/
lemma beValue_incrementCounter (ctr : Bytes 0x10) :
    beValue (incrementCounter ctr).val = nextV 0x10 (beValue ctr.val) := by
  obtain ⟨bs, hbs⟩ := ctr
  have hhigh : (slice bs 0 8).length = 8 := length_slice (by omega)
  have hlow : (slice bs 8 8).length = 8 := length_slice (by omega)
  have hsplit : bs = slice bs 0 8 ++ slice bs 8 8 := by
    rw [slice_append_slice, slice, List.drop_zero, List.take_of_length_le hbs.le]
  have hh := beValue_lt (slice bs 0 8)
  have hl := beValue_lt (slice bs 8 8)
  have hvalue := beValue_append (slice bs 0 8) (slice bs 8 8)
  rw [← hsplit, hlow] at hvalue
  have hmod : (beValue (slice bs 8 8) + 1) % 2 ^ 64 < 2 ^ 64 := Nat.mod_lt _ (by decide)
  rw [hhigh] at hh
  rw [hlow] at hl
  rw [incrementCounter, nextV]
  simp only [Nat.mul_zero, Nat.mul_one, bswap64_leValue hlow, bswap64_leValue hhigh, bswap64_eq_zero hmod]
  rw [beValue_append, length_leBytes, leBytes_bswap64, beValue_beBytes, hvalue]
  split
  · rw [leBytes_bswap64, beValue_beBytes]
    omega
  · have hbytes := leBytes_leValue (slice bs 0 8)
    rw [hhigh] at hbytes
    rw [hbytes]
    omega

lemma incrementCounter_eq (ctr : Bytes 0x10) :
    (incrementCounter ctr).val = beBytes 0x10 (nextV 0x10 (beValue ctr.val)) := by
  rw [← beValue_incrementCounter]
  have hbytes := beBytes_beValue (incrementCounter ctr).val
  rw [(incrementCounter ctr).property] at hbytes
  exact hbytes.symm

/-- The blocks of the counters are the output blocks. -/
lemma encryptCounters_eq (aes : BlockCipher 0x10) (n : Nat) (ctr : Bytes 0x10) :
    (encryptCounters aes n ctr).1.flatten = (outputBlocks aes n (beValue ctr.val)).1 ∧
      beValue (encryptCounters aes n ctr).2.val = (outputBlocks aes n (beValue ctr.val)).2 := by
  induction n generalizing ctr with
  | zero => exact ⟨rfl, rfl⟩
  | succ n ih =>
    obtain ⟨hblocks, hlast⟩ := ih (incrementCounter ctr)
    rw [beValue_incrementCounter] at hblocks hlast
    rw [encryptCounters, outputBlocks_succ]
    dsimp only
    rw [List.flatten_cons, incrementCounter_eq, hblocks]
    exact ⟨rfl, hlast⟩

lemma lays_copies (dst : Nat) (blocks : List (List UInt8)) : Lays dst (copies dst blocks) blocks.flatten := by
  induction blocks generalizing dst with
  | nil => exact .nil
  | cons block blocks ih => exact .cons (ih _)

section Refinement

variable (aes : List UInt8 → BlockCipher 0x10) (d : CtrDrbg)

lemma working_update (data : Bytes 0x20) : (d.update aes data).working = update 0x10 aes data.val d.working := by
  obtain ⟨hblocks, -⟩ := encryptCounters_eq (aes d.key.val) 2 d.counter
  have htemp : (outputBytes (aes d.key.val) (0x10 + 0x10) (beValue d.counter.val)).1 =
      (encryptCounters (aes d.key.val) 2 d.counter).1.flatten := by
    rw [hblocks, ← outputBytes_mul _ (by decide)]
  rw [CtrDrbg.update, CtrDrbg.working, CtrDrbg.working, update]
  dsimp only
  rw [htemp]

lemma working_initializeDrbg (seed : Bytes 0x20) :
    (d.initializeDrbg aes seed).working = instantiate 0x10 aes seed.val := by
  have hupdate := working_update aes
    { d with work0 := seed, key := .zeros 0x10, counter := .zeros 0x10, reseedCounter := 0 } seed
  exact congrArg (fun s : WorkingState => { s with reseedCounter := 1 }) hupdate

lemma working_reseed (seed : Bytes 0x20) : (d.reseed aes seed).working = reseed 0x10 aes seed.val d.working := by
  have hupdate := working_update aes { d with work0 := seed } seed
  exact congrArg (fun s : WorkingState => { s with reseedCounter := 1 }) hupdate

/-- The first bytes of one more block. -/
lemma generateTail_spec (cipher : BlockCipher 0x10) (dst : Nat) {size : Nat} (hsize : size ≤ 0x10) :
    Lays dst (d.generateTail cipher dst size).1
        ((cipher.encrypt (beBytes 0x10 (nextV 0x10 (beValue d.counter.val)))).take size) ∧
      (d.generateTail cipher dst size).2.working =
        { d.working with v := nextV 0x10 (beValue d.counter.val) } := by
  rw [CtrDrbg.generateTail]
  dsimp only
  constructor
  · rw [incrementCounter_eq, splice, List.take_zero, List.nil_append,
      List.take_append_of_le_length (hsize.trans_eq (cipher.length_encrypt _).symm)]
    exact .singleton _ _
  · rw [← beValue_incrementCounter]
    rfl

/-- The output and the counter behind it. -/
lemma generateOutput_spec (cipher : BlockCipher 0x10) (out size : Nat) :
    Lays out (d.generateOutput cipher out size).1 (outputBytes cipher size (beValue d.counter.val)).1 ∧
      (d.generateOutput cipher out size).2.working =
        { d.working with v := (outputBytes cipher size (beValue d.counter.val)).2 } := by
  obtain ⟨hblocks, hlast⟩ := encryptCounters_eq cipher (size / 0x10) d.counter
  have hlays := lays_copies out (encryptCounters cipher (size / 0x10) d.counter).1
  have hlen := length_flatten_encryptCounters cipher (size / 0x10) d.counter
  have hsum := Nat.div_add_mod size 0x10
  rw [CtrDrbg.generateOutput]
  dsimp only
  split
  · next htail =>
    have hsize : size = size / 0x10 * 0x10 + size % 0x10 := by omega
    have hrest : size - size / 0x10 * 0x10 = size % 0x10 := by omega
    have houtput := outputBytes_mul_add cipher (n := size / 0x10) (beValue d.counter.val)
      (show 0 < size % 0x10 by omega) (Nat.mod_lt size (by decide))
    obtain ⟨htaillays, hworking⟩ := generateTail_spec
      { d with counter := (encryptCounters cipher (size / 0x10) d.counter).2 } cipher (out + size / 0x10 * 0x10)
      (Nat.mod_lt size (by decide)).le
    rw [← hsize] at houtput
    rw [houtput, hrest, ← hblocks, ← hlast]
    rw [← hlen] at htaillays ⊢
    exact ⟨hlays.append htaillays, hworking⟩
  · next hno =>
    have hsize : size = size / 0x10 * 0x10 := by omega
    have houtput := outputBytes_mul cipher (by decide) (size / 0x10) (beValue d.counter.val)
    rw [← hsize] at houtput
    rw [houtput, List.append_nil, ← hblocks, ← hlast]
    exact ⟨hlays, rfl⟩

/-- A request is refused, or it is answered as the standard says. -/
lemma generateRandomBytes_spec (out size : Nat) :
    (generate 0x10 aes limits size d.working = none ∧ d.generateRandomBytes aes out size = ⟨false, [], d⟩) ∨
      ∃ bytes, generate 0x10 aes limits size d.working =
          some (bytes, (d.generateRandomBytes aes out size).drbg.working) ∧ bytes.length = size ∧
        (d.generateRandomBytes aes out size).accepted = true ∧
        Lays out (d.generateRandomBytes aes out size).writes bytes := by
  rw [CtrDrbg.generateRandomBytes]
  split
  · next hlarge => exact .inl ⟨if_pos (.inl hlarge), rfl⟩
  · next hlarge =>
    split
    · next hreseed => exact .inl ⟨if_pos (.inr hreseed), rfl⟩
    · next hreseed =>
      obtain ⟨hlays, hworking⟩ := generateOutput_spec d (aes d.key.val) out size
      have hallowed : ¬(limits.maxRequest < size ∨ limits.reseedInterval < d.working.reseedCounter) :=
        not_or.mpr ⟨hlarge, hreseed⟩
      refine .inr ⟨_, ?_, length_outputBytes (aes d.key.val) (by decide) size (beValue d.counter.val), rfl, hlays⟩
      rw [generate, if_neg hallowed]
      clear hlays
      generalize d.generateOutput (aes d.key.val) out size = output at hworking ⊢
      obtain ⟨writes, t⟩ := output
      have hupdate := working_update aes { t with work0 := .zeros 0x20 } (.zeros 0x20)
      have hcounter : t.reseedCounter = d.reseedCounter :=
        UInt32.toNat_inj.mp (congrArg WorkingState.reseedCounter hworking)
      have hcount : (t.reseedCounter + 1).toNat = d.working.reseedCounter + 1 := by
        rw [reseedInterval] at hreseed
        rw [hcounter, UInt32.toNat_add, UInt32.toNat_one, Nat.mod_eq_of_lt (by omega)]
        rfl
      have hsame : { t with work0 := .zeros 0x20 }.working = t.working := rfl
      rw [hsame, hworking] at hupdate
      have hnext := congrArg (fun s : WorkingState => { s with reseedCounter := d.working.reseedCounter + 1 }) hupdate
      refine congrArg (fun s => some (_, s)) (hnext.symm.trans ?_)
      rw [← hcount]
      rfl

end Refinement

/-! ## Sequences of calls -/

/-- A call, with where its output goes. -/
inductive DrbgCall
  | initializeDrbg (seed : Bytes 0x20)
  | reseed (seed : Bytes 0x20)
  | generateRandomBytes (out size : Nat)

/-- What a call returns, writes and leaves behind. -/
def CtrDrbg.call (aes : List UInt8 → BlockCipher 0x10) (d : CtrDrbg) : DrbgCall → Generated
  | .initializeDrbg seed => ⟨true, [], d.initializeDrbg aes seed⟩
  | .reseed seed => ⟨true, [], d.reseed aes seed⟩
  | .generateRandomBytes out size => d.generateRandomBytes aes out size

/-- A sequence of calls. -/
def CtrDrbg.calls (aes : List UInt8 → BlockCipher 0x10) : List DrbgCall → CtrDrbg → List Generated
  | [], _ => []
  | call :: rest, d => d.call aes call :: (d.call aes call).drbg.calls aes rest

/-- What the standard generator returns and leaves behind. Nothing is returned for a call that is refused. -/
structure StandardReply where
  output : Option (List UInt8)
  state : WorkingState

/-- A call of the standard generator. -/
def standardCall (aes : List UInt8 → BlockCipher 0x10) (s : WorkingState) : DrbgCall → StandardReply
  | .initializeDrbg seed => ⟨some [], instantiate 0x10 aes seed.val⟩
  | .reseed seed => ⟨some [], reseed 0x10 aes seed.val s⟩
  | .generateRandomBytes _ size =>
    match generate 0x10 aes limits size s with
    | some (bytes, t) => ⟨some bytes, t⟩
    | none => ⟨none, s⟩

/-- A sequence of calls of the standard generator. -/
def standardCalls (aes : List UInt8 → BlockCipher 0x10) : List DrbgCall → WorkingState → List StandardReply
  | [], _ => []
  | call :: rest, s => standardCall aes s call :: standardCalls aes rest (standardCall aes s call).state

/-- The output is written where it was asked for, all of it and nothing else, and the states are the same. A
call that is refused writes nothing. -/
structure Agrees (out : Nat) (reply : Generated) (standard : StandardReply) : Prop where
  state_eq : reply.drbg.working = standard.state
  accepted_iff : reply.accepted = standard.output.isSome
  lays : Lays out reply.writes (standard.output.getD [])

/-- Where the output of a call goes. -/
def DrbgCall.out : DrbgCall → Nat
  | .generateRandomBytes out _ => out
  | _ => 0

/-- The replies of two sequences of calls agree. -/
inductive AgreeAll : List DrbgCall → List Generated → List StandardReply → Prop
  | nil : AgreeAll [] [] []
  | cons {call : DrbgCall} {rest : List DrbgCall} {reply : Generated} {replies : List Generated}
      {standard : StandardReply} {standards : List StandardReply} (h : Agrees call.out reply standard)
      (hrest : AgreeAll rest replies standards) :
    AgreeAll (call :: rest) (reply :: replies) (standard :: standards)

section Calls

variable (aes : List UInt8 → BlockCipher 0x10)

/-- One call agrees with the standard. -/
lemma agrees_call (d : CtrDrbg) (call : DrbgCall) :
    Agrees call.out (d.call aes call) (standardCall aes d.working call) := by
  cases call with
  | initializeDrbg seed => exact ⟨working_initializeDrbg aes d seed, rfl, .nil⟩
  | reseed seed => exact ⟨working_reseed aes d seed, rfl, .nil⟩
  | generateRandomBytes out size =>
    rw [CtrDrbg.call, standardCall]
    rcases generateRandomBytes_spec aes d out size with ⟨hrefused, hreply⟩ | ⟨bytes, hresult, -, haccepted, hlays⟩
    · rw [hrefused, hreply]
      exact ⟨rfl, rfl, .nil⟩
    · rw [hresult]
      exact ⟨rfl, haccepted, hlays⟩

lemma agreeAll_calls (calls : List DrbgCall) (d : CtrDrbg) :
    AgreeAll calls (d.calls aes calls) (standardCalls aes calls d.working) := by
  induction calls generalizing d with
  | nil => exact .nil
  | cons call rest ih =>
    have hcall := agrees_call aes d call
    refine .cons hcall ?_
    rw [← hcall.state_eq]
    exact ih _

/-- A call that is refused changes nothing. -/
lemma call_refused {d : CtrDrbg} {call : DrbgCall} (h : (d.call aes call).accepted = false) :
    d.call aes call = ⟨false, [], d⟩ := by
  cases call with
  | initializeDrbg seed => cases h
  | reseed seed => cases h
  | generateRandomBytes out size =>
    rcases generateRandomBytes_spec aes d out size with ⟨-, hreply⟩ | ⟨bytes, -, -, haccepted, -⟩
    · exact hreply
    · exact absurd (h.symm.trans haccepted) Bool.false_ne_true

end Calls

/-- Over every sequence of calls the outputs and the states are those of the standard generator, and a call that
is refused changes no state and writes nothing. -/
theorem ctrDrbg_calls_standard (aes : List UInt8 → BlockCipher 0x10) (calls : List DrbgCall) (d : CtrDrbg) :
    AgreeAll calls (d.calls aes calls) (standardCalls aes calls d.working) ∧
      ∀ (d' : CtrDrbg) (call : DrbgCall), (d'.call aes call).accepted = false → d'.call aes call = ⟨false, [], d'⟩ :=
  ⟨agreeAll_calls aes calls d, fun _ _ h => call_refused aes h⟩

end RajNX.Spl
