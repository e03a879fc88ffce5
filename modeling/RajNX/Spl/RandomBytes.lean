import RajNX.Spl.CtrDrbg
import RajNX.Spl.Smc

/-!
# Random bytes of spl

`GenerateRandomBytes` and `GenerateRandomBytesInternal` of `spl_api_impl.cpp`. The seeds that the secure monitor
returns are given by the number of the call. What is asked for is a buffer in memory, so no offset into it
wraps.

A request is cut into parts that the generator would take, but each part is asked for with the size of the whole
request. What is larger than one part is refused, again after the new seed, and nobody looks.
-/

namespace RajNX.Spl

open CounterMode WriteTrace

/-- What `smc::GenerateRandomBytes` returns for a seed. -/
structure SeedReply where
  result : SmcResult
  seed : Bytes 0x20

/-- The generator, and how often a seed was asked for. -/
structure RandomState where
  drbg : CtrDrbg
  seedCalls : Nat

/-- What a request for random bytes returns, writes and leaves behind. -/
structure RandomReply where
  result : Except Nat Unit
  writes : List Write
  state : RandomState

/-- `GenerateRandomBytesInternal`. What the second call of the generator returns is not looked at. -/
def generateRandomBytesInternal (aes : List UInt8 → BlockCipher 0x10) (smc : Nat → SeedReply) (out size : Nat)
    (s : RandomState) : RandomReply :=
  let first := s.drbg.generateRandomBytes aes out size
  if first.accepted then ⟨.ok (), first.writes, { s with drbg := first.drbg }⟩
  else
    let reply := smc s.seedCalls
    let s := ⟨first.drbg, s.seedCalls + 1⟩
    if reply.result ≠ smcSuccess then ⟨convertResult reply.result, first.writes, s⟩
    else
      let second := (s.drbg.reseed aes reply.seed).generateRandomBytes aes out size
      ⟨.ok (), first.writes ++ second.writes, { s with drbg := second.drbg }⟩

/-- `R_TRY`: what comes behind a request that succeeded. -/
def RandomReply.andThen (reply : RandomReply) (next : RandomState → RandomReply) : RandomReply :=
  match reply.result with
  | .error e => ⟨.error e, reply.writes, reply.state⟩
  | .ok () =>
    let rest := next reply.state
    ⟨rest.result, reply.writes ++ rest.writes, rest.state⟩

lemma RandomReply.andThen_of_ok {reply : RandomReply} (h : reply.result = .ok ())
    (next : RandomState → RandomReply) : (reply.andThen next).result = (next reply.state).result ∧
      (reply.andThen next).writes = reply.writes ++ (next reply.state).writes := by
  rw [andThen, h]
  exact ⟨rfl, rfl⟩

lemma maxRequestSize_pos : 0 < maxRequestSize := by
  decide

/-- The size of a part. -/
def curSize (size ofs : Nat) : Nat := min (size - ofs) maxRequestSize

/-- The loop of `GenerateRandomBytes`. -/
def generateParts (aes : List UInt8 → BlockCipher 0x10) (smc : Nat → SeedReply) (size ofs curDst : Nat)
    (s : RandomState) : RandomReply :=
  if _hofs : ofs < size then
    -- the whole size, and not `curSize`
    (generateRandomBytesInternal aes smc curDst size s).andThen
      (generateParts aes smc size (ofs + maxRequestSize) (curDst + curSize size ofs))
  else ⟨.ok (), [], s⟩
termination_by size - ofs
decreasing_by
  exact Nat.sub_lt_sub_left _hofs (Nat.lt_add_of_pos_right maxRequestSize_pos)

/-- `spl::impl::GenerateRandomBytes` -/
def generateRandomBytes (aes : List UInt8 → BlockCipher 0x10) (smc : Nat → SeedReply) (out size : Nat)
    (s : RandomState) : RandomReply :=
  generateParts aes smc size 0 out s

/-- A write that the generator made for a request that it accepted. -/
def Produced (aes : List UInt8 → BlockCipher 0x10) (w : Write) : Prop :=
  ∃ (d : CtrDrbg) (dst n : Nat), (d.generateRandomBytes aes dst n).accepted = true ∧
    w ∈ (d.generateRandomBytes aes dst n).writes

/-- A request that succeeds was answered by the generator, in all of its bytes and nowhere else. -/
def AllGenerated (aes : List UInt8 → BlockCipher 0x10) (out size : Nat) (reply : RandomReply) : Prop :=
  reply.result = .ok () → (∀ w ∈ reply.writes, Produced aes w) ∧
    ∀ a, (∃ w ∈ reply.writes, w.Covers a) ↔ out ≤ a ∧ a < out + size

section Requests

variable (aes : List UInt8 → BlockCipher 0x10) (smc : Nat → SeedReply)

lemma produced_generateRandomBytes (d : CtrDrbg) (dst n : Nat) :
    ∀ w ∈ (d.generateRandomBytes aes dst n).writes, Produced aes w := by
  intro w hw
  rcases generateRandomBytes_spec aes d dst n with ⟨-, hrefused⟩ | ⟨-, -, -, haccepted, -⟩
  · rw [hrefused] at hw
    cases hw
  · exact ⟨d, dst, n, haccepted, hw⟩

/-- A request that is not too large is accepted until the generator needs a new seed. -/
lemma accepted_of_le {d : CtrDrbg} {size : Nat} (hsize : size ≤ maxRequestSize)
    (hreseed : d.reseedCounter.toNat ≤ reseedInterval) (out : Nat) :
    (d.generateRandomBytes aes out size).accepted = true := by
  rw [CtrDrbg.generateRandomBytes, if_neg hsize.not_gt, if_neg hreseed.not_gt]

/-- A request that is accepted is answered where it was asked for. -/
lemma covers_of_accepted {d : CtrDrbg} {out size : Nat} (h : (d.generateRandomBytes aes out size).accepted = true)
    (a : Nat) : (∃ w ∈ (d.generateRandomBytes aes out size).writes, w.Covers a) ↔ out ≤ a ∧ a < out + size := by
  rcases generateRandomBytes_spec aes d out size with ⟨-, hrefused⟩ | ⟨bytes, -, hlength, -, hlays⟩
  · rw [hrefused] at h
    cases h
  · rw [hlays.covers_iff, hlength]

lemma refused_of_lt {size : Nat} (hsize : maxRequestSize < size) (d : CtrDrbg) (out : Nat) :
    d.generateRandomBytes aes out size = ⟨false, [], d⟩ := by
  rw [CtrDrbg.generateRandomBytes, if_pos hsize]

/-- One part of a request that is not too large. -/
lemma allGenerated_internal {size : Nat} (hsize : size ≤ maxRequestSize) (out : Nat) (s : RandomState) :
    AllGenerated aes out size (generateRandomBytesInternal aes smc out size s) := by
  have hproduced := produced_generateRandomBytes aes
  intro h
  rw [generateRandomBytesInternal] at h ⊢
  dsimp only at h ⊢
  split at h
  · next haccepted =>
    rw [if_pos haccepted]
    exact ⟨hproduced _ _ _, covers_of_accepted aes haccepted⟩
  · next hrefused =>
    rw [if_neg hrefused]
    split at h
    · next hfailed => exact absurd (convertResult_eq_ok h) hfailed
    · next hseed =>
      have hreseeded : (1 : UInt32).toNat ≤ reseedInterval := by decide
      have haccepted := accepted_of_le aes hsize (d := (s.drbg.generateRandomBytes aes out size).drbg.reseed aes
        (smc s.seedCalls).seed) hreseeded out
      rw [if_neg hseed]
      dsimp only
      rcases generateRandomBytes_spec aes s.drbg out size with ⟨-, hreply⟩ | ⟨-, -, -, hreply, -⟩
      · rw [hreply] at haccepted ⊢
        exact ⟨hproduced _ _ _, covers_of_accepted aes haccepted⟩
      · exact absurd hreply hrefused

/-- A request that fits one part takes one step of the loop, or none. -/
lemma allGenerated_of_le {size : Nat} (hsize : size ≤ maxRequestSize) (out : Nat) (s : RandomState) :
    AllGenerated aes out size (generateRandomBytes aes smc out size s) := by
  rw [generateRandomBytes, generateParts]
  split
  · have hpart := allGenerated_internal aes smc hsize out s
    rw [Nat.zero_add]
    generalize generateRandomBytesInternal aes smc out size s = reply at hpart ⊢
    obtain ⟨result, writes, s'⟩ := reply
    cases result with
    | error e =>
      intro h
      cases h
    | ok u =>
      rw [RandomReply.andThen, generateParts, dif_neg hsize.not_gt]
      dsimp only
      rw [List.append_nil]
      exact hpart
  · next hempty =>
    intro _
    refine ⟨fun _ hw => absurd hw List.not_mem_nil, fun a => ?_⟩
    constructor
    · rintro ⟨w, hw, -⟩
      cases hw
    · rintro ⟨hle, hlt⟩
      omega

/-- With seeds for the asking, a part of a request that is too large succeeds, and nothing is written. -/
lemma internal_of_lt {size : Nat} (hsize : maxRequestSize < size)
    (hseeds : ∀ n, (smc n).result = smcSuccess) (out : Nat) (s : RandomState) :
    (generateRandomBytesInternal aes smc out size s).result = .ok () ∧
      (generateRandomBytesInternal aes smc out size s).writes = [] := by
  rw [generateRandomBytesInternal, refused_of_lt aes hsize]
  dsimp only
  rw [if_neg Bool.false_ne_true, if_neg (not_not.mpr (hseeds _)), refused_of_lt aes hsize]
  exact ⟨rfl, rfl⟩

lemma generateParts_of_lt {size : Nat} (hsize : maxRequestSize < size)
    (hseeds : ∀ n, (smc n).result = smcSuccess) (ofs curDst : Nat) (s : RandomState) :
    (generateParts aes smc size ofs curDst s).result = .ok () ∧
      (generateParts aes smc size ofs curDst s).writes = [] := by
  induction ofs, curDst, s using generateParts.induct size with
  | case1 ofs curDst s hofs ih =>
    obtain ⟨hresult, hwrites⟩ := internal_of_lt aes smc hsize hseeds curDst s
    rw [generateParts, dif_pos hofs]
    obtain ⟨hnext, hrest⟩ := RandomReply.andThen_of_ok hresult
      (generateParts aes smc size (ofs + maxRequestSize) (curDst + curSize size ofs))
    rw [hnext, hrest, hwrites, List.nil_append]
    exact ih (generateRandomBytesInternal aes smc curDst size s).state
  | case2 ofs curDst s hofs =>
    rw [generateParts, dif_neg hofs]
    exact ⟨rfl, rfl⟩

/-- With seeds for the asking, a request for random bytes is answered in full when it is not larger than what the
generator takes at once. -/
theorem generateRandomBytes_allGenerated_iff (hseeds : ∀ n, (smc n).result = smcSuccess) (out size : Nat)
    (s : RandomState) : AllGenerated aes out size (generateRandomBytes aes smc out size s) ↔ size ≤ maxRequestSize := by
  constructor
  · intro h
    by_contra hlarge
    rw [not_le] at hlarge
    obtain ⟨hresult, hwrites⟩ := generateParts_of_lt aes smc hlarge hseeds 0 out s
    obtain ⟨-, hcovers⟩ := h hresult
    have hpos : 0 < size := Nat.zero_lt_of_lt hlarge
    obtain ⟨w, hw, -⟩ := (hcovers out).mpr ⟨le_rfl, Nat.lt_add_of_pos_right hpos⟩
    rw [generateRandomBytes, hwrites] at hw
    cases hw
  · intro hsize
    exact allGenerated_of_le aes smc hsize out s

end Requests

lemma length_zeroBlock (_ : List UInt8) : (List.replicate 0x10 (0 : UInt8)).length = 0x10 := List.length_replicate

/-- Every block is encrypted to zeros. -/
def zeroCipher (_ : List UInt8) : BlockCipher 0x10 := ⟨fun _ => List.replicate 0x10 0, length_zeroBlock⟩

/-- The secure monitor returns seeds of zeros. -/
def zeroSeeds (_ : Nat) : SeedReply := ⟨smcSuccess, .zeros 0x20⟩

/-- A generator as it is at first. -/
def zeroRandom : RandomState :=
  ⟨CtrDrbg.initializeDrbg zeroCipher (.zeros 0x20) ⟨.zeros 0x10, .zeros 0x10, .zeros 0x20, .zeros 0x20, 0⟩, 0⟩

/-- As many bytes as the generator takes at once. -/
theorem generateRandomBytes_allGenerated_max :
    AllGenerated zeroCipher 0x1000 maxRequestSize
      (generateRandomBytes zeroCipher zeroSeeds 0x1000 maxRequestSize zeroRandom) :=
  (generateRandomBytes_allGenerated_iff zeroCipher zeroSeeds (fun _ => rfl) 0x1000 maxRequestSize zeroRandom).mpr le_rfl

/-- One byte more than the generator takes at once: success, and nothing is generated. -/
theorem generateRandomBytes_not_allGenerated :
    ¬AllGenerated zeroCipher 0x1000 0x10001 (generateRandomBytes zeroCipher zeroSeeds 0x1000 0x10001 zeroRandom) := by
  obtain ⟨hresult, hwrites⟩ := generateParts_of_lt zeroCipher zeroSeeds
    (show maxRequestSize < 0x10001 by decide) (fun _ => rfl) 0 0x1000 zeroRandom
  intro h
  obtain ⟨-, hcovers⟩ := h hresult
  obtain ⟨w, hw, -⟩ := (hcovers 0x1000).mpr ⟨le_rfl, by decide⟩
  rw [generateRandomBytes, hwrites] at hw
  cases hw

end RajNX.Spl
