import RajNX.Lib.AddressMap
import RajNX.Lib.Interruptible

/-!
# Code memory in another process

`MappedCodeMemory` and `MapCodeMemoryInProcess` of `map_types.hpp` and `map_api.cpp`, on the code mappings of
one process. What the kernel answers, and the random addresses, are part of the state. A mapping that is not
kept is taken away when the object that made it goes out of scope.
-/

namespace RajNX.Ro

open AddressMap Interruptible

/-- The results of the kernel: `ResultKernelInvalidMemoryState`, and all others. -/
inductive KernelError
  | invalidMemoryState
  | other (code : Nat)
deriving Repr, DecidableEq

/-- The results of the service, those of the kernel, and the end of the process. -/
inductive RoError
  | insufficientAddressSpace | alreadyLoaded | invalidNro | invalidNrr | tooManyNro | tooManyNrr | notAuthorized
  | invalidNrrType | internalError | invalidAddress | invalidSize | notLoaded | notRegistered
  | kernel (e : KernelError)
  | abort
deriving Repr, DecidableEq

/-- An answer to one question of the service: an error or none, and a value. -/
structure Answer where
  error : Option KernelError
  value : Nat

/-- The code mappings of the process, what the service keeps about it, and what will be answered. A missing
answer is a success with the value zero. -/
structure RoState (κ : Type) where
  mapping : Nat → Option Nat
  context : κ
  answers : List Answer

variable {κ : Type}

/-- The procedures of the service. -/
abbrev RoProc (κ α : Type) := Proc (RoState κ) RoError α

/-- The next answer. -/
def nextAnswer (s : RoState κ) : Answer := s.answers.headD ⟨none, 0⟩

/-- The state when it has been given. -/
def dropAnswer (s : RoState κ) : RoState κ := { s with answers := s.answers.tail }

/-- A value that is up to the kernel or to chance. -/
def askValue : RoProc κ Nat := .atomic fun s => (.ok (nextAnswer s).value, dropAnswer s)

/-- Read what is kept about the process. -/
def getContext : RoProc κ κ := .atomic fun s => (.ok s.context, s)

/-- Write to what is kept about the process. -/
def modifyContext (f : κ → κ) : RoProc κ Unit := .atomic fun s => (.ok (), { s with context := f s.context })

/-- A call of the kernel that may fail. If it does not fail it has an effect, which is one that is possible. -/
def kernelCall (effect : (Nat → Option Nat) → Option (Nat → Option Nat)) : RoProc κ Unit :=
  .atomic fun s =>
    match (nextAnswer s).error, effect s.mapping with
    | some e, _ => (.error (.kernel e), dropAnswer s)
    | none, none => (.error (.kernel .invalidMemoryState), dropAnswer s)
    | none, some mapping => (.ok (), { dropAnswer s with mapping := mapping })

/-- A call of the kernel that changes no mapping of the process. -/
def kernelQuery : RoProc κ Unit := kernelCall some

/-- `svcMapProcessCodeMemory`. The kernel maps where nothing is, and nothing that wraps around. -/
def svcMapProcessCodeMemory (dst src size : Nat) : RoProc κ Unit :=
  kernelCall fun mapping =>
    let piece : Piece := ⟨dst, src, size⟩
    if dst + size < 2 ^ 64 ∧ src + size < 2 ^ 64 ∧ piece.Free mapping then some (piece.place mapping) else none

/-- `svcUnmapProcessCodeMemory`. The kernel takes away what is mapped. -/
def svcUnmapProcessCodeMemory (dst src size : Nat) : RoProc κ Unit :=
  .atomic fun s =>
    let piece : Piece := ⟨dst, src, size⟩
    if size = 0 then (.error (.kernel (.other 0)), s)
    else if piece.Holds s.mapping then (.ok (), { s with mapping := piece.clear s.mapping })
    else (.error (.kernel .invalidMemoryState), s)

/-- `R_ASSERT` -/
def assertSuccess (p : RoProc κ Unit) : RoProc κ Unit :=
  p.attempt >>= fun
    | .ok _ => pure ()
    | .error _ => .fail .abort

/-- The destructor of a `MappedCodeMemory`. -/
def closeMapped (mcm : Piece) : RoProc κ Unit :=
  if 0 < mcm.size then assertSuccess (svcUnmapProcessCodeMemory mcm.dst mcm.src mcm.size) else pure ()

/-- `CanAddGuardRegionsInProcess`, which asks the kernel what is around a range. -/
def canAddGuardRegionsInProcess : RoProc κ Bool := do
  let value ← askValue
  return value != 0

/-- The loop of `MapCodeMemoryInProcess`, with the tries that are left. The random address is one outside of
the heap and the alias region. -/
def mapCodeMemoryLoop (baseAddress size : Nat) : Nat → RoProc κ Piece
  | 0 => .fail .insufficientAddressSpace
  | tries + 1 => do
    let tryAddress ← askValue
    match ← (svcMapProcessCodeMemory tryAddress baseAddress size).attempt with
    | .error (.kernel .invalidMemoryState) => mapCodeMemoryLoop baseAddress size tries
    | .error e => .fail e
    | .ok _ =>
      let canAdd ← canAddGuardRegionsInProcess
      if canAdd then return ⟨tryAddress, baseAddress, size⟩
      else
        closeMapped ⟨tryAddress, baseAddress, size⟩
        mapCodeMemoryLoop baseAddress size tries

/-- `MapCodeMemoryInProcess`, with the mapping that it returns. -/
def mapCodeMemoryInProcess (baseAddress size : Nat) : RoProc κ Piece := do
  kernelQuery
  let aslrSize ← askValue
  if aslrSize < size then .fail .insufficientAddressSpace
  else mapCodeMemoryLoop baseAddress size 0x200

/-! ## Returning -/

/-- From a state a procedure returns a value. -/
def Returns {α : Type} (p : RoProc κ α) (s : RoState κ) (a : α) (t : RoState κ) : Prop :=
  (p.run s).result = .ok a ∧ (p.run s).final = t

section Returns

open Proc

variable {α β : Type} {p : RoProc κ α} {s t u : RoState κ} {a : α} {b : β}

lemma Returns.bind {k : α → RoProc κ β} (h : Returns p s a t) (h' : Returns (k a) t b u) : Returns (p >>= k) s b u := by
  rw [Returns, run_bind_ok h.1, h.2]
  exact h'

lemma Returns.attempt (h : Returns p s a t) : Returns p.attempt s (.ok a) t := by
  induction p generalizing s with
  | done r => exact ⟨congrArg Except.ok h.1, h.2⟩
  | op f next ih => exact ih (f s).1 h

lemma returns_svcMapProcessCodeMemory {dst src size : Nat} (hanswer : (nextAnswer s).error = none)
    (hdst : dst + size < 2 ^ 64) (hsrc : src + size < 2 ^ 64) (hfree : (Piece.mk dst src size).Free s.mapping) :
    Returns (svcMapProcessCodeMemory dst src size) s ()
      { dropAnswer s with mapping := (Piece.mk dst src size).place s.mapping } := by
  have hrun : (svcMapProcessCodeMemory dst src size).run s =
      ⟨[{ dropAnswer s with mapping := (Piece.mk dst src size).place s.mapping }], .ok (),
        { dropAnswer s with mapping := (Piece.mk dst src size).place s.mapping }⟩ := by
    rw [svcMapProcessCodeMemory, kernelCall, atomic, Proc.run]
    dsimp only
    rw [hanswer, if_pos ⟨hdst, hsrc, hfree⟩]
    rfl
  rw [Returns, hrun]
  exact ⟨rfl, rfl⟩

end Returns

/-! ## What the procedures do -/

/-- From a mapping and a context a procedure ends with a result, a mapping and a context, whatever the answers
are. -/
def Ends {α : Type} (p : RoProc κ α) (mapping : Nat → Option Nat) (context : κ)
    (Q : Except RoError α → (Nat → Option Nat) → κ → Prop) : Prop :=
  ∀ s : RoState κ, s.mapping = mapping → s.context = context →
    p.Sat Proc.noFault s (fun _ => True) fun r t => Q r t.mapping t.context

section Ends

open Proc

variable {α β : Type} {p : RoProc κ α} {mapping : Nat → Option Nat} {context : κ}
  {Q Q' : Except RoError α → (Nat → Option Nat) → κ → Prop}

lemma ends_pure {a : α} (h : Q (.ok a) mapping context) : Ends (pure a) mapping context Q := by
  rintro s rfl rfl
  exact h

lemma ends_fail {e : RoError} (h : Q (.error e) mapping context) : Ends (fail e) mapping context Q := by
  rintro s rfl rfl
  exact h

lemma ends_bind {k : α → RoProc κ β} {Q : Except RoError β → (Nat → Option Nat) → κ → Prop}
    (h : Ends p mapping context fun r m c =>
      (∀ a, r = .ok a → Ends (k a) m c Q) ∧ ∀ e, r = .error e → Q (.error e) m c) :
    Ends (p >>= k) mapping context Q := by
  intro s hmapping hcontext
  exact sat_bind ((h s hmapping hcontext).mono (fun _ h => h)
    fun r t hr => ⟨fun a ha => hr.1 a ha t rfl rfl, hr.2⟩)

lemma Ends.mono (h : Ends p mapping context Q) (hQ : ∀ r m c, Q r m c → Q' r m c) : Ends p mapping context Q' :=
  fun s hmapping hcontext => (h s hmapping hcontext).mono (fun _ h => h) fun _ _ => hQ _ _ _

lemma ends_attempt {Q : Except RoError (Except RoError α) → (Nat → Option Nat) → κ → Prop}
    (h : Ends p mapping context fun r => Q (.ok r)) : Ends p.attempt mapping context Q :=
  fun s hmapping hcontext => sat_attempt (h s hmapping hcontext)

lemma ends_askValue {Q : Except RoError Nat → (Nat → Option Nat) → κ → Prop}
    (h : ∀ value, Q (.ok value) mapping context) : Ends askValue mapping context Q := by
  rintro s rfl rfl
  exact ⟨trivial, h _, nofun⟩

lemma ends_done {r : Except RoError α} (h : Q r mapping context) : Ends (.done r) mapping context Q := by
  rintro s rfl rfl
  exact h

lemma ends_getContext {Q : Except RoError κ → (Nat → Option Nat) → κ → Prop} (h : Q (.ok context) mapping context) :
    Ends getContext mapping context Q := by
  rintro s rfl rfl
  exact ⟨trivial, h, nofun⟩

variable {Q : Except RoError Unit → (Nat → Option Nat) → κ → Prop}

lemma ends_modifyContext {f : κ → κ}
    (h : Q (.ok ()) mapping (f context)) : Ends (modifyContext f) mapping context Q := by
  rintro s rfl rfl
  exact ⟨trivial, h, nofun⟩

/-- A call of the kernel has its effect, or nothing changes. -/
lemma ends_kernelCall {effect : (Nat → Option Nat) → Option (Nat → Option Nat)}
    (hok : ∀ m, effect mapping = some m → Q (.ok ()) m context)
    (herror : ∀ e, Q (.error (.kernel e)) mapping context) : Ends (kernelCall effect) mapping context Q := by
  rintro s rfl rfl
  refine sat_atomic trivial ?_ nofun
  dsimp only
  split
  · exact herror _
  · exact herror _
  · next mapping _ hmapping => exact hok mapping hmapping

lemma ends_kernelQuery (hok : Q (.ok ()) mapping context) (herror : ∀ e, Q (.error (.kernel e)) mapping context) :
    Ends kernelQuery mapping context Q :=
  ends_kernelCall (fun _ hm => Option.some.inj hm ▸ hok) herror

/-- A piece is mapped where nothing is, or nothing changes. -/
lemma ends_svcMapProcessCodeMemory {dst src size : Nat}
    (hok : dst + size < 2 ^ 64 → src + size < 2 ^ 64 → (Piece.mk dst src size).Free mapping →
      Q (.ok ()) ((Piece.mk dst src size).place mapping) context)
    (herror : ∀ e, Q (.error (.kernel e)) mapping context) :
    Ends (svcMapProcessCodeMemory dst src size) mapping context Q := by
  refine ends_kernelCall (fun m hm => ?_) herror
  dsimp only at hm
  split at hm
  · next h =>
    cases hm
    exact hok h.1 h.2.1 h.2.2
  · cases hm

/-- A piece is unmapped that is there. -/
lemma ends_svcUnmapProcessCodeMemory {dst src size : Nat}
    (hpos : 0 < size) (hfree : (Piece.mk dst src size).Free mapping) (hok : Q (.ok ()) mapping context) :
    Ends (svcUnmapProcessCodeMemory dst src size) ((Piece.mk dst src size).place mapping) context Q := by
  rintro s hmapping rfl
  have hholds : (Piece.mk dst src size).Holds s.mapping := by
    rw [hmapping]
    exact Piece.holds_place _ _
  refine sat_atomic trivial ?_ nofun
  dsimp only
  rw [if_neg (Nat.ne_of_gt hpos), if_pos hholds, hmapping, Piece.clear_place hfree]
  exact hok

/-- A piece without a size is not unmapped. -/
lemma ends_svcUnmapProcessCodeMemory_zero {dst src : Nat} (herror : Q (.error (.kernel (.other 0))) mapping context) :
    Ends (svcUnmapProcessCodeMemory dst src 0) mapping context Q := by
  rintro s rfl rfl
  exact sat_atomic trivial herror nofun

lemma ends_assertSuccess {p : RoProc κ Unit} (h : Ends p mapping context fun r m c => r = .ok () ∧ Q (.ok ()) m c) :
    Ends (assertSuccess p) mapping context Q := by
  refine ends_bind (ends_attempt (h.mono fun r m c hr => ⟨fun r' hr' => ?_, nofun⟩))
  cases hr'
  rw [hr.1]
  exact ends_pure hr.2

/-- The destructor takes the mapping away again. -/
lemma ends_closeMapped {mcm : Piece} (hfree : mcm.Free mapping) (hok : Q (.ok ()) mapping context) :
    Ends (closeMapped mcm) (mcm.place mapping) context Q := by
  rw [closeMapped]
  split
  · next hpos => exact ends_assertSuccess (ends_svcUnmapProcessCodeMemory hpos hfree ⟨rfl, hok⟩)
  · next hzero =>
    rw [Piece.place_of_size_zero (Nat.eq_zero_of_not_pos hzero)]
    exact ends_pure hok

lemma ends_canAddGuardRegionsInProcess {Q : Except RoError Bool → (Nat → Option Nat) → κ → Prop}
    (h : ∀ canAdd, Q (.ok canAdd) mapping context) : Ends canAddGuardRegionsInProcess mapping context Q :=
  ends_bind (ends_askValue fun _ => ⟨fun _ _ => ends_pure (h _), nofun⟩)

/-- A mapping of a size that is kept. -/
structure Mapped (baseAddress size : Nat) (mapping : Nat → Option Nat) (mcm : Piece) : Prop where
  src_eq : mcm.src = baseAddress
  size_eq : mcm.size = size
  free : mcm.Free mapping
  dst_lt : mcm.dst + size < 2 ^ 64
  src_lt : baseAddress + size < 2 ^ 64

variable {Q : Except RoError Piece → (Nat → Option Nat) → κ → Prop}

lemma ends_mapCodeMemoryLoop {baseAddress size tries : Nat}
    (hok : ∀ mcm, Mapped baseAddress size mapping mcm → Q (.ok mcm) (mcm.place mapping) context)
    (herror : ∀ e, Q (.error e) mapping context) :
    Ends (mapCodeMemoryLoop baseAddress size tries) mapping context Q := by
  induction tries with
  | zero => exact ends_fail (herror _)
  | succ tries ih =>
    refine ends_bind (ends_askValue fun tryAddress => ⟨fun _ ha => ?_, nofun⟩)
    cases ha
    refine ends_bind (ends_attempt (ends_svcMapProcessCodeMemory ?_ ?_))
    · intro hdst hsrc hfree
      refine ⟨fun _ ha => ?_, nofun⟩
      cases ha
      refine ends_bind (ends_canAddGuardRegionsInProcess fun canAdd => ⟨fun _ ha => ?_, nofun⟩)
      cases ha
      cases canAdd with
      | true => exact ends_pure (hok ⟨tryAddress, baseAddress, size⟩ ⟨rfl, rfl, hfree, hdst, hsrc⟩)
      | false => exact ends_bind (ends_closeMapped hfree ⟨fun _ _ => ih, nofun⟩)
    · intro e
      refine ⟨fun _ ha => ?_, nofun⟩
      cases ha
      cases e with
      | invalidMemoryState => exact ih
      | other code => exact ends_fail (herror _)

/-- The mapping that is returned is there, or nothing changes. -/
lemma ends_mapCodeMemoryInProcess {baseAddress size : Nat}
    (hok : ∀ mcm, Mapped baseAddress size mapping mcm → Q (.ok mcm) (mcm.place mapping) context)
    (herror : ∀ e, Q (.error e) mapping context) :
    Ends (mapCodeMemoryInProcess baseAddress size) mapping context Q := by
  refine ends_bind (ends_kernelQuery ⟨fun _ _ => ?_, nofun⟩ fun e => ⟨nofun, fun _ _ => herror _⟩)
  refine ends_bind (ends_askValue fun aslrSize => ⟨fun _ _ => ?_, nofun⟩)
  split
  · exact ends_fail (herror _)
  · exact ends_mapCodeMemoryLoop hok herror

end Ends

end RajNX.Ro
