import RajNX.Exosphere.SmcBounds

/-!
# The lock for user calls

The lock that an asynchronous call leaves held is released by its callback, and the callback can only be called with
the key. CheckStatus and GetResult forget the key whether or not the callback has released the lock, and CryptAes
leaves the lock held although it starts nothing if its size is 0. So the lock can be orphaned: it is held, and no call
can release it.

In a run no lock is orphaned if and only if every step meets `KeepsLock`.
-/

namespace RajNX.Exosphere

open Command

attribute [local instance] neZero_args

/-! ## Orphaned locks -/

/-- The operation of the callback runs on the engine, or its result was not fetched. -/
def Monitor.OperationPending (s : Monitor) : Prop :=
  match s.smcCallback with
  | none => False
  | some .cryptAesStatusCheck => s.seCallback = some .cryptAes ∨ s.cryptAesDone = true
  | some .expModGetResult => (∃ output, s.seCallback = some (.expMod output)) ∨ s.expModDone = true
  | some .unwrapRsaOaepWrappedTitlekeyGetResult =>
    (∃ output, s.seCallback = some (.expMod output)) ∨ s.expModDone = true

/-- If the lock is held, a key is set, and the operation of its callback is pending. -/
def Monitor.NotOrphaned (s : Monitor) : Prop :=
  s.isUserSmcInProgress = true → s.smcCallbackKey ≠ 0 ∧ s.OperationPending

/-- While there is a key, the lock is held. -/
def Monitor.KeyHeld (s : Monitor) : Prop := s.smcCallbackKey ≠ 0 → s.isUserSmcInProgress = true

/-- The operation has finished, and its result has that size. CryptAes has no result. -/
def Monitor.CallbackFinishes (s : Monitor) (size : Nat) : Prop :=
  match s.smcCallback with
  | none => False
  | some .cryptAesStatusCheck => s.cryptAesDone = true
  | some .expModGetResult => s.expModDone = true ∧ size = 0x100
  | some .unwrapRsaOaepWrappedTitlekeyGetResult => s.expModDone = true ∧ size = 0x10

/-- A register is the key of the callback. -/
def Monitor.IsCurrentKey (s : Monitor) (x : UInt64) : Prop := s.smcCallbackKey ≠ 0 ∧ x = s.smcCallbackKey

/-- The key that the next callback gets. -/
def nextKey (p : Platform) (s : Monitor) : UInt64 :=
  read64le ((List.range 8).map fun i => p.random (s.drawn + i)) 0

/-- The mode of CryptAes. -/
def cryptAesMode (args : Args) : Nat := (uint32 (args 1) >>> 4) &&& 3

/-- CryptAes gets the lock and a key and does not refuse its registers. -/
def StartsCryptAes (p : Platform) (s : Monitor) (args : Args) : Prop :=
  s.isUserSmcInProgress = false ∧ nextKey p s ≠ 0 ∧
    isCryptAesRefused p.targetFirmware args = false ∧ cryptAesMode args ≠ 3

/-- What an event must meet so that the lock is not orphaned. CheckStatus with the key finishes CryptAes, GetResult
with the key finishes its operation, and CryptAes has something to do. -/
def KeepsLock (p : Platform) (s : Monitor) : Event → Prop
  | .smc args =>
    match findUserHandler p.targetFirmware (args 0) with
    | some .checkStatus => s.IsCurrentKey (args 1) → s.CallbackFinishes 0
    | some .getResult => s.IsCurrentKey (args 1) → ¬0x400 < args 3 → s.CallbackFinishes (args 3).toNat
    | some .cryptAes => StartsCryptAes p s args → args 6 ≠ 0 ∨ s.seCallback = some .cryptAes
    | _ => True
  | .seCompleted _ => True
  | .userMemory _ => True

/-! ## What the handlers leave -/

section Handlers

variable {p : Platform} {s s' : Monitor} {args args' : Args}

/-- RSA runs on the engine. -/
def Monitor.RunsExpMod (s : Monitor) : Prop := ∃ output, s.seCallback = some (.expMod output)

lemma seExpMod_leaves (keyslot : Nat) (input : List UInt8) : Leaves (seExpMod p keyslot input) Monitor.RunsExpMod :=
  .bind fun _ => .bind fun _ => .bind fun _ => .bind fun _ => by
    intro s u s' h
    cases h
    exact ⟨_, rfl⟩

lemma userExpMod_leaves (args : Args) : Leaves (userExpMod p args) Monitor.RunsExpMod :=
  .bind fun _ => .bind fun _ => .bind fun _ => .bind fun _ => .bind fun _ => .bind fun _ => .bind fun _ =>
    .bind_pure (seExpMod_leaves _ _)

lemma userSecureExpMod_leaves (args : Args) : Leaves (userSecureExpMod p args) Monitor.RunsExpMod := by
  unfold userSecureExpMod
  cases secureExponentId p.targetFirmware (args 3) with
  | none =>
    intro s a s' h
    cases h
  | some id =>
    exact .bind fun _ => .bind fun _ => .bind fun _ => .bind fun _ => .bind fun _ => .bind fun _ =>
      .bind_pure (seExpMod_leaves _ _)

lemma userUnwrapRsaOaepWrappedTitlekey_leaves (args : Args) :
    Leaves (userUnwrapRsaOaepWrappedTitlekey p args) Monitor.RunsExpMod :=
  .bind fun _ => .bind fun _ => .bind fun _ => .bind fun _ => .bind fun _ => .bind fun _ => .bind fun _ =>
    .bind fun _ => .bind fun _ => .bind fun _ => .bind_pure (seExpMod_leaves _ _)

/-- CryptAes on the engine, or nothing if there is nothing to do. -/
lemma seAesCryptInsecureInternal_eq_ok {keyslot size : Nat} {u : Unit}
    (h : seAesCryptInsecureInternal keyslot size s = (.ok u, s')) :
    if size = 0 then s' = s else s'.seCallback = some .cryptAes := by
  obtain ⟨_, s₁, hpanic, hrest⟩ := bind_eq_ok h
  obtain ⟨-, rfl⟩ := panicIf_eq_ok hpanic
  split
  · next hzero =>
    rw [if_pos hzero] at hrest
    cases hrest
    rfl
  · next hpos =>
    rw [if_neg hpos] at hrest
    obtain ⟨_, s₂, -, hset⟩ := bind_eq_ok hrest
    obtain ⟨_, s₃, -, hcheck⟩ := bind_eq_ok hset
    obtain ⟨_, s₄, -, hupdate⟩ := bind_eq_ok hcheck
    cases hupdate
    rfl

lemma setAesKeyslotIv_eq_ok {keyslot : Nat} {iv : List UInt8} {u : Unit}
    (h : setAesKeyslotIv keyslot iv s = (.ok u, s')) :
    s'.seCallback = s.seCallback ∧ s'.cryptAesDone = s.cryptAesDone := by
  obtain ⟨_, s₁, hpanic, hupdate⟩ := bind_eq_ok h
  obtain ⟨-, rfl⟩ := panicIf_eq_ok hpanic
  cases hupdate
  exact ⟨rfl, rfl⟩

/-- CryptAes that returns has started an operation, or it had nothing to do. -/
lemma userCryptAes_eq_ok (h : userCryptAes p args s = (.ok args', s')) :
    isCryptAesRefused p.targetFirmware args = false ∧ cryptAesMode args ≠ 3 ∧
      if (args 6).toNat = 0 then s'.seCallback = s.seCallback ∧ s'.cryptAesDone = false
      else s'.seCallback = some .cryptAes := by
  obtain ⟨_, s₁, hstop, hrest⟩ := bind_eq_ok h
  obtain ⟨hrefused, rfl⟩ := stopIf_eq_ok hstop
  obtain ⟨_, s₂, hupdate, hmodes⟩ := bind_eq_ok hrest
  cases hupdate
  refine ⟨Bool.eq_false_of_not_eq_true hrefused, ?_⟩
  split at hmodes
  · next hmode =>
    obtain ⟨_, s₃, hiv, hstart⟩ := bind_eq_ok hmodes
    obtain ⟨hcallback, hdone⟩ := setAesKeyslotIv_eq_ok hiv
    obtain ⟨_, s₄, hcrypt, hpure⟩ := bind_eq_ok hstart
    have hresult := seAesCryptInsecureInternal_eq_ok hcrypt
    cases hpure
    refine ⟨fun hthree => ?_, ?_⟩
    · rw [cryptAesMode] at hthree
      omega
    · split
      · next hzero =>
        rw [if_pos hzero] at hresult
        rw [hresult]
        exact ⟨hcallback, hdone⟩
      · next hpos =>
        rw [if_neg hpos] at hresult
        exact hresult
  · split at hmodes
    · next hmode =>
      obtain ⟨_, s₄, hcrypt, hpure⟩ := bind_eq_ok hmodes
      have hresult := seAesCryptInsecureInternal_eq_ok hcrypt
      cases hpure
      refine ⟨fun hthree => ?_, ?_⟩
      · rw [cryptAesMode] at hthree
        omega
      · split
        · next hzero =>
          rw [if_pos hzero] at hresult
          rw [hresult]
          exact ⟨rfl, rfl⟩
        · next hpos =>
          rw [if_neg hpos] at hresult
          exact hresult
    · cases hmodes

lemma seAesCryptInsecureInternal_neverStops (keyslot size : Nat) :
    NeverStops (seAesCryptInsecureInternal keyslot size) := by
  refine .bind (.panicIf _) fun _ => ?_
  split
  · exact .pure _
  · exact .bind (.update _) fun _ => .bind (.look _) fun _ => .bind (.panicIf _) fun _ => .update _

/-- CryptAes that returns early has refused its registers, or the mode is none. -/
lemma userCryptAes_eq_code {e : Nat} (h : userCryptAes p args s = (.error (.code e), s')) :
    isCryptAesRefused p.targetFirmware args = true ∨ cryptAesMode args = 3 := by
  have hmode : cryptAesMode args < 4 := Nat.and_lt_two_pow _ (n := 2) (by decide)
  rcases bind_eq_code h with hstop | ⟨_, s₁, -, hrest⟩
  · exact .inl (stopIf_eq_code hstop)
  · rcases bind_eq_code hrest with hupdate | ⟨_, s₂, -, hmodes⟩
    · cases hupdate
    · split at hmodes
      · exact absurd hmodes (NeverStops.bind (.bind (.panicIf _) fun _ => .update _)
          (fun _ => .bind (seAesCryptInsecureInternal_neverStops _ _) fun _ => .pure _) s₂ e s')
      · split at hmodes
        · exact absurd hmodes
            (NeverStops.bind (seAesCryptInsecureInternal_neverStops _ _) (fun _ => .pure _) s₂ e s')
        · next hne hne' =>
          rw [cryptAesMode] at hmode ⊢
          omega

end Handlers

/-! ## What the wrappers leave -/

section Wrappers

variable {p : Platform} {s s' : Monitor} {args : Args} {handler : Args → SmcM Args} {r : Nat × Args}

/-- The state with the lock held. -/
def Monitor.locked (s : Monitor) : Monitor := { s with isUserSmcInProgress := true }

/-- The state with the lock held and a new callback. -/
def Monitor.withCallback (s : Monitor) (p : Platform) (callback : SmcCallback) : Monitor :=
  { s with
    isUserSmcInProgress := true
    drawn := s.drawn + 8
    smcCallbackKey := nextKey p s
    smcCallback := some callback }

lemma trySetUserSmcInProgress_eq :
    trySetUserSmcInProgress s = (.ok (!s.isUserSmcInProgress), s.locked) := rfl

lemma locked_of_held (h : s.isUserSmcInProgress = true) : s.locked = s := by
  rw [Monitor.locked, ← h]

/-- A key is drawn if there is none. -/
lemma trySetSmcCallback_eq (hkey : s.smcCallbackKey = 0) (callback : SmcCallback) :
    trySetSmcCallback p callback s.locked = (.ok (nextKey p s), s.withCallback p callback) := by
  have hkey : ¬s.locked.smcCallbackKey ≠ 0 := not_not.mpr hkey
  unfold trySetSmcCallback
  rw [look_bind, if_neg hkey]
  rfl

/-- A synchronous call leaves everything as it is if the lock is held, and otherwise it leaves the lock free. -/
lemma smcWrapperSync_eq_ok (h : Behaves p handler) (hs : s.PageOk)
    (hrun : smcWrapperSync args handler s = (.ok r, s')) :
    s' = s ∨ s.isUserSmcInProgress = false ∧ s'.isUserSmcInProgress = false ∧ s'.smcCallbackKey = s.smcCallbackKey := by
  obtain ⟨acquired, s₁, hlock, hrest⟩ := bind_eq_ok hrun
  rw [trySetUserSmcInProgress_eq] at hlock
  cases hlock
  split at hrest
  · next hfree =>
    have hfree : s.isUserSmcInProgress = false := by simpa using hfree
    obtain ⟨result, s₂, hattempt, hclear⟩ := bind_eq_ok hrest
    have hguarantee := (h s.locked args hs).attempt.related
    rw [hattempt] at hguarantee
    cases hclear
    exact .inr ⟨hfree, rfl, hguarantee.callbackKey⟩
  · next hheld =>
    have hheld : s.isUserSmcInProgress = true := by simpa using hheld
    cases hrest
    exact .inl (locked_of_held hheld)

/-- An asynchronous call leaves everything as it is if the lock is held. Otherwise it leaves the lock and no key, or it
leaves its callback and what its handler has left. -/
lemma smcWrapperAsync_eq_ok (h : Behaves p handler) (hs : s.PageOk) (hkey : s.KeyHeld) {callback : SmcCallback}
    (hrun : smcWrapperAsync p args handler callback s = (.ok r, s')) :
    (s.isUserSmcInProgress = true ∧ s' = s) ∨
      (s'.isUserSmcInProgress = false ∧ s'.smcCallbackKey = 0 ∧
        (nextKey p s = 0 ∨ ∃ s₁ e s₂, handler args s₁ = (.error (.code e), s₂))) ∨
      (s.isUserSmcInProgress = false ∧ nextKey p s ≠ 0 ∧ s'.isUserSmcInProgress = true ∧
        s'.smcCallbackKey = nextKey p s ∧ s'.smcCallback = some callback ∧
        ∃ s₁ args', s₁.seCallback = s.seCallback ∧ handler args s₁ = (.ok args', s')) := by
  obtain ⟨acquired, s₁, hlock, hrest⟩ := bind_eq_ok hrun
  rw [trySetUserSmcInProgress_eq] at hlock
  cases hlock
  split at hrest
  · next hfree =>
    have hfree : s.isUserSmcInProgress = false := by simpa using hfree
    have hzero : s.smcCallbackKey = 0 := by
      by_contra hne
      cases hfree.symm.trans (hkey hne)
    obtain ⟨key, s₂, hset, hhandler⟩ := bind_eq_ok hrest
    obtain ⟨hnext, rfl⟩ := Prod.mk.inj ((trySetSmcCallback_eq hzero callback).symm.trans hset)
    obtain rfl := Except.ok.inj hnext
    split at hhandler
    · next hne =>
      obtain ⟨result, s₃, hattempt, hend⟩ := bind_eq_ok hhandler
      have hguarantee := (h (s.withCallback p callback) args hs).attempt.related
      rw [hattempt] at hguarantee
      rcases attempt_eq_ok hattempt with ⟨args', rfl, hok⟩ | ⟨e, rfl, hcode⟩
      · cases hend
        exact .inr (.inr ⟨hfree, hne, hguarantee.lock, hguarantee.callbackKey, hguarantee.callback,
          s.withCallback p callback, args', rfl, hok⟩)
      · cases hend
        exact .inr (.inl ⟨rfl, if_pos hguarantee.callbackKey, .inr ⟨_, e, _, hcode⟩⟩)
    · next hnone =>
      cases hhandler
      exact .inr (.inl ⟨rfl, not_not.mp hnone, .inl (not_not.mp hnone)⟩)
  · next hheld =>
    have hheld : s.isUserSmcInProgress = true := by simpa using hheld
    cases hrest
    exact .inl ⟨hheld, locked_of_held hheld⟩

end Wrappers

/-! ## What the callbacks leave -/

section Callbacks

variable {p : Platform} {s s' : Monitor} {frame : StackFrame} {args : Args} {r : Nat × Args}

/-- The lock is free. -/
def Monitor.LockFree (s : Monitor) : Prop := s.isUserSmcInProgress = false

lemma clearUserSmcInProgress_leaves : Leaves clearUserSmcInProgress Monitor.LockFree := by
  intro s u s' h
  cases h
  rfl

/-- What a call with the key does to the lock: it is released if and only if the callback finishes. -/
structure Releases (s s' : Monitor) (size : Nat) : Prop where
  released : s.CallbackFinishes size → s'.isUserSmcInProgress = false
  kept : ¬s.CallbackFinishes size → s'.isUserSmcInProgress = s.isUserSmcInProgress

variable {size : Nat}

lemma Releases.of_finishes (h : s.CallbackFinishes size) (hfree : s'.isUserSmcInProgress = false) :
    Releases s s' size :=
  ⟨fun _ => hfree, fun hno => absurd h hno⟩

lemma Releases.of_same (h : ¬s.CallbackFinishes size) : Releases s s size :=
  ⟨fun hyes => absurd hyes h, fun _ => rfl⟩

variable {buf : List UInt8} {result : Nat × List UInt8}

lemma smcExpModGetResult_releases (hfinishes : s.CallbackFinishes size ↔ s.expModDone = true ∧ size = 0x100)
    (h : smcExpModGetResult buf size s = (.ok result, s')) : Releases s s' size := by
  obtain ⟨done, s₁, hlook, hrest⟩ := bind_eq_ok h
  cases hlook
  split at hrest
  · next hdone =>
    cases hrest
    refine .of_same fun hyes => ?_
    cases hdone.symm.trans (hfinishes.mp hyes).1
  · next hdone =>
    split at hrest
    · next hsize =>
      cases hrest
      exact .of_same fun hyes => hsize (hfinishes.mp hyes).2
    · next hsize =>
      exact .of_finishes (hfinishes.mpr ⟨Bool.eq_true_of_not_eq_false hdone, not_not.mp hsize⟩)
        (Leaves.of_run (Q := Monitor.LockFree) hrest
          (.bind fun _ => .bind fun _ => .bind_pure clearUserSmcInProgress_leaves))

lemma smcCryptAesStatusCheck_releases (hfinishes : s.CallbackFinishes size ↔ s.cryptAesDone = true)
    (h : smcCryptAesStatusCheck buf s = (.ok result, s')) : Releases s s' size := by
  obtain ⟨done, s₁, hlook, hrest⟩ := bind_eq_ok h
  cases hlook
  split at hrest
  · next hdone =>
    cases hrest
    refine .of_same fun hyes => ?_
    cases hdone.symm.trans (hfinishes.mp hyes)
  · next hdone =>
    exact .of_finishes (hfinishes.mpr (Bool.eq_true_of_not_eq_false hdone))
      (Leaves.of_run (Q := Monitor.LockFree) hrest (.bind_pure clearUserSmcInProgress_leaves))

/-- A title key that cannot be unwrapped also releases the lock. -/
lemma smcUnwrapRsaOaepWrappedTitlekeyGetResult_releases
    (hfinishes : s.CallbackFinishes size ↔ s.expModDone = true ∧ size = 0x10)
    (h : smcUnwrapRsaOaepWrappedTitlekeyGetResult p frame buf size s = (.ok result, s')) : Releases s s' size := by
  obtain ⟨done, s₁, hlook, hrest⟩ := bind_eq_ok h
  cases hlook
  split at hrest
  · next hdone =>
    cases hrest
    refine .of_same fun hyes => ?_
    cases hdone.symm.trans (hfinishes.mp hyes).1
  · next hdone =>
    split at hrest
    · next hsize =>
      cases hrest
      exact .of_same fun hyes => hsize (hfinishes.mp hyes).2
    · next hsize =>
      refine .of_finishes (hfinishes.mpr ⟨Bool.eq_true_of_not_eq_false hdone, not_not.mp hsize⟩) ?_
      obtain ⟨output, s₂, -, hrest⟩ := bind_eq_ok hrest
      obtain ⟨label, s₃, -, hrest⟩ := bind_eq_ok hrest
      obtain ⟨_, s₄, -, hrest⟩ := bind_eq_ok hrest
      cases hunwrap : tkeyRsaOaepUnwrap p.sha label frame.aesWrappedTitlekey 0x10 output.bytes with
      | none =>
        rw [hunwrap] at hrest
        cases hrest
      | some unwrapped =>
        rw [hunwrap] at hrest
        obtain ⟨_, s₅, -, hrest⟩ := bind_eq_ok hrest
        split at hrest
        · exact Leaves.of_run (Q := Monitor.LockFree) hrest (.bind_pure clearUserSmcInProgress_leaves)
        · exact Leaves.of_run (Q := Monitor.LockFree) hrest
            (.bind fun _ => .bind fun _ => .bind_pure clearUserSmcInProgress_leaves)

lemma callSmcCallback_releases
    (h : callSmcCallback p frame s.smcCallback buf size s = (.ok result, s')) : Releases s s' size := by
  cases hcallback : s.smcCallback with
  | none =>
    rw [hcallback] at h
    cases h
  | some callback =>
    rw [hcallback] at h
    cases callback with
    | expModGetResult =>
      exact smcExpModGetResult_releases (by rw [Monitor.CallbackFinishes, hcallback]) h
    | cryptAesStatusCheck =>
      exact smcCryptAesStatusCheck_releases (by rw [Monitor.CallbackFinishes, hcallback]) h
    | unwrapRsaOaepWrappedTitlekeyGetResult =>
      exact smcUnwrapRsaOaepWrappedTitlekeyGetResult_releases (by rw [Monitor.CallbackFinishes, hcallback]) h

/-- CheckStatus without the key leaves everything as it is. With the key it forgets the key. -/
lemma smcCheckStatus_eq_ok (hrun : smcCheckStatus p frame args s = (.ok r, s')) :
    (¬s.IsCurrentKey (args 1) ∧ s' = s) ∨
      (s.IsCurrentKey (args 1) ∧ s'.smcCallbackKey = 0 ∧ Releases s s' 0) := by
  obtain ⟨key, s₁, hlook, hrest⟩ := bind_eq_ok hrun
  cases hlook
  split at hrest
  · next hzero =>
    cases hrest
    exact .inl ⟨fun hcurrent => hcurrent.1 hzero, rfl⟩
  · next hne =>
    split at hrest
    · next hother =>
      cases hrest
      exact .inl ⟨fun hcurrent => hother hcurrent.2, rfl⟩
    · next hcurrent =>
      obtain ⟨callback, s₂, hlook, hrest⟩ := bind_eq_ok hrest
      cases hlook
      obtain ⟨result, s₃, hcall, hrest⟩ := bind_eq_ok hrest
      have hreleases := callSmcCallback_releases hcall
      cases hrest
      exact .inr ⟨⟨hne, not_not.mp hcurrent⟩, rfl, hreleases.released, hreleases.kept⟩

/-- GetResult is like CheckStatus, with a size that is not too large. The copy changes neither the lock nor the key. -/
lemma smcGetResult_eq_ok (hs : s.PageOk) (hrun : smcGetResult p frame args s = (.ok r, s')) :
    (¬(s.IsCurrentKey (args 1) ∧ ¬0x400 < args 3) ∧ s' = s) ∨
      (s.IsCurrentKey (args 1) ∧ ¬0x400 < args 3 ∧ s'.smcCallbackKey = 0 ∧ Releases s s' (args 3).toNat) := by
  obtain ⟨key, s₁, hlook, hrest⟩ := bind_eq_ok hrun
  cases hlook
  split at hrest
  · next hzero =>
    cases hrest
    exact .inl ⟨fun hcurrent => hcurrent.1.1 hzero, rfl⟩
  · next hne =>
    split at hrest
    · next hother =>
      cases hrest
      exact .inl ⟨fun hcurrent => hother hcurrent.1.2, rfl⟩
    · next hcurrent =>
      split at hrest
      · next hlarge =>
        cases hrest
        exact .inl ⟨fun hsmall => hsmall.2 hlarge, rfl⟩
      · next hsize =>
        obtain ⟨callback, s₂, hlook, hrest⟩ := bind_eq_ok hrest
        cases hlook
        obtain ⟨result, s₃, hcall, hrest⟩ := bind_eq_ok hrest
        have hreleases := callSmcCallback_releases hcall
        have hbounded : Bounded p.targetFirmware s
            (callSmcCallback p frame s.smcCallback frame.resultBuf (args 3).toNat s).2 :=
          (callSmcCallback_keeps s).related
        rw [hcall] at hbounded
        obtain ⟨_, s₄, hupdate, hrest⟩ := bind_eq_ok hrest
        cases hupdate
        obtain ⟨copied, s₅, hattempt, hrest⟩ := bind_eq_ok hrest
        have hcopy := (copyResultOut_ensures p.targetFirmware (args 2) result.2
          (s := { s₃ with smcCallbackKey := 0 }) (hbounded.pageOk hs) (toNat_le_of_not_lt hsize)).attempt.related
        rw [hattempt] at hcopy
        have hsame : s' = s₅ := by
          cases copied with
          | ok _ | error code =>
            cases hrest
            rfl
        rw [hsame]
        refine .inr ⟨⟨hne, not_not.mp hcurrent⟩, hsize, hcopy.callbackKey, ?_, ?_⟩
        · intro hfinishes
          exact hcopy.lock.trans (hreleases.released hfinishes)
        · intro hno
          exact hcopy.lock.trans (hreleases.kept hno)

end Callbacks

/-! ## What a step leaves -/

section Steps

variable {p : Platform} {s s' : Monitor} {frame : StackFrame} {args : Args} {r : Nat × Args}

/-- The lock, the key, the callback and its operation are as they were. -/
structure SameLock (s s' : Monitor) : Prop where
  lock : s'.isUserSmcInProgress = s.isUserSmcInProgress
  key : s'.smcCallbackKey = s.smcCallbackKey
  callback : s'.smcCallback = s.smcCallback
  seCallback : s'.seCallback = s.seCallback
  cryptAesDone : s'.cryptAesDone = s.cryptAesDone
  expModDone : s'.expModDone = s.expModDone

instance : IsPreorder Monitor SameLock where
  refl _ := ⟨rfl, rfl, rfl, rfl, rfl, rfl⟩
  trans _ _ _ h h' :=
    ⟨h'.lock.trans h.lock, h'.key.trans h.key, h'.callback.trans h.callback, h'.seCallback.trans h.seCallback,
      h'.cryptAesDone.trans h.cryptAesDone, h'.expModDone.trans h.expModDone⟩

lemma SameLock.keyHeld (h : SameLock s s') (hs : s.KeyHeld) : s'.KeyHeld := by
  rw [Monitor.KeyHeld, h.key, h.lock]
  exact hs

lemma SameLock.notOrphaned (h : SameLock s s') (hs : s.NotOrphaned) : s'.NotOrphaned := by
  rw [Monitor.NotOrphaned, Monitor.OperationPending, h.lock, h.key, h.callback, h.seCallback, h.cryptAesDone,
    h.expModDone]
  exact hs

/-- The lock is still bound to the key after a step, and it is not orphaned if and only if the step is a good one. -/
structure LockStep (s' : Monitor) (good : Prop) : Prop where
  keyHeld : s'.KeyHeld
  notOrphaned_iff : s'.NotOrphaned ↔ good

variable {good : Prop}

lemma LockStep.of_same (h : SameLock s s') (hkey : s.KeyHeld) (horphan : s.NotOrphaned) (hgood : good) :
    LockStep s' good :=
  ⟨h.keyHeld hkey, iff_of_true (h.notOrphaned horphan) hgood⟩

lemma LockStep.of_free (hfree : s'.isUserSmcInProgress = false) (hkey : s'.smcCallbackKey = 0) (hgood : good) :
    LockStep s' good := by
  refine ⟨fun hne => absurd hkey hne, iff_of_true (fun hheld => ?_) hgood⟩
  cases hfree.symm.trans hheld

/-- After a call with the key there is no key, so the lock is not orphaned if and only if it is released. -/
lemma LockStep.of_releases {size : Nat} (h : Releases s s' size) (hheld : s.isUserSmcInProgress = true)
    (hkey : s'.smcCallbackKey = 0) (hgood : good ↔ s.CallbackFinishes size) : LockStep s' good := by
  refine ⟨fun hne => absurd hkey hne, ?_⟩
  rw [hgood]
  constructor
  · intro horphan
    by_contra hno
    exact (horphan ((h.kept hno).trans hheld)).1 hkey
  · intro hyes hlocked
    cases (h.released hyes).symm.trans hlocked

lemma smcSetConfigUser_sameLock : Keeps SameLock (smcSetConfigUser args) := by
  refine .bind (fun s => (Ensures.attempt (?_ : Ensures _ _ _ fun _ _ => True)).mono fun _ _ _ _ => trivial)
    fun result => ?_
  · unfold configitemSet
    split
    · exact .update ⟨rfl, rfl, rfl, rfl, rfl, rfl⟩ trivial
    · split
      · split
        · exact .pure trivial
        · split
          · exact .panic
          · exact .stop
      · split
        · split
          · exact .pure trivial
          · exact .panic
        · exact .stop
  · cases result with
    | ok _ => exact .pure _
    | error code => exact .pure _

lemma configitemGet_sameLock (item : Nat) : Keeps SameLock (configitemGet p item) := by
  unfold configitemGet
  split
  case h_13 => exact .bind (.look _) fun _ => .pure _
  case h_18 => exact .bind (.bind (.panicIf _) fun _ => .pure _) fun _ => .pure _
  all_goals first
    | exact .pure _
    | exact .stop _
    | split
      · first
          | exact .pure _
          | exact .stop _
      · first
          | exact .pure _
          | exact .stop _

lemma smcGetConfigUser_sameLock : Keeps SameLock (smcGetConfigUser p args) := by
  refine .bind (fun s => (configitemGet_sameLock _ s).attempt.mono fun _ _ _ _ => trivial) fun result => ?_
  cases result with
  | ok words => exact .bind (.update fun _ => ⟨rfl, rfl, rfl, rfl, rfl, rfl⟩) fun _ => .pure _
  | error code => exact .pure _

lemma LockStep.of_keeps {α : Type} {m : SmcM α} {a : α} (hm : Keeps SameLock m) (hrun : m s = (.ok a, s'))
    (hkey : s.KeyHeld) (horphan : s.NotOrphaned) (hgood : good) : LockStep s' good := by
  have hsame := (hm s).related
  rw [hrun] at hsame
  exact .of_same hsame hkey horphan hgood

lemma smcWrapperSync_lockStep {handler : Args → SmcM Args} (h : Behaves p handler) (hs : s.PageOk) (hkey : s.KeyHeld)
    (horphan : s.NotOrphaned) (hrun : smcWrapperSync args handler s = (.ok r, s')) (hgood : good) :
    LockStep s' good := by
  rcases smcWrapperSync_eq_ok h hs hrun with rfl | ⟨hfree, hfree', hsame⟩
  · exact .of_same (refl_of SameLock _) hkey horphan hgood
  · have hzero : s.smcCallbackKey = 0 := by
      by_contra hne
      cases hfree.symm.trans (hkey hne)
    exact .of_free hfree' (hsame.trans hzero) hgood

/-- A call that does not start an operation is a good step. One that starts it is good if the operation is pending. -/
lemma smcWrapperAsync_lockStep {handler : Args → SmcM Args} (h : Behaves p handler) (hs : s.PageOk)
    (hkey : s.KeyHeld) (horphan : s.NotOrphaned) {callback : SmcCallback}
    (hrun : smcWrapperAsync p args handler callback s = (.ok r, s'))
    (hrefused : (s.isUserSmcInProgress = true ∨ nextKey p s = 0 ∨
      ∃ s₁ e s₂, handler args s₁ = (.error (.code e), s₂)) → good)
    (hstarted : ∀ s₁ args', s.isUserSmcInProgress = false → nextKey p s ≠ 0 → s'.smcCallback = some callback →
      s₁.seCallback = s.seCallback → handler args s₁ = (.ok args', s') → (s'.OperationPending ↔ good)) :
    LockStep s' good := by
  rcases smcWrapperAsync_eq_ok h hs hkey hrun with ⟨hheld, rfl⟩ | ⟨hfree, hzero, hnone⟩ |
    ⟨hfree, hne, hheld, hnext, hcallback, s₁, args', hengine, hok⟩
  · exact .of_same (refl_of SameLock _) hkey horphan (hrefused (.inl hheld))
  · exact .of_free hfree hzero (hrefused (.inr hnone))
  · refine ⟨fun _ => hheld, ?_⟩
    rw [← hstarted s₁ args' hfree hne hcallback hengine hok]
    exact ⟨fun hlock => (hlock hheld).2, fun hpending _ => ⟨hnext ▸ hne, hpending⟩⟩

/-- RSA is pending for both of its callbacks. -/
lemma Monitor.RunsExpMod.pending (h : s.RunsExpMod) {callback : SmcCallback} (hcallback : s.smcCallback = some callback)
    (hne : callback ≠ .cryptAesStatusCheck) : s.OperationPending := by
  rw [Monitor.OperationPending, hcallback]
  cases callback with
  | expModGetResult => exact .inl h
  | cryptAesStatusCheck => exact absurd rfl hne
  | unwrapRsaOaepWrappedTitlekeyGetResult => exact .inl h

/-- CryptAes of size 0 has nothing pending, except for an earlier operation of the engine. -/
lemma smcCryptAes_lockStep (hs : s.PageOk) (hkey : s.KeyHeld) (horphan : s.NotOrphaned)
    (hrun : smcWrapperAsync p args (userCryptAes p) .cryptAesStatusCheck s = (.ok r, s')) :
    LockStep s' (StartsCryptAes p s args → args 6 ≠ 0 ∨ s.seCallback = some .cryptAes) := by
  refine smcWrapperAsync_lockStep userCryptAes_behaves hs hkey horphan hrun ?_ ?_
  · rintro (hheld | hzero | ⟨s₁, e, s₂, hcode⟩) ⟨hfree, hne, hrefused, hmode⟩
    · cases hfree.symm.trans hheld
    · exact absurd hzero hne
    · rcases userCryptAes_eq_code hcode with hcode | hcode
      · cases hrefused.symm.trans hcode
      · exact absurd hcode hmode
  · intro s₁ args' hfree hne hcallback hengine hok
    obtain ⟨hrefused, hmode, hstate⟩ := userCryptAes_eq_ok hok
    have hstarts : StartsCryptAes p s args := ⟨hfree, hne, hrefused, hmode⟩
    have hsize : (args 6).toNat = 0 ↔ args 6 = 0 := UInt64.toNat_inj (b := 0)
    rw [Monitor.OperationPending, hcallback]
    split at hstate
    · next hzero =>
      rw [hstate.1, hstate.2, hengine]
      exact ⟨fun hpending _ => .inr (hpending.resolve_right (by decide)),
        fun hgood => .inl ((hgood hstarts).resolve_left (not_not.mpr (hsize.mp hzero)))⟩
    · next hpos => exact iff_of_true (.inl hstate) fun _ => .inl fun hzero => hpos (hsize.mpr hzero)

lemma smcCheckStatus_lockStep (hkey : s.KeyHeld) (horphan : s.NotOrphaned)
    (hrun : smcCheckStatus p frame args s = (.ok r, s')) :
    LockStep s' (s.IsCurrentKey (args 1) → s.CallbackFinishes 0) := by
  rcases smcCheckStatus_eq_ok hrun with ⟨hother, rfl⟩ | ⟨hcurrent, hzero, hreleases⟩
  · exact .of_same (refl_of SameLock _) hkey horphan fun hcurrent => absurd hcurrent hother
  · exact .of_releases hreleases (hkey hcurrent.1) hzero (forall_prop_of_true hcurrent)

lemma smcGetResult_lockStep (hs : s.PageOk) (hkey : s.KeyHeld) (horphan : s.NotOrphaned)
    (hrun : smcGetResult p frame args s = (.ok r, s')) :
    LockStep s' (s.IsCurrentKey (args 1) → ¬0x400 < args 3 → s.CallbackFinishes (args 3).toNat) := by
  rcases smcGetResult_eq_ok hs hrun with ⟨hother, rfl⟩ | ⟨hcurrent, hsize, hzero, hreleases⟩
  · exact .of_same (refl_of SameLock _) hkey horphan fun hcurrent hsize => absurd ⟨hcurrent, hsize⟩ hother
  · exact .of_releases hreleases (hkey hcurrent.1) hzero
      ((forall_prop_of_true hcurrent).trans (forall_prop_of_true hsize))

/-- A user call that comes back. -/
lemma callUserHandler_lockStep {handler : UserHandler}
    (hfind : findUserHandler p.targetFirmware (args 0) = some handler) (hs : s.PageOk) (hkey : s.KeyHeld)
    (horphan : s.NotOrphaned)
    (hrun : callUserHandler p frame handler args s = (.ok r, s')) : LockStep s' (KeepsLock p s (.smc args)) := by
  simp only [KeepsLock, hfind]
  cases handler with
  | setConfig => exact .of_keeps smcSetConfigUser_sameLock hrun hkey horphan trivial
  | getConfig => exact .of_keeps smcGetConfigUser_sameLock hrun hkey horphan trivial
  | checkStatus => exact smcCheckStatus_lockStep hkey horphan hrun
  | getResult => exact smcGetResult_lockStep hs hkey horphan hrun
  | cryptAes => exact smcCryptAes_lockStep hs hkey horphan hrun
  | expMod =>
    refine smcWrapperAsync_lockStep userExpMod_behaves hs hkey horphan hrun (fun _ => trivial) ?_
    intro s₁ args' _ _ hcallback _ hok
    exact iff_of_true ((userExpMod_leaves args s₁ args' s' hok).pending hcallback (by decide)) trivial
  | secureExpMod =>
    refine smcWrapperAsync_lockStep userSecureExpMod_behaves hs hkey horphan hrun (fun _ => trivial) ?_
    intro s₁ args' _ _ hcallback _ hok
    exact iff_of_true ((userSecureExpMod_leaves args s₁ args' s' hok).pending hcallback (by decide)) trivial
  | unwrapRsaOaepWrappedTitlekey =>
    refine smcWrapperAsync_lockStep userUnwrapRsaOaepWrappedTitlekey_behaves hs hkey horphan hrun (fun _ => trivial) ?_
    intro s₁ args' _ _ hcallback _ hok
    exact iff_of_true
      ((userUnwrapRsaOaepWrappedTitlekey_leaves args s₁ args' s' hok).pending hcallback (by decide)) trivial
  | getRandomBytes => exact smcWrapperSync_lockStep userGetRandomBytes_behaves hs hkey horphan hrun trivial
  | generateAesKek => exact smcWrapperSync_lockStep userGenerateAesKek_behaves hs hkey horphan hrun trivial
  | loadAesKey => exact smcWrapperSync_lockStep userLoadAesKey_behaves hs hkey horphan hrun trivial
  | generateSpecificAesKey =>
    exact smcWrapperSync_lockStep userGenerateSpecificAesKey_behaves hs hkey horphan hrun trivial
  | computeCmac => exact smcWrapperSync_lockStep userComputeCmac_behaves hs hkey horphan hrun trivial
  | loadRsaOaepKey => exact smcWrapperSync_lockStep userLoadRsaOaepKey_behaves hs hkey horphan hrun trivial
  | decryptRsaPrivateKey =>
    exact smcWrapperSync_lockStep userDecryptRsaPrivateKey_behaves hs hkey horphan hrun trivial
  | loadSecureExpModKey => exact smcWrapperSync_lockStep userLoadSecureExpModKey_behaves hs hkey horphan hrun trivial
  | loadTitlekey => exact smcWrapperSync_lockStep userLoadTitlekey_behaves hs hkey horphan hrun trivial
  | unwrapAesWrappedTitlekey =>
    exact smcWrapperSync_lockStep userUnwrapAesWrappedTitlekey_behaves hs hkey horphan hrun trivial
  | encryptRsaKeyForImport => exact smcWrapperSync_lockStep userEncryptRsaKey_behaves hs hkey horphan hrun trivial
  | decryptOrImportRsaKey => exact smcWrapperSync_lockStep userDecryptOrImportKey_behaves hs hkey horphan hrun trivial

/-- The registers that are returned are not part of the lock. -/
lemma callSmcHandler_lockStep (hs : s.PageOk) (hkey : s.KeyHeld) (horphan : s.NotOrphaned) {args' : Args}
    (hrun : callSmcHandler p frame args s = (.ok args', s')) : LockStep s' (KeepsLock p s (.smc args)) := by
  unfold callSmcHandler at hrun
  cases hfind : findUserHandler p.targetFirmware (args 0) with
  | none =>
    rw [hfind] at hrun
    cases hrun
  | some handler =>
    rw [hfind] at hrun
    obtain ⟨result, s₁, hcall, hpure⟩ := bind_eq_ok hrun
    cases hpure
    exact callUserHandler_lockStep hfind hs hkey horphan hcall

/-- RSA that was pending is finished. -/
lemma Monitor.OperationPending.finish_expMod {output : RsaOutput} (h : s.OperationPending)
    (hengine : s.seCallback = some (.expMod output)) (hcallback : s'.smcCallback = s.smcCallback)
    (hexpMod : s'.expModDone = true) (hcryptAes : s'.cryptAesDone = s.cryptAesDone) : s'.OperationPending := by
  unfold Monitor.OperationPending at h ⊢
  rw [hcallback, hexpMod, hcryptAes]
  split at h
  · exact h
  · refine .inr (h.resolve_left fun hother => ?_)
    cases hengine.symm.trans hother
  · exact .inr rfl
  · exact .inr rfl

/-- CryptAes that was pending is finished. -/
lemma Monitor.OperationPending.finish_cryptAes (h : s.OperationPending) (hengine : s.seCallback = some .cryptAes)
    (hcallback : s'.smcCallback = s.smcCallback) (hcryptAes : s'.cryptAesDone = true)
    (hexpMod : s'.expModDone = s.expModDone) : s'.OperationPending := by
  have hother : ¬∃ output, s.seCallback = some (.expMod output) := by
    rintro ⟨output, hother⟩
    cases hengine.symm.trans hother
  unfold Monitor.OperationPending at h ⊢
  rw [hcallback, hexpMod, hcryptAes]
  split at h
  · exact h
  · exact .inr rfl
  · exact .inr (h.resolve_left hother)
  · exact .inr (h.resolve_left hother)

/-- The engine completes the operation that is pending. -/
lemma seOperationCompleted_lockStep {error : Bool} {u : Unit} (hkey : s.KeyHeld) (horphan : s.NotOrphaned)
    (hrun : seOperationCompleted error s = (.ok u, s')) : LockStep s' True := by
  obtain ⟨callback, s₁, hlook, hrest⟩ := bind_eq_ok hrun
  cases hlook
  beta_reduce at hrest
  cases hengine : s.seCallback with
  | none =>
    rw [hengine] at hrest
    cases hrest
    exact .of_same (refl_of SameLock _) hkey horphan trivial
  | some operation =>
    rw [hengine] at hrest
    cases operation with
    | expMod output =>
      cases hrest
      refine ⟨hkey, iff_of_true (fun hheld => ?_) trivial⟩
      obtain ⟨hne, hpending⟩ := horphan hheld
      exact ⟨hne, hpending.finish_expMod hengine rfl rfl rfl⟩
    | cryptAes =>
      obtain ⟨_, s₂, hpanic, hupdate⟩ := bind_eq_ok hrest
      obtain ⟨-, rfl⟩ := panicIf_eq_ok hpanic
      cases hupdate
      refine ⟨hkey, iff_of_true (fun hheld => ?_) trivial⟩
      obtain ⟨hne, hpending⟩ := horphan hheld
      exact ⟨hne, hpending.finish_cryptAes hengine rfl rfl rfl⟩

lemma Event.command_lockStep (hs : s.PageOk) (hkey : s.KeyHeld) (horphan : s.NotOrphaned) (event : Event) {u : Unit}
    (hrun : event.command p frame s = (.ok u, s')) : LockStep s' (KeepsLock p s event) := by
  cases event with
  | smc args =>
    obtain ⟨args', s₁, hcall, hupdate⟩ := bind_eq_ok hrun
    cases hupdate
    obtain ⟨hkeyHeld, hiff⟩ := callSmcHandler_lockStep hs hkey horphan hcall
    exact ⟨hkeyHeld, hiff⟩
  | seCompleted error => exact seOperationCompleted_lockStep hkey horphan hrun
  | userMemory dram =>
    cases hrun
    exact .of_same ⟨rfl, rfl, rfl, rfl, rfl, rfl⟩ hkey horphan trivial

end Steps

/-! ## Runs -/

section Runs

variable {p : Platform} {s : Monitor}

/-- After a panic nothing happens. -/
lemma run_of_panicked (hs : s.panicked = true) (events : List (Event × StackFrame)) : run p s events = s := by
  induction events with
  | nil => rfl
  | cons event events ih =>
    have hstep : step p s event = s := if_pos hs
    change run p (step p s event) events = s
    rw [hstep]
    exact ih

/-- A step that does not panic. -/
lemma step_eq_of_not_panicked {event : Event × StackFrame} (hs : (step p s event).panicked = false) :
    event.1.command p event.2 s = (.ok (), step p s event) := by
  unfold step at hs ⊢
  split at hs
  · next hpanicked => cases hpanicked.symm.trans hs
  · next hrunning =>
    rw [if_neg hrunning]
    cases hrun : event.1.command p event.2 s with
    | mk result s' =>
      rw [hrun] at hs
      cases result with
      | ok _ => rfl
      | error e => cases hs

/-- From a state whose lock is not orphaned, no state of a run is orphaned if and only if every step is a good one. -/
lemma run_notOrphaned_iff_of (hs : s.PageOk) (hkey : s.KeyHeld) (horphan : s.NotOrphaned)
    (events : List (Event × StackFrame)) :
    (∀ n, (run p s (events.take n)).panicked = false → (run p s (events.take n)).NotOrphaned) ↔
      ∀ n event, events[n]? = some event → (run p s (events.take (n + 1))).panicked = false →
        KeepsLock p (run p s (events.take n)) event.1 := by
  induction events generalizing s with
  | nil =>
    refine iff_of_true (fun n _ => ?_) fun n event hevent => ?_
    · rw [List.take_nil]
      exact horphan
    · cases hevent
  | cons event events ih =>
    have hrun (n : Nat) : run p s ((event :: events).take (n + 1)) = run p (step p s event) (events.take n) := rfl
    cases hpanicked : (step p s event).panicked with
    | true =>
      -- every later state is the one of the panic
      have hlater (n : Nat) : (run p s ((event :: events).take (n + 1))).panicked = true := by
        rw [hrun, run_of_panicked hpanicked]
        exact hpanicked
      refine iff_of_true (fun n hn => ?_) fun n _ _ hn => ?_
      · cases n with
        | zero => exact horphan
        | succ n => cases (hlater n).symm.trans hn
      · cases (hlater n).symm.trans hn
    | false =>
      have hstep := event.1.command_lockStep hs hkey horphan (step_eq_of_not_panicked hpanicked)
      have hpage := (step_bounded (p := p) hs event).pageOk hs
      constructor
      · intro hall
        have hfirst : (step p s event).NotOrphaned := hall 1 hpanicked
        have hrest := (ih hpage hstep.keyHeld hfirst).mp fun n => hall (n + 1)
        intro n event' hevent hn
        cases n with
        | zero =>
          cases hevent
          exact hstep.notOrphaned_iff.mp hfirst
        | succ n => exact hrest n event' hevent hn
      · intro hgood n hn
        cases n with
        | zero => exact horphan
        | succ n =>
          have hfirst := hstep.notOrphaned_iff.mpr (hgood 0 event rfl hpanicked)
          exact (ih hpage hstep.keyHeld hfirst).mpr (fun n => hgood (n + 1)) n hn

end Runs

/-- In every run, the lock is orphaned in no state if and only if every step meets the condition. -/
theorem run_notOrphaned_iff (p : Platform) (s : Monitor) (hs : s.Booted) (events : List (Event × StackFrame)) :
    (∀ n, (run p s (events.take n)).panicked = false → (run p s (events.take n)).NotOrphaned) ↔
      ∀ n event, events[n]? = some event → (run p s (events.take (n + 1))).panicked = false →
        KeepsLock p (run p s (events.take n)) event.1 := by
  refine run_notOrphaned_iff_of (.inl hs.page) (fun hne => absurd hs.callbackKey hne) (fun hheld => ?_) events
  cases hs.lock.symm.trans hheld

/-- CryptAes, its completion, and CheckStatus with the key. -/
def exampleCryptAes : List (Event × StackFrame) :=
  [(.smc (argsOf [0xC3000009, 5, 0, 0, 0x80000000, 0x80000000, 0x10]), exampleFrame 0),
   (.seCompleted false, exampleFrame 0),
   (.smc (argsOf [0xC3000003, 0x0101010101010101]), exampleFrame 0)]

/-- Every step is a good one there, so the lock that CryptAes leaves held is not orphaned. -/
theorem run_notOrphaned_iff_example :
    (run examplePlatform exampleMonitor (exampleCryptAes.take 2)).isUserSmcInProgress = true ∧
      (run examplePlatform exampleMonitor (exampleCryptAes.take 2)).NotOrphaned := by
  refine ⟨by decide +kernel,
    (run_notOrphaned_iff examplePlatform exampleMonitor exampleMonitor_booted exampleCryptAes).mpr ?_ 2
      (by decide +kernel)⟩
  intro n event hevent _
  match n with
  | 0 =>
    cases hevent
    exact fun _ => .inl (by decide)
  | 1 =>
    cases hevent
    exact trivial
  | 2 =>
    cases hevent
    have hcallback : (run examplePlatform exampleMonitor (exampleCryptAes.take 2)).smcCallback =
        some .cryptAesStatusCheck := by decide +kernel
    have hdone : (run examplePlatform exampleMonitor (exampleCryptAes.take 2)).cryptAesDone = true := by
      decide +kernel
    intro _
    rw [Monitor.CallbackFinishes, hcallback]
    exact hdone
  | n + 3 => cases hevent

/-- CheckStatus before CryptAes is completed. -/
def exampleEarlyCheck : List (Event × StackFrame) :=
  [(.smc (argsOf [0xC3000009, 5, 0, 0, 0x80000000, 0x80000000, 0x10]), exampleFrame 0),
   (.smc (argsOf [0xC3000003, 0x0101010101010101]), exampleFrame 0)]

/-- CheckStatus forgets the key, and the lock stays held. -/
theorem run_earlyCheck_orphaned :
    ¬∀ p s, s.Booted → ∀ events, (run p s events).panicked = false → (run p s events).NotOrphaned := by
  intro h
  have horphan := h examplePlatform exampleMonitor exampleMonitor_booted exampleEarlyCheck (by decide +kernel)
  have hheld : (run examplePlatform exampleMonitor exampleEarlyCheck).isUserSmcInProgress = true := by decide +kernel
  exact (horphan hheld).1 (by decide +kernel)

end RajNX.Exosphere
