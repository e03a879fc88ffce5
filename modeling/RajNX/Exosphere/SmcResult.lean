import RajNX.Exosphere.SmcLock

/-!
# What GetResult copies out

GetResult has a buffer on the stack. The callback fills it or declines, and what the buffer holds is copied to user
memory in both cases. The callback of CryptAes never fills it. So the stack is copied out, unless the callback fills
as many bytes as are copied, or nothing is copied.

In a run the stack does not matter if and only if every step meets `ReadsNoStack`.
-/

namespace RajNX.Exosphere

open Command Splice

attribute [local instance] neZero_args

/-! ## The condition -/

/-- The callback fills as many bytes as that. -/
def Monitor.ResultFills (s : Monitor) (p : Platform) (size : Nat) : Prop :=
  match s.smcCallback with
  | none => False
  | some .cryptAesStatusCheck => False
  | some .expModGetResult => s.expModDone = true ∧ size = 0x100
  | some .unwrapRsaOaepWrappedTitlekeyGetResult =>
    s.expModDone = true ∧ size = 0x10 ∧
      ∃ key, IsWrappedKey p.sha s.tkeyExpectedLabelHash s.rsaOutput.bytes key ∧ key.length = 0x10

/-- The last byte is in another page than the first one. -/
def CopyRefused (address : UInt64) (size : Nat) : Prop :=
  getPageForAddress (address + .ofNat size - 1) ≠ getPageForAddress address

/-- GetResult copies nothing, or the callback fills what is copied. -/
def CopiesOnlyResult (p : Platform) (s : Monitor) (args : Args) : Prop :=
  s.IsCurrentKey (args 1) → ¬0x400 < args 3 →
    args 3 = 0 ∨ CopyRefused (args 2) (args 3).toNat ∨ s.ResultFills p (args 3).toNat

/-- What an event must meet so that the stack does not matter. -/
def ReadsNoStack (p : Platform) (s : Monitor) : Event → Prop
  | .smc args => findUserHandler p.targetFirmware (args 0) = some .getResult → CopiesOnlyResult p s args
  | .seCompleted _ => True
  | .userMemory _ => True

/-- The bytes are the result of the operation, which has finished: what RSA has put out, or the title key in it,
sealed. -/
def Monitor.Produced (s : Monitor) (p : Platform) (bytes : List UInt8) : Prop :=
  match s.smcCallback with
  | none => False
  | some .cryptAesStatusCheck => False
  | some .expModGetResult => s.expModDone = true ∧ bytes = s.rsaOutput.bytes
  | some .unwrapRsaOaepWrappedTitlekeyGetResult =>
    s.expModDone = true ∧
      ∃ key trace, IsWrappedKey p.sha s.tkeyExpectedLabelHash s.rsaOutput.bytes key ∧
        (sealUnwrappedTitlekey p key { s with trace := trace }).1 = .ok bytes

/-- GetResult writes nothing to user memory, or what the operation has produced. -/
def CopiesProduced (p : Platform) (s s' : Monitor) : Event → Prop
  | .smc args =>
    findUserHandler p.targetFirmware (args 0) = some .getResult →
      s'.dram = s.dram ∨ ∃ bytes, s.Produced p bytes ∧ s'.dram = writeDram s.dram (args 2) bytes
  | .seCompleted _ => True
  | .userMemory _ => True

/-! ## The title key -/

section Titlekey

variable {p : Platform}

/-- User memory is as it was, and there was no panic. -/
structure SameMemory (s s' : Monitor) : Prop where
  dram : s'.dram = s.dram
  panicked : s'.panicked = s.panicked

instance : IsPreorder Monitor SameMemory where
  refl _ := ⟨rfl, rfl⟩
  trans _ _ _ h h' := ⟨h'.dram.trans h.dram, h'.panicked.trans h.panicked⟩

lemma decryptDataIntoKeyslot_sameMemory (keyslotDst keyslotSrc : Nat) (wrappedKey : List UInt8) :
    Keeps SameMemory (decryptDataIntoKeyslot p keyslotDst keyslotSrc wrappedKey) :=
  .bind (.panicIf _) fun _ => .update fun _ => ⟨rfl, rfl⟩

lemma mkeyGetKeyslot_sameMemory (revision : Nat) : Keeps SameMemory (mkeyGetKeyslot p revision) := by
  refine .bind (.panicIf _) fun _ => .bind (.panicIf _) fun _ => ?_
  split
  · exact .pure _
  · exact .bind (.bind (.panicIf _) fun _ => .update fun _ => ⟨rfl, rfl⟩) fun _ => .pure _

lemma tkeyAesUnwrap_sameMemory (src : List UInt8) : Keeps SameMemory (tkeyAesUnwrap p src) :=
  .bind (.look _) fun _ => .bind (.look _) fun _ => .bind (.panicIf _) fun _ =>
    .bind (mkeyGetKeyslot_sameMemory _) fun _ => .bind (decryptDataIntoKeyslot_sameMemory _ _ _) fun _ =>
      .bind (.panicIf _) fun _ => .look _

/-- A sealed title key is one block. -/
lemma sealTitlekey_ensures (src : List UInt8) (s : Monitor) :
    Ensures SameMemory s (sealTitlekey p src) fun bytes _ => bytes.length = 0x10 :=
  .bind .panicIf fun _ _ _ _ => .bind (decryptDataIntoKeyslot_sameMemory _ _ _ _) fun _ _ _ _ =>
    .bind .panicIf fun _ _ _ _ => .bind ((Keeps.bind (.panicIf _) fun _ => .look _) _) fun cipher _ _ _ =>
      .pure (cipher.length_encrypt src)

lemma sealUnwrappedTitlekey_ensures (key : List UInt8) (s : Monitor) :
    Ensures SameMemory s (sealUnwrappedTitlekey p key) fun bytes _ => bytes.length = 0x10 :=
  .bind (tkeyAesUnwrap_sameMemory key s) fun titlekey s' _ _ => sealTitlekey_ensures titlekey s'

/-- What the buffer for the key holds does not matter, if the key is looked at only when it fills the buffer. -/
lemma tkeyRsaOaepUnwrap_of_length (sha : Mgf1.HashFunction 0x20) (label : LabelHash) {src : List UInt8}
    (hlen : src.length = 0x100) :
    (∃ key, IsWrappedKey sha label src key ∧ key.length = 0x10 ∧ ∀ dst, dst.length = 0x10 →
      ∃ src', tkeyRsaOaepUnwrap sha label dst 0x10 src = some ⟨0x10, key, src'⟩) ∨
    (¬∃ key, IsWrappedKey sha label src key ∧ key.length = 0x10) ∧
      ∃ size, size ≠ 0x10 ∧ ∀ dst, ∃ dst' src',
        tkeyRsaOaepUnwrap sha label dst 0x10 src = some ⟨size, dst', src'⟩ := by
  by_cases hfull : ∃ key, IsWrappedKey sha label src key ∧ key.length = 0x10
  · obtain ⟨key, hkey, hsize⟩ := hfull
    refine .inl ⟨key, hkey, hsize, fun dst hdst => ?_⟩
    obtain ⟨src', hresult⟩ := hkey.unwrap dst hlen (by omega) hsize.le
    refine ⟨src', ?_⟩
    rw [hresult, hsize, splice, List.take_zero, List.nil_append, List.drop_of_length_le (by omega), List.append_nil]
  · refine .inr ⟨hfull, ?_⟩
    by_cases hshort : ∃ key, IsWrappedKey sha label src key ∧ 0 < key.length ∧ key.length ≤ 0x10
    · obtain ⟨key, hkey, hpos, hfits⟩ := hshort
      refine ⟨key.length, fun hsize => hfull ⟨key, hkey, hsize⟩, fun dst => ?_⟩
      obtain ⟨src', hresult⟩ := hkey.unwrap dst hlen hpos hfits
      exact ⟨_, src', hresult⟩
    · refine ⟨0, by decide, fun dst => ?_⟩
      obtain ⟨src', hresult⟩ := (tkeyRsaOaepUnwrap_cases sha label dst 0x10 hlen).resolve_right hshort
      exact ⟨dst, src', hresult⟩

end Titlekey

/-! ## The callbacks -/

section Callbacks

variable {p : Platform} {s : Monitor} {size : Nat}

/-- What a callback does, whatever the stack holds: it declines and leaves the buffer as it is, or it fills as many
bytes as that with what the operation has produced. -/
inductive CallbackOutcome (p : Platform) (s : Monitor) (size : Nat) : Prop where
  | panics (e : Stop Nat) (s' : Monitor)
      (h : ∀ frame buf, callSmcCallback p frame s.smcCallback buf size s = (.error e, s'))
  | declines (status : Nat) (s' : Monitor) (hmemory : SameMemory s s') (hfills : ¬s.ResultFills p size)
      (h : ∀ frame buf, callSmcCallback p frame s.smcCallback buf size s = (.ok (status, buf), s'))
  | fills (status : Nat) (s' : Monitor) (bytes : List UInt8) (hmemory : SameMemory s s')
      (hfills : s.ResultFills p size) (hproduced : s.Produced p bytes) (hlength : bytes.length = size)
      (h : ∀ frame buf, callSmcCallback p frame s.smcCallback buf size s = (.ok (status, splice buf 0 bytes), s'))

/-- The state with the lock free. -/
def Monitor.released (s : Monitor) : Monitor := { s with isUserSmcInProgress := false }

/-- The state with a longer trace. -/
def Monitor.withAccesses (s : Monitor) (accesses : List Access) : Monitor := { s with trace := s.trace ++ accesses }

lemma smcExpModGetResult_outcome (hcallback : s.smcCallback = some .expModGetResult) : CallbackOutcome p s size := by
  by_cases hdone : s.expModDone = false
  · refine .declines 3 s (refl_of SameMemory s) ?_ fun frame buf => ?_
    · rw [Monitor.ResultFills, hcallback]
      rintro ⟨hdone', -⟩
      cases hdone.symm.trans hdone'
    · rw [hcallback, callSmcCallback, smcExpModGetResult, look_bind, if_pos hdone]
      rfl
  · have hdone' : s.expModDone = true := Bool.eq_true_of_not_eq_false hdone
    by_cases hsize : size = 0x100
    · refine .fills 0 (s.withAccesses [.buffer .resultBuf 0 0x100]).released s.rsaOutput.bytes ⟨rfl, rfl⟩ ?_ ?_
        (s.rsaOutput.length_bytes.trans hsize.symm) fun frame buf => ?_
      · rw [Monitor.ResultFills, hcallback]
        exact ⟨hdone', hsize⟩
      · rw [Monitor.Produced, hcallback]
        exact ⟨hdone', rfl⟩
      · rw [hcallback, callSmcCallback, smcExpModGetResult, look_bind, if_neg hdone, if_neg (not_not.mpr hsize)]
        rfl
    · refine .declines 2 s (refl_of SameMemory s) ?_ fun frame buf => ?_
      · rw [Monitor.ResultFills, hcallback]
        exact fun hfills => hsize hfills.2
      · rw [hcallback, callSmcCallback, smcExpModGetResult, look_bind, if_neg hdone, if_pos hsize]
        rfl

/-- The callback of CryptAes does not use the buffer. -/
lemma smcCryptAesStatusCheck_outcome (hcallback : s.smcCallback = some .cryptAesStatusCheck) :
    CallbackOutcome p s size := by
  have hfills : ¬s.ResultFills p size := by
    rw [Monitor.ResultFills, hcallback]
    exact id
  by_cases hdone : s.cryptAesDone = false
  · refine .declines 3 s (refl_of SameMemory s) hfills fun frame buf => ?_
    rw [hcallback, callSmcCallback, smcCryptAesStatusCheck, look_bind, if_pos hdone]
    rfl
  · refine .declines 0 s.released ⟨rfl, rfl⟩ hfills fun frame buf => ?_
    rw [hcallback, callSmcCallback, smcCryptAesStatusCheck, look_bind, if_neg hdone]
    rfl

/-- The state when the message is unwrapped, and what was extracted of it has that size. -/
def Monitor.unwrapping (s : Monitor) (size : Nat) : Monitor :=
  (s.withAccesses [.buffer .rsaWrappedTitlekey 0 0x100]).withAccesses [.buffer .aesWrappedTitlekey 0 size]

/-- The end of the callback for title keys. -/
def sealIntoResult (p : Platform) (key buf : List UInt8) : SmcM (Nat × List UInt8) := do
  let sealedTitlekey ← sealUnwrappedTitlekey p key
  access [.buffer .resultBuf 0 0x10]
  clearUserSmcInProgress
  pure (0, splice buf 0 sealedTitlekey)

lemma smcUnwrapRsaOaepWrappedTitlekeyGetResult_of_full {frame : StackFrame} {buf key src' : List UInt8}
    (hdone : s.expModDone ≠ false)
    (hunwrap : tkeyRsaOaepUnwrap p.sha s.tkeyExpectedLabelHash frame.aesWrappedTitlekey 0x10 s.rsaOutput.bytes =
      some ⟨0x10, key, src'⟩) :
    smcUnwrapRsaOaepWrappedTitlekeyGetResult p frame buf 0x10 s = sealIntoResult p key buf (s.unwrapping 0x10) := by
  rw [smcUnwrapRsaOaepWrappedTitlekeyGetResult, look_bind, if_neg hdone, if_neg (not_not.mpr rfl), look_bind,
    look_bind, hunwrap]
  rfl

lemma smcUnwrapRsaOaepWrappedTitlekeyGetResult_of_short {frame : StackFrame} {buf dst' src' : List UInt8} {n : Nat}
    (hdone : s.expModDone ≠ false) (hn : n ≠ 0x10)
    (hunwrap : tkeyRsaOaepUnwrap p.sha s.tkeyExpectedLabelHash frame.aesWrappedTitlekey 0x10 s.rsaOutput.bytes =
      some ⟨n, dst', src'⟩) :
    smcUnwrapRsaOaepWrappedTitlekeyGetResult p frame buf 0x10 s = (.ok (2, buf), (s.unwrapping n).released) := by
  rw [smcUnwrapRsaOaepWrappedTitlekeyGetResult, look_bind, if_neg hdone, if_neg (not_not.mpr rfl), look_bind,
    look_bind, hunwrap]
  change ((if n ≠ 0x10 then clearUserSmcInProgress >>= fun _ => pure (2, buf) else _) : SmcM _) (s.unwrapping n) = _
  rw [if_pos hn]
  rfl

lemma smcUnwrapRsaOaepWrappedTitlekeyGetResult_outcome
    (hcallback : s.smcCallback = some .unwrapRsaOaepWrappedTitlekeyGetResult) : CallbackOutcome p s size := by
  have hcall (frame : StackFrame) (buf : List UInt8) : callSmcCallback p frame s.smcCallback buf size s =
      smcUnwrapRsaOaepWrappedTitlekeyGetResult p frame buf size s := by
    rw [hcallback, callSmcCallback]
  have hfills : s.ResultFills p size ↔ s.expModDone = true ∧ size = 0x10 ∧
      ∃ key, IsWrappedKey p.sha s.tkeyExpectedLabelHash s.rsaOutput.bytes key ∧ key.length = 0x10 := by
    rw [Monitor.ResultFills, hcallback]
  have hproduced (bytes : List UInt8) : s.Produced p bytes ↔ s.expModDone = true ∧
      ∃ key trace, IsWrappedKey p.sha s.tkeyExpectedLabelHash s.rsaOutput.bytes key ∧
        (sealUnwrappedTitlekey p key { s with trace := trace }).1 = .ok bytes := by
    rw [Monitor.Produced, hcallback]
  by_cases hdone : s.expModDone = false
  · refine .declines 3 s (refl_of SameMemory s) ?_ fun frame buf => ?_
    · rw [hfills, hdone]
      rintro ⟨hdone', -⟩
      cases hdone'
    · rw [hcall, smcUnwrapRsaOaepWrappedTitlekeyGetResult, look_bind, if_pos hdone]
      rfl
  · have hdone' : s.expModDone = true := Bool.eq_true_of_not_eq_false hdone
    by_cases hsize : size = 0x10
    · subst hsize
      rcases tkeyRsaOaepUnwrap_of_length p.sha s.tkeyExpectedLabelHash s.rsaOutput.length_bytes with
        ⟨key, hkey, hlength, hunwrap⟩ | ⟨hnone, n, hn, hunwrap⟩
      · -- the key fills its buffer, so that the stack is not sealed
        have hrun (frame : StackFrame) (buf : List UInt8) : callSmcCallback p frame s.smcCallback buf 0x10 s =
            sealIntoResult p key buf (s.unwrapping 0x10) := by
          obtain ⟨src', hunwrap⟩ := hunwrap frame.aesWrappedTitlekey frame.length_aesWrappedTitlekey
          rw [hcall, smcUnwrapRsaOaepWrappedTitlekeyGetResult_of_full hdone hunwrap]
        obtain ⟨hmemory, hblock⟩ := sealUnwrappedTitlekey_ensures (p := p) key (s.unwrapping 0x10)
        cases hseal : sealUnwrappedTitlekey p key (s.unwrapping 0x10) with
        | mk result s' =>
          rw [hseal] at hmemory hblock
          cases result with
          | ok bytes =>
            refine .fills 0 (s'.withAccesses [.buffer .resultBuf 0 0x10]).released bytes ?_ ?_ ?_
              (hblock bytes rfl) fun frame buf => ?_
            · exact ⟨hmemory.dram, hmemory.panicked⟩
            · exact hfills.mpr ⟨hdone', rfl, key, hkey, hlength⟩
            · exact (hproduced bytes).mpr ⟨hdone', key, (s.unwrapping 0x10).trace, hkey, congrArg Prod.fst hseal⟩
            · rw [hrun, sealIntoResult, bind_of_ok hseal]
              rfl
          | error e =>
            refine .panics e s' fun frame buf => ?_
            rw [hrun, sealIntoResult, bind_of_error hseal]
      · refine .declines 2 (s.unwrapping n).released ⟨rfl, rfl⟩ ?_ fun frame buf => ?_
        · exact fun hyes => hnone (hfills.mp hyes).2.2
        · obtain ⟨dst', src', hunwrap⟩ := hunwrap frame.aesWrappedTitlekey
          rw [hcall, smcUnwrapRsaOaepWrappedTitlekeyGetResult_of_short hdone hn hunwrap]
    · refine .declines 2 s (refl_of SameMemory s) ?_ fun frame buf => ?_
      · exact fun hyes => hsize (hfills.mp hyes).2.1
      · rw [hcall, smcUnwrapRsaOaepWrappedTitlekeyGetResult, look_bind, if_neg hdone, if_pos hsize]
        rfl

lemma callSmcCallback_outcome (p : Platform) (s : Monitor) (size : Nat) : CallbackOutcome p s size := by
  cases hcallback : s.smcCallback with
  | none =>
    refine .panics .panic s fun frame buf => ?_
    rw [hcallback]
    rfl
  | some callback =>
    cases callback with
    | expModGetResult => exact smcExpModGetResult_outcome hcallback
    | cryptAesStatusCheck => exact smcCryptAesStatusCheck_outcome hcallback
    | unwrapRsaOaepWrappedTitlekeyGetResult => exact smcUnwrapRsaOaepWrappedTitlekeyGetResult_outcome hcallback

end Callbacks

/-! ## The copy -/

section Copy

variable {p : Platform} {s : Monitor} {args : Args}

/-- The copy without the bytes: its checks and its accesses. -/
def copyChecks (address : UInt64) (size : Nat) : SmcM Unit := do
  let ref ← upageInit address
  checkUserRange ref address size
  access (if size ≠ 0 then [.buffer .resultBuf 0 size, .user address size] else [])

/-- The state with other user memory. -/
def Monitor.withDram (s : Monitor) (dram : UInt64 → UInt8) : Monitor := { s with dram := dram }

/-- The bytes only matter for the end of the copy. -/
lemma copyResultOut_eq (address : UInt64) (buf : List UInt8) (size : Nat) :
    copyResultOut address buf size =
      copyChecks address size >>= fun _ => .update fun s => s.withDram (writeDram s.dram address (buf.take size)) := by
  rw [copyChecks, bind_assoc]
  simp only [bind_assoc]
  rfl

/-- A copy panics for another page, it is refused if it leaves the page, or it takes place. -/
inductive CopyOutcome (address : UInt64) (size : Nat) (s : Monitor) : Prop where
  | panics (s' : Monitor) (h : copyChecks address size s = (.error .panic, s'))
  | refuses (e : Nat) (s' : Monitor) (hmemory : SameMemory s s') (hrefused : CopyRefused address size)
      (h : copyChecks address size s = (.error (.code e), s'))
  | copies (s' : Monitor) (hmemory : SameMemory s s') (hallowed : size ≠ 0 → ¬CopyRefused address size)
      (h : copyChecks address size s = (.ok (), s'))

lemma upageInit_cases (address : UInt64) (s : Monitor) :
    upageInit address s = (.error .panic, s) ∨
      ∃ s', SameMemory s s' ∧ upageInit address s = (.ok ⟨getPageForAddress address⟩, s') := by
  by_cases hregistered : s.userPageUserAddress ≠ 0
  · by_cases hpage : s.userPageUserAddress ≠ getPageForAddress address
    · refine .inl ?_
      rw [upageInit, look_bind, if_pos hregistered, panicIf, if_pos hpage]
      rfl
    · refine .inr ⟨s, refl_of SameMemory s, ?_⟩
      rw [upageInit, look_bind, if_pos hregistered, panicIf, if_neg hpage]
      rfl
  · by_cases hinvalid : ¬(getPageForAddress address - (0x80000000 : UInt64) < dramSizeMax ∧ address &&& 0xFFF = 0)
    · refine .inl ?_
      rw [upageInit, look_bind, if_neg hregistered, panicIf, if_pos hinvalid]
      rfl
    · refine .inr ⟨{ s with userPageUserAddress := getPageForAddress address }, ⟨rfl, rfl⟩, ?_⟩
      rw [upageInit, look_bind, if_neg hregistered, panicIf, if_neg hinvalid]
      rfl

lemma checkUserRange_of_refused {address : UInt64} {size : Nat} (h : size ≠ 0 ∧ CopyRefused address size) :
    checkUserRange ⟨getPageForAddress address⟩ address size s = (.error (.code 2), s) := by
  unfold checkUserRange stopIf
  rw [if_neg (not_not.mpr rfl)]
  exact congrFun (if_pos h) s

lemma checkUserRange_of_not_refused {address : UInt64} {size : Nat} (h : ¬(size ≠ 0 ∧ CopyRefused address size)) :
    checkUserRange ⟨getPageForAddress address⟩ address size s = (.ok (), s) := by
  unfold checkUserRange stopIf
  rw [if_neg (not_not.mpr rfl)]
  exact congrFun (if_neg h) s

lemma copyChecks_outcome (address : UInt64) (size : Nat) (s : Monitor) : CopyOutcome address size s := by
  rcases upageInit_cases address s with hpanic | ⟨s₁, hmemory, hinit⟩
  · refine .panics s ?_
    rw [copyChecks, bind_of_error hpanic]
  · by_cases hrefused : size ≠ 0 ∧ CopyRefused address size
    · refine .refuses 2 s₁ hmemory hrefused.2 ?_
      rw [copyChecks, bind_of_ok hinit, bind_of_error (checkUserRange_of_refused hrefused)]
    · refine .copies (s₁.withAccesses (if size ≠ 0 then [.buffer .resultBuf 0 size, .user address size] else []))
        ⟨hmemory.dram, hmemory.panicked⟩ (not_and.mp hrefused) ?_
      rw [copyChecks, bind_of_ok hinit, bind_of_ok (checkUserRange_of_not_refused hrefused)]
      rfl

end Copy

/-! ## GetResult -/

section GetResult

variable {p : Platform} {s s' : Monitor} {args : Args} {status : Nat} {buf : List UInt8}

/-- The state without a key. -/
def Monitor.withoutKey (s : Monitor) : Monitor := { s with smcCallbackKey := 0 }

/-- GetResult after the callback. -/
def getResultEnd (args : Args) (result : Nat × List UInt8) : SmcM (Nat × Args) := do
  .update Monitor.withoutKey
  let copied ← (copyResultOut (args 2) result.2 (args 3).toNat).attempt
  match copied with
  | .ok _ => pure (0, args.set 1 (.ofNat result.1))
  | .error code => pure (code, args.set 1 (.ofNat result.1))

lemma getResultEnd_apply (args : Args) (result : Nat × List UInt8) (s : Monitor) :
    getResultEnd args result s =
      ((copyResultOut (args 2) result.2 (args 3).toNat).attempt >>= fun copied =>
        match copied with
        | .ok _ => pure (0, args.set 1 (.ofNat result.1))
        | .error code => pure (code, args.set 1 (.ofNat result.1))) s.withoutKey := rfl

lemma getResultEnd_of_panic (h : copyChecks (args 2) (args 3).toNat s.withoutKey = (.error .panic, s')) :
    getResultEnd args (status, buf) s = (.error .panic, s') := by
  have hcopy := (congrFun (copyResultOut_eq (args 2) buf (args 3).toNat) s.withoutKey).trans (bind_of_error h)
  rw [getResultEnd_apply, bind_of_error (attempt_of_panic hcopy)]

lemma getResultEnd_of_refused {e : Nat} (h : copyChecks (args 2) (args 3).toNat s.withoutKey = (.error (.code e), s')) :
    getResultEnd args (status, buf) s = (.ok (e, args.set 1 (.ofNat status)), s') := by
  have hcopy := (congrFun (copyResultOut_eq (args 2) buf (args 3).toNat) s.withoutKey).trans (bind_of_error h)
  rw [getResultEnd_apply, bind_of_ok (attempt_of_code hcopy)]
  rfl

lemma getResultEnd_of_copied (h : copyChecks (args 2) (args 3).toNat s.withoutKey = (.ok (), s')) :
    getResultEnd args (status, buf) s = (.ok (0, args.set 1 (.ofNat status)),
        s'.withDram (writeDram s'.dram (args 2) (buf.take (args 3).toNat))) := by
  have hcopy := (congrFun (copyResultOut_eq (args 2) buf (args 3).toNat) s.withoutKey).trans (bind_of_ok h)
  rw [getResultEnd_apply, bind_of_ok (attempt_of_ok hcopy)]
  rfl

/-- What GetResult does. Only in the last case it depends on what the stack holds. -/
inductive GetResultOutcome (p : Platform) (s : Monitor) (args : Args) : Prop where
  | panics (e : Stop Nat) (s' : Monitor) (h : ∀ frame, smcGetResult p frame args s = (.error e, s'))
  | copiesNothing (r : Nat × Args) (s' : Monitor) (hmemory : SameMemory s s') (hcondition : CopiesOnlyResult p s args)
      (h : ∀ frame, smcGetResult p frame args s = (.ok r, s'))
  | copiesResult (r : Nat × Args) (s' : Monitor) (bytes : List UInt8) (hmemory : SameMemory s s')
      (hcondition : CopiesOnlyResult p s args) (hproduced : s.Produced p bytes)
      (h : ∀ frame, smcGetResult p frame args s = (.ok r, s'.withDram (writeDram s.dram (args 2) bytes)))
  | copiesStack (r : Nat × Args) (s' : Monitor) (hmemory : SameMemory s s') (hcondition : ¬CopiesOnlyResult p s args)
      (hpos : 0 < (args 3).toNat) (hsize : (args 3).toNat ≤ 0x400)
      (h : ∀ frame, smcGetResult p frame args s =
        (.ok r, s'.withDram (writeDram s.dram (args 2) (frame.resultBuf.take (args 3).toNat))))

lemma take_splice_zero {bytes : List UInt8} {size : Nat} (h : bytes.length = size) :
    (splice buf 0 bytes).take size = bytes := by
  rw [splice, List.take_zero, List.nil_append, List.take_left' h]

/-- GetResult behind the callback: the checks of the copy may stop it. -/
lemma GetResultOutcome.of_status {s₁ : Monitor} {out : StackFrame → List UInt8} (hmemory : SameMemory s s₁)
    (hrun : ∀ frame, smcGetResult p frame args s = getResultEnd args (status, out frame) s₁)
    (hcopies : ∀ s₂, SameMemory s s₂ → ((args 3).toNat ≠ 0 → ¬CopyRefused (args 2) (args 3).toNat) →
      (∀ frame, smcGetResult p frame args s = (.ok (0, args.set 1 (.ofNat status)),
        s₂.withDram (writeDram s.dram (args 2) ((out frame).take (args 3).toNat)))) → GetResultOutcome p s args) :
    GetResultOutcome p s args := by
  cases copyChecks_outcome (args 2) (args 3).toNat s₁.withoutKey with
  | panics s₂ hcopy =>
    refine .panics .panic s₂ fun frame => ?_
    rw [hrun, getResultEnd_of_panic hcopy]
  | refuses e s₂ hmemory' hrefused hcopy =>
    refine .copiesNothing (e, args.set 1 (.ofNat status)) s₂ ⟨hmemory'.dram.trans hmemory.dram,
      hmemory'.panicked.trans hmemory.panicked⟩ (fun _ _ => .inr (.inl hrefused)) fun frame => ?_
    rw [hrun, getResultEnd_of_refused hcopy]
  | copies s₂ hmemory' hallowed hcopy =>
    have hdram : s₂.dram = s.dram := hmemory'.dram.trans hmemory.dram
    refine hcopies s₂ ⟨hdram, hmemory'.panicked.trans hmemory.panicked⟩ hallowed fun frame => ?_
    rw [hrun, getResultEnd_of_copied hcopy, hdram]

/-- GetResult with the key and a size that is not too large. -/
lemma smcGetResult_outcome_of_current (hcurrent : s.IsCurrentKey (args 1)) (hsmall : ¬0x400 < args 3)
    (hrun : ∀ frame, smcGetResult p frame args s =
      (callSmcCallback p frame s.smcCallback frame.resultBuf (args 3).toNat >>= getResultEnd args) s) :
    GetResultOutcome p s args := by
  cases callSmcCallback_outcome p s (args 3).toNat with
  | panics e s₁ hcall =>
    refine .panics e s₁ fun frame => ?_
    rw [hrun, bind_of_error (hcall frame _)]
  | declines status s₁ hmemory hfills hcall =>
    refine .of_status hmemory (fun frame => (hrun frame).trans (bind_of_ok (hcall frame _)))
      fun s₂ hmemory₂ hallowed hend => ?_
    by_cases hzero : (args 3).toNat = 0
    · refine .copiesNothing (0, args.set 1 (.ofNat status)) (s₂.withDram (writeDram s.dram (args 2) []))
        ⟨rfl, hmemory₂.panicked⟩ (fun _ _ => .inl (UInt64.toNat_inj.mp hzero)) fun frame => ?_
      rw [hend, hzero, List.take_zero]
    · refine .copiesStack (0, args.set 1 (.ofNat status)) s₂ hmemory₂ ?_ (Nat.pos_of_ne_zero hzero)
        (toNat_le_of_not_lt hsmall) hend
      intro hcondition
      rcases hcondition hcurrent hsmall with hzero' | hrefused | hyes
      · exact hzero (congrArg UInt64.toNat hzero')
      · exact hallowed hzero hrefused
      · exact hfills hyes
  | fills status s₁ bytes hmemory hfills hproduced hlength hcall =>
    refine .of_status hmemory (fun frame => (hrun frame).trans (bind_of_ok (hcall frame _)))
      fun s₂ hmemory₂ _ hend => ?_
    refine .copiesResult (0, args.set 1 (.ofNat status)) s₂ bytes hmemory₂ (fun _ _ => .inr (.inr hfills)) hproduced
      fun frame => ?_
    rw [hend, take_splice_zero hlength]

lemma smcGetResult_outcome (p : Platform) (s : Monitor) (args : Args) : GetResultOutcome p s args := by
  by_cases hzero : s.smcCallbackKey = 0
  · refine .copiesNothing (4, args) s (refl_of SameMemory s) (fun hcurrent => absurd hzero hcurrent.1) fun frame => ?_
    rw [smcGetResult, look_bind, if_pos hzero]
    rfl
  · by_cases hother : args 1 ≠ s.smcCallbackKey
    · refine .copiesNothing (5, args) s (refl_of SameMemory s) (fun hcurrent => absurd hcurrent.2 hother)
        fun frame => ?_
      rw [smcGetResult, look_bind, if_neg hzero, if_pos hother]
      rfl
    · by_cases hlarge : 0x400 < args 3
      · refine .copiesNothing (2, args) s (refl_of SameMemory s) (fun _ hsmall => absurd hlarge hsmall)
          fun frame => ?_
        rw [smcGetResult, look_bind, if_neg hzero, if_neg hother, if_pos hlarge]
        rfl
      · refine smcGetResult_outcome_of_current ⟨hzero, not_not.mp hother⟩ hlarge fun frame => ?_
        rw [smcGetResult, look_bind, if_neg hzero, if_neg hother, if_neg hlarge]
        rfl

end GetResult

/-! ## Steps -/

section Steps

variable {p : Platform} {s s' : Monitor} {args : Args} {frame : StackFrame} {handler : UserHandler} {r : Nat × Args}

/-- The state after a call, with the registers that it leaves. -/
def Monitor.withReturned (s : Monitor) (r : Nat × Args) : Monitor :=
  { s with returned := s.returned ++ [r.2.set 0 (.ofNat r.1)] }

lemma step_smc_of_ok (hs : s.panicked = false) (hfind : findUserHandler p.targetFirmware (args 0) = some handler)
    (hcall : callUserHandler p frame handler args s = (.ok r, s')) :
    step p s (.smc args, frame) = s'.withReturned r := by
  have hhandler : callSmcHandler p frame args s = (.ok (r.2.set 0 (.ofNat r.1)), s') := by
    rw [callSmcHandler, hfind]
    exact bind_of_ok hcall
  have hcommand : (Event.smc args).command p frame s = (.ok (), s'.withReturned r) := bind_of_ok hhandler
  rw [step, if_neg (Bool.eq_false_iff.mp hs), hcommand]

lemma step_smc_of_error {e : Stop Nat} (hs : s.panicked = false)
    (hfind : findUserHandler p.targetFirmware (args 0) = some handler)
    (hcall : callUserHandler p frame handler args s = (.error e, s')) :
    (step p s (.smc args, frame)).panicked = true := by
  have hhandler : callSmcHandler p frame args s = (.error e, s') := by
    rw [callSmcHandler, hfind]
    exact bind_of_error hcall
  have hcommand : (Event.smc args).command p frame s = (.error e, s') := bind_of_error hhandler
  rw [step, if_neg (Bool.eq_false_iff.mp hs), hcommand]

/-- A step does not depend on what the stack holds if its handler does not. -/
lemma step_smc_congr {frame' : StackFrame}
    (h : ∀ handler, findUserHandler p.targetFirmware (args 0) = some handler →
      callUserHandler p frame' handler args s = callUserHandler p frame handler args s) :
    step p s (.smc args, frame') = step p s (.smc args, frame) := by
  have hhandler : callSmcHandler p frame' args s = callSmcHandler p frame args s := by
    unfold callSmcHandler
    cases hfind : findUserHandler p.targetFirmware (args 0) with
    | none => rfl
    | some handler => exact bind_congr (h handler hfind)
  have hcommand : (Event.smc args).command p frame' s = (Event.smc args).command p frame s :=
    bind_congr hhandler
  rw [step, step, hcommand]

lemma not_panicked_of_step {event : Event × StackFrame} (h : (step p s event).panicked = false) :
    s.panicked = false := by
  by_contra hpanicked
  rw [step, if_pos (Bool.eq_true_of_not_eq_false hpanicked)] at h
  exact hpanicked h

/-- CheckStatus has no buffer. -/
lemma smcCheckStatus_frame (frame frame' : StackFrame) :
    smcCheckStatus p frame' args s = smcCheckStatus p frame args s := by
  have hcall : callSmcCallback p frame' s.smcCallback [] 0 s = callSmcCallback p frame s.smcCallback [] 0 s := by
    cases callSmcCallback_outcome p s 0 with
    | panics e s' h => rw [h, h]
    | declines status s' hmemory hfills h => rw [h, h]
    | fills status s' bytes hmemory hfills hproduced hlength h => rw [h, h]
  rw [smcCheckStatus, smcCheckStatus, look_bind, look_bind]
  by_cases hzero : s.smcCallbackKey = 0
  · rw [if_pos hzero, if_pos hzero]
  · rw [if_neg hzero, if_neg hzero]
    by_cases hother : args 1 ≠ s.smcCallbackKey
    · rw [if_pos hother, if_pos hother]
    · rw [if_neg hother, if_neg hother, look_bind, look_bind, bind_congr hcall]

/-- A step that meets the condition, or that panics, does not depend on what the stack holds. -/
lemma step_frame {event : Event} (hread : (step p s (event, frame)).panicked = false → ReadsNoStack p s event)
    (frame' : StackFrame) : step p s (event, frame') = step p s (event, frame) := by
  cases hs : s.panicked with
  | true => rw [step, step, if_pos hs, if_pos hs]
  | false =>
    cases event with
    | seCompleted error => rfl
    | userMemory dram => rfl
    | smc args =>
      refine step_smc_congr fun handler hfind => ?_
      cases handler with
      | checkStatus => exact smcCheckStatus_frame frame frame'
      | getResult =>
        change smcGetResult p frame' args s = smcGetResult p frame args s
        cases smcGetResult_outcome p s args with
        | panics e s' h => rw [h, h]
        | copiesNothing r s' hmemory hcondition h => rw [h, h]
        | copiesResult r s' bytes hmemory hcondition hproduced h => rw [h, h]
        | copiesStack r s' hmemory hcondition hpos hsize h =>
          refine absurd (hread ?_ hfind) hcondition
          rw [step_smc_of_ok hs hfind (h frame)]
          exact hmemory.panicked.trans hs
      | _ => rfl

/-- A step that meets the condition copies out what the operation has produced. -/
lemma step_copiesProduced {event : Event} (hstep : (step p s (event, frame)).panicked = false)
    (hread : ReadsNoStack p s event) : CopiesProduced p s (step p s (event, frame)) event := by
  have hs := not_panicked_of_step hstep
  cases event with
  | seCompleted error => trivial
  | userMemory dram => trivial
  | smc args =>
    intro hfind
    cases smcGetResult_outcome p s args with
    | panics e s' h =>
      cases (step_smc_of_error hs hfind (h frame)).symm.trans hstep
    | copiesNothing r s' hmemory hcondition h =>
      rw [step_smc_of_ok hs hfind (h frame)]
      exact .inl hmemory.dram
    | copiesResult r s' bytes hmemory hcondition hproduced h =>
      rw [step_smc_of_ok hs hfind (h frame)]
      exact .inr ⟨bytes, hproduced, rfl⟩
    | copiesStack r s' hmemory hcondition hpos hsize h => exact absurd (hread hfind) hcondition

lemma writeDram_self {dram : UInt64 → UInt8} {address : UInt64} {buf : List UInt8} {size : Nat} (hpos : 0 < size)
    (hbuf : 0 < buf.length) : writeDram dram address (buf.take size) address = buf.getD 0 0 := by
  cases buf with
  | nil => cases hbuf
  | cons b buf =>
    cases size with
    | zero => cases hpos
    | succ size =>
      rw [writeDram, UInt64.sub_self]
      rfl

/-- A step that does not meet the condition copies the stack to user memory. -/
lemma exists_step_dram_ne {event : Event} (hstep : (step p s (event, frame)).panicked = false)
    (hread : ¬ReadsNoStack p s event) : ∃ frame', (step p s (event, frame')).dram ≠ (step p s (event, frame)).dram := by
  have hs := not_panicked_of_step hstep
  cases event with
  | seCompleted error => exact absurd trivial hread
  | userMemory dram => exact absurd trivial hread
  | smc args =>
    obtain ⟨hfind, hnot⟩ := Classical.not_imp.mp hread
    cases smcGetResult_outcome p s args with
    | panics e s' h =>
      cases (step_smc_of_error hs hfind (h frame)).symm.trans hstep
    | copiesNothing r s' hmemory hcondition h => exact absurd hcondition hnot
    | copiesResult r s' bytes hmemory hcondition hproduced h => exact absurd hcondition hnot
    | copiesStack r s' hmemory hcondition hpos hsize h =>
      -- the first byte that is copied is the first one on the stack
      have hfirst (frame : StackFrame) : (step p s (.smc args, frame)).dram (args 2) = frame.resultBuf.getD 0 0 := by
        rw [step_smc_of_ok hs hfind (h frame)]
        exact writeDram_self hpos (by rw [frame.length_resultBuf]; decide)
      refine ⟨exampleFrame (frame.resultBuf.getD 0 0 + 1), fun hsame => ?_⟩
      have hbyte := congrFun hsame (args 2)
      rw [hfirst, hfirst] at hbyte
      have hne : frame.resultBuf.getD 0 0 + 1 ≠ frame.resultBuf.getD 0 0 := by simp
      exact hne hbyte

end Steps

/-! ## Runs -/

section Runs

variable {p : Platform} {s : Monitor} {events events' : List (Event × StackFrame)} {n : Nat}
  {event : Event × StackFrame}

lemma run_take_succ (h : events[n]? = some event) :
    run p s (events.take (n + 1)) = step p (run p s (events.take n)) event := by
  rw [List.take_add_one, h, run_append]
  rfl

/-- Two runs of the same events are the same if every step meets the condition. -/
lemma run_frames
    (hread : ∀ n event, events[n]? = some event → (run p s (events.take (n + 1))).panicked = false →
      ReadsNoStack p (run p s (events.take n)) event.1)
    (hsame : events'.map Prod.fst = events.map Prod.fst) (n : Nat) :
    run p s (events'.take n) = run p s (events.take n) := by
  induction n with
  | zero => rfl
  | succ n ih =>
    have hget : events'[n]?.map Prod.fst = events[n]?.map Prod.fst := by
      rw [← List.getElem?_map, ← List.getElem?_map, hsame]
    cases hevent : events[n]? with
    | none =>
      rw [hevent, Option.map_none, Option.map_eq_none_iff] at hget
      rw [List.take_add_one, List.take_add_one, hevent, hget, run_append, run_append, ih]
    | some event =>
      rw [hevent, Option.map_some, Option.map_eq_some_iff] at hget
      obtain ⟨⟨kind, frame'⟩, hevent', rfl⟩ := hget
      have hstep := hread n event hevent
      rw [run_take_succ hevent] at hstep
      rw [run_take_succ hevent, run_take_succ hevent', ih]
      exact step_frame hstep frame'

/-- The events with another stack at one step. -/
def replaceFrame (events : List (Event × StackFrame)) (n : Nat) (event : Event) (frame : StackFrame) :
    List (Event × StackFrame) :=
  events.set n (event, frame)

lemma replaceFrame_map (h : events[n]? = some event) (frame : StackFrame) :
    (replaceFrame events n event.1 frame).map Prod.fst = events.map Prod.fst := by
  refine List.ext_getElem? fun i => ?_
  rw [replaceFrame, List.getElem?_map, List.getElem?_map, List.getElem?_set]
  split
  · next heq =>
    subst heq
    obtain ⟨hlt, -⟩ := List.getElem?_eq_some_iff.mp h
    rw [if_pos hlt, h]
    rfl
  · rfl

lemma run_replaceFrame (h : events[n]? = some event) (frame : StackFrame) :
    run p s ((replaceFrame events n event.1 frame).take (n + 1)) =
      step p (run p s (events.take n)) (event.1, frame) := by
  obtain ⟨hlt, -⟩ := List.getElem?_eq_some_iff.mp h
  have hevent : (replaceFrame events n event.1 frame)[n]? = some (event.1, frame) := by
    rw [replaceFrame, List.getElem?_set_self hlt]
  rw [run_take_succ hevent, replaceFrame, List.take_set_of_le le_rfl]

end Runs

/-- In every run, user memory and the registers do not depend on what the stack holds, and GetResult copies out what
operations have produced, if and only if every step meets the condition. -/
theorem run_leaksNothing_iff (p : Platform) (s : Monitor) (events : List (Event × StackFrame)) :
    ((∀ events' : List (Event × StackFrame), events'.map Prod.fst = events.map Prod.fst → ∀ n,
        (run p s (events'.take n)).dram = (run p s (events.take n)).dram ∧
          (run p s (events'.take n)).returned = (run p s (events.take n)).returned) ∧
      ∀ n event, events[n]? = some event → (run p s (events.take (n + 1))).panicked = false →
        CopiesProduced p (run p s (events.take n)) (run p s (events.take (n + 1))) event.1) ↔
    ∀ n event, events[n]? = some event → (run p s (events.take (n + 1))).panicked = false →
      ReadsNoStack p (run p s (events.take n)) event.1 := by
  constructor
  · rintro ⟨hsame, -⟩ n event hevent hstep
    by_contra hread
    have hrun := run_take_succ (p := p) (s := s) hevent
    rw [hrun] at hstep
    obtain ⟨frame', hne⟩ := exists_step_dram_ne hstep hread
    refine hne ?_
    rw [← run_replaceFrame hevent frame', ← hrun]
    exact (hsame _ (replaceFrame_map hevent frame') (n + 1)).1
  · intro hread
    refine ⟨fun events' hsame n => ?_, fun n event hevent hstep => ?_⟩
    · rw [run_frames hread hsame n]
      exact ⟨rfl, rfl⟩
    · have hcondition := hread n event hevent hstep
      rw [run_take_succ hevent] at hstep ⊢
      exact step_copiesProduced hstep hcondition

/-- CryptAes, and GetResult with a size of 1. -/
def exampleLeak (b : UInt8) : List (Event × StackFrame) :=
  [(.smc (argsOf [0xC3000009, 5, 0, 0, 0x80000000, 0x80000000, 0x10]), exampleFrame 0),
   (.smc (argsOf [0xC3000404, 0x0101010101010101, 0x80000000, 1]), exampleFrame b)]

/-- The byte of the stack is in user memory. -/
theorem run_exampleLeak_differs :
    ¬∀ p s, s.Booted → ∀ events events' : List (Event × StackFrame), events'.map Prod.fst = events.map Prod.fst →
      (run p s events').dram = (run p s events).dram := by
  intro h
  have hsame := congrFun (h examplePlatform exampleMonitor exampleMonitor_booted (exampleLeak 0) (exampleLeak 1) rfl)
    0x80000000
  have hzero : (run examplePlatform exampleMonitor (exampleLeak 0)).dram 0x80000000 = 0 := by decide +kernel
  have hone : (run examplePlatform exampleMonitor (exampleLeak 1)).dram 0x80000000 = 1 := by decide +kernel
  rw [hzero, hone] at hsame
  cases hsame

end RajNX.Exosphere
