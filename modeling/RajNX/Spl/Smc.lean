import Mathlib.Tactic

/-!
# Results of the secure monitor

What the secure monitor answers with, and the results of spl that are made from it, from `spl_types.hpp` and
`spl_results.hpp`. A result of spl is the code of an error, or none.
-/

namespace RajNX.Spl

/-- `Module_Spl` -/
def moduleSpl : Nat := 26

/-- `MAKERESULT`, of a description that is any integer. -/
def makeSplResult (description : Int) : Nat := moduleSpl + (description % 2 ^ 13).toNat * 2 ^ 9

/-- `ResultSplInvalidSize` -/
def resultSplInvalidSize : Nat := makeSplResult 100
/-- `ResultSplUnknownSmcResult` -/
def resultSplUnknownSmcResult : Nat := makeSplResult 101
/-- `ResultSplOutOfKeyslots` -/
def resultSplOutOfKeyslots : Nat := makeSplResult 104
/-- `ResultSplInvalidKeyslot` -/
def resultSplInvalidKeyslot : Nat := makeSplResult 105

/-- `smc::Result`: whatever the secure monitor returned. -/
abbrev SmcResult := Int

/-- `smc::Result::Success` -/
def smcSuccess : SmcResult := 0

/-- `smc::Result::Max` -/
def smcMax : SmcResult := 99

/-- `smc::ConvertResult` -/
def convertResult (result : SmcResult) : Except Nat Unit :=
  if result = smcSuccess then .ok ()
  else if result < smcMax then .error (makeSplResult result)
  else .error resultSplUnknownSmcResult

/-- Only success is converted to success. -/
lemma convertResult_eq_ok {result : SmcResult} (h : convertResult result = .ok ()) : result = smcSuccess := by
  rw [convertResult] at h
  split at h
  · assumption
  · split at h <;> cases h

end RajNX.Spl
