import RajNX.Lib.Slots
import RajNX.Lib.Splice

/-!
# The arguments of titles

`ldr_arguments.cpp`: a table of ten slots, each with the arguments of a title. `Set` puts arguments into the
slot of the title or into a free one, and `Clear` makes all slots free, but leaves their sizes and their bytes.
-/

namespace RajNX.Loader

open Slots Splice

/-- `ArgumentSizeMax` -/
def argumentSizeMax : Nat := 0x8000

/-- `FreeTitleId` -/
def freeTitleId : Nat := 0

/-- `ArgumentInfo`. The size is one that `Set` accepts. -/
structure ArgumentInfo where
  titleId : Nat
  argsSize : Nat
  args : List UInt8
  argsSize_lt : argsSize < argumentSizeMax
  length_args : args.length = argumentSizeMax

/-- The contents of the table. -/
abbrev ArgumentTable := List ArgumentInfo

/-- A slot that has not been used. -/
def freeArgumentInfo : ArgumentInfo :=
  ⟨freeTitleId, 0, List.replicate argumentSizeMax 0, by decide, List.length_replicate⟩

/-- The table with which the loader starts. -/
def startTable : ArgumentTable := List.replicate 10 freeArgumentInfo

/-- The errors of `Set`. -/
inductive ArgumentsError
  | tooLongArgument
  | tooManyArguments
deriving Repr, DecidableEq

/-- `FindArgumentInfo`, with the index -/
def findArgumentInfo (table : ArgumentTable) (titleId : Nat) : Option (Nat × ArgumentInfo) :=
  find ArgumentInfo.titleId table titleId

/-- `FindFreeArgumentInfo` -/
def findFreeArgumentInfo (table : ArgumentTable) : Option (Nat × ArgumentInfo) :=
  findArgumentInfo table freeTitleId

/-- `Get` -/
def getArguments (table : ArgumentTable) (titleId : Nat) : Option ArgumentInfo :=
  (findArgumentInfo table titleId).map Prod.snd

/-- The slot after `Set`, with the bytes that were there behind the new ones. -/
def ArgumentInfo.set (info : ArgumentInfo) (titleId : Nat) (args : List UInt8)
    (h : args.length < argumentSizeMax) : ArgumentInfo where
  titleId := titleId
  argsSize := args.length
  args := splice info.args 0 args
  argsSize_lt := h
  length_args := by
    have hlt : 0 + args.length ≤ info.args.length := by
      rw [info.length_args, Nat.zero_add]
      exact h.le
    rw [length_splice hlt, info.length_args]

/-- `Set`, with the table that it leaves -/
def setArguments (table : ArgumentTable) (titleId : Nat) (args : List UInt8) : Except ArgumentsError ArgumentTable :=
  if h : args.length < argumentSizeMax then
    match (findArgumentInfo table titleId).or (findFreeArgumentInfo table) with
    | none => .error .tooManyArguments
    | some (i, info) => .ok (table.set i (info.set titleId args h))
  else .error .tooLongArgument

/-- `Clear` -/
def clearArguments (table : ArgumentTable) : ArgumentTable :=
  table.map fun info => { info with titleId := freeTitleId }

/-- The tables that `Set` and `Clear` lead to. -/
inductive ReachableTable : ArgumentTable → Prop
  | start : ReachableTable startTable
  | set {table table' : ArgumentTable} {titleId : Nat} {args : List UInt8} :
    ReachableTable table → setArguments table titleId args = .ok table' → ReachableTable table'
  | clear {table : ArgumentTable} : ReachableTable table → ReachableTable (clearArguments table)

end RajNX.Loader
