import MacroLint.Plan.Parameter

/-!
# Field lists

A field list gives columns and values. Its entries are admitted in the order of the list, and each
is first looked at by itself, then against the keys before it: so of several faults the first entry
decides, and within one entry its shape.

Columns are the same in any ASCII case. The insert statement lists them in the order of their
characters, so that statements do not depend on the order of the list; fields of equal keys cannot
occur there.
-/

set_option autoImplicit false

namespace MacroLint.Plan

open Fragment Literal

/-- The fault of a field by itself. -/
def fieldFault? (part : Part) (field : Entry) : Option Fault :=
  if field.key.isEmpty then some (.emptyEntry part)
  else if !Text.isWord field.key then some (.fieldName field.key)
  else if field.value == some [] then some (.noValue field.key)
  else none

/-- The first fault in some fields, given the keys before them, lowered. -/
def fieldsFault? (part : Part) (seen : List Text) : List Entry → Option Fault
  | [] => none
  | field :: rest =>
    match fieldFault? part field with
    | some fault => some fault
    | none =>
      if Text.lower field.key ∈ seen then some (.repeatedField field.key)
      else fieldsFault? part (Text.lower field.key :: seen) rest

/-- The fields of a list. -/
def fields (list : Text) (part : Part) : Plan (List Entry) :=
  match fieldsFault? part [] (entries list) with
  | some fault => fail fault list
  | none => done (entries list)

/-- The fields in the order of their keys. -/
def inKeyOrder (fields : List Entry) : List Entry :=
  fields.mergeSort fun a b => Text.isUpTo a.key b.key

/-- `[table][field list]`. -/
def insertFields (name : MacroName) (call : Call) : Plan Unit := do
  atMost name call 3
  let table ← tableAt call 1 .table
  let list ← required call 2 .fieldList
  let fields ← fields list .fieldList
  ask ⟨insertStatement table (inKeyOrder fields), .fieldList, list⟩

end MacroLint.Plan
