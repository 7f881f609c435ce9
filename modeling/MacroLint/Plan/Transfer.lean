import MacroLint.Fragment.Shape
import MacroLint.Plan.Parameter

/-!
# Copying rows between tables

The mapping of columns, when there is one, is read entry by entry: an entry that is no mapping is
reported before a column that is mapped twice further on. The condition is on the source table. It
is asked by itself first, so that its faults are reported with the condition and not with the
statement made of all the parameters.
-/

set_option autoImplicit false

namespace MacroLint.Plan

open Fragment Literal

/-- The column mappings of some entries, given the target columns before them, lowered. -/
def mappings (seen : List Text) : List Text → Except Fault (List (Text × Text))
  | [] => .ok []
  | entry :: rest =>
    match mapping? entry with
    | none => .error (.mappingShape entry)
    | some (target, source) =>
      if Text.lower target ∈ seen then .error (.repeatedTarget target)
      else (mappings (Text.lower target :: seen) rest).map ((target, source) :: ·)

/-- The column mappings of a list, none when the list is absent. -/
def mappingList (list : Option Text) : Plan (List (Text × Text)) :=
  match list with
  | none => done []
  | some list =>
    match mappings [] ((split list).map Text.trim) with
    | .error fault => fail fault list
    | .ok columns => done columns

/-- `[target table][source table][field mapping][condition]`. -/
def transfer (name : MacroName) (call : Call) : Plan Unit := do
  atMost name call 5
  let target ← tableAt call 1 .targetTable
  let source ← tableAt call 2 .sourceTable
  let columns ← mappingList (call.param? 3)
  forPresent (call.param? 4) (askCondition source)
  askWhole (copyStatement target source columns (call.param? 4)) .copyStatement

end MacroLint.Plan
