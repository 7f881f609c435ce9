import MacroLint.Plan.Parameter

/-!
# Choosing rows of a table

The plans of the macros that name a table and say which of its rows are meant: by a condition, by a
dynamic condition, or, under the flag `<T>`, by a complete statement in the place of the condition.
-/

set_option autoImplicit false

namespace MacroLint.Plan

open Fragment Literal

/-- `[table][statement]`, under the flag `<T>`. A further segment is refused even if it is blank. -/
def totalRows (call : Call) : Plan Unit := do
  require (call.segments.length ≤ 3) .dynamicBesideStatement call.normalized
  let statement ← required call 2 .condition
  askWhole statement .conditionStatement

/-- The condition and the dynamic condition of a table, at least one of which has to be there. -/
def conditionedRows (call : Call) (table : Text) : Plan Unit := do
  require ((call.param? 2).isSome || (call.param? 3).isSome) (.missing .condition) call.normalized
  forPresent (call.param? 2) fun condition => do
    require (hasBind condition) (.noBind .condition) condition
    askCondition table condition
  forPresent (call.param? 3) (askDynamic table)

/-- `[table][condition][dynamic condition]`. -/
def rows (name : MacroName) (call : Call) : Plan Unit := do
  atMost name call 4
  let table ← tableAt call 1 .table
  if call.has .total then totalRows call else conditionedRows call table

/-- `[table][condition]`. Deleting in a batch has to reference a bind variable, as deleting does;
reserving a block of sequence values need not. -/
def batchRows (name : MacroName) (call : Call) : Plan Unit := do
  atMost name call 3
  let table ← tableAt call 1 .table
  let condition ← required call 2 .condition
  require (name != .batchDelete || hasBind condition) (.noBind .condition) condition
  askCondition table condition

/-- `[table]`, all rows of it. -/
def allRows (name : MacroName) (call : Call) : Plan Unit := do
  atMost name call 2
  let _ ← tableAt call 1 .table

end MacroLint.Plan
