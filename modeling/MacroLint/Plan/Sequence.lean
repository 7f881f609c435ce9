import MacroLint.Plan.Parameter

/-!
# Sequences

A sequence is named beside the table that keeps it. Both names are checked and nothing is asked.
-/

set_option autoImplicit false

namespace MacroLint.Plan

open Literal

/-- `[table][sequence name]`. -/
def sequence (name : MacroName) (call : Call) : Plan Unit := do
  atMost name call 3
  let _ ← tableAt call 1 .table
  let sequence ← required call 2 .sequenceName
  require (Text.isIdentifier sequence) (.sequenceName sequence) sequence

end MacroLint.Plan
