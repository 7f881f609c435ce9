import MacroLint.Plan.Fields
import MacroLint.Text.Blank

/-!
# Updating rows

An update has two forms. In the full form its only parameter is a complete statement, known by the
word `update` and a blank behind it. In the table form it names a table, and what to set in one or
both of two ways: as a field list, and as assignments written out. The parameters are asked one by
one in the order they are written; the statement asked last is made of all of them.

Whether anything is set at all is looked at only when the condition has been accepted.
-/

set_option autoImplicit false

namespace MacroLint.Plan

open Fragment Literal

/-- Whether a trimmed parameter is a complete update statement. -/
def isUpdateStatement (t : Text) : Bool :=
  "update".toList.isPrefixOf (Text.lower t) && (t.drop "update".length).head?.any Text.isBlank

/-- The full form; a further segment is refused even if it is blank. -/
def updateInFull (call : Call) (statement : Text) : Plan Unit := do
  require (call.segments.length ≤ 2) .afterStatement call.normalized
  askWhole statement .updateStatement

/-- The assignments that a field list amounts to, asked by themselves; none when it is absent. -/
def setFields (table : Text) : Option Text → Plan (Option Text)
  | none => done none
  | some list => do
    let fields ← fields list .setFields
    ask ⟨setStatement table (assignments fields), .setFields, list⟩
    return some (assignments fields)

/-- The table form. -/
def updateTable (name : MacroName) (call : Call) : Plan Unit := do
  atMost name call 5
  let table ← tableAt call 1 .table
  let listed ← setFields table (call.param? 2)
  forPresent (call.param? 3) (askCondition table)
  forPresent (call.param? 4) fun clause => ask ⟨setStatement table clause, .setClause, clause⟩
  let parts := listed.toList ++ (call.param? 4).toList
  require (!parts.isEmpty) (.missing .setFieldsOrClause) call.normalized
  askWhole (setStatement table (Text.joined ", " parts) ++ whereTail (call.param? 3))
    .updateStatement

/-- `[statement]` or `[table][set fields][condition][set clause]`. -/
def update (name : MacroName) (call : Call) : Plan Unit := do
  let first ← required call 1 .tableOrStatement
  if isUpdateStatement first then updateInFull call first else updateTable name call

end MacroLint.Plan
