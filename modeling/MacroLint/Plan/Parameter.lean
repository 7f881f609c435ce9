import MacroLint.Fragment.Bind
import MacroLint.Fragment.Clause
import MacroLint.Fragment.Statement
import MacroLint.Plan
import MacroLint.Text.Word

/-!
# Parameters in plans

The steps that the plans of several families share: how many parameters there may be, which have to
be there, what a table name looks like, and how conditions are put to the oracle. A missing
parameter is reported with the whole literal, everything else with the parameter it is found in.
-/

set_option autoImplicit false

namespace MacroLint.Plan

open Fragment Literal

/-- Admits at most as many segments as the template has, the name included. The report counts
parameters only. -/
def atMost (name : MacroName) (call : Call) (segments : Nat) : Plan Unit :=
  require (call.segments.length ≤ segments)
    (.tooMany name (segments - 1) (call.segments.length - 1)) call.normalized

/-- The parameter at a position, which may not be blank. -/
def required (call : Call) (position : Nat) (part : Part) : Plan Text :=
  match call.param? position with
  | some t => done t
  | none => fail (.missing part) call.normalized

/-- The table name at a position. -/
def tableAt (call : Call) (position : Nat) (part : Part) : Plan Text := do
  let table ← required call position part
  require (Text.isWord table) (.tableName part table) table
  return table

/-- Asks a complete statement and reports it as it was asked. -/
def askWhole (statement : Text) (part : Part) : Plan Unit := ask ⟨statement, part, statement⟩

/-- Asks for the rows of a table that meet a condition. -/
def askCondition (table condition : Text) : Plan Unit :=
  ask ⟨whereStatement table condition, .condition, condition⟩

/-- Admits one clause of a dynamic condition. -/
def acceptClause (condition : Text) (clause : Clause) : Plan Unit := do
  require (!clause.text.isEmpty) .emptyClause condition
  require (hasBind clause.text) (.noBind .dynamicClause) clause.text

/-- Admits every clause of a dynamic condition, and then asks the condition they amount to. -/
def askDynamic (table condition : Text) : Plan Unit := do
  (clauses condition).forM (acceptClause condition)
  ask ⟨whereStatement table (plainCondition condition), .dynamicCondition, condition⟩

end MacroLint.Plan
