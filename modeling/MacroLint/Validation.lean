import MacroLint.Literal.Normal
import MacroLint.MacroName.Family
import MacroLint.Plan.Fields
import MacroLint.Plan.Query
import MacroLint.Plan.Rows
import MacroLint.Plan.Sequence
import MacroLint.Plan.Transfer
import MacroLint.Plan.Update

/-!
# Validation

A literal is brought to its normal form, its brackets are paired, it is read as a call, and the name
of the macro is looked up; a fault in any of these ends the validation before a statement is asked.
After that the plan of its family is put to an oracle, and what goes wrong there is explained by the
usage of the macro.

`check` takes the family and the macro apart from each other: the plan is the family's, the usage
and the wording are the macro's.
-/

set_option autoImplicit false

namespace MacroLint

open Literal

/-- The plan of a family for a macro and its parameters. -/
def Family.plan : Family → MacroName → Call → Plan Unit
  | existsRow | delete => Plan.rows
  | insertFields => Plan.insertFields
  | batchCondition => Plan.batchRows
  | insertSelect => Plan.transfer
  | select => Plan.plainQuery
  | selectPage => Plan.pagedQuery .page
  | selectRowNum => Plan.pagedQuery .limit
  | update => Plan.update
  | getSequence => Plan.sequence
  | truncate => Plan.allRows

/-- The run with the usage of a macro shown in its diagnostic. -/
def Run.explain (run : Run) (usage : Option Usage) : Run :=
  { run with diagnostic := run.diagnostic.map fun d => d.orUsage usage }

/-- Checks the parameters of a macro as those of a family. -/
def Family.check (family : Family) (name : MacroName) (call : Call) (oracle : Oracle) : Run :=
  ((family.plan name call).run oracle).explain name.usage?

/-- The call that a literal is, with the macro that it names. -/
def resolve (raw : Text) : Except Diagnostic (MacroName × Call) :=
  let normalized := normal raw
  match bracketFault normalized with
  | some fault => .error ((Fault.brackets fault).report normalized)
  | none =>
    match Call.ofNormal raw normalized with
    | .error fault => .error ((Fault.call fault).report normalized)
    | .ok call =>
      match MacroName.ofText? call.name with
      | none => .error ((Fault.unknownName call.name).report normalized)
      | some name => .ok (name, call)

/-- Validates a literal. -/
def validate (oracle : Oracle) (raw : Text) : Run :=
  match resolve raw with
  | .error d => ⟨[], some d⟩
  | .ok (name, call) =>
    match name.family? with
    | none => ⟨[], none⟩
    | some family => family.check name call oracle

end MacroLint
