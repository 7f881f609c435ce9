import MacroLint.Sql.Script
import MacroLint.Text.Lines
import MacroLint.Validation

/-!
# The command line

Each argument is a literal; without arguments, each line of the input that is not blank is one. The
literals are validated in their order and each leaves a record. The exit code tells whether all of
them are valid, whether some are not, or whether the tool could not run at all; then there are no
records, also not for literals before the one that could not be read.

All of this is a function of the arguments, the input and the dialect setting. Only reading and
writing is left to the program. Which statements a dialect has is the business of a parser, and
nothing here depends on it; `run` takes the parser of this library.
-/

set_option autoImplicit false

namespace MacroLint.CommandLine

/-- What a call of the program gives back. -/
structure Report where
  exit : Nat
  output : Text
  errors : Text
  deriving DecidableEq, Repr

/-- The record of a literal. -/
def record (literal : Text) : Option Diagnostic → Text
  | none => "ok    " ++ literal ++ ['\n']
  | some d => "error " ++ literal ++ '\n' :: d.render ++ "\n\n".toList

/-- The report on some literals. -/
def reportOn (oracle : Oracle) (literals : List Text) : Report :=
  let verdicts := literals.map fun literal => (literal, (validate oracle literal).diagnostic)
  { exit := if verdicts.all fun verdict => verdict.2.isNone then 0 else 1
    output := verdicts.flatMap fun verdict => record verdict.1 verdict.2
    errors := [] }

/-- The report when the program could not run. -/
def failed (failure : Failure) : Report := ⟨2, [], "sqlmacro: " ++ failure.message ++ ['\n']⟩

/-- The literals in an input: its lines that are not blank. -/
def literalsOfInput (input : ByteArray) : Except Failure (List Text) :=
  match String.fromUTF8? input with
  | none => .error (.io "stream did not contain valid UTF-8")
  | some s => .ok ((Text.lines s.toList).filter fun line => !(Text.trim line).isEmpty)

/-- The literals of a call. With arguments the input is not looked at. -/
def literals (arguments : List Text) (input : ByteArray) : Except Failure (List Text) :=
  if arguments.isEmpty then literalsOfInput input else .ok arguments

/-- The report on a call, given a parser for each dialect. A wrong dialect setting is found before
the input is read; without a setting the dialect is the generic one. -/
def runWith (parser : Sql.Dialect → Oracle) (setting : Option Text) (arguments : List Text)
    (input : ByteArray) : Report :=
  match Sql.Dialect.ofSetting (setting.getD Sql.Dialect.generic.name) with
  | .error failure => failed failure
  | .ok dialect =>
    match literals arguments input with
    | .error failure => failed failure
    | .ok literals => reportOn (parser dialect) literals

/-- The report on a call. -/
def run (setting : Option Text) (arguments : List Text) (input : ByteArray) : Report :=
  runWith Sql.oracle setting arguments input

end MacroLint.CommandLine
