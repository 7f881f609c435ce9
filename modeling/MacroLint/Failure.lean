import MacroLint.Text

/-!
# Failures

A failure is what goes wrong outside the literals: the tool is set up wrongly, its input cannot be
read, or a statement is rejected. Only the last kind reaches a diagnostic, and there its cause is
shown without the heading, which would repeat the message.
-/

set_option autoImplicit false

namespace MacroLint

/-- Why a statement is rejected. -/
inductive QueryFault where
  /-- The statement does not follow the grammar. -/
  | grammar (message : Text)
  /-- The characters of the statement do not make tokens. -/
  | tokens (message : Text)
  /-- The statement is nested too deeply. -/
  | tooDeep
  deriving DecidableEq, Repr

/-- What can go wrong outside the literals. -/
inductive Failure where
  /-- Reading or writing failed. -/
  | io (message : Text)
  /-- A statement was rejected. -/
  | query (fault : QueryFault)
  /-- A setting has a value it may not have. -/
  | config (message : Text)
  deriving DecidableEq, Repr

/-- The fault in a statement as its parser words it. -/
def QueryFault.message : QueryFault → Text
  | grammar m | tokens m => "sql parser error: " ++ m
  | tooDeep => "sql parser error: recursion limit exceeded"

namespace Failure

/-- The failure under its heading. -/
def message : Failure → Text
  | io m => "I/O error: " ++ m
  | query fault => "Invalid query: " ++ fault.message
  | config m => "Configuration error: " ++ m

/-- The bare cause of a failure, as it is shown in a diagnostic. -/
def cause : Failure → Text
  | io m | config m => m
  | query (.grammar m) | query (.tokens m) => m
  | query .tooDeep => QueryFault.tooDeep.message

end Failure
end MacroLint
