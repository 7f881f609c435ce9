import MacroLint.Plan
import MacroLint.Sql.Grammar

/-!
# Scripts

A text of SQL is a row of statements with semicolons between them; nothing between two semicolons is
no statement. A text is accepted when it is exactly one statement. Something that is no statement is
reported before the number of statements is looked at, wherever it stands.
-/

set_option autoImplicit false

namespace MacroLint.Sql

/-- The non-empty rows of tokens between semicolons. -/
def statements (tokens : List Token) : List (List Token) :=
  (tokens.splitOn (.sign .semicolon)).filter fun row => !row.isEmpty

/-- Why some tokens are not exactly one statement, `none` when they are. -/
def scriptFault? (tokens : List Token) : Option QueryFault :=
  if !(statements tokens).all isStatement then some (.grammar "no statement of the grammar")
  else if (statements tokens).length = 1 then none
  else
    some (.grammar
      ("expected exactly one statement, found " ++ Nat.toDigits 10 (statements tokens).length))

/-- Why a text is not exactly one statement in a dialect, `none` when it is. -/
def queryFault? (d : Dialect) (t : Text) : Option QueryFault :=
  match read d t with
  | none => some (.tokens "no tokens of the grammar")
  | some tokens => scriptFault? tokens

/-- The oracle that parses each statement by itself. -/
def oracle (d : Dialect) : Oracle := fun _ statement => (queryFault? d statement).map Failure.query

end MacroLint.Sql
