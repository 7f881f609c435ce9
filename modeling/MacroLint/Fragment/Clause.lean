import MacroLint.Fragment.Split
import MacroLint.Text.Blank

/-!
# Dynamic conditions

A dynamic condition is a list of clauses, which are put together to one condition. A clause joins
the ones before it with AND, or with OR when it carries the marker `/*#OR*/` in front. The joiner
of the first clause has nothing to join and is dropped.
-/

set_option autoImplicit false

namespace MacroLint.Fragment

open Text

/-- How a clause attaches to the clauses before it. -/
inductive Joiner where
  | and
  | or
  deriving DecidableEq, Repr

/-- The word a joiner is written as. -/
def Joiner.word : Joiner → Text
  | .and => "AND"
  | .or => "OR"

/-- The marker in front of a clause that is joined with OR. -/
def orMarker : Text := "/*#OR*/"

/-- One clause of a dynamic condition. -/
structure Clause where
  joiner : Joiner
  text : Text
  deriving DecidableEq, Repr

namespace Clause

/-- Reads one piece of a dynamic condition. The marker counts only at the very start of the trimmed
piece. -/
def ofPiece (piece : Text) : Clause :=
  if orMarker.isPrefixOf (trim piece) then ⟨.or, trim ((trim piece).drop orMarker.length)⟩
  else ⟨.and, trim piece⟩

/-- The clause with its joiner in front. -/
def joinedText (c : Clause) : Text := c.joiner.word ++ ' ' :: c.text

end Clause

/-- The clauses of a dynamic condition. -/
def clauses (condition : Text) : List Clause := (split condition).map Clause.ofPiece

/-- The condition that clauses amount to. -/
def compose : List Clause → Text
  | [] => []
  | first :: rest => joined [' '] (first.text :: rest.map Clause.joinedText)

/-- The plain condition that a dynamic condition amounts to. -/
def plainCondition (condition : Text) : Text := compose (clauses condition)

end MacroLint.Fragment
