import MacroLint.Text.Blank
import MacroLint.Text.Word

/-!
# Shapes of single entries

Two entries have a shape of their own: a column mapping `target = source`, and the value of a paging
key. Both are read strictly: blanks are allowed around the equals sign of a mapping and nowhere
else, so callers trim first.
-/

set_option autoImplicit false

namespace MacroLint.Fragment

open Text

/-- The two columns of a mapping `target = source`. -/
def mapping? (entry : Text) : Option (Text × Text) :=
  match cut '=' entry with
  | none => none
  | some (before, after) =>
    if isWord (trimEnd before) && isWord (trimStart after) then
      some (trimEnd before, trimStart after)
    else none

/-- Whether a text is a positive integer without leading zeros, of any length. -/
def isPositive : Text → Bool
  | [] => false
  | c :: cs => c.isDigit && c != '0' && cs.all Char.isDigit

/-- Whether a text may be the value of a paging key: a positive integer or one bind variable. -/
def isPageValue : Text → Bool
  | ':' :: name => isWord name
  | t => isPositive t

end MacroLint.Fragment
