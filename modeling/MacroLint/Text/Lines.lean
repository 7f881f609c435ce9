import MacroLint.Text

/-!
# Lines

A line ends at a line feed, or at a carriage return followed by a line feed; the ending is not part
of it. A carriage return anywhere else is an ordinary character, also at the very end of the text.
Text after the last ending is a line of its own, and no empty line follows the last ending.
-/

set_option autoImplicit false

namespace MacroLint.Text

/-- The lines of a text, without their endings. -/
def lines : Text → List Text
  | [] => []
  | '\n' :: cs => [] :: lines cs
  | '\r' :: '\n' :: cs => [] :: lines cs
  | c :: cs =>
    match lines cs with
    | [] => [[c]]
    | line :: rest => (c :: line) :: rest

/-- The text of some lines, each ended by a line feed. -/
def unlines (ls : List Text) : Text := ls.flatMap fun line => line ++ ['\n']

end MacroLint.Text
