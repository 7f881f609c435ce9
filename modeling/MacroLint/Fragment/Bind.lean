import MacroLint.Text.Word

/-!
# Bind variables

A bind variable is a colon and a word behind it, such as `:client_id`. Two colons are a cast and no
variable. Text in single quotes does not count: it is blanked first, quotes included, so a variable
may stand right behind a string.
-/

set_option autoImplicit false

namespace MacroLint.Fragment

open Text

/-- The text with its quoted strings blanked; `quoted` tells whether it starts inside one. -/
def blankStrings (quoted : Bool) : Text → Text
  | [] => []
  | c :: cs =>
    if c = '\'' then ' ' :: blankStrings (!quoted) cs
    else (if quoted then ' ' else c) :: blankStrings quoted cs

/-- Whether a text holds a colon with a word character behind it and no colon before it; `colon`
tells whether a colon stands before the text. -/
def hasBindFrom (colon : Bool) : Text → Bool
  | [] => false
  | c :: cs => (c == ':' && !colon && cs.head?.any isWordChar) || hasBindFrom (c == ':') cs

/-- Whether a fragment references a bind variable outside its quoted strings. -/
def hasBind (fragment : Text) : Bool := hasBindFrom false (blankStrings false fragment)

/-- Blanking keeps every character at its place. -/
theorem length_blankStrings (quoted : Bool) (t : Text) :
    (blankStrings quoted t).length = t.length := by
  induction t generalizing quoted with
  | nil => rfl
  | cons c cs ih =>
    unfold blankStrings
    split <;> simp [ih]

end MacroLint.Fragment
