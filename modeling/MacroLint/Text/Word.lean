import MacroLint.Text

/-!
# Words

Table and column names are built into generated source code, so only ASCII letters, digits and the
underscore are admitted: `Char.isAlpha` and `Char.isAlphanum` know ASCII only, which here is the
rule and not a restriction of it.
-/

set_option autoImplicit false

namespace MacroLint.Text

/-- An ASCII letter, an ASCII digit or an underscore. -/
def isWordChar (c : Char) : Bool := c.isAlphanum || c == '_'

/-- One or more word characters: the shape of a table or column name. -/
def isWord (t : Text) : Bool := !t.isEmpty && t.all isWordChar

/-- A word that starts with a letter: the shape of a sequence name. -/
def isIdentifier : Text → Bool
  | [] => false
  | c :: cs => c.isAlpha && cs.all isWordChar

/-- A sequence name has the shape of a table name. -/
theorem isWord_of_isIdentifier {t : Text} (h : isIdentifier t = true) : isWord t = true := by
  cases t with
  | nil => simp [isIdentifier] at h
  | cons c cs =>
    obtain ⟨letter, rest⟩ := Bool.and_eq_true_iff.mp h
    simp [isWord, isWordChar, Char.isAlphanum, letter]
    simpa [isWordChar, Char.isAlphanum] using rest

end MacroLint.Text
