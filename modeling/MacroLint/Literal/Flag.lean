import MacroLint.Text

/-!
# Flags

A flag is one letter in angle brackets. Two are known, in either case; a marker such as `<AT>`
gives several at once. What counts is which flags are set and where each was written first.
-/

set_option autoImplicit false

namespace MacroLint.Literal

/-- The flags that a literal may carry. -/
inductive Flag where
  /-- `<A>`: column aliases are generated. -/
  | aliases
  /-- `<T>`: the condition parameter is a complete statement. -/
  | total
  deriving DecidableEq, Repr

namespace Flag

/-- The letter a flag is written with. -/
def letter : Flag → Char
  | aliases => 'A'
  | total => 'T'

/-- The flag a letter stands for, in either case. -/
def ofLetter? (c : Char) : Option Flag :=
  match c.toUpper with
  | 'A' => some aliases
  | 'T' => some total
  | _ => none

/-- A flag is read back from its letter, and from the lowered letter as well. -/
theorem ofLetter?_letter (f : Flag) :
    ofLetter? f.letter = some f ∧ ofLetter? f.letter.toLower = some f := by
  cases f <;> decide

/-- The flags of a row of letters, each at its first place only; the first letter that stands for
no flag is refused. -/
def ofLetters (letters : Text) : Except Char (List Flag) :=
  match letters.find? fun c => (ofLetter? c).isNone with
  | some c => .error c
  | none => .ok (letters.filterMap ofLetter?).eraseDups

end Flag
end MacroLint.Literal
