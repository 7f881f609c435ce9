import MacroLint.Fragment.Split
import MacroLint.Text.Blank

/-!
# Entries

An entry of a parameter list is a key, or a key and a value with an equals sign between them. The
first equals sign counts, so a value may hold more of them. A key without a value stands for the
bind variable of the same name; an empty value is something else and is kept apart.
-/

set_option autoImplicit false

namespace MacroLint.Fragment

open Text

/-- A key with the value written for it. -/
structure Entry where
  key : Text
  value : Option Text
  deriving DecidableEq, Repr

namespace Entry

/-- Reads one piece of a list. Blanks around the key and around the value are not part of them. -/
def ofPiece (piece : Text) : Entry :=
  match cut '=' piece with
  | some (key, value) => ⟨trim key, some (trim value)⟩
  | none => ⟨trim piece, none⟩

/-- The value, or the bind variable that a bare key stands for. -/
def valueOrBind (e : Entry) : Text := e.value.getD (':' :: e.key)

end Entry

/-- The entries of a list. An empty piece gives an entry with an empty key. -/
def entries (list : Text) : List Entry := (split list).map Entry.ofPiece

end MacroLint.Fragment
