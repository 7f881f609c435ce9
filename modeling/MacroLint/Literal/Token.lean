import MacroLint.Literal.Lexeme

/-!
# Tokens

A token is a lexeme other than a separator, at its place in the literal. Places are counted in
bytes of UTF-8 from the start of the text and span the whole lexeme, brackets included.
-/

set_option autoImplicit false

namespace MacroLint.Literal

open Text

/-- A lexeme with the bytes it occupies: `start` is its first byte, `stop` the first after it. -/
structure Token where
  lexeme : Lexeme
  start : Nat
  stop : Nat
  deriving DecidableEq, Repr

/-- Whether a lexeme is worth a token: separators are not. -/
def Lexeme.isToken : Lexeme → Bool
  | .gap _ => false
  | _ => true

/-- Lexemes at their places, when the first of them starts at byte `start`. -/
def locate (start : Nat) : List Lexeme → List Token
  | [] => []
  | l :: ls => ⟨l, start, start + byteLength l.source⟩ :: locate (start + byteLength l.source) ls

/-- The tokens of a text. -/
def tokens (t : Text) : List Token :=
  (locate 0 (lexemes t)).filter fun token => token.lexeme.isToken

/-- Placing lexemes changes none of them. -/
theorem map_lexeme_locate (start : Nat) (ls : List Lexeme) :
    (locate start ls).map Token.lexeme = ls := by
  induction ls generalizing start with
  | nil => rfl
  | cons l ls ih => simp [locate, ih]

end MacroLint.Literal
