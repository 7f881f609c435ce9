import MacroLint.Text

/-!
# Brackets

The brackets of a literal have to pair up: none closes what was not opened, and none stays open.
Text without any bracket is not a literal at all, which is a fault of its own. The reading goes
from left to right and the first closer without an opener decides, whatever follows it.
-/

set_option autoImplicit false

namespace MacroLint.Literal

/-- What can be wrong with the brackets of a text. -/
inductive BracketFault where
  /-- There is no bracket. -/
  | absent
  /-- A `]` has no `[` before it. -/
  | unopened
  /-- A `[` is left without its `]`. -/
  | unclosed
  deriving DecidableEq, Repr

/-- Pairs the brackets of a text, `opened` of which are open already; `none` when they pair up. -/
def pairBrackets (opened : Nat) : Text → Option BracketFault
  | [] => if opened = 0 then none else some .unclosed
  | c :: cs =>
    if c = '[' then pairBrackets (opened + 1) cs
    else if c = ']' then
      match opened with
      | 0 => some .unopened
      | n + 1 => pairBrackets n cs
    else pairBrackets opened cs

@[simp] theorem pairBrackets_open (opened : Nat) (t : Text) :
    pairBrackets opened ('[' :: t) = pairBrackets (opened + 1) t := rfl

@[simp] theorem pairBrackets_close (opened : Nat) (t : Text) :
    pairBrackets (opened + 1) (']' :: t) = pairBrackets opened t := rfl

theorem pairBrackets_cons_of_ne {c : Char} (hopen : c ≠ '[') (hclose : c ≠ ']') (opened : Nat)
    (t : Text) : pairBrackets opened (c :: t) = pairBrackets opened t := by
  simp [pairBrackets, hopen, hclose]

/-- The fault in the brackets of a text, `none` when there are some and they pair up. -/
def bracketFault (t : Text) : Option BracketFault :=
  if t.any fun c => c == '[' || c == ']' then pairBrackets 0 t else some .absent

end MacroLint.Literal
