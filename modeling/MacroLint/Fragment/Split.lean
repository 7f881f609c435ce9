import MacroLint.Text

/-!
# Splitting at top-level commas

A parameter may be a list of entries separated by commas, and an entry may hold commas of its own
in a quoted string or between parentheses. Reading from left to right, a quote flips between quoted
and unquoted text, and unquoted parentheses change a depth. A comma separates entries when it is
unquoted and the depth is not positive.

The depth is signed: a closing parenthesis too many is not forgotten, and makes up for an opening
one that comes later.

Main statement: the pieces joined with commas are the text again (`joined_split`), so no character
is lost and empty pieces are pieces.
-/

set_option autoImplicit false

namespace MacroLint.Fragment

/-- What a reader of a fragment knows at a place: whether it is inside a quoted string, and how many
more unquoted parentheses have opened than closed. The depth has no bound. A signed counter of 32
bits agrees with it in every text that has fewer than 2³¹ unmatched parentheses. -/
structure Nesting where
  quoted : Bool
  depth : Int
  deriving DecidableEq, Repr

namespace Nesting

/-- The nesting at the start of a text. -/
def start : Nesting := ⟨false, 0⟩

/-- The nesting behind a character. -/
def step (n : Nesting) (c : Char) : Nesting :=
  if c = '\'' then { n with quoted := !n.quoted }
  else if n.quoted then n
  else if c = '(' then { n with depth := n.depth + 1 }
  else if c = ')' then { n with depth := n.depth - 1 }
  else n

/-- Whether a comma separates entries here. -/
def isTop (n : Nesting) : Bool := !n.quoted && n.depth ≤ 0

/-- The nesting behind a text. -/
def after (n : Nesting) (t : Text) : Nesting := t.foldl step n

end Nesting

/-- The pieces of a text, from a place with nesting `n` on. -/
def splitFrom (n : Nesting) : Text → List Text
  | [] => [[]]
  | c :: cs =>
    if c = ',' && n.isTop then [] :: splitFrom (n.step c) cs
    else (splitFrom (n.step c) cs).modifyHead (c :: ·)

/-- The pieces of a text between its top-level commas. They are not trimmed, and empty ones
count. -/
def split (t : Text) : List Text := splitFrom .start t

/-! ## Nothing is lost -/

theorem splitFrom_ne_nil (n : Nesting) (t : Text) : splitFrom n t ≠ [] := by
  induction t generalizing n with
  | nil => simp [splitFrom]
  | cons c cs ih =>
    unfold splitFrom
    split
    · simp
    · have := ih (n.step c)
      cases h : splitFrom (n.step c) cs with
      | nil => exact absurd h this
      | cons p ps => simp

theorem joined_splitFrom (n : Nesting) (t : Text) : Text.joined [','] (splitFrom n t) = t := by
  induction t generalizing n with
  | nil => simp [splitFrom, Text.joined]
  | cons c cs ih =>
    have ih := ih (n.step c)
    unfold splitFrom
    cases h : splitFrom (n.step c) cs with
    | nil => exact absurd h (splitFrom_ne_nil _ _)
    | cons p ps =>
      rw [h] at ih
      split
      · rename_i hc
        simp only [Bool.and_eq_true, decide_eq_true_eq] at hc
        simp only [Text.joined, List.intercalate_cons_cons] at ih ⊢
        rw [ih, hc.1]
        rfl
      · cases ps with
        | nil => simp_all [Text.joined]
        | cons q qs =>
          simp only [Text.joined, List.modifyHead_cons, List.intercalate_cons_cons] at ih ⊢
          rw [← ih]
          simp

/-- Joining the pieces with commas gives the text back. -/
theorem joined_split (t : Text) : Text.joined [','] (split t) = t := joined_splitFrom _ t

end MacroLint.Fragment
