import MacroLint.Text

/-!
# Blank characters

Two classes of blanks are in use and they differ on purpose. *Blank* is the Unicode property
White_Space: normalisation, trimming and the blank-parameter rule use it. *Separator* is the five
ASCII blanks that may stand between the tokens of a literal; a vertical tab or a no-break space
between two segments is stray text.
-/

set_option autoImplicit false

namespace MacroLint.Text

/-- The code points of the Unicode property White_Space, as closed intervals in rising order. -/
def blankRanges : List (Nat × Nat) :=
  [(0x9, 0xD), (0x20, 0x20), (0x85, 0x85), (0xA0, 0xA0), (0x1680, 0x1680), (0x2000, 0x200A),
    (0x2028, 0x2029), (0x202F, 0x202F), (0x205F, 0x205F), (0x3000, 0x3000)]

/-- A character is blank when it has the property White_Space. -/
def isBlank (c : Char) : Bool :=
  blankRanges.any fun (first, last) => first ≤ c.toNat && c.toNat ≤ last

/-- The blanks that separate tokens: space, tab, line feed, form feed and carriage return. -/
def isSeparator (c : Char) : Bool :=
  c == ' ' || c == '\t' || c == '\n' || c == '\x0c' || c == '\r'

/-- Every token separator is blank. The converse fails at the vertical tab, for one. -/
theorem isBlank_of_isSeparator {c : Char} (h : isSeparator c = true) : isBlank c = true := by
  simp only [isSeparator, Bool.or_eq_true, beq_iff_eq] at h
  rcases h with (((rfl | rfl) | rfl) | rfl) | rfl <;> rfl

/-- The text without its leading blanks. -/
def trimStart (t : Text) : Text := t.dropWhile isBlank

/-- The text without its trailing blanks. -/
def trimEnd (t : Text) : Text := (t.reverse.dropWhile isBlank).reverse

/-- The text without the blanks at both of its ends. -/
def trim (t : Text) : Text := trimEnd (trimStart t)

theorem mem_of_mem_trim {c : Char} {t : Text} (h : c ∈ trim t) : c ∈ t := by
  have hend : c ∈ trimStart t := by
    have := (List.dropWhile_sublist _).mem (List.mem_reverse.mp h)
    exact List.mem_reverse.mp this
  exact (List.dropWhile_sublist _).mem hend

end MacroLint.Text
