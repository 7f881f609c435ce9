import MacroLint.Text.Blank

/-!
# The normal form of a literal

A literal is captured from source code as a concatenation of quoted pieces, so quotes, plus signs
and line breaks are *glue*: they belong to the source and not to the literal. The normal form drops
the glue, writes each run of blanks as one space, and closes the seams between segments, so that
`] [` becomes `][`.

The order of the three passes is part of the meaning. A line break is glue before it could count as
a blank, so `[a]` and `[b]` on two lines are neighbours without a seam, and a plus sign disappears
from arithmetic inside a fragment as well.

Each pass decides on a character by its neighbours alone, which is what makes the passes easy to
compose: a blank stays, as a space, exactly when no blank follows it, and a space goes exactly when
it stands between `]` and `[`.
-/

set_option autoImplicit false

namespace MacroLint.Literal

open Text

/-- The characters that join the quoted pieces of a literal in source code. -/
def isGlue (c : Char) : Bool := c == '"' || c == '+' || c == '\r' || c == '\n'

/-- The text without its glue. -/
def withoutGlue (t : Text) : Text := t.filter fun c => !isGlue c

/-- The text with each run of blanks written as one space: of a run, the last blank becomes the
space and the others go. -/
def collapse : Text → Text
  | [] => []
  | c :: cs =>
    if isBlank c then
      if cs.head?.any isBlank then collapse cs else ' ' :: collapse cs
    else c :: collapse cs

/-- The text without the spaces that stand between `]` and `[`. -/
def closeSeams : Text → Text
  | ']' :: ' ' :: '[' :: cs => ']' :: '[' :: closeSeams cs
  | c :: cs => c :: closeSeams cs
  | [] => []

/-- The normal form of a literal. -/
def normal (raw : Text) : Text := closeSeams (collapse (withoutGlue raw))

/-! ## What each pass leaves out -/

theorem not_isGlue_of_mem_withoutGlue {c : Char} {t : Text} (h : c ∈ withoutGlue t) :
    isGlue c = false := by
  simpa using (List.mem_filter.mp h).2

/-- Every blank left by `collapse` is a space. -/
theorem eq_space_of_mem_collapse {c : Char} {t : Text} (h : c ∈ collapse t)
    (hb : isBlank c = true) : c = ' ' := by
  induction t with
  | nil => simp [collapse] at h
  | cons d ds ih =>
    unfold collapse at h
    split at h
    · split at h
      · exact ih h
      · rcases List.mem_cons.mp h with rfl | h
        · rfl
        · exact ih h
    · rename_i hd
      rcases List.mem_cons.mp h with rfl | h
      · exact absurd hb hd
      · exact ih h

/-- Closing seams only takes characters away. -/
theorem closeSeams_sublist (t : Text) : (closeSeams t).Sublist t := by
  fun_induction closeSeams t with
  | case1 cs ih => exact (((ih.cons_cons '[').cons ' ').cons_cons ']')
  | case2 c cs _ ih => exact ih.cons_cons c
  | case3 => exact List.Sublist.refl _

end MacroLint.Literal
