import MacroLint.Literal.Bracket
import MacroLint.Proofs.Literal.NormalForm

/-!
# Brackets pair up in a normal form as in the text

What the brackets of a text amount to depends on its brackets alone (`pairBrackets_filter`), and
normalising drops none of them and brings in none. So the brackets of a literal may be looked at in
the text as it was written, which is what a statement about a way of writing wants, although the
program pairs those of the normal form.
-/

set_option autoImplicit false

namespace MacroLint.Literal

open Text

/-- Whether a character is a bracket. -/
def isBracket (c : Char) : Bool := c == '[' || c == ']'

theorem pairBrackets_filter (opened : Nat) (t : Text) :
    pairBrackets opened (t.filter isBracket) = pairBrackets opened t := by
  induction t generalizing opened with
  | nil => rfl
  | cons c t ih =>
    by_cases hopen : c = '['
    · subst hopen
      exact ih (opened + 1)
    · by_cases hclose : c = ']'
      · subst hclose
        cases opened with
        | zero => rfl
        | succ n => exact ih n
      · have hc : isBracket c = false := by simp [isBracket, hopen, hclose]
        rw [List.filter_cons_of_neg (by simp [hc]), pairBrackets_cons_of_ne hopen hclose]
        exact ih opened

theorem not_isBracket_of_glue_or_blank (c : Char) (h : isGlue c || isBlank c) :
    isBracket c = false := by
  refine Bool.eq_false_iff.mpr fun hc => ?_
  simp only [isBracket, Bool.or_eq_true, beq_iff_eq] at hc
  rcases hc with rfl | rfl <;> exact absurd h (by decide)

/-- Texts with the same brackets have the same fault. -/
theorem bracketFault_congr {s t : Text} (h : s.filter isBracket = t.filter isBracket) :
    bracketFault s = bracketFault t := by
  have hany (u : Text) : u.any isBracket = (u.filter isBracket).any isBracket := by
    rw [List.any_filter]
    simp only [Bool.and_self]
  have hpair : pairBrackets 0 s = pairBrackets 0 t := by
    rw [← pairBrackets_filter, h, pairBrackets_filter]
  show (if s.any isBracket then _ else _) = if t.any isBracket then _ else _
  rw [hany s, hany t, h, hpair]

/-- **Normalising does not touch brackets.** -/
theorem bracketFault_normal (t : Text) : bracketFault (normal t) = bracketFault t :=
  bracketFault_congr (filter_normal not_isBracket_of_glue_or_blank t)

theorem filter_isBracket_eq_nil {s : Text} (h : ∀ c ∈ s, c ≠ '[' ∧ c ≠ ']') :
    s.filter isBracket = [] := by
  apply List.filter_eq_nil_iff.mpr
  intro c hc hbracket
  rcases Bool.or_eq_true_iff.mp hbracket with hopen | hclose
  · exact (h c hc).1 (beq_iff_eq.mp hopen)
  · exact (h c hc).2 (beq_iff_eq.mp hclose)

theorem pairBrackets_append {s : Text} (h : ∀ c ∈ s, c ≠ '[' ∧ c ≠ ']') (opened : Nat) (t : Text) :
    pairBrackets opened (s ++ t) = pairBrackets opened t := by
  induction s with
  | nil => rfl
  | cons c s ih =>
    have hc := h c List.mem_cons_self
    rw [List.cons_append, pairBrackets_cons_of_ne hc.1 hc.2]
    exact ih fun d hd => h d (List.mem_cons_of_mem c hd)

end MacroLint.Literal
