import MacroLint.Literal.Call
import MacroLint.Proofs.Literal.NormalForm
import MacroLint.Proofs.Text.Trim

/-!
# What a call is read from

Of the lexemes of a literal only segments and flag markers count; separators and stray text are
there so that the lexemes spell the literal. The *essence* of a text is the row of lexemes that
count, and a call depends on nothing else (`flagLetters_filter`, `segments_filter`).

The essence is much easier to compute than the lexemes. Where a run of stray text ends depends on
what follows it, so `lexemes` cannot be followed along the text character by character; the essence
can, because **a character that opens neither a segment nor a marker can be struck out**
(`essence_cons`). From this follows that closing seams does not change it (`essence_closeSeams`),
although it changes the lexemes: a separator goes. So the essence of a normal form can be read off
the text as it was written, by the three equations of the last section.
-/

set_option autoImplicit false

namespace MacroLint.Literal

open Text

/-- A call is read from segments and flag markers. -/
def Lexeme.counts : Lexeme → Bool
  | .segment _ | .flag _ => true
  | .gap _ | .stray _ => false

/-- The lexemes of a text that count. -/
def essence (t : Text) : List Lexeme := (lexemes t).filter Lexeme.counts

theorem markerLetters_filter (ls : List Lexeme) :
    Lexeme.markerLetters (ls.filter Lexeme.counts) = Lexeme.markerLetters ls := by
  induction ls with
  | nil => rfl
  | cons l ls ih =>
    cases l with
    | gap c | stray text => exact ih
    | segment inner => exact ih
    | flag letters => exact congrArg (letters ++ ·) ih

theorem flagLetters_filter (ls : List Lexeme) :
    Lexeme.flagLetters (ls.filter Lexeme.counts) = Lexeme.flagLetters ls := by
  induction ls with
  | nil => rfl
  | cons l ls ih =>
    cases l with
    | gap c | stray text => exact ih
    | segment inner => exact congrArg (lettersOfSegment inner ++ ·) (markerLetters_filter ls)
    | flag letters => exact congrArg (letters ++ ·) ih

theorem segments_filter (ls : List Lexeme) :
    Lexeme.segments (ls.filter Lexeme.counts) = Lexeme.segments ls := by
  induction ls with
  | nil => rfl
  | cons l ls ih =>
    cases l with
    | gap c | stray text => exact ih
    | segment inner => exact congrArg (inner :: ·) ih
    | flag letters => exact ih

/-! ## 1. One lexeme at a time -/

@[simp] theorem essence_nil : essence [] = [] := by
  rw [essence, lexemes]
  rfl

/-- The end of a run of stray text does not show in the essence. -/
theorem essence_dropWhile (t : Text) :
    essence (t.dropWhile fun c => !Lexeme.startsOther c) = essence t := by
  cases t with
  | nil => rfl
  | cons c t =>
    by_cases hc : Lexeme.startsOther c = true
    · rw [List.dropWhile_cons_of_neg (by simpa using hc)]
    · -- The run is not empty, and it is the stray text that is read next.
      have hother := hc
      simp only [Lexeme.startsOther, Bool.or_eq_true, beq_iff_eq, not_or] at hother
      obtain ⟨⟨hopen, hless⟩, hsep⟩ := hother
      have hnext : Lexeme.next c t
          = (.stray (c :: t.takeWhile fun d => !Lexeme.startsOther d),
            t.dropWhile fun d => !Lexeme.startsOther d) := by
        simp [Lexeme.next, hopen, hless, hsep]
      rw [List.dropWhile_cons_of_pos (by simpa using hc)]
      conv => rhs; rw [essence, lexemes, hnext]
      rfl

/-- What opens neither a segment nor a marker can be struck out. -/
theorem essence_cons {c : Char} (hopen : c ≠ '[') (hless : c ≠ '<') (t : Text) :
    essence (c :: t) = essence t := by
  by_cases hsep : isSeparator c = true
  · rw [essence, lexemes, Lexeme.next, if_pos hsep]
    rfl
  · rw [essence, lexemes, Lexeme.next, if_neg hsep, if_neg hopen, if_neg hless]
    exact essence_dropWhile t

theorem essence_segment {inner : Text} (h : ']' ∉ inner) (t : Text) :
    essence ('[' :: (inner ++ ']' :: t)) = .segment inner :: essence t := by
  have hcut : cut ']' (inner ++ ']' :: t) = some (inner, t) := cut_eq_some_iff.mpr ⟨rfl, h⟩
  rw [essence, lexemes, Lexeme.next, if_neg (by decide), if_pos rfl, hcut]
  rfl

theorem marker?_eq_some_iff {t letters rest : Text} :
    Lexeme.marker? t = some (letters, rest) ↔
      letters ≠ [] ∧ (∀ c ∈ letters, c.isAlpha = true) ∧ t = letters ++ '>' :: rest := by
  constructor
  · intro h
    have ht := Lexeme.marker?_eq h
    unfold Lexeme.marker? at h
    split at h
    · rename_i c cs r htake hdrop
      cases h
      refine ⟨by simp, fun d hd => ?_, ht⟩
      rw [← htake] at hd
      exact List.all_eq_true.mp List.all_takeWhile d hd
    · cases h
  · rintro ⟨hne, halpha, rfl⟩
    obtain ⟨c, cs, rfl⟩ := List.exists_cons_of_ne_nil hne
    rw [Lexeme.marker?, List.takeWhile_append_of_pos halpha, List.dropWhile_append_of_pos halpha]
    simp

theorem essence_marker {letters : Text} (hne : letters ≠ [])
    (halpha : ∀ c ∈ letters, c.isAlpha = true) (t : Text) :
    essence ('<' :: (letters ++ '>' :: t)) = .flag letters :: essence t := by
  have hm : Lexeme.marker? (letters ++ '>' :: t) = some (letters, t) :=
    marker?_eq_some_iff.mpr ⟨hne, halpha, rfl⟩
  rw [essence, lexemes, Lexeme.next, if_neg (by decide), if_neg (by decide), if_pos rfl, hm]
  rfl

theorem essence_of_marker?_eq_none {t : Text} (h : Lexeme.marker? t = none) :
    essence ('<' :: t) = essence t := by
  rw [essence, lexemes, Lexeme.next, if_neg (by decide), if_neg (by decide), if_pos rfl, h]
  exact essence_dropWhile t

/-! ## 2. Closing seams -/

theorem exists_of_closeSeams_eq_append {s : Text} (hs : ']' ∉ s) :
    ∀ {t u : Text}, closeSeams t = s ++ u → ∃ v, t = s ++ v ∧ closeSeams v = u := by
  induction s with
  | nil => exact fun {t u} h => ⟨t, rfl, h⟩
  | cons c s ih =>
    intro t u h
    have hhead : t.head? = some c := by rw [← head?_closeSeams, h]; rfl
    obtain ⟨t, rfl⟩ := List.head?_eq_some_iff.mp hhead
    have hc : c ≠ ']' := fun e => hs (e ▸ List.mem_cons_self)
    rw [closeSeams_cons_of_ne hc, List.cons_append, List.cons.injEq] at h
    obtain ⟨v, rfl, hv⟩ := ih (fun hmem => hs (List.mem_cons_of_mem c hmem)) h.2
    exact ⟨v, rfl, hv⟩

theorem not_mem_of_isAlpha {letters : Text} (h : ∀ c ∈ letters, c.isAlpha = true) :
    ']' ∉ letters ++ ['>'] := by
  intro hmem
  rcases List.mem_append.mp hmem with hmem | hmem
  · exact absurd (h _ hmem) (by decide)
  · simp at hmem

/-- A marker has no bracket in it, so seams are closed behind it. -/
theorem closeSeams_marker {letters : Text} (h : ∀ c ∈ letters, c.isAlpha = true) (t : Text) :
    closeSeams (letters ++ '>' :: t) = letters ++ '>' :: closeSeams t := by
  rw [← List.singleton_append, ← List.append_assoc,
    closeSeams_append_of_not_mem (not_mem_of_isAlpha h), List.append_assoc, List.singleton_append]

theorem marker?_closeSeams (t : Text) :
    Lexeme.marker? (closeSeams t)
      = (Lexeme.marker? t).map fun found => (found.1, closeSeams found.2) := by
  cases hm : Lexeme.marker? t with
  | some found =>
    obtain ⟨letters, rest⟩ := found
    obtain ⟨hne, halpha, rfl⟩ := marker?_eq_some_iff.mp hm
    exact marker?_eq_some_iff.mpr ⟨hne, halpha, closeSeams_marker halpha rest⟩
  | none =>
    -- A marker found behind closed seams stood there before.
    cases hc : Lexeme.marker? (closeSeams t) with
    | none => rfl
    | some found =>
      obtain ⟨letters, rest⟩ := found
      obtain ⟨hne, halpha, heq⟩ := marker?_eq_some_iff.mp hc
      rw [← List.singleton_append, ← List.append_assoc] at heq
      obtain ⟨v, rfl, -⟩ := exists_of_closeSeams_eq_append (not_mem_of_isAlpha halpha) heq
      rw [List.append_assoc, List.singleton_append] at hm
      rw [marker?_eq_some_iff.mpr ⟨hne, halpha, rfl⟩] at hm
      cases hm

section Step

variable {t : Text}
  (ih : ∀ u : Text, u.length < t.length + 1 → essence (closeSeams u) = essence u)
include ih

theorem essence_closeSeams_open : essence (closeSeams ('[' :: t)) = essence ('[' :: t) := by
  rw [closeSeams_cons_of_ne (by decide)]
  by_cases hmem : ']' ∈ t
  · obtain ⟨inner, rest, rfl, hinner⟩ := List.eq_append_cons_of_mem hmem
    have hrest : essence (closeSeams (']' :: rest)) = essence (']' :: rest) := by
      apply ih
      simp only [List.length_cons, List.length_append]
      omega
    -- The seam at the end of the segment, if there is one, is closed behind its bracket.
    obtain ⟨u, hu⟩ : ∃ u, closeSeams (']' :: rest) = ']' :: u :=
      List.head?_eq_some_iff.mp (by rw [head?_closeSeams]; rfl)
    rw [closeSeams_append_of_not_mem hinner, hu, essence_segment hinner, essence_segment hinner]
    rw [hu, essence_cons (by decide) (by decide), essence_cons (by decide) (by decide)] at hrest
    rw [hrest]
  · rw [closeSeams_of_not_mem hmem]

theorem essence_closeSeams_less : essence (closeSeams ('<' :: t)) = essence ('<' :: t) := by
  rw [closeSeams_cons_of_ne (by decide)]
  cases hm : Lexeme.marker? t with
  | none =>
    have hclosed : Lexeme.marker? (closeSeams t) = none := by
      rw [marker?_closeSeams, hm]
      rfl
    rw [essence_of_marker?_eq_none hm, essence_of_marker?_eq_none hclosed]
    exact ih t (Nat.lt_succ_self _)
  | some found =>
    obtain ⟨letters, rest⟩ := found
    obtain ⟨hne, halpha, rfl⟩ := marker?_eq_some_iff.mp hm
    have hrest : essence (closeSeams rest) = essence rest := by
      apply ih
      simp only [List.length_cons, List.length_append]
      omega
    rw [closeSeams_marker halpha, essence_marker hne halpha, essence_marker hne halpha, hrest]

/-- The character counts for nothing, but it may be the bracket in front of a seam. -/
theorem essence_closeSeams_other {c : Char} (hopen : c ≠ '[') (hless : c ≠ '<') :
    essence (closeSeams (c :: t)) = essence (c :: t) := by
  rw [essence_cons hopen hless]
  by_cases hseam : ∃ rest, c = ']' ∧ t = ' ' :: '[' :: rest
  · obtain ⟨rest, rfl, rfl⟩ := hseam
    have hrest : essence (closeSeams ('[' :: rest)) = essence ('[' :: rest) := by
      apply ih
      simp only [List.length_cons]
      omega
    rw [closeSeams_cons_of_ne (by decide)] at hrest
    rw [closeSeams, essence_cons (by decide) (by decide), hrest]
    exact (essence_cons (by decide) (by decide) _).symm
  · have hclose : closeSeams (c :: t) = c :: closeSeams t := by
      rw [closeSeams]
      intro rest hc ht
      exact hseam ⟨rest, hc, ht⟩
    rw [hclose, essence_cons hopen hless]
    exact ih t (Nat.lt_succ_self _)

end Step

/-- **Closing seams does not change the essence.** The induction is on the length of the text and
takes a lexeme that counts as a whole; all other characters are struck out one by one. -/
theorem essence_closeSeams (t : Text) : essence (closeSeams t) = essence t := by
  induction h : t.length using Nat.strongRecOn generalizing t with
  | _ n ih =>
    subst h
    cases t with
    | nil => rfl
    | cons c t =>
      have hshorter (u : Text) (hu : u.length < t.length + 1) :
          essence (closeSeams u) = essence u := ih u.length hu u rfl
      by_cases hopen : c = '['
      · subst hopen
        exact essence_closeSeams_open hshorter
      · by_cases hless : c = '<'
        · subst hless
          exact essence_closeSeams_less hshorter
        · exact essence_closeSeams_other hshorter hopen hless

/-! ## 3. The essence of a normal form -/

theorem essence_normal (raw : Text) : essence (normal raw) = essence (collapse (withoutGlue raw)) :=
  essence_closeSeams _

theorem not_mem_collapse {c : Char} (hc : isBlank c = false) {t : Text} (h : c ∉ t) :
    c ∉ collapse (withoutGlue t) := by
  intro hmem
  rcases mem_or_eq_space_of_mem_collapse hmem with hmem | rfl
  · exact h (List.mem_filter.mp hmem).1
  · cases hc

theorem not_mem_normal {c : Char} (hc : isBlank c = false) {t : Text} (h : c ∉ t) :
    c ∉ normal t := fun hmem => not_mem_collapse hc h ((closeSeams_sublist _).mem hmem)

/-- Normalising a text without closing brackets takes two passes. -/
theorem normal_of_not_mem {t : Text} (h : ']' ∉ t) : normal t = collapse (withoutGlue t) :=
  closeSeams_of_not_mem (not_mem_collapse (by decide) h)

theorem essence_normal_cons {c : Char} (hopen : c ≠ '[') (hless : c ≠ '<') (t : Text) :
    essence (normal (c :: t)) = essence (normal t) := by
  rw [essence_normal, essence_normal]
  by_cases hglue : isGlue c = true
  · simp [withoutGlue, hglue]
  · rw [withoutGlue_cons_of_not (Bool.eq_false_iff.mpr hglue)]
    by_cases hblank : isBlank c = true
    · -- Of a blank there is at most a space left.
      rw [collapse, if_pos hblank]
      split
      · rfl
      · exact essence_cons (by decide) (by decide) _
    · rw [collapse_cons_of_not (Bool.eq_false_iff.mpr hblank), essence_cons hopen hless]

theorem essence_normal_append {s : Text} (h : ∀ c ∈ s, c ≠ '[' ∧ c ≠ '<') (t : Text) :
    essence (normal (s ++ t)) = essence (normal t) := by
  induction s with
  | nil => rfl
  | cons c s ih =>
    have hc := h c List.mem_cons_self
    rw [List.cons_append, essence_normal_cons hc.1 hc.2]
    exact ih fun d hd => h d (List.mem_cons_of_mem c hd)

theorem essence_normal_segment {s : Text} (h : ']' ∉ s) (t : Text) :
    essence (normal ('[' :: (s ++ ']' :: t))) = .segment (normal s) :: essence (normal t) := by
  have hopen : isGlue '[' = false ∧ isBlank '[' = false := by decide
  have hclose : isGlue ']' = false ∧ isBlank ']' = false := by decide
  rw [essence_normal, essence_normal, normal_of_not_mem h]
  rw [withoutGlue_cons_of_not hopen.1, withoutGlue_append, withoutGlue_cons_of_not hclose.1,
    collapse_cons_of_not hopen.2, collapse_append (by simpa using hclose.2),
    collapse_cons_of_not hclose.2]
  exact essence_segment (not_mem_collapse hclose.2 h) _

theorem not_isGlue_of_isAlpha {c : Char} (h : c.isAlpha = true) : isGlue c = false := by
  refine Bool.eq_false_iff.mpr fun hglue => ?_
  simp only [isGlue, Bool.or_eq_true, beq_iff_eq] at hglue
  rcases hglue with ((rfl | rfl) | rfl) | rfl <;> exact absurd h (by decide)

theorem not_isBlank_of_isAlpha {c : Char} (h : c.isAlpha = true) : isBlank c = false := by
  refine not_isBlank_of_isWordChar ?_
  rw [isWordChar, Char.isAlphanum, h]
  rfl

/-- What is neither glue nor blank goes through the first two passes as it is. -/
theorem collapse_withoutGlue_append {s : Text}
    (h : ∀ c ∈ s, isGlue c = false ∧ isBlank c = false) (t : Text) :
    collapse (withoutGlue (s ++ t)) = s ++ collapse (withoutGlue t) := by
  induction s with
  | nil => rfl
  | cons c s ih =>
    have hc := h c List.mem_cons_self
    rw [List.cons_append, withoutGlue_cons_of_not hc.1, collapse_cons_of_not hc.2,
      ih fun d hd => h d (List.mem_cons_of_mem c hd), List.cons_append]

theorem collapse_withoutGlue_marker {letters : Text} (halpha : ∀ c ∈ letters, c.isAlpha = true)
    (t : Text) :
    collapse (withoutGlue ('<' :: (letters ++ '>' :: t)))
      = '<' :: (letters ++ '>' :: collapse (withoutGlue t)) := by
  have hletters : ∀ c ∈ letters, isGlue c = false ∧ isBlank c = false := fun c hc =>
    ⟨not_isGlue_of_isAlpha (halpha c hc), not_isBlank_of_isAlpha (halpha c hc)⟩
  have hless : isGlue '<' = false ∧ isBlank '<' = false := by decide
  have hgreater : isGlue '>' = false ∧ isBlank '>' = false := by decide
  rw [withoutGlue_cons_of_not hless.1, collapse_cons_of_not hless.2,
    collapse_withoutGlue_append hletters, withoutGlue_cons_of_not hgreater.1,
    collapse_cons_of_not hgreater.2]

theorem essence_normal_marker {letters : Text} (hne : letters ≠ [])
    (halpha : ∀ c ∈ letters, c.isAlpha = true) (t : Text) :
    essence (normal ('<' :: (letters ++ '>' :: t))) = .flag letters :: essence (normal t) := by
  rw [essence_normal, essence_normal, collapse_withoutGlue_marker halpha]
  exact essence_marker hne halpha _

end MacroLint.Literal
