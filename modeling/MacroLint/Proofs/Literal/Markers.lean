import MacroLint.Proofs.Literal.Reading
import MacroLint.Proofs.Literal.RoundTrip
import MacroLint.Proofs.Text.Trim

/-!
# Where a flag marker may stand

The marker of a flag is written in front of the name, behind it, or at its end inside the brackets.
Two readers find it: outside of brackets a marker is a lexeme, and inside the first segment it is
cut off the trimmed text (`inlineMarker?`). For a name without `<` they find the same letters, and
leave the same name behind once it is trimmed (`Placement.flagLetters`, `Placement.nameAndParams`).

Normalising could keep them apart, since it treats what stands beside brackets specially. It does
not: a marker is made of characters that no pass touches, so it goes through the normal form as a
whole (`normal_marked`, `normal_append_marked`). From there on the essence of the literal tells what
is read.
-/

set_option autoImplicit false

namespace MacroLint.Literal

open Text

/-- What is read of the segments: the trimmed name, and the parameters as they are. -/
def Lexeme.nameAndParams (ls : List Lexeme) : List Text :=
  (segments ls).modifyHead fun first => trim (nameOfSegment first)

theorem flagLetters_essence_eq (t : Text) :
    Lexeme.flagLetters (essence t) = Lexeme.flagLetters (lexemes t) := flagLetters_filter _

theorem nameAndParams_essence_eq (t : Text) :
    Lexeme.nameAndParams (essence t) = Lexeme.nameAndParams (lexemes t) := by
  unfold Lexeme.nameAndParams
  rw [essence, segments_filter]

/-! ## 1. A marker in a text -/

/-- The text with a flag marker in front of it. -/
def marked (letters rest : Text) : Text := '<' :: (letters ++ '>' :: rest)

theorem marked_append (letters s t : Text) : marked letters s ++ t = marked letters (s ++ t) := by
  simp only [marked, List.cons_append, List.append_assoc]

section Marker

variable {letters : Text} (halpha : ∀ c ∈ letters, c.isAlpha = true)

theorem trim_append_marked (s : Text) :
    trim (s ++ marked letters []) = trimStart s ++ marked letters [] := by
  have hend : trimStart s ++ marked letters [] = (trimStart s ++ '<' :: letters) ++ ['>'] := by
    rw [marked, List.append_assoc]
    rfl
  rw [trim, marked, trimStart_append_cons (by decide), ← marked, hend]
  exact trimEnd_concat_of_not (by decide) _

include halpha

theorem normal_marked (raw : Text) : normal (marked letters raw) = marked letters (normal raw) := by
  unfold normal marked
  rw [collapse_withoutGlue_marker halpha, closeSeams_cons_of_ne (by decide),
    closeSeams_marker halpha]

theorem filter_marked (rest : Text) :
    (marked letters rest).filter isBracket = rest.filter isBracket := by
  have hletters : letters.filter isBracket = [] := by
    apply filter_isBracket_eq_nil
    intro c hc
    constructor
    · intro hopen
      cases hopen ▸ halpha c hc
    · intro hclose
      cases hclose ▸ halpha c hc
  show (letters ++ '>' :: rest).filter isBracket = _
  rw [List.filter_append, hletters]
  rfl

theorem not_mem_append_marked {name : Text} (hname : ']' ∉ name) :
    ']' ∉ name ++ marked letters [] := by
  intro hmem
  rcases List.mem_append.mp hmem with hmem | hmem
  · exact hname hmem
  · rcases List.mem_cons.mp hmem with hless | hmem
    · cases hless
    · exact not_mem_of_isAlpha halpha hmem

theorem normal_append_marked {name : Text} (hname : ']' ∉ name) :
    normal (name ++ marked letters []) = normal name ++ marked letters [] := by
  have hmarker : collapse (withoutGlue (marked letters [])) = marked letters [] :=
    collapse_withoutGlue_marker halpha []
  -- The marker starts with a character that is no blank, so the run before it ends there.
  have hhead : (withoutGlue (marked letters [])).head?.any isBlank = false := by
    rw [marked, withoutGlue_cons_of_not (by decide)]
    rfl
  rw [normal_of_not_mem (not_mem_append_marked halpha hname), normal_of_not_mem hname,
    withoutGlue_append, collapse_append hhead, hmarker]

/-- The marker at the end of a name is found, and what stands before it is the name. -/
theorem inlineMarker?_append_marked (hne : letters ≠ []) {s : Text} (hless : '<' ∉ s) :
    inlineMarker? (s ++ marked letters []) = some (letters, trim s) := by
  have hstart : '<' ∉ trimStart s := fun hmem => hless ((List.dropWhile_sublist _).mem hmem)
  have hcut : cut '<' (trimStart s ++ marked letters []) = some (trimStart s, letters ++ ['>']) :=
    cut_eq_some_iff.mpr ⟨rfl, hstart⟩
  have hmarker : Lexeme.marker? (letters ++ ['>']) = some (letters, []) :=
    marker?_eq_some_iff.mpr ⟨hne, halpha, rfl⟩
  unfold inlineMarker?
  rw [trim_append_marked, hcut]
  simp only [hmarker]
  rfl

end Marker

/-! ## 2. The three places -/

/-- Where the marker stands: at the end of the name, behind its bracket, or in front. -/
inductive Placement where
  | inName
  | behindName
  | inFront
  deriving DecidableEq, Repr

namespace Placement

/-- The literal with a marker in that place. -/
def source (place : Placement) (name letters rest : Text) : Text :=
  match place with
  | inName => '[' :: (name ++ marked letters (']' :: rest))
  | behindName => '[' :: (name ++ ']' :: marked letters rest)
  | inFront => marked letters ('[' :: (name ++ ']' :: rest))

/-- What counts in it, where `rest` is what counts behind it. -/
def essence (place : Placement) (name letters : Text) (rest : List Lexeme) : List Lexeme :=
  match place with
  | inName => .segment (name ++ marked letters []) :: rest
  | behindName => .segment name :: .flag letters :: rest
  | inFront => .flag letters :: .segment name :: rest

variable (place : Placement) {name letters : Text}
  (hname : ∀ c ∈ name, c ≠ '[' ∧ c ≠ ']' ∧ c ≠ '<') (hne : letters ≠ [])
  (halpha : ∀ c ∈ letters, c.isAlpha = true)

include hname halpha in
theorem filter_source (rest : Text) :
    (place.source name letters rest).filter isBracket = '[' :: ']' :: rest.filter isBracket := by
  have hopen (t : Text) : ('[' :: t).filter isBracket = '[' :: t.filter isBracket := rfl
  have hclose (t : Text) : (']' :: t).filter isBracket = ']' :: t.filter isBracket := rfl
  have hnone (t : Text) : (name ++ t).filter isBracket = t.filter isBracket := by
    rw [List.filter_append, filter_isBracket_eq_nil fun c hc => ⟨(hname c hc).1, (hname c hc).2.1⟩]
    rfl
  cases place with
  | inName => rw [source, hopen, hnone, filter_marked halpha, hclose]
  | behindName => rw [source, hopen, hnone, hclose, filter_marked halpha]
  | inFront => rw [source, filter_marked halpha, hopen, hnone, hclose]

include hname hne halpha in
theorem essence_normal_source (rest : Text) :
    Literal.essence (normal (place.source name letters rest))
      = place.essence (normal name) letters (Literal.essence (normal rest)) := by
  have hclose : ']' ∉ name := fun hmem => (hname _ hmem).2.1 rfl
  cases place with
  | inName =>
    have hsource : source inName name letters rest
        = '[' :: ((name ++ marked letters []) ++ ']' :: rest) := by
      rw [source, List.append_assoc, marked_append]
      rfl
    rw [hsource, essence_normal_segment (not_mem_append_marked halpha hclose),
      normal_append_marked halpha hclose]
    rfl
  | behindName =>
    rw [source, essence_normal_segment hclose]
    exact congrArg _ (essence_normal_marker hne halpha rest)
  | inFront =>
    rw [source, marked, essence_normal_marker hne halpha, essence_normal_segment hclose]
    rfl

include hname hne halpha in
/-- The letters of the marker come first, wherever it stands. -/
theorem flagLetters (rest : Text) :
    Lexeme.flagLetters (lexemes (normal (place.source name letters rest)))
      = letters ++ Lexeme.markerLetters (lexemes (normal rest)) := by
  have hless : '<' ∉ name := fun hmem => (hname _ hmem).2.2 rfl
  rw [← flagLetters_essence_eq, place.essence_normal_source hname hne halpha,
    ← markerLetters_filter (lexemes (normal rest))]
  cases place with
  | inName =>
    show lettersOfSegment (normal name ++ marked letters []) ++ _ = _
    rw [lettersOfSegment, inlineMarker?_append_marked halpha hne (not_mem_normal (by decide) hless)]
    rfl
  | behindName =>
    show lettersOfSegment (normal name) ++ (letters ++ _) = _
    rw [lettersOfSegment_eq_nil hless]
    rfl
  | inFront =>
    show letters ++ (lettersOfSegment (normal name) ++ _) = _
    rw [lettersOfSegment_eq_nil hless]
    rfl

include hname hne halpha in
/-- The name is the same once it is trimmed, and so are the parameters. -/
theorem nameAndParams (rest : Text) :
    Lexeme.nameAndParams (lexemes (normal (place.source name letters rest)))
      = trim (normal name) :: Lexeme.segments (lexemes (normal rest)) := by
  have hless : '<' ∉ name := fun hmem => (hname _ hmem).2.2 rfl
  rw [← nameAndParams_essence_eq, place.essence_normal_source hname hne halpha,
    ← segments_filter (lexemes (normal rest))]
  cases place with
  | inName =>
    show trim (nameOfSegment (normal name ++ marked letters [])) :: _ = _
    rw [nameOfSegment, inlineMarker?_append_marked halpha hne (not_mem_normal (by decide) hless)]
    simp only [trim_trim]
    rfl
  | behindName | inFront =>
    show trim (nameOfSegment (normal name)) :: _ = _
    rw [nameOfSegment_eq_self hless]
    rfl

end Placement

/-! ## 3. A marker in front of any literal -/

section InFront

variable {letters : Text} (hne : letters ≠ []) (halpha : ∀ c ∈ letters, c.isAlpha = true)
include hne halpha

theorem flagLetters_marked (raw : Text) :
    Lexeme.flagLetters (lexemes (normal (marked letters raw)))
      = letters ++ Lexeme.flagLetters (lexemes (normal raw)) := by
  rw [← flagLetters_essence_eq, ← flagLetters_essence_eq, marked,
    essence_normal_marker hne halpha]
  rfl

theorem nameAndParams_marked (raw : Text) :
    Lexeme.nameAndParams (lexemes (normal (marked letters raw)))
      = Lexeme.nameAndParams (lexemes (normal raw)) := by
  rw [← nameAndParams_essence_eq, ← nameAndParams_essence_eq, marked,
    essence_normal_marker hne halpha]
  rfl

end InFront

/-- Letters that stand for flags do not change which letter is refused. -/
theorem ofLetters_append_eq_error_iff {known letters : Text} {letter : Char}
    (hknown : ∀ c ∈ known, IsFlagLetter c) :
    Flag.ofLetters (known ++ letters) = .error letter ↔ Flag.ofLetters letters = .error letter := by
  rw [ofLetters_eq_error_iff, ofLetters_eq_error_iff, List.find?_append,
    find?_isNone_of_known hknown, Option.none_or]

end MacroLint.Literal
