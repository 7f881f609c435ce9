import Mathlib.Data.List.TakeWhile
import MacroLint.CommandLine
import MacroLint.Proofs.Text.Trim

/-!
# Arguments and lines

The same literals may come as arguments or as the lines of the input. `Page` is an input as it is
written: lines with their endings, and what stands behind the last ending. It says what lines are
without reading them, and the two lemmas that carry this file, one for each ending, say that the
reader finds them again. Lines that are blank, and how a line ends, leave no trace in the literals
(`literalsOfInput_source`), so the report is that on the arguments.
-/

set_option autoImplicit false

namespace MacroLint

/-! ## 1. Lines -/

namespace Text

theorem lines_lineFeed (rest : Text) : lines ('\n' :: rest) = [] :: lines rest := by rw [lines]

theorem lines_cons {c : Char} {cs line : Text} {rest : List Text} (hfeed : c ≠ '\n')
    (hreturn : c = '\r' → cs.head? ≠ some '\n') (h : lines cs = line :: rest) :
    lines (c :: cs) = (c :: line) :: rest := by
  rw [lines, h]
  · exact hfeed
  · rintro cs' rfl rfl
    exact hreturn rfl rfl

/-- A line feed ends a line that does not end in a carriage return. -/
theorem lines_append_lineFeed {t : Text} (hfeed : '\n' ∉ t) (hreturn : t.getLast? ≠ some '\r')
    (rest : Text) : lines (t ++ '\n' :: rest) = t :: lines rest := by
  induction t with
  | nil => exact lines_lineFeed rest
  | cons c t ih =>
    have hc : c ≠ '\n' := fun h => hfeed (h ▸ List.mem_cons_self)
    have ht : '\n' ∉ t := List.not_mem_of_not_mem_cons hfeed
    cases t with
    | nil =>
      have hc' : c ≠ '\r' := fun h => hreturn (h ▸ rfl)
      exact lines_cons hc (fun h => absurd h hc') (lines_lineFeed rest)
    | cons d t =>
      refine lines_cons hc (fun _ => ?_) (ih ht (by simpa using hreturn))
      simpa using Ne.symm (List.ne_of_not_mem_cons ht)

/-- A carriage return and a line feed end any line. -/
theorem lines_append_return {t : Text} (hfeed : '\n' ∉ t) (rest : Text) :
    lines (t ++ '\r' :: '\n' :: rest) = t :: lines rest := by
  induction t with
  | nil => rw [List.nil_append, lines]
  | cons c t ih =>
    have hc : c ≠ '\n' := fun h => hfeed (h ▸ List.mem_cons_self)
    have ht : '\n' ∉ t := List.not_mem_of_not_mem_cons hfeed
    refine lines_cons hc (fun _ => ?_) (ih ht)
    cases t with
    | nil => simp
    | cons d t => simpa using Ne.symm (List.ne_of_not_mem_cons ht)

theorem lines_of_not_mem {t : Text} (hne : t ≠ []) (hfeed : '\n' ∉ t) : lines t = [t] := by
  induction t with
  | nil => exact absurd rfl hne
  | cons c t ih =>
    have hc : c ≠ '\n' := fun h => hfeed (h ▸ List.mem_cons_self)
    have ht : '\n' ∉ t := List.not_mem_of_not_mem_cons hfeed
    cases t with
    | nil =>
      rw [lines, lines]
      · exact hc
      · rintro cs' - h
        cases h
    | cons d t =>
      refine lines_cons hc (fun _ => ?_) (ih (List.cons_ne_nil d t) ht)
      simpa using Ne.symm (List.ne_of_not_mem_cons ht)

theorem isEmpty_trim (t : Text) : (trim t).isEmpty = t.all isBlank := by
  rw [Bool.eq_iff_iff, List.isEmpty_iff, List.all_eq_true]
  constructor
  · intro hempty c hc
    rcases mem_trim_or_isBlank hc with hmem | hblank
    · rw [hempty] at hmem
      cases hmem
    · exact hblank
  · intro hall
    have hstart : trimStart t = [] := List.dropWhile_eq_nil_iff.mpr hall
    rw [trim, hstart]
    rfl

end Text

/-! ## 2. Pages -/

namespace CommandLine

open Text

/-- How a line ends. -/
inductive LineEnd where
  | lineFeed
  | returnLineFeed
  deriving DecidableEq, Repr

/-- The characters that end a line. -/
def LineEnd.text : LineEnd → Text
  | lineFeed => ['\n']
  | returnLineFeed => ['\r', '\n']

/-- An input as it is written: lines with their endings, and the text behind the last ending, which
is a line too if there is anything in it. -/
structure Page where
  lines : List (Text × LineEnd)
  rest : Text
  deriving DecidableEq, Repr

namespace Page

/-- The characters of a page. -/
def source (p : Page) : Text := (p.lines.flatMap fun line => line.1 ++ line.2.text) ++ p.rest

/-- The lines of a page without their endings. -/
def texts (p : Page) : List Text := p.lines.map Prod.fst ++ [p.rest]

/-- A page lists some literals if these are its lines, blank ones left out. -/
structure Lists (p : Page) (literals : List Text) : Prop where
  lineFeed_not_mem : ∀ t ∈ p.texts, '\n' ∉ t
  filter_texts : (p.texts.filter fun t => !t.all isBlank) = literals

instance (p : Page) (literals : List Text) : Decidable (p.Lists literals) :=
  decidable_of_iff ((∀ t ∈ p.texts, '\n' ∉ t) ∧ (p.texts.filter fun t => !t.all isBlank) = literals)
    ⟨fun ⟨hfeed, hfilter⟩ => ⟨hfeed, hfilter⟩, fun h => ⟨h.lineFeed_not_mem, h.filter_texts⟩⟩

end Page

/-- A literal that fits on a line: it is not blank, it holds no line feed, and it does not end in a
carriage return, which would be taken for a part of the ending. -/
structure FitsLine (literal : Text) : Prop where
  not_blank : literal.all isBlank = false
  lineFeed_not_mem : '\n' ∉ literal
  getLast?_ne : literal.getLast? ≠ some '\r'

instance (literal : Text) : Decidable (FitsLine literal) :=
  decidable_of_iff
    (literal.all isBlank = false ∧ '\n' ∉ literal ∧ literal.getLast? ≠ some '\r')
    ⟨fun ⟨hblank, hfeed, hlast⟩ => ⟨hblank, hfeed, hlast⟩,
      fun h => ⟨h.not_blank, h.lineFeed_not_mem, h.getLast?_ne⟩⟩

/-- A line is read as it is written, except that a blank one may lose a carriage return. -/
theorem exists_lines_append {t : Text} (hfeed : '\n' ∉ t)
    (hlast : t.all isBlank = false → t.getLast? ≠ some '\r') (e : LineEnd) (rest : Text) :
    ∃ line, lines (t ++ e.text ++ rest) = line :: lines rest ∧
      (line = t ∨ line.all isBlank = true ∧ t.all isBlank = true) := by
  rw [List.append_assoc]
  cases e with
  | returnLineFeed => exact ⟨t, lines_append_return hfeed rest, Or.inl rfl⟩
  | lineFeed =>
    by_cases hreturn : t.getLast? = some '\r'
    · obtain ⟨line, rfl⟩ := List.getLast?_eq_some_iff.mp hreturn
      have hblank : (line ++ ['\r']).all isBlank = true :=
        Bool.not_eq_false _ ▸ fun hne => hlast hne hreturn
      have hline : '\n' ∉ line := fun h => hfeed (List.mem_append_left _ h)
      refine ⟨line, ?_, Or.inr ⟨?_, hblank⟩⟩
      · rw [List.append_assoc]
        exact lines_append_return hline rest
      · rw [List.all_append, Bool.and_eq_true] at hblank
        exact hblank.1
    · exact ⟨t, lines_append_lineFeed hfeed hreturn rest, Or.inl rfl⟩

/-- The lines of a page that are not blank are read as they are written. -/
theorem filter_lines_source {p : Page} (hfeed : ∀ t ∈ p.texts, '\n' ∉ t)
    (hlast : ∀ t ∈ p.texts, t.all isBlank = false → t.getLast? ≠ some '\r') :
    ((lines p.source).filter fun t => !t.all isBlank)
      = p.texts.filter fun t => !t.all isBlank := by
  obtain ⟨written, rest⟩ := p
  induction written with
  | nil =>
    have hsource : Page.source ⟨[], rest⟩ = rest := rfl
    have htexts : Page.texts ⟨[], rest⟩ = [rest] := rfl
    rw [hsource, htexts]
    cases rest with
    | nil => rfl
    | cons c rest =>
      rw [lines_of_not_mem (List.cons_ne_nil c rest) (hfeed _ List.mem_cons_self)]
  | cons line written ih =>
    obtain ⟨t, e⟩ := line
    have hsource : Page.source ⟨(t, e) :: written, rest⟩
        = t ++ e.text ++ Page.source ⟨written, rest⟩ := by
      simp only [Page.source, List.flatMap_cons, List.append_assoc]
    have htexts : Page.texts ⟨(t, e) :: written, rest⟩ = t :: Page.texts ⟨written, rest⟩ := rfl
    rw [htexts] at hfeed hlast ⊢
    have ih := ih (fun s hs => hfeed s (List.mem_cons_of_mem t hs))
      fun s hs => hlast s (List.mem_cons_of_mem t hs)
    obtain ⟨read, hlines, hread⟩ := exists_lines_append (hfeed t List.mem_cons_self)
      (hlast t List.mem_cons_self) e (Page.source ⟨written, rest⟩)
    rw [hsource, hlines, List.filter_cons, List.filter_cons, ih]
    rcases hread with rfl | ⟨hblank, hblank'⟩
    · rfl
    · rw [hblank, hblank']
      rfl

theorem fromUTF8?_utf8Encode (t : Text) :
    String.fromUTF8? t.utf8Encode = some (String.ofList t) := by
  have hvalid : t.utf8Encode.IsValidUTF8 := ⟨t, rfl⟩
  rw [String.fromUTF8?, dif_pos hvalid]
  rfl

/-- The literals that a page lists are those that are read from it. -/
theorem literalsOfInput_source {p : Page} {literals : List Text} (hpage : p.Lists literals)
    (hfits : ∀ t ∈ literals, FitsLine t) :
    literalsOfInput p.source.utf8Encode = .ok literals := by
  have hlast : ∀ t ∈ p.texts, t.all isBlank = false → t.getLast? ≠ some '\r' := by
    intro t ht hblank
    refine (hfits t ?_).getLast?_ne
    rw [← hpage.filter_texts, List.mem_filter]
    exact ⟨ht, by rw [hblank]; rfl⟩
  simp only [literalsOfInput, fromUTF8?_utf8Encode, String.toList_ofList, isEmpty_trim]
  rw [filter_lines_source hpage.lineFeed_not_mem hlast, hpage.filter_texts]

/-! ## 3. Reports -/

theorem output_reportOn (oracle : Oracle) (literals : List Text) :
    (reportOn oracle literals).output
      = literals.flatMap fun t => record t (validate oracle t).diagnostic := by
  simp only [reportOn, List.flatMap_map]

theorem exit_reportOn (oracle : Oracle) (literals : List Text) :
    (reportOn oracle literals).exit
      = if ∀ t ∈ literals, (validate oracle t).diagnostic = none then 0 else 1 := by
  simp only [reportOn, List.all_map, List.all_eq_true, Function.comp_apply,
    Option.isNone_iff_eq_none]

end CommandLine
end MacroLint
