import MacroLint.Proofs.Literal.Brackets
import MacroLint.Proofs.Literal.Essence

/-!
# A call is read back as it was written

A literal may be written in many ways: text that means nothing around the segments, flag markers
anywhere in that text, quotes and line breaks anywhere at all. A `Layout` is a way to write a call,
and `ofNormal_source` says that the call read from it is the one that was written: its segments are
the normal forms of those put in, and its flags the letters put in.

The proof follows the layout, from its end to its beginning, and never looks at the lexemes of the
literal, only at their essence (`essence_normal_source`). That the brackets pair up is followed in
the literal as it is written, since normalising does not touch them (`bracketFault_normal`).
-/

set_option autoImplicit false

namespace MacroLint.Literal

open Text

/-! ## 1. Layouts -/

/-- The letters that stand for a flag, in either case. -/
def IsFlagLetter (c : Char) : Prop := c = 'A' ∨ c = 'a' ∨ c = 'T' ∨ c = 't'

/-- A piece of what stands around segments. -/
inductive Piece where
  /-- Text that means nothing. -/
  | stray (text : Text) (plain : ∀ c ∈ text, c ≠ '[' ∧ c ≠ ']' ∧ c ≠ '<')
  /-- A flag marker. -/
  | marker (letters : Text) (nonempty : letters ≠ []) (known : ∀ c ∈ letters, IsFlagLetter c)

/-- A segment and the gap after it. -/
structure Cell where
  text : Text
  gap : List Piece
  noBracket : '[' ∉ text ∧ ']' ∉ text

/-- A way to write a call: a gap, the name, and the parameters. The name has no marker in it. -/
structure Layout where
  lead : List Piece
  name : Cell
  params : List Cell
  unmarked : '<' ∉ name.text

def Piece.source : Piece → Text
  | stray text _ => text
  | marker letters _ _ => '<' :: (letters ++ ['>'])

def Piece.letters : Piece → Text
  | stray _ _ => []
  | marker letters _ _ => letters

def Cell.source (p : Cell) : Text := '[' :: (p.text ++ ']' :: p.gap.flatMap Piece.source)

namespace Layout

/-- All segments with the gaps after them. -/
def cells (w : Layout) : List Cell := w.name :: w.params

/-- The literal as it is written. -/
def source (w : Layout) : Text := w.lead.flatMap Piece.source ++ w.cells.flatMap Cell.source

/-- The letters of all markers in the order of writing. -/
def letters (w : Layout) : Text :=
  (w.lead ++ w.cells.flatMap Cell.gap).flatMap Piece.letters

end Layout

/-! ## 2. Flag letters -/

theorem IsFlagLetter.isAlpha {c : Char} (h : IsFlagLetter c) : c.isAlpha = true := by
  rcases h with rfl | rfl | rfl | rfl <;> rfl

theorem IsFlagLetter.ne_bracket {c : Char} (h : IsFlagLetter c) : c ≠ '[' ∧ c ≠ ']' := by
  rcases h with rfl | rfl | rfl | rfl <;> decide

theorem IsFlagLetter.map_letter {c : Char} (h : IsFlagLetter c) :
    (Flag.ofLetter? c).map Flag.letter = some c.toUpper := by
  rcases h with rfl | rfl | rfl | rfl <;> rfl

theorem letter_inj {f g : Flag} (h : f.letter = g.letter) : f = g := by
  cases f <;> cases g
  · rfl
  · exact absurd h (by decide)
  · exact absurd h (by decide)
  · rfl

/-- A flag is repeated where its letter is. -/
theorem map_letter_eraseDups (fs : List Flag) :
    fs.eraseDups.map Flag.letter = (fs.map Flag.letter).eraseDups := by
  -- Behind the first flag only the other ones are kept, so the induction is on the length.
  induction h : fs.length using Nat.strongRecOn generalizing fs with
  | _ n ih =>
    subst h
    cases fs with
    | nil => rfl
    | cons f fs =>
      have hsame : ((fun c => !c == f.letter) ∘ Flag.letter) = fun g => !g == f := by
        funext g
        rw [Function.comp_apply, Bool.eq_iff_iff, Bool.not_eq_true', Bool.not_eq_true',
          beq_eq_false_iff_ne, beq_eq_false_iff_ne]
        exact ⟨fun hne e => hne (congrArg Flag.letter e), fun hne e => hne (letter_inj e)⟩
      have hless : (fs.filter fun g => !g == f).length < (f :: fs).length :=
        Nat.lt_succ_of_le (List.length_filter_le _ fs)
      rw [List.eraseDups_cons, List.map_cons, List.map_cons, List.eraseDups_cons, List.filter_map,
        hsame, ih _ hless _ rfl]

theorem Piece.known_letters (p : Piece) : ∀ c ∈ p.letters, IsFlagLetter c := by
  cases p with
  | stray text plain => simp [Piece.letters]
  | marker letters nonempty known => exact known

theorem map_letter_filterMap {letters : Text}
    (h : ∀ c ∈ letters, (Flag.ofLetter? c).map Flag.letter = some c.toUpper) :
    (letters.filterMap Flag.ofLetter?).map Flag.letter = letters.map Char.toUpper := by
  induction letters with
  | nil => rfl
  | cons c letters ih =>
    obtain ⟨f, hf, hletter⟩ := Option.map_eq_some_iff.mp (h c List.mem_cons_self)
    rw [List.filterMap_cons_some hf, List.map_cons, List.map_cons, hletter,
      ih fun d hd => h d (List.mem_cons_of_mem c hd)]

theorem find?_isNone_of_known {letters : Text} (h : ∀ c ∈ letters, IsFlagLetter c) :
    letters.find? (fun c => (Flag.ofLetter? c).isNone) = none := by
  apply List.find?_eq_none.mpr
  intro c hc
  obtain ⟨f, hf, -⟩ := Option.map_eq_some_iff.mp (h c hc).map_letter
  simp [hf]

/-- Known letters are read as the flags that are written with them. -/
theorem ofLetters_known {letters : Text} (h : ∀ c ∈ letters, IsFlagLetter c) :
    ∃ flags, Flag.ofLetters letters = .ok flags ∧
      flags.map Flag.letter = (letters.map Char.toUpper).eraseDups := by
  have hknown : ∀ c ∈ letters, (Flag.ofLetter? c).map Flag.letter = some c.toUpper :=
    fun c hc => (h c hc).map_letter
  refine ⟨(letters.filterMap Flag.ofLetter?).eraseDups, ?_, ?_⟩
  · rw [Flag.ofLetters, find?_isNone_of_known h]
  · rw [map_letter_eraseDups, map_letter_filterMap hknown]

theorem mem_iff_letter_mem {f : Flag} {fs : List Flag} : f ∈ fs ↔ f.letter ∈ fs.map Flag.letter := by
  constructor
  · exact fun h => List.mem_map_of_mem h
  · intro h
    obtain ⟨g, hg, heq⟩ := List.mem_map.mp h
    rw [← letter_inj heq]
    exact hg

/-! ## 3. Brackets -/

theorem Piece.noBracket (p : Piece) : ∀ c ∈ p.source, c ≠ '[' ∧ c ≠ ']' := by
  cases p with
  | stray text plain => exact fun c hc => ⟨(plain c hc).1, (plain c hc).2.1⟩
  | marker letters nonempty known =>
    intro c hc
    rcases List.mem_cons.mp hc with rfl | hc
    · decide
    · rcases List.mem_append.mp hc with hc | hc
      · exact (known c hc).ne_bracket
      · rw [List.mem_singleton.mp hc]
        decide

theorem pairBrackets_gap (gap : List Piece) (opened : Nat) (t : Text) :
    pairBrackets opened (gap.flatMap Piece.source ++ t) = pairBrackets opened t := by
  refine pairBrackets_append (fun c hc => ?_) opened t
  obtain ⟨p, -, hc⟩ := List.mem_flatMap.mp hc
  exact p.noBracket c hc

theorem pairBrackets_cell (p : Cell) (opened : Nat) (t : Text) :
    pairBrackets opened (p.source ++ t) = pairBrackets opened t := by
  have htext : ∀ c ∈ p.text, c ≠ '[' ∧ c ≠ ']' := fun c hc =>
    ⟨fun e => p.noBracket.1 (e ▸ hc), fun e => p.noBracket.2 (e ▸ hc)⟩
  simp only [Cell.source, List.cons_append, List.append_assoc]
  rw [pairBrackets_open, pairBrackets_append htext, pairBrackets_close]
  exact pairBrackets_gap p.gap opened t

theorem bracketFault_source (w : Layout) : bracketFault w.source = none := by
  have hcells (ps : List Cell) : pairBrackets 0 (ps.flatMap Cell.source) = none := by
    induction ps with
    | nil => rfl
    | cons p ps ih => rw [List.flatMap_cons, pairBrackets_cell, ih]
  have hany : w.source.any isBracket = true := by
    refine List.any_eq_true.mpr ⟨'[', ?_, rfl⟩
    simp [Layout.source, Layout.cells, Cell.source]
  show (if w.source.any isBracket then _ else _) = _
  rw [if_pos hany, Layout.source, pairBrackets_gap, hcells]

/-! ## 4. Segments and markers -/

/-- What counts in a piece. -/
def Piece.essence : Piece → List Lexeme
  | stray _ _ => []
  | marker letters _ _ => [.flag letters]

def Cell.essence (p : Cell) : List Lexeme :=
  .segment (normal p.text) :: p.gap.flatMap Piece.essence

def Layout.essence (w : Layout) : List Lexeme :=
  w.lead.flatMap Piece.essence ++ w.cells.flatMap Cell.essence

theorem essence_normal_gap (gap : List Piece) (t : Text) :
    essence (normal (gap.flatMap Piece.source ++ t))
      = gap.flatMap Piece.essence ++ essence (normal t) := by
  induction gap with
  | nil => rfl
  | cons p gap ih =>
    rw [List.flatMap_cons, List.append_assoc, List.flatMap_cons, List.append_assoc, ← ih]
    cases p with
    | stray text plain =>
      -- Stray text may join the text around it, and all of it is struck out.
      exact essence_normal_append (fun c hc => ⟨(plain c hc).1, (plain c hc).2.2⟩) _
    | marker letters nonempty known =>
      have h := essence_normal_marker nonempty (fun c hc => (known c hc).isAlpha)
        (gap.flatMap Piece.source ++ t)
      simpa [Piece.source, Piece.essence] using h

theorem essence_normal_cells (ps : List Cell) :
    essence (normal (ps.flatMap Cell.source)) = ps.flatMap Cell.essence := by
  induction ps with
  | nil => exact essence_nil
  | cons p ps ih =>
    have hsource : p.source ++ ps.flatMap Cell.source
        = '[' :: (p.text ++ ']' :: (p.gap.flatMap Piece.source ++ ps.flatMap Cell.source)) := by
      simp [Cell.source]
    rw [List.flatMap_cons, hsource, essence_normal_segment p.noBracket.2, essence_normal_gap, ih]
    rfl

/-- **What counts in a literal is what its layout put there**, and nothing leaks from a segment
into a gap or the other way. -/
theorem essence_normal_source (w : Layout) : essence (normal w.source) = w.essence := by
  rw [Layout.source, essence_normal_gap, essence_normal_cells]
  rfl

theorem segments_gap (gap : List Piece) : Lexeme.segments (gap.flatMap Piece.essence) = [] := by
  refine List.filterMap_eq_nil_iff.mpr fun l hl => ?_
  obtain ⟨p, -, hl⟩ := List.mem_flatMap.mp hl
  cases p with
  | stray text plain => cases hl
  | marker letters nonempty known =>
    rw [List.mem_singleton.mp hl]

theorem segments_append (ls ms : List Lexeme) :
    Lexeme.segments (ls ++ ms) = Lexeme.segments ls ++ Lexeme.segments ms :=
  List.filterMap_append ..

theorem segments_cells (ps : List Cell) :
    Lexeme.segments (ps.flatMap Cell.essence) = ps.map fun p => normal p.text := by
  induction ps with
  | nil => rfl
  | cons p ps ih =>
    rw [List.flatMap_cons, segments_append, ih]
    have hcell : Lexeme.segments p.essence = [normal p.text] :=
      congrArg (normal p.text :: ·) (segments_gap p.gap)
    rw [hcell]
    rfl

theorem markerLetters_append (ls ms : List Lexeme) :
    Lexeme.markerLetters (ls ++ ms) = Lexeme.markerLetters ls ++ Lexeme.markerLetters ms :=
  List.flatMap_append ..

theorem markerLetters_gap (gap : List Piece) :
    Lexeme.markerLetters (gap.flatMap Piece.essence) = gap.flatMap Piece.letters := by
  induction gap with
  | nil => rfl
  | cons p gap ih =>
    rw [List.flatMap_cons, markerLetters_append, ih, List.flatMap_cons]
    cases p with
    | stray text plain => rfl
    | marker letters nonempty known =>
      have hone : Lexeme.markerLetters [.flag letters] = letters := by
        simp [Lexeme.markerLetters]
      exact congrArg (· ++ _) hone

theorem markerLetters_cells (ps : List Cell) :
    Lexeme.markerLetters (ps.flatMap Cell.essence)
      = (ps.flatMap Cell.gap).flatMap Piece.letters := by
  induction ps with
  | nil => rfl
  | cons p ps ih =>
    rw [List.flatMap_cons, markerLetters_append, ih, List.flatMap_cons, List.flatMap_append]
    exact congrArg (· ++ _) (markerLetters_gap p.gap)

/-- Up to the first segment, the letters of markers are all there is. -/
theorem flagLetters_gap_append (gap : List Piece) (ls : List Lexeme) :
    Lexeme.flagLetters (gap.flatMap Piece.essence ++ ls)
      = gap.flatMap Piece.letters ++ Lexeme.flagLetters ls := by
  induction gap with
  | nil => rfl
  | cons p gap ih =>
    cases p with
    | stray text plain => exact ih
    | marker letters nonempty known =>
      rw [List.flatMap_cons, List.flatMap_cons, List.append_assoc, List.append_assoc]
      exact congrArg (letters ++ ·) ih

/-! ## 5. The name -/

/-- A name without `<` has no marker to take out. -/
theorem inlineMarker?_eq_none {t : Text} (h : '<' ∉ t) : inlineMarker? (normal t) = none := by
  have hnormal : '<' ∉ normal t := not_mem_normal (by decide) h
  rw [inlineMarker?, cut_eq_none_iff.mpr fun hmem => hnormal (mem_of_mem_trim hmem)]

theorem lettersOfSegment_eq_nil {t : Text} (h : '<' ∉ t) : lettersOfSegment (normal t) = [] := by
  rw [lettersOfSegment, inlineMarker?_eq_none h]

theorem nameOfSegment_eq_self {t : Text} (h : '<' ∉ t) : nameOfSegment (normal t) = normal t := by
  rw [nameOfSegment, inlineMarker?_eq_none h]

theorem flagLetters_essence (w : Layout) : Lexeme.flagLetters w.essence = w.letters := by
  rw [Layout.essence, flagLetters_gap_append]
  have hname : Lexeme.flagLetters (w.cells.flatMap Cell.essence)
      = Lexeme.markerLetters (w.cells.flatMap Cell.essence) := by
    -- The name is the first segment, the only one that is searched for a marker.
    show lettersOfSegment (normal w.name.text) ++ _ = _
    rw [lettersOfSegment_eq_nil w.unmarked]
    rfl
  rw [hname, markerLetters_cells, Layout.letters, List.flatMap_append]

/-! ## 6. Reading a layout -/

/-- **What is read from a literal is what was written.** The brackets of a layout pair up, and the
call read from its normal form has the segments of the layout, normalised one by one, and the
letters of its markers, each at its first place. -/
theorem ofNormal_source (w : Layout) :
    bracketFault (normal w.source) = none ∧
    ∃ call, Call.ofNormal w.source (normal w.source) = .ok call ∧
      call.raw = w.source ∧ call.normalized = normal w.source ∧
      call.segments = w.cells.map (fun p => normal p.text) ∧
      call.flags.map Flag.letter = (w.letters.map Char.toUpper).eraseDups ∧
      (call.hasAlias = true ↔ 'A' ∈ w.letters.map Char.toUpper) := by
  have hsegments : Lexeme.segments (lexemes (normal w.source))
      = normal w.name.text :: w.params.map fun p => normal p.text := by
    rw [← segments_filter]
    show Lexeme.segments (essence (normal w.source)) = _
    rw [essence_normal_source, Layout.essence, segments_append, segments_gap, segments_cells]
    rfl
  have hletters : Lexeme.flagLetters (lexemes (normal w.source)) = w.letters := by
    rw [← flagLetters_filter, ← flagLetters_essence, ← essence_normal_source]
    rfl
  have hknown : ∀ c ∈ w.letters, IsFlagLetter c := by
    intro c hc
    obtain ⟨p, -, hp⟩ := List.mem_flatMap.mp hc
    exact p.known_letters c hp
  obtain ⟨flags, hflags, hmap⟩ := ofLetters_known hknown
  refine ⟨?_, ⟨w.source, normal w.source, flags,
    normal w.name.text :: w.params.map fun p => normal p.text, flags.contains .aliases⟩,
    ?_, rfl, rfl, rfl, hmap, ?_⟩
  · rw [bracketFault_normal, bracketFault_source]
  · simp only [Call.ofNormal, hletters, hflags, hsegments, nameOfSegment_eq_self w.unmarked]
  · rw [List.contains_iff_mem, mem_iff_letter_mem, hmap, List.mem_eraseDups]
    rfl

/-- Letters are repeated, some in the other case, in front of the name, behind it and behind a
parameter. The name goes on over two lines of source code, and the last segment is empty. -/
theorem ofNormal_source_of_repeated_flags :
    let total := Piece.marker ['t'] (by simp) (by simp [IsFlagLetter])
    let both := Piece.marker ['a', 'T'] (by simp) (by simp [IsFlagLetter])
    let w : Layout := ⟨[.stray "x> ".toList (by simp), total],
      ⟨"ex\" +\n\"ists".toList, [both, .stray ['y'] (by simp)], by simp⟩,
      [⟨"a\t b".toList, [both], by simp⟩, ⟨[], [], by simp⟩], by simp⟩
    w.source = "x> <t>[ex\" +\n\"ists]<aT>y[a\t b]<aT>[]".toList ∧
      bracketFault (normal w.source) = none ∧
      ∃ call, Call.ofNormal w.source (normal w.source) = .ok call ∧
        call.segments = ["ex ists".toList, "a b".toList, []] ∧
        call.flags.map Flag.letter = ['T', 'A'] ∧ call.hasAlias = true := by
  intro total both w
  obtain ⟨hbrackets, call, hcall, -, -, hsegments, hflags, halias⟩ := ofNormal_source w
  have hletters : w.letters = ['t', 'a', 'T', 'a', 'T'] := rfl
  have htexts : w.cells.map (fun p => normal p.text) = ["ex ists".toList, "a b".toList, []] := by
    decide +kernel
  rw [htexts] at hsegments
  rw [hletters] at hflags halias
  refine ⟨rfl, hbrackets, call, hcall, hsegments, ?_, halias.mpr ?_⟩
  · rw [hflags]
    rfl
  · simp

end MacroLint.Literal
