import MacroLint.Fault
import MacroLint.Proofs.Literal.Markers
import MacroLint.Proofs.Literal.Segments

/-!
# Which letters are flags

The letters of a literal are spread over its markers: those that stand free between the segments,
and one that may end the first segment. `Heads` says which letters they are, in the order in which
they are written, and which name they leave behind. Every row of tokens with a segment in it is
headed by a name and letters (`exists_heads`), and these are the ones that are read (`Heads.eq`).

There is more than one way to go about it. A call is read in two looks, one at all letters and one
at all segments. Whoever goes through the tokens once, keeps the flags met so far and gives up at
the first letter that stands for none, comes to the same (`ofNormal_eq_gathered`).
-/

set_option autoImplicit false

namespace MacroLint.Literal

open Text

/-! ## 1. The marker in the first segment -/

/-- The trimmed segment ends in a flag marker, and `text` is what stands in front of it. -/
structure EndsInMarker (segment text letters : Text) : Prop where
  written : trim segment = text ++ marked letters []
  notLess : '<' ∉ text
  ne_nil : letters ≠ []
  isAlpha : ∀ c ∈ letters, c.isAlpha = true

theorem inlineMarker?_eq_some_iff {segment letters name : Text} :
    inlineMarker? segment = some (letters, name) ↔
      ∃ text, EndsInMarker segment text letters ∧ name = trimEnd text := by
  constructor
  · intro h
    unfold inlineMarker? at h
    split at h
    · cases h
    · rename_i text rest hcut
      obtain ⟨hwritten, hless⟩ := cut_eq_some_iff.mp hcut
      split at h
      · rename_i found hmarker
        cases h
        obtain ⟨hne, halpha, rfl⟩ := marker?_eq_some_iff.mp hmarker
        exact ⟨text, ⟨hwritten, hless, hne, halpha⟩, rfl⟩
      · cases h
  · intro h
    obtain ⟨text, hmarker, rfl⟩ := h
    have hcut : cut '<' (trim segment) = some (text, letters ++ ['>']) :=
      cut_eq_some_iff.mpr ⟨hmarker.written, hmarker.notLess⟩
    have hletters : Lexeme.marker? (letters ++ ['>']) = some (letters, []) :=
      marker?_eq_some_iff.mpr ⟨hmarker.ne_nil, hmarker.isAlpha, rfl⟩
    simp [inlineMarker?, hcut, hletters]

theorem inlineMarker?_eq_none_iff {segment : Text} :
    inlineMarker? segment = none ↔ ∀ text letters, ¬EndsInMarker segment text letters := by
  constructor
  · intro h text letters hmarker
    have hsome := inlineMarker?_eq_some_iff.mpr ⟨text, hmarker, rfl⟩
    rw [h] at hsome
    cases hsome
  · intro h
    cases hfound : inlineMarker? segment with
    | none => rfl
    | some parts =>
      obtain ⟨text, hmarker, -⟩ := inlineMarker?_eq_some_iff.mp hfound
      exact absurd hmarker (h text parts.1)

/-! ## 2. Names and letters -/

/-- Lexemes are headed by the name that their first segment gives and by flag letters: those of the
markers before it, those of the marker it ends in, and those of the markers behind it. -/
inductive Heads : List Lexeme → Text → Text → Prop
  | marked {before after : List Lexeme} {inner text letters : Text}
      (hbefore : ∀ l ∈ before, l.isSegment = false) (hmarker : EndsInMarker inner text letters) :
      Heads (before ++ .segment inner :: after) (trim text)
        (Lexeme.markerLetters before ++ (letters ++ Lexeme.markerLetters after))
  | unmarked {before after : List Lexeme} {inner : Text}
      (hbefore : ∀ l ∈ before, l.isSegment = false)
      (hnone : ∀ text letters, ¬EndsInMarker inner text letters) :
      Heads (before ++ .segment inner :: after) (trim inner)
        (Lexeme.markerLetters before ++ Lexeme.markerLetters after)

/-- In front of the first segment and in it all letters count, behind it those of markers only. -/
theorem flagLetters_append (ls ms : List Lexeme) :
    Lexeme.flagLetters (ls ++ ms) = Lexeme.flagLetters ls ++
      if Lexeme.segments ls = [] then Lexeme.flagLetters ms else Lexeme.markerLetters ms := by
  induction ls with
  | nil => rfl
  | cons l ls ih =>
    cases l with
    | gap c | stray text => exact ih
    | segment inner => simp [Lexeme.flagLetters, Lexeme.segments, markerLetters_append]
    | flag letters =>
      rw [List.cons_append, Lexeme.flagLetters, ih, ← List.append_assoc]
      rfl

section FirstSegment

variable {before : List Lexeme} (hbefore : ∀ l ∈ before, l.isSegment = false)
include hbefore

theorem segments_eq_nil : Lexeme.segments before = [] := by
  apply List.filterMap_eq_nil_iff.mpr
  intro l hl
  cases l with
  | gap c | stray text | flag letters => rfl
  | segment inner => cases hbefore _ hl

theorem flagLetters_eq_markerLetters :
    Lexeme.flagLetters before = Lexeme.markerLetters before := by
  induction before with
  | nil => rfl
  | cons l before ih =>
    obtain ⟨hl, hrest⟩ := List.forall_mem_cons.mp hbefore
    have ih := ih hrest
    cases l with
    | gap c | stray text => exact ih
    | flag letters => exact congrArg (letters ++ ·) ih
    | segment inner => cases hl

theorem flagLetters_append_segment (inner : Text) (after : List Lexeme) :
    Lexeme.flagLetters (before ++ .segment inner :: after)
      = Lexeme.markerLetters before ++ (lettersOfSegment inner ++ Lexeme.markerLetters after) := by
  rw [flagLetters_append, if_pos (segments_eq_nil hbefore), flagLetters_eq_markerLetters hbefore]
  rfl

theorem segments_append_segment (inner : Text) (after : List Lexeme) :
    Lexeme.segments (before ++ .segment inner :: after) = inner :: Lexeme.segments after := by
  rw [segments_append, segments_eq_nil hbefore]
  rfl

end FirstSegment

/-- The first segment, with what stands before it and behind it. -/
theorem exists_first_segment {ls : List Lexeme} (h : ∃ l ∈ ls, l.isSegment = true) :
    ∃ before inner after, ls = before ++ .segment inner :: after ∧
      ∀ l ∈ before, l.isSegment = false := by
  obtain ⟨first, hfind⟩ := Option.isSome_iff_exists.mp (List.find?_isSome.mpr h)
  obtain ⟨hfirst, before, after, hls, hbefore⟩ := List.find?_eq_some_iff_append.mp hfind
  cases first with
  | segment inner => exact ⟨before, inner, after, hls, by simpa using hbefore⟩
  | gap c | stray text | flag letters => cases hfirst

/-- The name and the letters that head lexemes are those that are read of them. -/
theorem Heads.eq {ls : List Lexeme} {name letters : Text} (h : Heads ls name letters) :
    ∃ inner params, Lexeme.segments ls = inner :: params ∧ name = trim (nameOfSegment inner) ∧
      letters = Lexeme.flagLetters ls := by
  cases h with
  | @marked before after inner text letters hbefore hmarker =>
    have hfound := inlineMarker?_eq_some_iff.mpr ⟨text, hmarker, rfl⟩
    refine ⟨inner, _, segments_append_segment hbefore inner after, ?_, ?_⟩
    · rw [nameOfSegment, hfound, trim_trimEnd]
    · rw [flagLetters_append_segment hbefore, lettersOfSegment, hfound]
  | @unmarked before after inner hbefore hnone =>
    have hfound := inlineMarker?_eq_none_iff.mpr hnone
    refine ⟨inner, _, segments_append_segment hbefore inner after, ?_, ?_⟩
    · rw [nameOfSegment, hfound]
    · rw [flagLetters_append_segment hbefore, lettersOfSegment, hfound, List.nil_append]

theorem exists_heads {ls : List Lexeme} (h : ∃ l ∈ ls, l.isSegment = true) :
    ∃ name letters, Heads ls name letters := by
  obtain ⟨before, inner, after, rfl, hbefore⟩ := exists_first_segment h
  cases hfound : inlineMarker? inner with
  | none => exact ⟨_, _, .unmarked hbefore (inlineMarker?_eq_none_iff.mp hfound)⟩
  | some parts =>
    obtain ⟨text, hmarker, -⟩ := inlineMarker?_eq_some_iff.mp hfound
    exact ⟨_, _, .marked hbefore hmarker⟩

/-! ## 3. Tokens

Calls are read from the lexemes. The tokens lack some of them, the separators, which count for
nothing. -/

theorem map_lexeme_tokens (t : Text) :
    (tokens t).map Token.lexeme = (lexemes t).filter Lexeme.isToken := by
  rw [← map_lexeme_locate 0 (lexemes t), List.filter_map]
  rfl

theorem filter_counts_tokens (t : Text) :
    ((tokens t).map Token.lexeme).filter Lexeme.counts = essence t := by
  rw [map_lexeme_tokens, List.filter_filter, essence]
  apply List.filter_congr
  intro l hl
  cases l <;> rfl

theorem flagLetters_tokens (t : Text) :
    Lexeme.flagLetters ((tokens t).map Token.lexeme) = Lexeme.flagLetters (lexemes t) := by
  rw [← flagLetters_filter, filter_counts_tokens, flagLetters_essence_eq]

theorem segments_tokens (t : Text) :
    Lexeme.segments ((tokens t).map Token.lexeme) = Lexeme.segments (lexemes t) := by
  rw [← segments_filter, filter_counts_tokens, essence, segments_filter]

/-! ## 4. One token at a time -/

/-- A letter adds its flag, unless that is among them. -/
def Flag.add (flags : List Flag) (c : Char) : Except Char (List Flag) :=
  match Flag.ofLetter? c with
  | none => .error c
  | some f => .ok (if f ∈ flags then flags else flags ++ [f])

theorem eraseDups_concat (fs : List Flag) (f : Flag) :
    (fs ++ [f]).eraseDups = if f ∈ fs then fs.eraseDups else fs.eraseDups ++ [f] := by
  rw [List.eraseDups_append]
  by_cases hmem : f ∈ fs
  · simp [List.removeAll, hmem]
  · simp [List.removeAll, hmem]
    rfl

theorem ofLetters_concat (known : Text) (c : Char) :
    Flag.ofLetters (known ++ [c]) = Flag.ofLetters known >>= fun flags => Flag.add flags c := by
  unfold Flag.ofLetters
  rw [List.find?_append]
  cases known.find? fun c => (Flag.ofLetter? c).isNone with
  | some d => rfl
  | none =>
    cases hflag : Flag.ofLetter? c with
    | none => simp [hflag, Flag.add, bind, Except.bind]
    | some f =>
      have hflags : (known ++ [c]).filterMap Flag.ofLetter?
          = known.filterMap Flag.ofLetter? ++ [f] := by
        simp [hflag]
      rw [hflags, eraseDups_concat]
      simp only [hflag, Flag.add, bind, Except.bind, List.mem_eraseDups]
      simp [hflag]

theorem ofLetters_append (known letters : Text) :
    Flag.ofLetters (known ++ letters)
      = Flag.ofLetters known >>= fun flags => letters.foldlM Flag.add flags := by
  induction letters generalizing known with
  | nil => simp
  | cons c letters ih =>
    rw [List.append_cons, ih, ofLetters_concat]
    simp

/-- What of a call has been gathered so far. -/
structure Gathered where
  segments : List Text
  flags : List Flag

namespace Gathered

def addLetters (g : Gathered) (letters : Text) : Except Char Gathered :=
  (letters.foldlM Flag.add g.flags).map fun flags => { g with flags }

/-- One lexeme more. The segment that comes first is the name, and may end in a marker. -/
def step (g : Gathered) : Lexeme → Except Char Gathered
  | .segment inner =>
    match g.segments with
    | [] => addLetters ⟨[nameOfSegment inner], g.flags⟩ (lettersOfSegment inner)
    | first :: params => .ok ⟨first :: params ++ [inner], g.flags⟩
  | .flag letters => g.addLetters letters
  | .gap _ | .stray _ => .ok g

/-- What the lexemes hold, all letters and all segments at once. -/
def ofLexemes (ls : List Lexeme) : Except Char Gathered :=
  (Flag.ofLetters (Lexeme.flagLetters ls)).map
    (Gathered.mk ((Lexeme.segments ls).modifyHead nameOfSegment))

theorem ofLexemes_concat (ls : List Lexeme) (l : Lexeme) :
    ofLexemes (ls ++ [l]) = ofLexemes ls >>= fun g => g.step l := by
  unfold ofLexemes
  rw [flagLetters_append, segments_append, ofLetters_append]
  cases Flag.ofLetters (Lexeme.flagLetters ls) with
  | error c => rfl
  | ok flags =>
    -- Whether there was a segment before decides what the next one is.
    cases Lexeme.segments ls with
    | nil =>
      cases l with
      | gap c | stray text => rfl
      | segment inner =>
        rw [if_pos rfl, Lexeme.flagLetters, Lexeme.markerLetters, List.flatMap_nil, List.append_nil]
        rfl
      | flag letters =>
        rw [if_pos rfl, Lexeme.flagLetters, Lexeme.flagLetters, List.append_nil]
        rfl
    | cons first params =>
      rw [if_neg (List.cons_ne_nil first params)]
      cases l with
      | gap c | stray text =>
        show Except.ok (Gathered.mk (nameOfSegment first :: (params ++ [])) flags) = _
        rw [List.append_nil]
        rfl
      | segment inner => rfl
      | flag letters =>
        rw [Lexeme.markerLetters, List.flatMap_singleton]
        show Except.map (Gathered.mk (nameOfSegment first :: (params ++ []))) _ = _
        rw [List.append_nil]
        rfl

theorem ofLexemes_append (ls ms : List Lexeme) :
    ofLexemes (ls ++ ms) = ofLexemes ls >>= fun g => ms.foldlM step g := by
  induction ms generalizing ls with
  | nil => simp
  | cons l ms ih =>
    rw [List.append_cons, ih, ofLexemes_concat]
    simp

end Gathered

/-- **A call is what is gathered from the tokens one by one**, each flag where its letter is met
first. The first letter that stands for no flag ends it. -/
theorem ofNormal_eq_gathered (raw t : Text) :
    Call.ofNormal raw t =
      match ((tokens t).map Token.lexeme).foldlM Gathered.step ⟨[], []⟩ with
      | .error c => .error (.unknownFlag c)
      | .ok ⟨[], _⟩ => .error .noSegment
      | .ok ⟨first :: params, flags⟩ =>
        .ok ⟨raw, t, flags, first :: params, flags.contains .aliases⟩ := by
  have hrun : ((tokens t).map Token.lexeme).foldlM Gathered.step ⟨[], []⟩
      = Gathered.ofLexemes ((tokens t).map Token.lexeme) :=
    (Gathered.ofLexemes_append [] _).symm
  rw [hrun, Gathered.ofLexemes, flagLetters_tokens, segments_tokens]
  unfold Call.ofNormal
  dsimp only
  cases Flag.ofLetters (Lexeme.flagLetters (lexemes t)) with
  | error c => rfl
  | ok flags =>
    cases Lexeme.segments (lexemes t) with
    | nil => rfl
    | cons first params => rfl

/-! ## 5. Letters that stand for no flag -/

/-- Only a character and its lowered form are raised to it. -/
theorem eq_or_of_toUpper {c d : Char} (h : c.toUpper = d) : c = d ∨ c.val = d.val + 32 := by
  unfold Char.toUpper at h
  split at h
  · -- Raising a letter takes 32 off its code, by adding the complement.
    have hval : c.val + 4294967264 = d.val := by
      rw [← h]
      rfl
    right
    grind
  · exact Or.inl h

theorem isFlagLetter_of_toUpper {c : Char} (h : c.toUpper = 'A' ∨ c.toUpper = 'T') :
    IsFlagLetter c := by
  rcases h with h | h
  · rcases eq_or_of_toUpper h with h | h
    · exact Or.inl h
    · exact Or.inr (Or.inl (Char.ext h))
  · rcases eq_or_of_toUpper h with h | h
    · exact Or.inr (Or.inr (Or.inl h))
    · exact Or.inr (Or.inr (Or.inr (Char.ext h)))

theorem isNone_ofLetter?_iff {c : Char} : (Flag.ofLetter? c).isNone = true ↔ ¬IsFlagLetter c := by
  constructor
  · intro h hknown
    have hsome := hknown.map_letter
    rw [Option.isNone_iff_eq_none.mp h] at hsome
    cases hsome
  · intro h
    unfold Flag.ofLetter?
    split
    · rename_i hupper
      exact absurd (isFlagLetter_of_toUpper (Or.inl hupper)) h
    · rename_i hupper
      exact absurd (isFlagLetter_of_toUpper (Or.inr hupper)) h
    · rfl

/-- Of the letters that stand for no flag, this is the first. -/
def IsFirstUnknown (letters : Text) (c : Char) : Prop :=
  ¬IsFlagLetter c ∧ ∃ known rest, letters = known ++ c :: rest ∧ ∀ d ∈ known, IsFlagLetter d

theorem ofLetters_eq_error_iff_isFirstUnknown {letters : Text} {c : Char} :
    Flag.ofLetters letters = .error c ↔ IsFirstUnknown letters c := by
  rw [ofLetters_eq_error_iff, List.find?_eq_some_iff_append, isNone_ofLetter?_iff]
  have hknown (d : Char) : (!(Flag.ofLetter? d).isNone) = true ↔ IsFlagLetter d := by
    rw [Bool.not_eq_true', ← Bool.not_eq_true, isNone_ofLetter?_iff, Classical.not_not]
  simp only [hknown]
  rfl

theorem forall_isFlagLetter_of_ok {letters : Text} {flags : List Flag}
    (h : Flag.ofLetters letters = .ok flags) : ∀ c ∈ letters, IsFlagLetter c := by
  unfold Flag.ofLetters at h
  split at h
  · cases h
  · rename_i hnone
    intro c hc
    have hc := List.find?_eq_none.mp hnone c hc
    rwa [isNone_ofLetter?_iff, Classical.not_not] at hc

theorem exists_isFirstUnknown_iff {letters : Text} :
    (∃ c, IsFirstUnknown letters c) ↔ ∃ c ∈ letters, ¬IsFlagLetter c := by
  constructor
  · intro h
    obtain ⟨c, hunknown, known, rest, rfl, -⟩ := h
    exact ⟨c, by simp, hunknown⟩
  · intro h
    obtain ⟨c, hc, hunknown⟩ := h
    cases hflags : Flag.ofLetters letters with
    | error d => exact ⟨d, ofLetters_eq_error_iff_isFirstUnknown.mp hflags⟩
    | ok flags => exact absurd (forall_isFlagLetter_of_ok hflags c hc) hunknown

/-! ## 6. Calls -/

/-- With a segment, a call is refused for the first unknown letter or not at all. -/
theorem ofNormal_eq_error_iff_of_segments {t inner : Text} {params : List Text}
    (h : Lexeme.segments (lexemes t) = inner :: params) (raw : Text) (fault : CallFault) :
    Call.ofNormal raw t = .error fault ↔
      ∃ c, IsFirstUnknown (Lexeme.flagLetters (lexemes t)) c ∧ fault = .unknownFlag c := by
  rw [Call.ofNormal_eq_error_iff, h]
  simp [ofLetters_eq_error_iff_isFirstUnknown]

/-- The call that was read has the raised letters as its flags, each at its first place. -/
theorem of_ofNormal_eq_ok_of_segments {raw t inner : Text} {params : List Text} {call : Call}
    (h : Lexeme.segments (lexemes t) = inner :: params) (hcall : Call.ofNormal raw t = .ok call) :
    call.flags.map Flag.letter
        = ((Lexeme.flagLetters (lexemes t)).map Char.toUpper).eraseDups ∧
      (call.hasAlias = true ↔ 'A' ∈ (Lexeme.flagLetters (lexemes t)).map Char.toUpper) ∧
      call.name = trim (nameOfSegment inner) := by
  obtain ⟨flags, first, others, hflags, hfirst, rfl⟩ := Call.ofNormal_eq_ok_iff.mp hcall
  rw [h] at hfirst
  obtain ⟨rfl, rfl⟩ := List.cons.inj hfirst
  obtain ⟨found, hfound, hletters⟩ := ofLetters_known (forall_isFlagLetter_of_ok hflags)
  obtain rfl : flags = found := Except.ok.inj (hflags.symm.trans hfound)
  refine ⟨hletters, ?_, rfl⟩
  rw [← List.mem_eraseDups, ← hletters, List.contains_iff_mem]
  exact mem_iff_letter_mem

/-- **Flags are collected in full and in order.** Where there is a segment, the tokens are headed by
a name and letters. The call is refused if one of the letters stands for no flag; the first such
letter is reported, as it is written. Otherwise its flags are the letters in upper case, each at its
first place, aliases are asked for if `A` is among them, and its name is the one that heads the
tokens. -/
theorem ofNormal_collects_flags (raw t : Text)
    (h : ∃ token ∈ tokens t, token.lexeme.isSegment = true) :
    (∃ name letters, Heads ((tokens t).map Token.lexeme) name letters) ∧
    ∀ name letters, Heads ((tokens t).map Token.lexeme) name letters →
      ((∃ fault, Call.ofNormal raw t = .error fault) ↔ ∃ c ∈ letters, ¬IsFlagLetter c) ∧
      (∀ fault, Call.ofNormal raw t = .error fault ↔
        ∃ c, IsFirstUnknown letters c ∧ fault = .unknownFlag c) ∧
      (∀ c, (Fault.call (.unknownFlag c)).report t
        = ⟨.format, "unknown macro flag <".toList ++ c :: ">".toList, some t, none, none⟩) ∧
      ∀ call, Call.ofNormal raw t = .ok call →
        call.flags.map Flag.letter = (letters.map Char.toUpper).eraseDups ∧
        (call.hasAlias = true ↔ 'A' ∈ letters.map Char.toUpper) ∧ call.name = name := by
  constructor
  · obtain ⟨token, htoken, hsegment⟩ := h
    exact exists_heads ⟨token.lexeme, List.mem_map_of_mem htoken, hsegment⟩
  · intro name letters hheads
    obtain ⟨inner, params, hsegments, rfl, rfl⟩ := hheads.eq
    rw [segments_tokens] at hsegments
    rw [flagLetters_tokens]
    have herror := ofNormal_eq_error_iff_of_segments hsegments raw
    refine ⟨?_, herror, fun c => rfl, fun call => of_ofNormal_eq_ok_of_segments hsegments⟩
    simp only [herror, ← exists_isFirstUnknown_iff]
    rw [exists_comm]
    simp

/-- Letters in all three places, two of them repeated in the other case; and a letter that is
refused inside the name, in front of another one. -/
theorem ofNormal_collects_flags_of_spread :
    let t := "<t>[ exists <aT> ]x[t]<A>".toList
    let refused := "<A>[x<ty>][]<Z>".toList
    (∃ call, Call.ofNormal t t = .ok call ∧ call.flags.map Flag.letter = ['T', 'A'] ∧
      call.hasAlias = true ∧ call.name = "exists".toList) ∧
    Call.ofNormal refused refused = .error (.unknownFlag 'y') := by
  intro t refused
  constructor
  · have hlexemes : (tokens t).map Token.lexeme = [.flag ['t']] ++ .segment " exists <aT> ".toList
        :: [.stray ['x'], .segment ['t'], .flag ['A']] := by
      decide +kernel
    have hmarker : EndsInMarker " exists <aT> ".toList "exists ".toList "aT".toList :=
      ⟨by decide, by simp, by simp, by simp⟩
    have hheads : Heads ((tokens t).map Token.lexeme) (trim "exists ".toList) "taTA".toList := by
      rw [hlexemes]
      exact .marked (by simp [Lexeme.isSegment]) hmarker
    have hknown : ¬∃ c ∈ "taTA".toList, ¬IsFlagLetter c := by simp [IsFlagLetter]
    obtain ⟨hfails, -, -, hok⟩ := (ofNormal_collects_flags t t (by decide +kernel)).2 _ _ hheads
    cases hcall : Call.ofNormal t t with
    | error fault => exact absurd (hfails.mp ⟨fault, hcall⟩) hknown
    | ok call =>
      obtain ⟨hflags, halias, hname⟩ := hok call hcall
      refine ⟨call, rfl, ?_, halias.mpr (by simp), hname⟩
      rw [hflags]
      rfl
  · have hlexemes : (tokens refused).map Token.lexeme = [.flag ['A']] ++ .segment "x<ty>".toList
        :: [.segment [], .flag ['Z']] := by
      decide +kernel
    have hmarker : EndsInMarker "x<ty>".toList "x".toList "ty".toList :=
      ⟨by decide, by simp, by simp, by simp⟩
    have hheads : Heads ((tokens refused).map Token.lexeme) (trim "x".toList) "AtyZ".toList := by
      rw [hlexemes]
      exact .marked (by simp [Lexeme.isSegment]) hmarker
    have hfirst : IsFirstUnknown "AtyZ".toList 'y' :=
      ⟨by simp [IsFlagLetter], ['A', 't'], ['Z'], rfl, by simp [IsFlagLetter]⟩
    have hsegment : ∃ token ∈ tokens refused, token.lexeme.isSegment = true := by decide +kernel
    obtain ⟨-, herror, -⟩ := (ofNormal_collects_flags refused refused hsegment).2 _ _ hheads
    exact (herror _).mpr ⟨'y', hfirst, rfl⟩

end MacroLint.Literal
