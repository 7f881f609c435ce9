import MacroLint.Proofs.Literal.Markers
import MacroLint.Proofs.Plan.Parameters
import MacroLint.Proofs.Validation.Resolution

/-!
# Flags that make no difference

Of all that is written as a flag, a check asks for one thing only: whether `<T>` is set, and this
only for the two macros that choose rows. So two literals have the same run, but for echoes of
themselves, when they have the same brackets, name and parameters, the same letter in them is
refused, and for those two macros `<T>` is set in both or in neither (`validate_agree`). Where the
flags stand in the literal, how often, and in which case is not among these conditions.

The two theorems about flags are then about reading only: `validate_placement` moves a marker, and
`validate_marked` puts one in front.
-/

set_option autoImplicit false

namespace MacroLint

open Literal

/-- The contexts are echoes of two texts, one of each. -/
def Echoes (t t' context context' : Text) : Prop := context = t ∧ context' = t'

/-- The macro that the first segment of a literal names. -/
def macroNamed? (raw : Text) : Option MacroName :=
  (Lexeme.nameAndParams (lexemes (normal raw))).head?.bind MacroName.ofText?

/-! ## 1. Reading -/

namespace Literal

/-- The flags that are written in a text, known letter by known letter. -/
def writtenFlags (t : Text) : List Flag :=
  (Lexeme.flagLetters (lexemes t)).filterMap Flag.ofLetter?

/-- The texts have the same name and parameters, and the same letter in them is refused, if any. -/
structure ReadAlike (t t' : Text) : Prop where
  nameAndParams : Lexeme.nameAndParams (lexemes t) = Lexeme.nameAndParams (lexemes t')
  refused : ∀ letter, Flag.ofLetters (Lexeme.flagLetters (lexemes t)) = .error letter ↔
    Flag.ofLetters (Lexeme.flagLetters (lexemes t')) = .error letter

/-- What a call was read from. -/
theorem Call.of_ofNormal_eq_ok {raw t : Text} {call : Call} (h : Call.ofNormal raw t = .ok call) :
    call.normalized = t ∧ (∀ f, call.has f = true ↔ f ∈ writtenFlags t) ∧
      ∃ first params, call.segments = first :: params ∧
        Lexeme.nameAndParams (lexemes t) = call.name :: params := by
  obtain ⟨flags, first, params, hflags, hsegments, rfl⟩ := Call.ofNormal_eq_ok_iff.mp h
  refine ⟨rfl, ?_, nameOfSegment first, params, rfl, ?_⟩
  · intro f
    exact List.contains_iff_mem.trans (mem_flags_iff hflags f)
  · rw [Lexeme.nameAndParams, hsegments]
    rfl

variable {echo : Text → Text → Prop} {t t' : Text} (h : ReadAlike t t')
include h

theorem ReadAlike.error_iff (raw raw' : Text) (fault : CallFault) :
    Call.ofNormal raw t = .error fault ↔ Call.ofNormal raw' t' = .error fault := by
  have hnone (u : Text) :
      Lexeme.segments (lexemes u) = [] ↔ Lexeme.nameAndParams (lexemes u) = [] :=
    List.modifyHead_eq_nil_iff.symm
  simp only [Call.ofNormal_eq_error_iff, hnone, h.refused, h.nameAndParams]

/-- Calls that are read alike look alike to every plan that does not mind about `<T>`, and to the
others where it is set in both or in neither. -/
theorem ReadAlike.seesAlike {raw raw' : Text} {call call' : Call}
    (hcall : Call.ofNormal raw t = .ok call) (hcall' : Call.ofNormal raw' t' = .ok call')
    (hecho : echo t t') :
    call.name = call'.name ∧
      ∀ family : Family,
        (family = .existsRow ∨ family = .delete →
          (.total ∈ writtenFlags t ↔ .total ∈ writtenFlags t')) →
        family.SeesAlike echo call call' := by
  obtain ⟨hnormal, hflags, first, params, hsegments, hread⟩ := Call.of_ofNormal_eq_ok hcall
  obtain ⟨hnormal', hflags', first', params', hsegments', hread'⟩ := Call.of_ofNormal_eq_ok hcall'
  rw [h.nameAndParams, hread'] at hread
  obtain ⟨hname, hparams⟩ := List.cons.inj hread
  have hlength : call.segments.length = call'.segments.length := by
    rw [hsegments, hsegments', hparams, List.length_cons, List.length_cons]
  refine ⟨hname.symm, fun family htotal => ⟨⟨?_, ?_⟩, ?_, Or.inl hlength, fun _ => hlength⟩⟩
  · intro position
    rw [Call.param?, hsegments, Call.param?, hsegments', hparams]
    rfl
  · rw [hnormal, hnormal']
    exact hecho
  · intro hrows
    rw [Bool.eq_iff_iff, hflags, hflags']
    exact htotal hrows

end Literal

/-! ## 2. Validating -/

theorem eq_of_family?_rows {name : MacroName} {family : Family} (h : name.family? = some family)
    (hrows : family = .existsRow ∨ family = .delete) : name = .existsRow ∨ name = .delete := by
  cases name <;> cases h <;> simp at hrows ⊢

theorem agree_refused {echo : Text → Text → Prop} {context context' : Text}
    (hecho : echo context context') (fault : Fault) :
    Run.Agree echo ⟨[], some (fault.report context)⟩ ⟨[], some (fault.report context')⟩ :=
  ⟨rfl, .some ⟨rfl, rfl, rfl, rfl, .some (Or.inr hecho)⟩⟩

theorem macroNamed?_of_ofNormal {raw : Text} {call : Call}
    (h : Call.ofNormal raw (normal raw) = .ok call) :
    macroNamed? raw = MacroName.ofText? call.name := by
  obtain ⟨-, -, first, params, -, hread⟩ := Call.of_ofNormal_eq_ok h
  rw [macroNamed?, hread]
  rfl

/-- **What validation depends on.** The last condition is the only one that asks which flags are
set, and it asks for one flag of two macros. -/
theorem validate_agree {echo : Text → Text → Prop} {raw raw' : Text} (oracle : Oracle)
    (hbrackets : raw.filter isBracket = raw'.filter isBracket)
    (hecho : echo (normal raw) (normal raw')) (h : ReadAlike (normal raw) (normal raw'))
    (htotal : macroNamed? raw = some .existsRow ∨ macroNamed? raw = some .delete →
      (.total ∈ writtenFlags (normal raw) ↔ .total ∈ writtenFlags (normal raw'))) :
    (validate oracle raw).Agree echo (validate oracle raw') := by
  have hfault : bracketFault (normal raw) = bracketFault (normal raw') := by
    rw [bracketFault_normal, bracketFault_normal, bracketFault_congr hbrackets]
  simp only [validate, resolve, ← hfault]
  cases bracketFault (normal raw) with
  | some fault => exact agree_refused hecho _
  | none =>
    cases hcall : Call.ofNormal raw (normal raw) with
    | error fault =>
      rw [(h.error_iff raw raw' fault).mp hcall]
      exact agree_refused hecho _
    | ok call =>
      cases hcall' : Call.ofNormal raw' (normal raw') with
      | error fault =>
        rw [(h.error_iff raw raw' fault).mpr hcall'] at hcall
        cases hcall
      | ok call' =>
        obtain ⟨hname, hsees⟩ := h.seesAlike hcall hcall' hecho
        rw [macroNamed?_of_ofNormal hcall] at htotal
        dsimp only
        rw [← hname]
        cases hfound : MacroName.ofText? call.name with
        | none => exact agree_refused hecho _
        | some name =>
          dsimp only
          cases hfamily : name.family? with
          | none => exact ⟨rfl, .none⟩
          | some family =>
            have hagree : family.SeesAlike echo call call' := by
              apply hsees
              intro hrows
              apply htotal
              rw [hfound, Option.some.injEq, Option.some.injEq]
              exact eq_of_family?_rows hfamily hrows
            exact (hagree.agree name).run oracle name.usage?

/-! ## 3. Moving a marker, and adding one -/

/-- **Where a flag is written does not matter**: at the end of the name, behind its bracket, or in
front, whatever comes after. -/
theorem validate_placement (oracle : Oracle) {name letters : Text} (rest : Text)
    (hname : ∀ c ∈ name, c ≠ '[' ∧ c ≠ ']' ∧ c ≠ '<') (hne : letters ≠ [])
    (halpha : ∀ c ∈ letters, c.isAlpha = true) (place place' : Placement) :
    (validate oracle (place.source name letters rest)).Agree
      (Echoes (normal (place.source name letters rest)) (normal (place'.source name letters rest)))
      (validate oracle (place'.source name letters rest)) := by
  have hletters : Lexeme.flagLetters (lexemes (normal (place.source name letters rest)))
      = Lexeme.flagLetters (lexemes (normal (place'.source name letters rest))) := by
    rw [place.flagLetters hname hne halpha, place'.flagLetters hname hne halpha]
  apply validate_agree
  · rw [place.filter_source hname halpha, place'.filter_source hname halpha]
  · exact ⟨rfl, rfl⟩
  · constructor
    · rw [place.nameAndParams hname hne halpha, place'.nameAndParams hname hne halpha]
    · intro letter
      rw [hletters]
  · intro _
    rw [writtenFlags, writtenFlags, hletters]

/-- Two flags in the name, behind a blank, and the same flags in front of the brackets. The complete
statement is asked and rejected. -/
theorem validate_placement_of_total :
    let oracle := Oracle.scripted [some (.query (.grammar "no".toList))]
    let inName := "[exists <tA>] [t][nope]".toList
    let inFront := "<tA>[exists ] [t][nope]".toList
    (validate oracle inName).Agree (Echoes (normal inName) (normal inFront))
      (validate oracle inFront) := by
  intro oracle inName inFront
  have hname : ∀ c ∈ "exists ".toList, c ≠ '[' ∧ c ≠ ']' ∧ c ≠ '<' := by simp
  have hletters : ∀ c ∈ ['t', 'A'], c.isAlpha = true := by simp
  exact validate_placement oracle " [t][nope]".toList hname (List.cons_ne_nil 't' ['A']) hletters
    .inName .inFront

theorem readAlike_marked {letters : Text} (raw : Text) (hne : letters ≠ [])
    (hknown : ∀ c ∈ letters, IsFlagLetter c) :
    ReadAlike (normal raw) (normal (marked letters raw)) := by
  have halpha : ∀ c ∈ letters, c.isAlpha = true := fun c hc => (hknown c hc).isAlpha
  constructor
  · rw [nameAndParams_marked hne halpha]
  · intro letter
    rw [flagLetters_marked hne halpha, ofLetters_append_eq_error_iff hknown]

/-- Flags in front of a literal are not seen, if they are aliases or if the macro does not choose
rows. -/
theorem agree_marked (oracle : Oracle) {letters : Text} (raw : Text) (hne : letters ≠ [])
    (hknown : ∀ c ∈ letters, IsFlagLetter c)
    (htotal : macroNamed? raw = some .existsRow ∨ macroNamed? raw = some .delete →
      .total ∉ letters.filterMap Flag.ofLetter?) :
    (validate oracle raw).Agree (Echoes (normal raw) (marked letters (normal raw)))
      (validate oracle (marked letters raw)) := by
  have halpha : ∀ c ∈ letters, c.isAlpha = true := fun c hc => (hknown c hc).isAlpha
  apply validate_agree
  · rw [filter_marked halpha]
  · exact ⟨rfl, normal_marked halpha raw⟩
  · exact readAlike_marked raw hne hknown
  · intro hrows
    rw [writtenFlags, writtenFlags, flagLetters_marked hne halpha, List.filterMap_append,
      List.mem_append]
    exact (or_iff_right (htotal hrows)).symm

/-- **Flags interfere only through `<T>`, where rows are chosen.** To put alias flags in front of a
literal changes nothing, and neither does any known flag, unless the literal names one of the two
macros that choose rows. -/
theorem validate_marked (oracle : Oracle) {letters : Text} (raw : Text) (hne : letters ≠ []) :
    ((∀ c ∈ letters, c = 'A' ∨ c = 'a') →
      (validate oracle raw).Agree (Echoes (normal raw) (marked letters (normal raw)))
        (validate oracle (marked letters raw))) ∧
    ((∀ c ∈ letters, c = 'A' ∨ c = 'a' ∨ c = 'T' ∨ c = 't') →
      macroNamed? raw ≠ some .existsRow → macroNamed? raw ≠ some .delete →
      (validate oracle raw).Agree (Echoes (normal raw) (marked letters (normal raw)))
        (validate oracle (marked letters raw))) := by
  constructor
  · intro haliases
    apply agree_marked oracle raw hne
    · intro c hc
      exact (haliases c hc).imp_right Or.inl
    · intro _ hmem
      obtain ⟨c, hc, hflag⟩ := List.mem_filterMap.mp hmem
      rcases haliases c hc with rfl | rfl <;> cases hflag
  · intro hknown hexists hdelete
    apply agree_marked oracle raw hne hknown
    intro hrows
    exact absurd hrows (not_or.mpr ⟨hexists, hdelete⟩)

/-- Aliases in front of a delete that lacks its table, and both flags in front of a query with a
clause too many. -/
theorem validate_marked_of_refused :
    (validate .lenient "[delete]".toList).Agree
      (Echoes (normal "[delete]".toList) (marked "aA".toList (normal "[delete]".toList)))
      (validate .lenient (marked "aA".toList "[delete]".toList)) ∧
    (validate .lenient "[select][select 1][][][][][]".toList).Agree
      (Echoes (normal "[select][select 1][][][][][]".toList)
        (marked "At".toList (normal "[select][select 1][][][][][]".toList)))
      (validate .lenient (marked "At".toList "[select][select 1][][][][][]".toList)) := by
  have hselect : macroNamed? "[select][select 1][][][][][]".toList = some .select := by
    decide +kernel
  constructor
  · exact (validate_marked .lenient _ (List.cons_ne_nil 'a' ['A'])).1 (by simp)
  · apply (validate_marked .lenient _ (List.cons_ne_nil 'A' ['t'])).2 (by simp)
    · rw [hselect]
      decide
    · rw [hselect]
      decide

end MacroLint
