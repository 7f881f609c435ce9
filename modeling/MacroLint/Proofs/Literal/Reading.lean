import MacroLint.Literal.Call

/-!
# When a call is read, and what it is then

A text is read in two looks at its lexemes, first at the letters of its flags and then at its
segments. The two equivalences for `Call.ofNormal` say what has to be found for a call to be read,
and what was found when none is. Whoever reads a call, or learns that there is none, starts from
them and not from the definition.
-/

set_option autoImplicit false

namespace MacroLint.Literal

variable {letters raw t : Text}

theorem ofLetters_eq_error_iff {letter : Char} :
    Flag.ofLetters letters = .error letter ↔
      letters.find? (fun c => (Flag.ofLetter? c).isNone) = some letter := by
  unfold Flag.ofLetters
  cases letters.find? fun c => (Flag.ofLetter? c).isNone with
  | none => simp
  | some d => simp

theorem mem_flags_iff {flags : List Flag} (h : Flag.ofLetters letters = .ok flags) (f : Flag) :
    f ∈ flags ↔ f ∈ letters.filterMap Flag.ofLetter? := by
  unfold Flag.ofLetters at h
  split at h
  · cases h
  · cases h
    exact List.mem_eraseDups

theorem Call.ofNormal_eq_ok_iff {call : Call} :
    Call.ofNormal raw t = .ok call ↔
      ∃ flags first params, Flag.ofLetters (Lexeme.flagLetters (lexemes t)) = .ok flags ∧
        Lexeme.segments (lexemes t) = first :: params ∧
        call = ⟨raw, t, flags, nameOfSegment first :: params, flags.contains .aliases⟩ := by
  simp only [Call.ofNormal]
  cases Flag.ofLetters (Lexeme.flagLetters (lexemes t)) with
  | error letter => simp
  | ok flags =>
    cases Lexeme.segments (lexemes t) with
    | nil => simp
    | cons first params =>
      constructor
      · intro h
        exact ⟨flags, first, params, rfl, rfl, (Except.ok.inj h).symm⟩
      · intro h
        obtain ⟨_, _, _, hflags, hsegments, hcall⟩ := h
        cases hflags
        cases hsegments
        rw [hcall]

/-- A refused letter is reported first, whether there is a segment or not. -/
theorem Call.ofNormal_eq_error_iff {fault : CallFault} :
    Call.ofNormal raw t = .error fault ↔
      (∃ letter, Flag.ofLetters (Lexeme.flagLetters (lexemes t)) = .error letter ∧
        fault = .unknownFlag letter) ∨
      (∀ letter, ¬Flag.ofLetters (Lexeme.flagLetters (lexemes t)) = .error letter) ∧
        Lexeme.segments (lexemes t) = [] ∧ fault = .noSegment := by
  simp only [Call.ofNormal]
  cases Flag.ofLetters (Lexeme.flagLetters (lexemes t)) with
  | error letter =>
    constructor
    · intro h
      exact Or.inl ⟨letter, rfl, (Except.error.inj h).symm⟩
    · intro h
      rcases h with ⟨other, hletter, hfault⟩ | ⟨hnone, -⟩
      · rw [hfault, Except.error.inj hletter]
      · exact absurd rfl (hnone letter)
  | ok flags =>
    cases Lexeme.segments (lexemes t) with
    | nil => simp [eq_comm]
    | cons first params => simp

end MacroLint.Literal
