import MacroLint.Fault
import MacroLint.Proofs.Literal.Reading
import MacroLint.Proofs.Literal.Scan

/-!
# Paired brackets leave no segment open

Brackets are looked at twice, and differently. The check counts how many are open, so it knows about
nesting. The lexemes do not: a segment ends at the first `]`, whatever was opened inside it, and the
scan goes on behind that place, where by the count some brackets may still be open. On nested
brackets the two disagree about which closer belongs to which opener.

They agree on what matters. A scan resumes at suffixes of the text only, and from any suffix the
count goes down to nothing at the end (`Pairs.of_isSuffix`). An opener at the beginning of a suffix
raises the count, so some closer has to follow it (`Pairs.mem_close`), and the segment that starts
there has an end.
-/

set_option autoImplicit false

namespace MacroLint.Literal

open Text

/-! ## 1. Suffixes of paired text -/

/-- The brackets pair up if the right number of them is open already. -/
def Pairs (t : Text) : Prop := ∃ opened, pairBrackets opened t = none

theorem Pairs.of_cons {c : Char} {t : Text} (h : Pairs (c :: t)) : Pairs t := by
  obtain ⟨opened, hpair⟩ := h
  by_cases hopen : c = '['
  · subst hopen
    exact ⟨opened + 1, hpair⟩
  · by_cases hclose : c = ']'
    · subst hclose
      cases opened with
      | zero => cases hpair
      | succ n => exact ⟨n, hpair⟩
    · rw [pairBrackets_cons_of_ne hopen hclose] at hpair
      exact ⟨opened, hpair⟩

theorem Pairs.of_isSuffix {s t : Text} (h : Pairs t) (hs : s <:+ t) : Pairs s := by
  induction t with
  | nil =>
    rw [List.suffix_nil.mp hs]
    exact h
  | cons c t ih =>
    rcases List.suffix_cons_iff.mp hs with heq | hsuffix
    · rw [heq]
      exact h
    · exact ih h.of_cons hsuffix

/-- What is open has to be closed. -/
theorem mem_close_of_pairBrackets {opened : Nat} {t : Text}
    (h : pairBrackets (opened + 1) t = none) : ']' ∈ t := by
  induction t generalizing opened with
  | nil => cases h
  | cons c t ih =>
    by_cases hopen : c = '['
    · subst hopen
      exact List.mem_cons_of_mem _ (ih h)
    · by_cases hclose : c = ']'
      · subst hclose
        exact List.mem_cons_self
      · rw [pairBrackets_cons_of_ne hopen hclose] at h
        exact List.mem_cons_of_mem _ (ih h)

theorem Pairs.mem_close {t : Text} (h : Pairs ('[' :: t)) : ']' ∈ t := by
  obtain ⟨opened, hpair⟩ := h
  exact mem_close_of_pairBrackets hpair

/-- What is closed has been opened. -/
theorem mem_open_of_pairBrackets {t : Text} (h : pairBrackets 0 t = none) (hmem : ']' ∈ t) :
    '[' ∈ t := by
  induction t with
  | nil => cases hmem
  | cons c t ih =>
    by_cases hopen : c = '['
    · subst hopen
      exact List.mem_cons_self
    · by_cases hclose : c = ']'
      · subst hclose
        cases h
      · rw [pairBrackets_cons_of_ne hopen hclose] at h
        have htail : ']' ∈ t := (List.mem_cons.mp hmem).resolve_left (Ne.symm hclose)
        exact List.mem_cons_of_mem c (ih h htail)

theorem pairs_of_bracketFault {t : Text} (h : bracketFault t = none) : '[' ∈ t ∧ Pairs t := by
  unfold bracketFault at h
  split at h
  · rename_i hany
    refine ⟨?_, 0, h⟩
    obtain ⟨c, hc, hbracket⟩ := List.any_eq_true.mp hany
    rcases Bool.or_eq_true_iff.mp hbracket with hopen | hclose
    · exact beq_iff_eq.mp hopen ▸ hc
    · exact mem_open_of_pairBrackets h (beq_iff_eq.mp hclose ▸ hc)
  · cases h

/-! ## 2. Lexemes of paired text -/

/-- The first opening bracket starts a segment. -/
theorem exists_segment {t : Text} (hopen : '[' ∈ t) (h : Pairs t) :
    ∃ inner, .segment inner ∈ lexemes t := by
  induction t using scanInduction with
  | nil => cases hopen
  | cons l rest hread hlexemes ih =>
    rw [hlexemes]
    rcases hread.cases_open with ⟨inner, -, rfl⟩ | ⟨text, hclose, rfl, rfl⟩ | ⟨hnone, -⟩
    · exact ⟨inner, List.mem_cons_self⟩
    · rw [List.append_nil] at h
      exact absurd h.mem_close hclose
    · have hrest := (List.mem_append.mp hopen).resolve_left hnone
      obtain ⟨inner, hinner⟩ := ih hrest (h.of_isSuffix (List.suffix_append _ _))
      exact ⟨inner, List.mem_cons_of_mem _ hinner⟩

/-- No stray text starts with an opening bracket. -/
theorem head?_ne_of_stray_mem {t text : Text} (h : Pairs t) (hmem : .stray text ∈ lexemes t) :
    text.head? ≠ some '[' := by
  induction t using scanInduction with
  | nil =>
    rw [lexemes_nil] at hmem
    cases hmem
  | cons l rest hread hlexemes ih =>
    rw [hlexemes] at hmem
    rcases List.mem_cons.mp hmem with rfl | hmem
    · rcases hread.cases_open with ⟨inner, -, heq⟩ | ⟨tail, hclose, heq, rfl⟩ | ⟨hnone, -⟩
      · cases heq
      · cases heq
        rw [List.append_nil] at h
        exact absurd h.mem_close hclose
      · intro hhead
        exact hnone (List.mem_of_head? hhead)
    · exact ih (h.of_isSuffix (List.suffix_append _ _)) hmem

/-! ## 3. Tokens and calls -/

theorem exists_mem_tokens_iff {t : Text} {l : Lexeme} :
    (∃ token ∈ tokens t, token.lexeme = l) ↔ l ∈ lexemes t ∧ l.isToken = true := by
  constructor
  · intro h
    obtain ⟨token, htoken, rfl⟩ := h
    obtain ⟨hlocated, hcounts⟩ := List.mem_filter.mp htoken
    refine ⟨?_, hcounts⟩
    rw [← map_lexeme_locate 0 (lexemes t)]
    exact List.mem_map_of_mem hlocated
  · intro h
    obtain ⟨hl, hcounts⟩ := h
    rw [← map_lexeme_locate 0 (lexemes t)] at hl
    obtain ⟨token, hlocated, rfl⟩ := List.mem_map.mp hl
    exact ⟨token, List.mem_filter.mpr ⟨hlocated, hcounts⟩, rfl⟩

/-- A call that is refused although there is a segment is refused for one of its letters. -/
theorem ofNormal_of_segment_mem {t inner : Text} (raw : Text) (h : .segment inner ∈ lexemes t) :
    (∃ call, Call.ofNormal raw t = .ok call ∧ call.segments ≠ []) ∨
      ∃ letter, Call.ofNormal raw t = .error (.unknownFlag letter) := by
  have hmem : inner ∈ Lexeme.segments (lexemes t) := List.mem_filterMap.mpr ⟨_, h, rfl⟩
  obtain ⟨first, params, hsegments⟩ := List.exists_cons_of_ne_nil (List.ne_nil_of_mem hmem)
  cases hletters : Flag.ofLetters (Lexeme.flagLetters (lexemes t)) with
  | error letter =>
    refine Or.inr ⟨letter, ?_⟩
    exact Call.ofNormal_eq_error_iff.mpr (Or.inl ⟨letter, hletters, rfl⟩)
  | ok flags =>
    have hcall : Call.ofNormal raw t
        = .ok ⟨raw, t, flags, nameOfSegment first :: params, flags.contains .aliases⟩ :=
      Call.ofNormal_eq_ok_iff.mpr ⟨flags, first, params, hletters, hsegments, rfl⟩
    exact Or.inl ⟨_, hcall, List.cons_ne_nil _ _⟩

/-- **A literal whose brackets pair up has segments, and each of them is closed.** So the call in it
is read, or refused for a letter that stands for no flag; that it has no segment is never the
reason. -/
theorem segments_of_bracketFault_eq_none {raw : Text} (h : bracketFault (normal raw) = none) :
    (∃ token ∈ tokens (normal raw), ∃ inner, token.lexeme = .segment inner) ∧
    (∀ token ∈ tokens (normal raw), ∀ text, token.lexeme = .stray text → text.head? ≠ some '[') ∧
    ((∃ call, Call.ofNormal raw (normal raw) = .ok call ∧ call.segments ≠ []) ∨
      ∃ letter, Call.ofNormal raw (normal raw) = .error (.unknownFlag letter) ∧
        (Fault.call (.unknownFlag letter)).message
          = "unknown macro flag <".toList ++ letter :: ">".toList) := by
  obtain ⟨hopen, hpairs⟩ := pairs_of_bracketFault h
  obtain ⟨inner, hinner⟩ := exists_segment hopen hpairs
  refine ⟨?_, ?_, ?_⟩
  · obtain ⟨token, htoken, hlexeme⟩ := exists_mem_tokens_iff.mpr ⟨hinner, rfl⟩
    exact ⟨token, htoken, inner, hlexeme⟩
  · intro token htoken text htext
    obtain ⟨hstray, -⟩ := exists_mem_tokens_iff.mp ⟨token, htoken, htext⟩
    exact head?_ne_of_stray_mem hpairs hstray
  · rcases ofNormal_of_segment_mem raw hinner with hcall | ⟨letter, hletter⟩
    · exact Or.inl hcall
    · exact Or.inr ⟨letter, hletter, rfl⟩

/-- The name holds a bracket of its own, so the scan goes on where one bracket is still open. -/
theorem segments_of_nested :
    bracketFault (normal "[exists[x] y]<T>[t]".toList) = none ∧
    (∀ token ∈ tokens (normal "[exists[x] y]<T>[t]".toList), ∀ text,
      token.lexeme = .stray text → text.head? ≠ some '[') := by
  have h : bracketFault (normal "[exists[x] y]<T>[t]".toList) = none := by decide +kernel
  exact ⟨h, (segments_of_bracketFault_eq_none h).2.1⟩

end MacroLint.Literal
