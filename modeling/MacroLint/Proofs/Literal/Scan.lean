import MacroLint.Literal.Token
import MacroLint.Proofs.Literal.Essence

/-!
# The scan

`Lexeme.next` is written for running: it tries the kinds of lexeme one after another. `Reads` says
which lexeme can be read in front of which text, one rule for each kind, and with it a proof about
the scan splits into the cases that matter. Neither the first character nor what it was before the
split is in the rules, since a lexeme and the text behind it spell both.

A row of lexemes is then a row of readings (`scanInduction`), and each token is such a lexeme at the
place where the lexemes in front of it end (`mem_locate_iff`).
-/

set_option autoImplicit false

namespace MacroLint.Literal

open Text

/-! ## 1. Single readings -/

/-- The lexeme can be read with the given text behind it. -/
inductive Lexeme.Reads : Lexeme → Text → Prop
  | gap {c : Char} {rest : Text} (hsep : isSeparator c = true) : Reads (gap c) rest
  | segment {inner rest : Text} (hclose : ']' ∉ inner) : Reads (segment inner) rest
  /-- An opening bracket that nothing closes takes all there is. -/
  | unclosed {text : Text} (hclose : ']' ∉ text) : Reads (stray ('[' :: text)) []
  | flag {letters rest : Text} (hne : letters ≠ []) (halpha : ∀ c ∈ letters, c.isAlpha = true) :
      Reads (flag letters) rest
  | stray {c : Char} {run rest : Text} (hopen : c ≠ '[') (hsep : isSeparator c = false)
      (hmarker : c = '<' → marker? (run ++ rest) = none)
      (hrun : ∀ d ∈ run, startsOther d = false) : Reads (stray (c :: run)) rest

/-- What the scan reads is read by one of the rules. -/
theorem Lexeme.reads_next (c : Char) (cs : Text) : Reads (next c cs).1 (next c cs).2 := by
  unfold next
  split
  · rename_i hsep
    exact .gap hsep
  · rename_i hsep
    split
    · rename_i hopen
      subst hopen
      split
      · rename_i inner rest hcut
        exact .segment (cut_eq_some_iff.mp hcut).2
      · rename_i hcut
        exact .unclosed (cut_eq_none_iff.mp hcut)
    · rename_i hopen
      split
      · rename_i letters rest hmarker
        split at hmarker
        · obtain ⟨hne, halpha, -⟩ := marker?_eq_some_iff.mp hmarker
          exact .flag hne halpha
        · cases hmarker
      · rename_i hmarker
        refine .stray hopen (Bool.eq_false_iff.mpr hsep) (fun hless => ?_) (fun d hd => ?_)
        · rw [List.takeWhile_append_dropWhile]
          rwa [if_pos hless] at hmarker
        · exact Bool.not_eq_eq_eq_not.mp (List.all_eq_true.mp List.all_takeWhile d hd)

/-- A lexeme is not empty. -/
theorem Lexeme.Reads.source_ne_nil {l : Lexeme} {rest : Text} (h : Reads l rest) :
    l.source ≠ [] := by
  cases h <;> exact List.cons_ne_nil _ _

theorem startsOther_eq_false_iff {c : Char} :
    Lexeme.startsOther c = false ↔ c ≠ '[' ∧ c ≠ '<' ∧ isSeparator c = false := by
  simp only [Lexeme.startsOther, Bool.or_eq_false_iff, beq_eq_false_iff_ne, and_assoc]

/-- Whether a lexeme is a segment. -/
def Lexeme.isSegment : Lexeme → Bool
  | .segment _ => true
  | _ => false

/-- A lexeme that begins with an opening bracket is a segment, or takes all there is; the others have
no opening bracket in them. -/
theorem Lexeme.Reads.cases_open {l : Lexeme} {rest : Text} (h : l.Reads rest) :
    (∃ inner, ']' ∉ inner ∧ l = .segment inner) ∨
    (∃ text, ']' ∉ text ∧ l = .stray ('[' :: text) ∧ rest = []) ∨
    ('[' ∉ l.source ∧ l.isSegment = false) := by
  cases h with
  | segment hclose => exact Or.inl ⟨_, hclose, rfl⟩
  | unclosed hclose => exact Or.inr (Or.inl ⟨_, hclose, rfl, rfl⟩)
  | gap hsep =>
    refine Or.inr (Or.inr ⟨fun hmem => ?_, rfl⟩)
    rw [← List.mem_singleton.mp hmem] at hsep
    cases hsep
  | flag hne halpha =>
    refine Or.inr (Or.inr ⟨fun hmem => ?_, rfl⟩)
    rcases List.mem_cons.mp hmem with hless | hmem
    · cases hless
    · rcases List.mem_append.mp hmem with hletter | hgreater
      · cases halpha _ hletter
      · cases List.mem_singleton.mp hgreater
  | stray hopen hsep hmarker hrun =>
    refine Or.inr (Or.inr ⟨fun hmem => ?_, rfl⟩)
    rcases List.mem_cons.mp hmem with hfirst | hmem
    · exact hopen hfirst.symm
    · cases hrun _ hmem

/-! ## 2. Rows of readings -/

/-- Induction along the scan: a text is empty, or a lexeme is read in front of a text. -/
@[elab_as_elim]
theorem scanInduction {motive : Text → Prop} (nil : motive [])
    (cons : ∀ (l : Lexeme) (rest : Text), l.Reads rest →
      lexemes (l.source ++ rest) = l :: lexemes rest → motive rest → motive (l.source ++ rest))
    (t : Text) : motive t := by
  fun_induction lexemes t with
  | case1 => exact nil
  | case2 c cs ih =>
    have hlexemes : lexemes (c :: cs) = (Lexeme.next c cs).1 :: lexemes (Lexeme.next c cs).2 := by
      rw [lexemes]
    have hsource := Lexeme.source_append_next c cs
    rw [← hsource] at hlexemes ⊢
    exact cons _ _ (Lexeme.reads_next c cs) hlexemes ih

theorem lexemes_nil : lexemes [] = [] := by
  rw [lexemes]

/-- Each lexeme of a text is read where the lexemes in front of it end, and the scan goes on behind
it. -/
theorem exists_rest_of_lexemes {t : Text} {before behind : List Lexeme} {l : Lexeme}
    (h : lexemes t = before ++ l :: behind) :
    ∃ rest, l.Reads rest ∧ lexemes rest = behind ∧
      t = before.flatMap Lexeme.source ++ (l.source ++ rest) := by
  induction t using scanInduction generalizing before with
  | nil =>
    rw [lexemes_nil] at h
    exact absurd h.symm (List.append_ne_nil_of_right_ne_nil _ (List.cons_ne_nil _ _))
  | cons first rest hread hlexemes ih =>
    rw [hlexemes] at h
    cases before with
    | nil =>
      obtain ⟨rfl, rfl⟩ := List.cons.inj h
      exact ⟨rest, hread, rfl, rfl⟩
    | cons b before =>
      obtain ⟨rfl, hbehind⟩ := List.cons.inj h
      obtain ⟨left, hleft, hscan, heq⟩ := ih hbehind
      refine ⟨left, hleft, hscan, ?_⟩
      rw [heq, List.flatMap_cons, List.append_assoc]

/-! ## 3. Tokens -/

theorem locate_append (start : Nat) (ls ms : List Lexeme) :
    locate start (ls ++ ms)
      = locate start ls ++ locate (start + byteLength (ls.flatMap Lexeme.source)) ms := by
  induction ls generalizing start with
  | nil => rfl
  | cons l ls ih =>
    rw [List.cons_append, locate, ih, List.flatMap_cons, byteLength_append, Nat.add_assoc]
    rfl

/-- A lexeme stands where the lexemes in front of it end. -/
theorem mem_locate_iff {start : Nat} {ls : List Lexeme} {token : Token} :
    token ∈ locate start ls ↔ ∃ before behind, ls = before ++ token.lexeme :: behind ∧
      token.start = start + byteLength (before.flatMap Lexeme.source) ∧
      token.stop = token.start + byteLength token.lexeme.source := by
  induction ls generalizing start with
  | nil => simp [locate]
  | cons l ls ih =>
    rw [locate, List.mem_cons, ih]
    constructor
    · rintro (rfl | ⟨before, behind, rfl, hstart, hstop⟩)
      · exact ⟨[], ls, rfl, rfl, rfl⟩
      · refine ⟨l :: before, behind, rfl, ?_, hstop⟩
        rw [hstart, List.flatMap_cons, byteLength_append, Nat.add_assoc]
    · rintro ⟨before, behind, hls, hstart, hstop⟩
      cases before with
      | nil =>
        obtain ⟨rfl, rfl⟩ := List.cons.inj hls
        left
        obtain ⟨lexeme, first, stop⟩ := token
        obtain rfl : first = start := hstart
        exact congrArg (Token.mk lexeme first) hstop
      | cons b before =>
        obtain ⟨rfl, rfl⟩ := List.cons.inj hls
        refine Or.inr ⟨before, behind, rfl, ?_, hstop⟩
        rw [hstart, List.flatMap_cons, byteLength_append, Nat.add_assoc]

theorem mem_tokens_iff {t : Text} {token : Token} :
    token ∈ tokens t ↔ token ∈ locate 0 (lexemes t) ∧ token.lexeme.isToken = true :=
  List.mem_filter

end MacroLint.Literal
