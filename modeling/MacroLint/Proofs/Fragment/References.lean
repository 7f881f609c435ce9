import MacroLint.Fragment.Bind

/-!
# What a fragment references

A bind variable is found by blanking strings and looking at neighbours. Said without either, a text
references one where a single colon stands in front of a word character, at a place that is not in
a string, which is a place with an even number of quotes before it (`hasBind_iff_references`).

What is in a string is all there is to a place: comments are ordinary text. `Region` is the reading
that knows comments as well. It comes to the same where no comment opens (`hasBind_iff_inCode`), and
is here to say where the two part.
-/

set_option autoImplicit false

namespace MacroLint.Fragment

open Text

/-! ## 1. References -/

/-- A single colon with a word character behind it, and before it a text that `live` admits. -/
def ReferencesWhere (live : Text → Prop) (t : Text) : Prop :=
  ∃ before c after, t = before ++ ':' :: c :: after ∧ isWordChar c = true ∧
    before.getLast? ≠ some ':' ∧ live before

theorem referencesWhere_congr {live live' : Text → Prop} {t : Text}
    (h : ∀ before, before <+: t → (live before ↔ live' before)) :
    ReferencesWhere live t ↔ ReferencesWhere live' t := by
  constructor
  · rintro ⟨before, c, after, rfl, hc, hlast, hlive⟩
    exact ⟨before, c, after, rfl, hc, hlast, (h before (List.prefix_append _ _)).mp hlive⟩
  · rintro ⟨before, c, after, rfl, hc, hlast, hlive⟩
    exact ⟨before, c, after, rfl, hc, hlast, (h before (List.prefix_append _ _)).mpr hlive⟩

theorem referencesWhere_iff {live : Text → Prop} {t : Text} :
    ReferencesWhere live t ↔ ∃ i < t.length, t[i]? = some ':' ∧ t[i + 1]?.any isWordChar = true ∧
      (t.take i).getLast? ≠ some ':' ∧ live (t.take i) := by
  constructor
  · rintro ⟨before, c, after, rfl, hc, hlast, hlive⟩
    refine ⟨before.length, by simp, by simp, ?_, ?_, ?_⟩
    · simpa [List.getElem?_append_right] using hc
    · simpa using hlast
    · simpa using hlive
  · rintro ⟨i, hi, hcolon, hword, hlast, hlive⟩
    cases hnext : t[i + 1]? with
    | none =>
      rw [hnext] at hword
      cases hword
    | some c =>
      rw [hnext] at hword
      refine ⟨t.take i, c, t.drop (i + 2), ?_, hword, hlast, hlive⟩
      obtain ⟨hi', hnext⟩ := List.getElem?_eq_some_iff.mp hnext
      obtain ⟨hi, hcolon⟩ := List.getElem?_eq_some_iff.mp hcolon
      rw [← hcolon, ← hnext, ← List.drop_eq_getElem_cons hi', ← List.drop_eq_getElem_cons hi,
        List.take_append_drop]

instance (live : Text → Prop) [DecidablePred live] (t : Text) :
    Decidable (ReferencesWhere live t) := decidable_of_iff' _ referencesWhere_iff

/-- Behind this text a place is not in a string: its quotes pair up. -/
def Unquoted (before : Text) : Prop := before.count '\'' % 2 = 0

instance : DecidablePred Unquoted :=
  fun before => inferInstanceAs (Decidable (before.count '\'' % 2 = 0))

/-- A bind variable outside strings. -/
abbrev References : Text → Prop := ReferencesWhere Unquoted

/-- A bind variable in the rest of a text; `quoted` and `colon` say what stands before the rest. -/
def ReferencesFrom (quoted colon : Bool) (t : Text) : Prop :=
  ∃ before c after, t = before ++ ':' :: c :: after ∧ isWordChar c = true ∧
    (before = [] → colon = false) ∧ before.getLast? ≠ some ':' ∧
    (before.count '\'' + quoted.toNat) % 2 = 0

theorem referencesFrom_nil (quoted colon : Bool) : ¬ReferencesFrom quoted colon [] := by
  rintro ⟨before, c, after, h, -⟩
  simp at h

/-- In a string it does not matter whether a colon stands before the rest. -/
theorem referencesFrom_quoted {colon colon' : Bool} {t : Text}
    (h : ReferencesFrom true colon t) : ReferencesFrom true colon' t := by
  obtain ⟨before, c, after, ht, hc, -, hlast, hquotes⟩ := h
  refine ⟨before, c, after, ht, hc, ?_, hlast, hquotes⟩
  rintro rfl
  simp at hquotes

theorem referencesFrom_cons {quoted colon : Bool} {c : Char} {t : Text} :
    ReferencesFrom quoted colon (c :: t) ↔
      (c = ':' ∧ colon = false ∧ quoted = false ∧ t.head?.any isWordChar = true) ∨
        ReferencesFrom (quoted ^^ c == '\'') (c == ':') t := by
  have hparity (n : Nat) : (n + (if c == '\'' then 1 else 0) + quoted.toNat) % 2
      = (n + (quoted ^^ c == '\'').toNat) % 2 := by
    cases quoted with
    | false => cases c == '\'' <;> simp
    | true =>
      cases c == '\'' with
      | false => simp
      | true => simp [Nat.add_assoc]
  constructor
  · rintro ⟨before, d, after, ht, hd, hcolon, hlast, hquotes⟩
    cases before with
    | nil =>
      obtain ⟨rfl, rfl⟩ := List.cons.inj ht
      refine Or.inl ⟨rfl, hcolon rfl, ?_, by simpa using hd⟩
      cases quoted with
      | false => rfl
      | true => simp at hquotes
    | cons b before =>
      obtain ⟨rfl, rfl⟩ := List.cons.inj ht
      refine Or.inr ⟨before, d, after, rfl, hd, ?_, ?_, ?_⟩
      · rintro rfl
        simpa using hlast
      · cases before with
        | nil => simp
        | cons b' before => simpa using hlast
      · rw [← hparity, ← List.count_cons]
        exact hquotes
  · rintro (⟨rfl, rfl, rfl, hhead⟩ | ⟨before, d, after, rfl, hd, hcolon, hlast, hquotes⟩)
    · cases t with
      | nil => cases hhead
      | cons d after =>
        exact ⟨[], d, after, rfl, by simpa using hhead, fun _ => rfl, by simp, by simp⟩
    · have hne := List.cons_ne_nil c before
      refine ⟨c :: before, d, after, rfl, hd, fun h => absurd h hne, ?_, ?_⟩
      · cases before with
        | nil => simpa using hcolon rfl
        | cons b before => simpa using hlast
      · rw [List.count_cons, hparity]
        exact hquotes

theorem head?_blankStrings (t : Text) :
    (blankStrings false t).head?.any isWordChar = t.head?.any isWordChar := by
  cases t with
  | nil => rfl
  | cons c t =>
    by_cases hc : c = '\''
    · subst hc
      rfl
    · simp [blankStrings, hc]

theorem hasBindFrom_blankStrings {quoted colon : Bool} {t : Text} :
    hasBindFrom colon (blankStrings quoted t) = true ↔ ReferencesFrom quoted colon t := by
  induction t generalizing quoted colon with
  | nil => simpa [blankStrings, hasBindFrom] using referencesFrom_nil quoted colon
  | cons c t ih =>
    rw [referencesFrom_cons]
    by_cases hquote : c = '\''
    · subst hquote
      simp [blankStrings, hasBindFrom, ih]
    · have hbeq : (c == '\'') = false := beq_eq_false_iff_ne.mpr hquote
      cases quoted with
      | true =>
        -- The character is blanked, so the rest is read as if no colon stood before it.
        have hblank : ReferencesFrom true false t ↔ ReferencesFrom true (c == ':') t :=
          ⟨referencesFrom_quoted, referencesFrom_quoted⟩
        simp [blankStrings, hasBindFrom, hquote, hbeq, ih, hblank]
      | false =>
        simp [blankStrings, hasBindFrom, hquote, hbeq, ih, head?_blankStrings, and_assoc]

theorem hasBind_iff_references {t : Text} : hasBind t = true ↔ References t := by
  rw [hasBind, hasBindFrom_blankStrings]
  constructor
  · rintro ⟨before, c, after, ht, hc, -, hlast, hquotes⟩
    exact ⟨before, c, after, ht, hc, hlast, by simpa [Unquoted] using hquotes⟩
  · rintro ⟨before, c, after, ht, hc, hlast, hquotes⟩
    exact ⟨before, c, after, ht, hc, fun _ => rfl, hlast, by simpa [Unquoted] using hquotes⟩

/-! ## 2. Comments -/

/-- What a place in a text belongs to, for a reader who knows comments. -/
inductive Region where
  | code
  | string
  | comment
  deriving DecidableEq, Repr

/-- What a place belongs to behind a text that starts in a region. A quote in a comment opens no
string, and in a string no comment opens. -/
def Region.behind : Region → Text → Region
  | r, [] => r
  | .code, '\'' :: t => Region.string.behind t
  | .code, '/' :: '*' :: t => Region.comment.behind t
  | .code, _ :: t => Region.code.behind t
  | .string, '\'' :: t => Region.code.behind t
  | .string, _ :: t => Region.string.behind t
  | .comment, '*' :: '/' :: t => Region.code.behind t
  | .comment, _ :: t => Region.comment.behind t

/-- Behind this text a place is neither in a string nor in a comment. -/
def InCode (before : Text) : Prop := Region.code.behind before = .code

instance (before : Text) : Decidable (InCode before) :=
  inferInstanceAs (Decidable (Region.code.behind before = .code))

/-- No comment opens in the text. -/
def CommentFree (t : Text) : Prop := ∀ before, before <+: t → Region.code.behind before ≠ .comment

instance (t : Text) : Decidable (CommentFree t) :=
  decidable_of_iff (∀ i < t.length + 1, Region.code.behind (t.take i) ≠ .comment) <| by
    constructor
    · intro h before hbefore
      rw [List.prefix_iff_eq_take.mp hbefore]
      exact h before.length (Nat.lt_succ_of_le hbefore.length_le)
    · intro h i _
      exact h (t.take i) (List.take_prefix i t)

/-- The regions of a text without comments. -/
def Region.ofQuoted (quoted : Bool) : Region := if quoted then .string else .code

/-- Where no comment opens, the region is the parity of the quotes. -/
theorem behind_eq_code_iff {quoted : Bool} {t : Text}
    (h : ∀ before, before <+: t → (Region.ofQuoted quoted).behind before ≠ .comment) :
    (Region.ofQuoted quoted).behind t = .code ↔ (t.count '\'' + quoted.toNat) % 2 = 0 := by
  induction t generalizing quoted with
  | nil => cases quoted <;> decide
  | cons c t ih =>
    by_cases hquote : c = '\''
    · subst hquote
      have hstep (s : Text) : (Region.ofQuoted quoted).behind ('\'' :: s)
          = (Region.ofQuoted !quoted).behind s := by
        cases quoted <;> rfl
      have htail := @ih (!quoted) fun before hbefore =>
        hstep before ▸ h ('\'' :: before) ((List.prefix_cons_inj _).mpr hbefore)
      rw [hstep, htail, List.count_cons_self]
      cases quoted <;> simp
      omega
    · have hstep : ∀ s, s <+: t →
          (Region.ofQuoted quoted).behind (c :: s) = (Region.ofQuoted quoted).behind s := by
        intro s hs
        cases quoted with
        | true =>
          show Region.string.behind (c :: s) = Region.string.behind s
          rw [Region.behind]
          exact hquote
        | false =>
          show Region.code.behind (c :: s) = Region.code.behind s
          rw [Region.behind]
          · exact hquote
          · -- A slash and an asterisk would open a comment.
            rintro rest rfl rfl
            have hopens : ['/', '*'] <+: '/' :: t :=
              (List.prefix_cons_inj _).mpr ((List.prefix_append ['*'] rest).trans hs)
            exact h ['/', '*'] hopens rfl
      have htail := @ih quoted fun before hbefore =>
        hstep before hbefore ▸ h (c :: before) ((List.prefix_cons_inj _).mpr hbefore)
      rw [hstep t List.prefix_rfl, htail, List.count_cons_of_ne hquote]

theorem hasBind_iff_inCode {t : Text} (h : CommentFree t) :
    hasBind t = true ↔ ReferencesWhere InCode t := by
  rw [hasBind_iff_references]
  refine referencesWhere_congr fun before hbefore => ?_
  have hfree : CommentFree before := fun s hs => h s (hs.trans hbefore)
  exact (@behind_eq_code_iff false before hfree).symm

end MacroLint.Fragment
