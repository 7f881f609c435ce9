import MacroLint.Proofs.Literal.Scan

/-!
# The scan finds what the pattern finds

The brackets of a literal are documented as a pattern, `\[(.*?)\]`, whose matches are to be found
from left to right: of the matches that begin behind the last one, the leftmost, and of those that
begin there, the shortest. `Match.Finds` says this of a list of matches without saying how to find
them. `Match.allFrom` finds them, by two cuts a match: at the first `[`, then at the first `]`.

The scan does neither. It stops at other places as well, at separators and at the ends of markers
and stray text, and what has to be shown is that no bracket goes by unseen: none of these lexemes
has a `[` in it, so the search may begin again behind any of them (`Match.allFrom_append`). Markers
are the same argument for `<`, which is harder for one reason: stray text may begin with `<`, but
only where no marker begins.

A place in the text is given as the text in front of it, so that one place lies before another if it
is a beginning of the other.
-/

set_option autoImplicit false

namespace MacroLint.Literal

open Text

/-! ## 1. Matches -/

/-- An occurrence of `[capture]` behind the text `before`. -/
structure Match where
  before : Text
  capture : Text
  deriving DecidableEq, Repr

namespace Match

/-- The text up to the end of the match. -/
def through (m : Match) : Text := m.before ++ (Lexeme.segment m.capture).source

/-- The token that a match is. -/
def token (m : Match) : Token := ⟨.segment m.capture, byteLength m.before, byteLength m.through⟩

/-- Of the matches in `t` that begin behind `past`, the leftmost, and the shortest there. -/
structure IsFirst (t past : Text) (m : Match) : Prop where
  occurs : m.through <+: t
  behind : past <+: m.before
  leftmost : ∀ n : Match, n.through <+: t → past <+: n.before → m.before.length ≤ n.before.length
  shortest : ∀ n : Match, n.through <+: t → n.before = m.before →
    m.capture.length ≤ n.capture.length

/-- The matches in `t` behind `past`, each the first behind the one before it. -/
inductive Finds (t : Text) : Text → List Match → Prop
  | none {past : Text} (hnone : ∀ m : Match, m.through <+: t → ¬past <+: m.before) : Finds t past []
  | next {past : Text} {m : Match} {ms : List Match} (hfirst : IsFirst t past m)
      (hrest : Finds t m.through ms) : Finds t past (m :: ms)

/-- The matches in a text that begins with `past` and goes on with the given text: cut at the first
opening bracket, then at the first closing one. -/
def allFrom (past rest : Text) : List Match :=
  match _hopen : cut '[' rest with
  | none => []
  | some (skipped, inside) =>
    match _hclose : cut ']' inside with
    | none => []
    | some (capture, behind) =>
      let m : Match := ⟨past ++ skipped, capture⟩
      m :: allFrom m.through behind
termination_by rest.length
decreasing_by exact Nat.lt_trans (length_lt_of_cut _hclose) (length_lt_of_cut _hopen)

variable {t past : Text}

/-- There is at most one first match. -/
theorem IsFirst.unique {m n : Match} (hm : IsFirst t past m) (hn : IsFirst t past n) : m = n := by
  have hbefore : m.before = n.before := by
    have hlength := Nat.le_antisymm (hm.leftmost n hn.occurs hn.behind)
      (hn.leftmost m hm.occurs hm.behind)
    have hpre : m.before <+: t := (List.prefix_append _ _).trans hm.occurs
    have hpre' : n.before <+: t := (List.prefix_append _ _).trans hn.occurs
    have hm' := List.prefix_of_prefix_length_le hpre hpre' (Nat.le_of_eq hlength)
    exact hm'.eq_of_length hlength
  have hthrough : m.through = n.through := by
    have hcapture := Nat.le_antisymm (hm.shortest n hn.occurs hbefore.symm)
      (hn.shortest m hm.occurs hbefore)
    have hlength : m.through.length = n.through.length := by
      simp only [through, Lexeme.source, hbefore, hcapture, List.length_append, List.length_cons]
    have hpre := List.prefix_of_prefix_length_le hm.occurs hn.occurs (Nat.le_of_eq hlength)
    exact hpre.eq_of_length hlength
  obtain ⟨before, capture⟩ := m
  obtain ⟨before', capture'⟩ := n
  obtain rfl : before = before' := hbefore
  obtain ⟨-, hsource⟩ := List.cons.inj (List.append_cancel_left hthrough)
  exact congrArg (Match.mk before) (List.append_cancel_right hsource)

/-- What is found is determined by the text. -/
theorem Finds.unique {ms ns : List Match} (hm : Finds t past ms) (hn : Finds t past ns) :
    ms = ns := by
  induction hm generalizing ns with
  | none hnone =>
    cases hn with
    | none => rfl
    | next hfirst => exact absurd hfirst.behind (hnone _ hfirst.occurs)
  | next hfirst hrest ih =>
    cases hn with
    | none hnone => exact absurd hfirst.behind (hnone _ hfirst.occurs)
    | next hfirst' hrest' =>
      obtain rfl := hfirst.unique hfirst'
      exact congrArg _ (ih hrest')

end Match

/-! ## 2. Cutting at brackets -/

/-- Text without a character ends before the first place of that character. -/
theorem exists_append_of_not_mem {d : Char} {s a u b : Text} (h : s ++ a = u ++ d :: b)
    (hs : d ∉ s) : ∃ w, u = s ++ w ∧ a = w ++ d :: b := by
  rcases List.append_eq_append_iff.mp h with ⟨w, hu, ha⟩ | ⟨w, hsplit, hb⟩
  · exact ⟨w, hu, ha⟩
  · cases w with
    | nil => exact ⟨[], by rw [hsplit]; simp, hb.symm⟩
    | cons e w =>
      obtain ⟨rfl, -⟩ := List.cons.inj hb
      rw [hsplit] at hs
      exact absurd (List.mem_append_right u List.mem_cons_self) hs

/-- Text without a character begins behind the last place of that character. -/
theorem prefix_of_append_not_mem {d : Char} (s : Text) {a u b : Text} (h : s ++ [d] ++ a = u ++ b)
    (hb : d ∉ b) : s ++ [d] <+: u := by
  rw [List.append_assoc, List.singleton_append] at h
  rcases List.append_eq_append_iff.mp h with ⟨w, rfl, hsplit⟩ | ⟨w, -, rfl⟩
  · cases w with
    | nil =>
      rw [List.nil_append] at hsplit
      exact absurd (hsplit ▸ List.mem_cons_self) hb
    | cons e w =>
      obtain ⟨rfl, -⟩ := List.cons.inj hsplit
      exact ⟨w, by simp⟩
  · exact absurd (List.mem_append_right w List.mem_cons_self) hb

namespace Match

variable {past : Text}

theorem allFrom_of_not_mem {rest : Text} (h : '[' ∉ rest) : allFrom past rest = [] := by
  rw [allFrom]
  split
  · rfl
  · rename_i skipped inside hopen
    rw [cut_eq_none_iff.mpr h] at hopen
    cases hopen

theorem allFrom_unclosed {skipped text : Text} (hopen : '[' ∉ skipped) (hclose : ']' ∉ text) :
    allFrom past (skipped ++ '[' :: text) = [] := by
  have hcut : cut '[' (skipped ++ '[' :: text) = some (skipped, text) :=
    cut_eq_some_iff.mpr ⟨rfl, hopen⟩
  rw [allFrom]
  split
  · rfl
  · rename_i skipped' inside heq
    obtain ⟨rfl, rfl⟩ := Prod.mk.inj (Option.some.inj (heq.symm.trans hcut))
    split
    · rfl
    · rename_i capture behind heq'
      rw [cut_eq_none_iff.mpr hclose] at heq'
      cases heq'

theorem allFrom_closed {skipped capture : Text} (hopen : '[' ∉ skipped) (hclose : ']' ∉ capture)
    (past behind : Text) :
    allFrom past (skipped ++ '[' :: (capture ++ ']' :: behind))
      = ⟨past ++ skipped, capture⟩ :: allFrom (through ⟨past ++ skipped, capture⟩) behind := by
  have hcut : cut '[' (skipped ++ '[' :: (capture ++ ']' :: behind))
      = some (skipped, capture ++ ']' :: behind) := cut_eq_some_iff.mpr ⟨rfl, hopen⟩
  have hcut' : cut ']' (capture ++ ']' :: behind) = some (capture, behind) :=
    cut_eq_some_iff.mpr ⟨rfl, hclose⟩
  rw [allFrom]
  split
  · rename_i heq
    rw [hcut] at heq
    cases heq
  · rename_i skipped' inside heq
    obtain ⟨rfl, rfl⟩ := Prod.mk.inj (Option.some.inj (heq.symm.trans hcut))
    split
    · rename_i heq'
      rw [hcut'] at heq'
      cases heq'
    · rename_i capture' behind' heq'
      obtain ⟨rfl, rfl⟩ := Prod.mk.inj (Option.some.inj (heq'.symm.trans hcut'))
      rfl

/-- A text is one of those that the two cuts tell apart. -/
theorem cases_brackets (rest : Text) :
    '[' ∉ rest ∨
    (∃ skipped text, '[' ∉ skipped ∧ ']' ∉ text ∧ rest = skipped ++ '[' :: text) ∨
    ∃ skipped capture behind, '[' ∉ skipped ∧ ']' ∉ capture ∧
      rest = skipped ++ '[' :: (capture ++ ']' :: behind) := by
  by_cases hopen : '[' ∈ rest
  · obtain ⟨skipped, text, rfl, hskipped⟩ := List.eq_append_cons_of_mem hopen
    by_cases hclose : ']' ∈ text
    · obtain ⟨capture, behind, rfl, hcapture⟩ := List.eq_append_cons_of_mem hclose
      exact Or.inr (Or.inr ⟨skipped, capture, behind, hskipped, hcapture, rfl⟩)
    · exact Or.inr (Or.inl ⟨skipped, text, hskipped, hclose, rfl⟩)
  · exact Or.inl hopen

/-- The search may begin anew behind text without an opening bracket. -/
theorem allFrom_append {s : Text} (hs : '[' ∉ s) (past rest : Text) :
    allFrom past (s ++ rest) = allFrom (past ++ s) rest := by
  have happend {skipped : Text} (h : '[' ∉ skipped) : '[' ∉ s ++ skipped := fun hmem =>
    (List.mem_append.mp hmem).elim hs h
  rcases cases_brackets rest with hopen | ⟨skipped, text, hopen, hclose, rfl⟩ |
    ⟨skipped, capture, behind, hopen, hclose, rfl⟩
  · rw [allFrom_of_not_mem hopen, allFrom_of_not_mem (happend hopen)]
  · rw [allFrom_unclosed hopen hclose, ← List.append_assoc,
      allFrom_unclosed (happend hopen) hclose]
  · rw [allFrom_closed hopen hclose, ← List.append_assoc,
      allFrom_closed (happend hopen) hclose, List.append_assoc]

theorem allFrom_segment {inner : Text} (hclose : ']' ∉ inner) (past rest : Text) :
    allFrom past ((Lexeme.segment inner).source ++ rest)
      = ⟨past, inner⟩ :: allFrom (past ++ (Lexeme.segment inner).source) rest := by
  have h := allFrom_closed List.not_mem_nil hclose past rest
  rw [List.nil_append, List.append_nil] at h
  rw [Lexeme.source, List.cons_append, List.append_assoc]
  exact h

theorem allFrom_open {text : Text} (hclose : ']' ∉ text) : allFrom past ('[' :: text) = [] :=
  allFrom_unclosed List.not_mem_nil hclose

/-- What is found lies behind the place where the search began. -/
theorem prefix_of_mem_allFrom {rest : Text} {m : Match} (h : m ∈ allFrom past rest) :
    past <+: m.before := by
  fun_induction allFrom past rest with
  | case1 | case2 => cases h
  | case3 past rest skipped inside hopen capture behind hclose m' ih =>
    rcases List.mem_cons.mp h with rfl | h
    · exact List.prefix_append past skipped
    · have hthrough : past <+: m'.through :=
        (List.prefix_append past skipped).trans (List.prefix_append _ _)
      exact hthrough.trans (ih h)

/-- Where a match is, there are its brackets. -/
theorem exists_of_through_prefix {rest : Text} {m : Match} (hoccurs : m.through <+: past ++ rest)
    (hbehind : past <+: m.before) :
    ∃ u r, m.before = past ++ u ∧ rest = u ++ '[' :: (m.capture ++ ']' :: r) := by
  obtain ⟨u, hu⟩ := hbehind
  obtain ⟨r, hr⟩ := hoccurs
  refine ⟨u, r, hu.symm, ?_⟩
  rw [through, ← hu, Lexeme.source] at hr
  simpa using hr.symm

/-- **The two cuts find the leftmost matches, and of those the shortest.** -/
theorem finds_allFrom (past rest : Text) : Finds (past ++ rest) past (allFrom past rest) := by
  fun_induction allFrom past rest with
  | case1 past rest hopen =>
    refine .none fun m hoccurs hbehind => cut_eq_none_iff.mp hopen ?_
    obtain ⟨u, r, -, hrest⟩ := exists_of_through_prefix hoccurs hbehind
    rw [hrest]
    exact List.mem_append_right u List.mem_cons_self
  | case2 past rest skipped inside hopen hclose =>
    obtain ⟨rfl, hskipped⟩ := cut_eq_some_iff.mp hopen
    refine .none fun m hoccurs hbehind => cut_eq_none_iff.mp hclose ?_
    obtain ⟨u, r, -, hrest⟩ := exists_of_through_prefix hoccurs hbehind
    obtain ⟨w, -, hinside⟩ := exists_append_of_not_mem hrest hskipped
    cases w with
    | nil =>
      obtain ⟨-, rfl⟩ := List.cons.inj hinside
      simp
    | cons e w =>
      obtain ⟨-, rfl⟩ := List.cons.inj hinside
      simp
  | case3 past rest skipped inside hopen capture behind hclose m ih =>
    obtain ⟨rfl, hskipped⟩ := cut_eq_some_iff.mp hopen
    obtain ⟨rfl, hcapture⟩ := cut_eq_some_iff.mp hclose
    have ht : past ++ (skipped ++ '[' :: (capture ++ ']' :: behind)) = m.through ++ behind := by
      simp [m, through, Lexeme.source]
    refine .next ⟨?_, List.prefix_append past skipped, ?_, ?_⟩ (ht ▸ ih)
    · exact ht ▸ List.prefix_append _ _
    · intro n hoccurs hbehind
      obtain ⟨u, r, hbefore, hrest⟩ := exists_of_through_prefix hoccurs hbehind
      obtain ⟨w, rfl, -⟩ := exists_append_of_not_mem hrest hskipped
      rw [hbefore]
      simp [m]
    · intro n hoccurs hbefore
      have hbehind : past <+: n.before := hbefore ▸ List.prefix_append past skipped
      obtain ⟨u, r, hu, hrest⟩ := exists_of_through_prefix hoccurs hbehind
      obtain rfl : skipped = u := List.append_cancel_left (hbefore.symm.trans hu)
      obtain ⟨-, hinside⟩ := List.cons.inj (List.append_cancel_left hrest)
      obtain ⟨w, hw, -⟩ := exists_append_of_not_mem hinside hcapture
      rw [hw]
      simp [m]

end Match

/-! ## 3. Segments are matches -/

/-- Whether a lexeme is a marker. -/
def Lexeme.isFlag : Lexeme → Bool
  | .flag _ => true
  | _ => false

theorem Lexeme.isToken_of_isFlag {l : Lexeme} (h : l.isFlag = true) : l.isToken = true := by
  cases l with
  | flag letters => rfl
  | gap c | segment inner | stray text => cases h

theorem filter_isSegment_locate (past rest : Text) :
    (locate (byteLength past) (lexemes rest)).filter (fun token => token.lexeme.isSegment)
      = (Match.allFrom past rest).map Match.token := by
  induction rest using scanInduction generalizing past with
  | nil =>
    rw [lexemes_nil, Match.allFrom_of_not_mem List.not_mem_nil]
    rfl
  | cons l rest hread hlexemes ih =>
    have ih := ih (past ++ l.source)
    rw [hlexemes, locate, ← byteLength_append]
    rcases hread.cases_open with ⟨inner, hclose, rfl⟩ | ⟨text, hclose, rfl, rfl⟩ |
      ⟨hopen, hsegment⟩
    · rw [List.filter_cons_of_pos (by rfl), ih, Match.allFrom_segment hclose]
      rfl
    · rw [lexemes_nil, List.append_nil, Lexeme.source, Match.allFrom_open hclose]
      rfl
    · have hskip : ¬l.isSegment = true := Bool.eq_false_iff.mp hsegment
      rw [List.filter_cons_of_neg (by exact hskip), ih, Match.allFrom_append hopen]

/-! ## 4. Markers between matches -/

/-- A marker of some letters behind the text `before`. -/
structure Marker where
  before : Text
  letters : Text
  deriving DecidableEq, Repr

namespace Marker

/-- The text up to the end of the marker. -/
def through (k : Marker) : Text := k.before ++ (Lexeme.flag k.letters).source

/-- The token that a marker is. -/
def token (k : Marker) : Token := ⟨.flag k.letters, byteLength k.before, byteLength k.through⟩

/-- A marker behind `past`, in a text that goes on with `rest` there, is free: each match lies
behind it or before it, and so does each opening bracket that nothing closes lie behind it. -/
structure IsFree (past rest : Text) (k : Marker) : Prop where
  ne_nil : k.letters ≠ []
  isAlpha : ∀ c ∈ k.letters, c.isAlpha = true
  behind : past <+: k.before
  occurs : k.through <+: past ++ rest
  apart : ∀ m ∈ Match.allFrom past rest, k.through <+: m.before ∨ m.through <+: k.before
  opened : ∀ u text, rest = u ++ '[' :: text → ']' ∉ text → k.through <+: past ++ u

variable {past s rest : Text} {k : Marker}

theorem not_through_of_behind (h : past <+: k.before) : ¬k.through <+: past := by
  intro hthrough
  have hlength := hthrough.length_le
  have hbefore := h.length_le
  simp only [through, Lexeme.source, List.length_append, List.length_cons] at hlength
  omega

theorem IsFree.ne_nil_rest (h : k.IsFree past rest) : rest ≠ [] := by
  rintro rfl
  have hoccurs := h.occurs
  rw [List.append_nil] at hoccurs
  exact not_through_of_behind h.behind hoccurs

/-- Where a marker is, there are its brackets. -/
theorem IsFree.exists_eq (h : k.IsFree past rest) :
    ∃ w r, k.before = past ++ w ∧ rest = w ++ '<' :: (k.letters ++ '>' :: r) := by
  obtain ⟨w, hw⟩ := h.behind
  obtain ⟨r, hr⟩ := h.occurs
  refine ⟨w, r, hw.symm, ?_⟩
  rw [through, ← hw, Lexeme.source] at hr
  simpa using hr.symm

/-- A free marker is free in what is left of the text, if it begins there. -/
theorem IsFree.shift (h : k.IsFree past (s ++ rest)) (hbehind : past ++ s <+: k.before)
    (hms : ∀ m ∈ Match.allFrom (past ++ s) rest, m ∈ Match.allFrom past (s ++ rest)) :
    k.IsFree (past ++ s) rest where
  ne_nil := h.ne_nil
  isAlpha := h.isAlpha
  behind := hbehind
  occurs := by
    rw [List.append_assoc]
    exact h.occurs
  apart m hm := h.apart m (hms m hm)
  opened u text hrest hclose := by
    rw [List.append_assoc]
    exact h.opened (s ++ u) text (by rw [hrest, List.append_assoc]) hclose

theorem IsFree.unshift (h : k.IsFree (past ++ s) rest)
    (hms : ∀ m ∈ Match.allFrom past (s ++ rest),
      m ∈ Match.allFrom (past ++ s) rest ∨ m.through = past ++ s)
    (hopened : ∀ u text, s ++ rest = u ++ '[' :: text → ']' ∉ text → s <+: u) :
    k.IsFree past (s ++ rest) where
  ne_nil := h.ne_nil
  isAlpha := h.isAlpha
  behind := (List.prefix_append past s).trans h.behind
  occurs := by
    rw [← List.append_assoc]
    exact h.occurs
  apart m hm := by
    rcases hms m hm with hm | hm
    · exact h.apart m hm
    · exact Or.inr (hm ▸ h.behind)
  opened u text hrest hclose := by
    obtain ⟨v, rfl⟩ := hopened u text hrest hclose
    rw [List.append_assoc] at hrest
    rw [← List.append_assoc]
    exact h.opened v text (List.append_cancel_left hrest) hclose

/-- Text without an opening bracket changes nothing. -/
theorem isFree_append_iff (hopen : '[' ∉ s) :
    k.IsFree (past ++ s) rest ↔ past ++ s <+: k.before ∧ k.IsFree past (s ++ rest) := by
  have hall := Match.allFrom_append hopen past rest
  constructor
  · intro h
    refine ⟨h.behind, h.unshift (fun m hm => Or.inl (hall ▸ hm)) fun u text heq _ => ?_⟩
    obtain ⟨w, rfl, -⟩ := exists_append_of_not_mem heq hopen
    exact List.prefix_append s w
  · exact fun h => h.2.shift h.1 fun m hm => hall ▸ hm

/-- Nor does a segment: no marker reaches into one. -/
theorem isFree_segment_iff {inner : Text} (hclose : ']' ∉ inner) :
    k.IsFree (past ++ (Lexeme.segment inner).source) rest ↔
      k.IsFree past ((Lexeme.segment inner).source ++ rest) := by
  have hall := Match.allFrom_segment hclose past rest
  constructor
  · intro h
    refine h.unshift (fun m hm => ?_) fun u text heq htext => ?_
    · rw [hall] at hm
      rcases List.mem_cons.mp hm with rfl | hm
      · exact Or.inr rfl
      · exact Or.inl hm
    · have hopened : ']' ∉ '[' :: text := List.not_mem_cons_of_ne_of_not_mem (by decide) htext
      exact prefix_of_append_not_mem ('[' :: inner) heq hopened
  · intro h
    refine h.shift ?_ fun m hm => hall ▸ List.mem_cons_of_mem _ hm
    have hfirst : (⟨past, inner⟩ : Match) ∈ Match.allFrom past
        ((Lexeme.segment inner).source ++ rest) := hall ▸ List.mem_cons_self
    exact (h.apart _ hfirst).resolve_left (not_through_of_behind h.behind)

/-- A marker that is read is free. -/
theorem isFree_of_flag {letters : Text} (hne : letters ≠ [])
    (halpha : ∀ c ∈ letters, c.isAlpha = true) (hopen : '[' ∉ (Lexeme.flag letters).source) :
    (⟨past, letters⟩ : Marker).IsFree past ((Lexeme.flag letters).source ++ rest) where
  ne_nil := hne
  isAlpha := halpha
  behind := List.prefix_refl past
  occurs := ⟨rest, List.append_assoc _ _ _⟩
  apart m hm := by
    rw [Match.allFrom_append hopen] at hm
    exact Or.inl (Match.prefix_of_mem_allFrom hm)
  opened u text heq _ := by
    obtain ⟨w, rfl, -⟩ := exists_append_of_not_mem heq hopen
    exact ⟨w, List.append_assoc _ _ _⟩

/-- A marker begins where a marker is read, or behind the lexeme that is read. -/
theorem IsFree.flag_or_behind {l : Lexeme} (h : k.IsFree past (l.source ++ rest))
    (hread : l.Reads rest) (hopen : '[' ∉ l.source) :
    l = .flag k.letters ∧ k.before = past ∨ past ++ l.source <+: k.before := by
  obtain ⟨w, r, hw, heq⟩ := h.exists_eq
  rw [hw, List.prefix_append_right_inj]
  cases hread with
  | segment | unclosed => exact absurd List.mem_cons_self hopen
  | gap hsep =>
    refine Or.inr ?_
    obtain ⟨v, rfl, -⟩ := exists_append_of_not_mem heq fun hless => by
      rw [← List.mem_singleton.mp hless] at hsep
      cases hsep
    exact List.prefix_append _ v
  | @flag letters _ hne halpha =>
    cases w with
    | nil =>
      -- Both sets of letters end at the first `>`.
      have hgreater {t : Text} (ht : ∀ c ∈ t, c.isAlpha = true) : '>' ∉ t := fun hmem => by
        cases ht _ hmem
      obtain ⟨-, hrest⟩ := List.cons.inj heq
      have hcut := cut_eq_some_iff.mpr ⟨hrest, hgreater h.isAlpha⟩
      have hcut' : cut '>' ((letters ++ ['>']) ++ rest) = some (letters, rest) :=
        cut_eq_some_iff.mpr ⟨List.append_assoc _ _ _, hgreater halpha⟩
      obtain ⟨rfl, -⟩ := Prod.mk.inj (Option.some.inj (hcut'.symm.trans hcut))
      exact Or.inl ⟨rfl, List.append_nil past⟩
    | cons c w =>
      obtain ⟨rfl, hrest⟩ := List.cons.inj heq
      obtain ⟨v, rfl, -⟩ := exists_append_of_not_mem hrest fun hless => by
        rcases List.mem_append.mp hless with hletter | hgreater
        · cases halpha _ hletter
        · cases List.mem_singleton.mp hgreater
      exact Or.inr (List.prefix_append _ v)
  | @stray c run _ hfirst hsep hmarker hrun =>
    cases w with
    | nil =>
      obtain ⟨rfl, hrest⟩ := List.cons.inj heq
      have hsome : Lexeme.marker? (run ++ rest) = some (k.letters, r) :=
        marker?_eq_some_iff.mpr ⟨h.ne_nil, h.isAlpha, hrest⟩
      rw [hmarker rfl] at hsome
      cases hsome
    | cons d w =>
      obtain ⟨rfl, hrest⟩ := List.cons.inj heq
      obtain ⟨v, rfl, -⟩ := exists_append_of_not_mem hrest fun hless => by cases hrun _ hless
      exact Or.inr (List.prefix_append _ v)

/-- A marker that is free at a lexeme is that lexeme, or it is free behind it. -/
theorem isFree_iff_of_reads {l : Lexeme} (hread : l.Reads rest) :
    k.IsFree past (l.source ++ rest) ↔
      l = .flag k.letters ∧ k.before = past ∨ k.IsFree (past ++ l.source) rest := by
  rcases hread.cases_open with ⟨inner, hclose, rfl⟩ | ⟨text, hclose, rfl, rfl⟩ | ⟨hopen, -⟩
  · rw [isFree_segment_iff hclose]
    simp only [reduceCtorEq, false_and, false_or]
  · constructor
    · intro h
      have hthrough := h.opened [] text (List.append_nil _) hclose
      rw [List.append_nil] at hthrough
      exact absurd hthrough (not_through_of_behind h.behind)
    · rintro (⟨hflag, -⟩ | h)
      · cases hflag
      · exact absurd rfl h.ne_nil_rest
  · rw [isFree_append_iff hopen]
    constructor
    · intro h
      exact (h.flag_or_behind hread hopen).imp_right fun hbehind => ⟨hbehind, h⟩
    · rintro (⟨rfl, rfl⟩ | ⟨-, h⟩)
      · cases hread with
        | flag hne halpha => exact isFree_of_flag hne halpha hopen
      · exact h

/-- Markers in the lexemes of a text are the free markers. -/
theorem mem_locate_iff_isFree (past rest : Text) {token : Token} :
    token ∈ locate (byteLength past) (lexemes rest) ∧ token.lexeme.isFlag = true ↔
      ∃ k : Marker, k.IsFree past rest ∧ k.token = token := by
  induction rest using scanInduction generalizing past with
  | nil =>
    rw [lexemes_nil]
    constructor
    · exact fun h => absurd h.1 List.not_mem_nil
    · rintro ⟨k, hfree, -⟩
      exact absurd rfl hfree.ne_nil_rest
  | cons l rest hread hlexemes ih =>
    have ih := ih (past ++ l.source)
    rw [hlexemes, locate, ← byteLength_append, List.mem_cons, or_and_right, ih]
    simp only [isFree_iff_of_reads hread, or_and_right, exists_or]
    refine or_congr_left ?_
    constructor
    · rintro ⟨rfl, hflag⟩
      cases l with
      | flag letters => exact ⟨⟨past, letters⟩, ⟨rfl, rfl⟩, rfl⟩
      | gap c | segment inner | stray text => cases hflag
    · rintro ⟨k, ⟨rfl, rfl⟩, rfl⟩
      exact ⟨rfl, rfl⟩

end Marker

/-- **The scan finds what the pattern finds.** The matches of `\[(.*?)\]`, which the two cuts find,
are the segments of a text, in order and at their places; and the markers are the occurrences of
`<[A-Za-z]+>` that lie between matches and before an opening bracket that nothing closes. -/
theorem tokens_eq_matches (t : Text) :
    (∀ ms, Match.Finds t [] ms ↔ ms = Match.allFrom [] t) ∧
    (tokens t).filter (fun token => token.lexeme.isSegment)
      = (Match.allFrom [] t).map Match.token ∧
    ∀ token, token ∈ tokens t ∧ token.lexeme.isFlag = true ↔
      ∃ k : Marker, k.IsFree [] t ∧ k.token = token := by
  refine ⟨fun ms => ⟨fun h => ?_, fun h => ?_⟩, ?_, fun token => ?_⟩
  · exact h.unique (Match.finds_allFrom [] t)
  · rw [h]
    exact Match.finds_allFrom [] t
  · rw [tokens, List.filter_filter, ← filter_isSegment_locate [] t]
    refine List.filter_congr fun token _ => ?_
    cases token.lexeme <;> rfl
  · rw [← Marker.mem_locate_iff_isFree, mem_tokens_iff, byteLength_nil, and_assoc]
    exact and_congr_right fun _ => and_iff_right_of_imp Lexeme.isToken_of_isFlag

end MacroLint.Literal
