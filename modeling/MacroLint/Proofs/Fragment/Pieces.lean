import MacroLint.Fragment.Bind
import MacroLint.Fragment.Entry
import MacroLint.Proofs.Text.Trim

/-!
# Lists and their pieces

What the splitter does behind a text depends on the text through the nesting there and nothing else
(`splitFrom_append`). So texts that leave the nesting as it was, and have no comma at the top level,
are found again as the pieces of the list they are joined to (`split_joined`). Splitting and joining
are inverse to each other, on all texts and on exactly the lists that can be the pieces of one
(`split_joined_inverse`).

Which texts these are is said without the splitter: `IsPiece` counts quotes and parentheses. That
the nesting which the splitter keeps is these counts is the content of `quoted_after` and
`depth_after`.
-/

set_option autoImplicit false

namespace MacroLint.Fragment

open Text

/-! ## 1. Nesting is counting -/

/-- How many more parentheses open than close outside the quoted strings of a text; `quoted` tells
whether the text starts inside one. -/
def openings (quoted : Bool) (t : Text) : Int :=
  ((blankStrings quoted t).count '(' : Int) - ((blankStrings quoted t).count ')' : Int)

theorem openings_quote (quoted : Bool) (t : Text) :
    openings quoted ('\'' :: t) = openings (!quoted) t := by
  simp [openings, blankStrings]

theorem openings_cons_of_quoted {c : Char} (h : c ≠ '\'') (t : Text) :
    openings true (c :: t) = openings true t := by
  simp [openings, blankStrings, h]

theorem openings_cons {c : Char} (h : c ≠ '\'') (t : Text) :
    openings false (c :: t)
      = (if c = '(' then 1 else if c = ')' then -1 else 0) + openings false t := by
  simp only [openings, blankStrings, if_neg h, Bool.false_eq_true, if_false, List.count_cons,
    beq_iff_eq]
  by_cases hopen : c = '('
  · subst hopen
    simp
    omega
  · by_cases hclose : c = ')'
    · subst hclose
      simp
      omega
    · simp [hopen, hclose]

/-- A character that does not change the nesting. -/
def isPlain (c : Char) : Bool := c != '\'' && c != '(' && c != ')'

/-- A class of characters without these three is plain. -/
theorem isPlain_of_class {p : Char → Bool} (hquote : p '\'' = false) (hopen : p '(' = false)
    (hclose : p ')' = false) {c : Char} (h : p c = true) : isPlain c = true := by
  have hne (d : Char) (hd : p d = false) : c ≠ d := by
    rintro rfl
    rw [h] at hd
    cases hd
  simp [isPlain, hne '\'' hquote, hne '(' hopen, hne ')' hclose]

theorem isPlain_of_isBlank {c : Char} (h : isBlank c = true) : isPlain c = true :=
  isPlain_of_class rfl rfl rfl h

theorem isPlain_of_isWord {t : Text} (h : isWord t = true) : ∀ c ∈ t, isPlain c = true :=
  fun c hc => isPlain_of_class rfl rfl rfl ((isWord_iff.mp h).2 c hc)

/-- A word with blanks around it. -/
theorem isPlain_of_isWord_trim {t : Text} (h : isWord (trim t) = true) :
    ∀ c ∈ t, isPlain c = true := by
  intro c hc
  rcases mem_trim_or_isBlank hc with hword | hblank
  · exact isPlain_of_isWord h c hword
  · exact isPlain_of_isBlank hblank

namespace Nesting

@[simp] theorem after_nil (n : Nesting) : n.after [] = n := rfl

@[simp] theorem after_cons (n : Nesting) (c : Char) (t : Text) :
    n.after (c :: t) = (n.step c).after t := rfl

theorem after_append (n : Nesting) (s t : Text) : n.after (s ++ t) = (n.after s).after t :=
  List.foldl_append

theorem quoted_after (n : Nesting) (t : Text) :
    (n.after t).quoted = (n.quoted ^^ decide (t.count '\'' % 2 = 1)) := by
  induction t generalizing n with
  | nil => simp
  | cons c t ih =>
    rw [after_cons, ih]
    by_cases hquote : c = '\''
    · subst hquote
      rw [List.count_cons_self]
      rcases Nat.mod_two_eq_zero_or_one (t.count '\'') with hcount | hcount <;>
        simp [step, Nat.add_mod, hcount]
    · have hstep : (n.step c).quoted = n.quoted := by
        simp only [step, if_neg hquote]
        split
        · rfl
        · split
          · rfl
          · split <;> rfl
      rw [hstep, List.count_cons_of_ne hquote]

theorem depth_after (n : Nesting) (t : Text) :
    (n.after t).depth = n.depth + openings n.quoted t := by
  induction t generalizing n with
  | nil => simp [openings, blankStrings]
  | cons c t ih =>
    obtain ⟨quoted, depth⟩ := n
    rw [after_cons, ih]
    by_cases hquote : c = '\''
    · subst hquote
      rw [openings_quote]
      rfl
    · cases quoted with
      | true =>
        rw [openings_cons_of_quoted hquote]
        simp [step, hquote]
      | false =>
        rw [openings_cons hquote]
        by_cases hopen : c = '('
        · simp [step, hopen, Int.add_assoc]
        · by_cases hclose : c = ')'
          · simp [step, hclose]
            omega
          · simp [step, hquote, hopen, hclose]

theorem quoted_after_start (t : Text) :
    (start.after t).quoted = decide (t.count '\'' % 2 = 1) := by
  rw [quoted_after]
  exact Bool.false_xor _

theorem depth_after_start (t : Text) : (start.after t).depth = openings false t := by
  rw [depth_after]
  exact Int.zero_add _

theorem natAbs_depth_step_le (n : Nesting) (c : Char) :
    (n.step c).depth.natAbs ≤ n.depth.natAbs + 1 := by
  unfold step
  split
  · simp
  · split
    · simp
    · split
      · exact Int.natAbs_add_le _ _
      · split
        · exact Int.natAbs_sub_le _ _
        · simp

theorem natAbs_depth_after_le (n : Nesting) (t : Text) :
    (n.after t).depth.natAbs ≤ n.depth.natAbs + t.length := by
  induction t generalizing n with
  | nil => simp
  | cons c t ih =>
    have hstep := n.natAbs_depth_step_le c
    have hrest := ih (n.step c)
    rw [after_cons, List.length_cons]
    omega

/-- A text has no more unmatched parentheses at any place than it has characters. So a counter of 32
bits can keep the depth in every text whose length it can hold. -/
theorem toInt_ofInt_depth_after_start {t p : Text}
    (hlength : (t.length : Int) ≤ Int32.maxValue.toInt) (hp : p <+: t) :
    (Int32.ofInt (start.after p).depth).toInt = (start.after p).depth := by
  have hmax : Int32.maxValue.toInt = 2147483647 := rfl
  have hdepth : (start.after p).depth.natAbs ≤ 0 + p.length := start.natAbs_depth_after_le p
  have hle := hp.length_le
  apply Int32.toInt_ofInt_of_le
  · omega
  · omega

theorem step_of_isPlain (n : Nesting) {c : Char} (h : isPlain c = true) : n.step c = n := by
  simp only [isPlain, Bool.and_eq_true, bne_iff_ne] at h
  simp [step, h.1.1, h.1.2, h.2]

theorem after_of_isPlain (n : Nesting) {t : Text} (h : ∀ c ∈ t, isPlain c = true) :
    n.after t = n := by
  induction t with
  | nil => rfl
  | cons c t ih =>
    rw [after_cons, n.step_of_isPlain (h c List.mem_cons_self)]
    exact ih fun d hd => h d (List.mem_cons_of_mem c hd)

end Nesting

/-! ## 2. Splitting in two steps -/

/-- A text fixes its pieces except for the end of the last one, which is continued by the first
piece of what follows. -/
theorem exists_splitFrom_append (n : Nesting) (s : Text) :
    ∃ before last, splitFrom n s = before ++ [last] ∧
      ∀ t, splitFrom n (s ++ t)
        = before ++ (splitFrom (n.after s) t).modifyHead fun piece => last ++ piece := by
  induction s generalizing n with
  | nil =>
    refine ⟨[], [], rfl, ?_⟩
    intro t
    obtain ⟨piece, pieces, hsplit⟩ := List.exists_cons_of_ne_nil (splitFrom_ne_nil n t)
    simp [hsplit]
  | cons c s ih =>
    obtain ⟨before, last, hs, hst⟩ := ih (n.step c)
    by_cases htop : (c = ',' && n.isTop) = true
    · refine ⟨[] :: before, last, ?_, ?_⟩
      · simp only [splitFrom, if_pos htop, hs, List.cons_append]
      · intro t
        simp only [List.cons_append, splitFrom, if_pos htop, hst t, Nesting.after_cons]
    · simp only [List.cons_append, splitFrom, if_neg htop, hs, hst, Nesting.after_cons]
      cases before with
      | nil =>
        refine ⟨[], c :: last, rfl, ?_⟩
        intro t
        rw [List.nil_append, List.modifyHead_modifyHead]
        rfl
      | cons first before => exact ⟨(c :: first) :: before, last, rfl, fun t => rfl⟩

/-- No comma in the text is at the top level, if the text is read from a place with nesting `n`. -/
def NoTopComma (n : Nesting) (t : Text) : Prop :=
  ∀ p, p ++ [','] <+: t → (n.after p).isTop = false

theorem noTopComma_nil (n : Nesting) : NoTopComma n [] := fun p hp => absurd hp (by simp)

theorem noTopComma_cons {n : Nesting} {c : Char} {t : Text} :
    NoTopComma n (c :: t) ↔ (c = ',' && n.isTop) = false ∧ NoTopComma (n.step c) t := by
  constructor
  · intro h
    refine ⟨?_, fun p hp => h (c :: p) ((List.prefix_cons_inj c).mpr hp)⟩
    by_cases hc : c = ','
    · subst hc
      simpa using h [] (List.prefix_append [','] t)
    · simp [hc]
  · rintro ⟨hc, ht⟩ p hp
    cases p with
    | nil =>
      obtain ⟨rfl, -⟩ := List.cons_prefix_cons.mp hp
      simpa using hc
    | cons d p =>
      obtain ⟨rfl, htail⟩ := List.cons_prefix_cons.mp hp
      exact ht p htail

theorem noTopComma_append {n : Nesting} {s t : Text} :
    NoTopComma n (s ++ t) ↔ NoTopComma n s ∧ NoTopComma (n.after s) t := by
  induction s generalizing n with
  | nil => exact (and_iff_right (noTopComma_nil n)).symm
  | cons c s ih =>
    rw [List.cons_append, noTopComma_cons, noTopComma_cons, ih, and_assoc]
    rfl

theorem splitFrom_of_noTopComma {n : Nesting} {t : Text} (h : NoTopComma n t) :
    splitFrom n t = [t] := by
  induction t generalizing n with
  | nil => rfl
  | cons c t ih =>
    obtain ⟨htop, htail⟩ := noTopComma_cons.mp h
    simp [splitFrom, htop, ih htail]

/-- A text without a comma at the top level is continued by the first piece of what follows. -/
theorem splitFrom_append_of_noTopComma {n : Nesting} {s : Text} (h : NoTopComma n s) (t : Text) :
    splitFrom n (s ++ t)
      = (splitFrom (n.after s) t).modifyHead fun piece => s ++ piece := by
  obtain ⟨before, last, hs, hst⟩ := exists_splitFrom_append n s
  rw [splitFrom_of_noTopComma h] at hs
  obtain ⟨rfl, rfl⟩ : before = [] ∧ last = s := by
    cases before with
    | nil => simpa using hs.symm
    | cons first before => simp at hs
  rw [hst t, List.nil_append]

theorem joined_cons (separator first second : Text) (rest : List Text) :
    joined separator (first :: second :: rest)
      = first ++ separator ++ joined separator (second :: rest) :=
  List.intercalate_cons_cons

theorem joined_cons_cons (c : Char) (piece : Text) (pieces : List Text) :
    joined [','] ((c :: piece) :: pieces) = c :: joined [','] (piece :: pieces) := by
  cases pieces with
  | nil => simp only [joined, List.intercalate_singleton]
  | cons next pieces => simp only [joined_cons, List.cons_append]

/-- Some texts are the pieces of the list they are joined to, if that is read from a place with
nesting `n`: each comma between them is at the top level, and no other. -/
def ArePieces (n : Nesting) : List Text → Prop
  | [] => True
  | piece :: rest =>
    NoTopComma n piece ∧ (rest ≠ [] → (n.after piece).isTop = true) ∧ ArePieces (n.after piece) rest

theorem arePieces_splitFrom (n : Nesting) (t : Text) : ArePieces n (splitFrom n t) := by
  induction t generalizing n with
  | nil => exact ⟨noTopComma_nil n, fun h => absurd rfl h, trivial⟩
  | cons c t ih =>
    by_cases hcut : (c = ',' && n.isTop) = true
    · rw [splitFrom, if_pos hcut]
      obtain ⟨hc, htop⟩ := Bool.and_eq_true_iff.mp hcut
      obtain rfl : c = ',' := of_decide_eq_true hc
      have hstep : n.step ',' = n := by simp [Nesting.step]
      refine ⟨noTopComma_nil n, fun _ => htop, ?_⟩
      rw [hstep]
      exact ih n
    · rw [splitFrom, if_neg hcut]
      have ih := ih (n.step c)
      obtain ⟨piece, pieces, hpieces⟩ := List.exists_cons_of_ne_nil
        (splitFrom_ne_nil (n.step c) t)
      rw [hpieces] at ih ⊢
      exact ⟨noTopComma_cons.mpr ⟨Bool.not_eq_true _ ▸ hcut, ih.1⟩, ih.2⟩

/-- The pieces that are joined to a list are the pieces of the list. -/
theorem ArePieces.splitFrom_joined {n : Nesting} {pieces : List Text} (h : ArePieces n pieces)
    (hne : pieces ≠ []) : splitFrom n (joined [','] pieces) = pieces := by
  induction pieces generalizing n with
  | nil => exact absurd rfl hne
  | cons first rest ih =>
    obtain ⟨hfirst, htop, hrest⟩ := h
    cases rest with
    | nil =>
      rw [joined, List.intercalate_singleton]
      exact splitFrom_of_noTopComma hfirst
    | cons second rest =>
      have hne := List.cons_ne_nil second rest
      have hcomma : splitFrom (n.after first) (',' :: joined [','] (second :: rest))
          = [] :: splitFrom (n.after first) (joined [','] (second :: rest)) := by
        simp [splitFrom, htop hne, Nesting.step]
      rw [joined_cons, List.append_assoc, splitFrom_append_of_noTopComma hfirst]
      show (splitFrom (n.after first) (',' :: joined [','] (second :: rest))).modifyHead _ = _
      rw [hcomma, ih hrest hne, List.modifyHead_cons, List.append_nil]

/-! ## 3. Pieces -/

/-- A text that may be an entry of a list: its quotes pair up, as many unquoted parentheses open as
close, and each of its commas is inside quotes or parentheses. That no parenthesis closes before it
is opened is not needed. -/
structure IsPiece (t : Text) : Prop where
  quotes : t.count '\'' % 2 = 0
  closed : openings false t = 0
  commas : ∀ p, p ++ [','] <+: t → p.count '\'' % 2 = 1 ∨ 0 < openings false p

/-- The commas can be looked at one by one. -/
theorem forall_comma_iff {t : Text} {P : Text → Prop} :
    (∀ p, p ++ [','] <+: t → P p) ↔ ∀ i < t.length, t[i]? = some ',' → P (t.take i) := by
  constructor
  · intro h i hi hcomma
    refine h (t.take i) ?_
    rw [← List.getElem?_eq_some_iff.mp hcomma |>.2, List.take_append_getElem hi]
    exact List.take_prefix (i + 1) t
  · rintro h p ⟨rest, rfl⟩
    have hp := h p.length (by simp) (by simp)
    rwa [List.append_assoc, List.take_left' rfl] at hp

instance (t : Text) : Decidable (IsPiece t) :=
  decidable_of_iff (t.count '\'' % 2 = 0 ∧ openings false t = 0 ∧ ∀ i < t.length, t[i]? = some ',' →
      (t.take i).count '\'' % 2 = 1 ∨ 0 < openings false (t.take i))
    ⟨fun ⟨hquotes, hclosed, hcommas⟩ => ⟨hquotes, hclosed, forall_comma_iff.mpr hcommas⟩,
      fun h => ⟨h.quotes, h.closed, forall_comma_iff.mp h.commas⟩⟩

theorem IsPiece.after_start {t : Text} (h : IsPiece t) : Nesting.start.after t = .start := by
  have hquoted : (Nesting.start.after t).quoted = false := by
    rw [Nesting.quoted_after_start, h.quotes]
    rfl
  have hdepth : (Nesting.start.after t).depth = 0 := by
    rw [Nesting.depth_after_start, h.closed]
  cases hafter : Nesting.start.after t with
  | mk quoted depth =>
    rw [hafter] at hquoted hdepth
    cases hquoted
    cases hdepth
    rfl

/-- A text has no comma at the top level if each of its commas is inside quotes or parentheses. -/
theorem noTopComma_start_iff {t : Text} :
    NoTopComma .start t ↔
      ∀ p, p ++ [','] <+: t → p.count '\'' % 2 = 1 ∨ 0 < openings false p := by
  refine forall_congr' fun p => imp_congr_right fun _ => ?_
  unfold Nesting.isTop
  rw [Nesting.quoted_after_start, Nesting.depth_after_start]
  simp
  omega

theorem IsPiece.noTopComma {t : Text} (h : IsPiece t) : NoTopComma .start t :=
  noTopComma_start_iff.mpr h.commas

theorem isPiece_iff {t : Text} :
    IsPiece t ↔ Nesting.start.after t = .start ∧ NoTopComma .start t := by
  refine ⟨fun h => ⟨h.after_start, h.noTopComma⟩,
    fun ⟨hafter, htop⟩ => ⟨?_, ?_, noTopComma_start_iff.mp htop⟩⟩
  · have hquoted := Nesting.quoted_after_start t
    rw [hafter] at hquoted
    have heven := of_decide_eq_false hquoted.symm
    omega
  · rw [← Nesting.depth_after_start, hafter]
    rfl

/-- What is put together of pieces is a piece. -/
theorem IsPiece.append {s t : Text} (hs : IsPiece s) (ht : IsPiece t) : IsPiece (s ++ t) := by
  refine isPiece_iff.mpr ⟨?_, noTopComma_append.mpr ⟨hs.noTopComma, ?_⟩⟩
  · rw [Nesting.after_append, hs.after_start, ht.after_start]
  · rw [hs.after_start]
    exact ht.noTopComma

theorem isPiece_of_isPlain {t : Text} (h : ∀ c ∈ t, isPlain c = true) (hcomma : ',' ∉ t) :
    IsPiece t :=
  isPiece_iff.mpr ⟨Nesting.start.after_of_isPlain h,
    fun _ hp => absurd (hp.subset (by simp)) hcomma⟩

theorem arePieces_of_isPiece {pieces : List Text} (h : ∀ t ∈ pieces, IsPiece t) :
    ArePieces .start pieces := by
  induction pieces with
  | nil => trivial
  | cons first rest ih =>
    have hfirst := h first List.mem_cons_self
    -- Behind the piece the splitter is where it started.
    refine ⟨hfirst.noTopComma, ?_, ?_⟩
    · rw [hfirst.after_start]
      exact fun _ => rfl
    · rw [hfirst.after_start]
      exact ih fun t ht => h t (List.mem_cons_of_mem first ht)

theorem split_joined {pieces : List Text} (hne : pieces ≠ []) (h : ∀ t ∈ pieces, IsPiece t) :
    split (joined [','] pieces) = pieces :=
  (arePieces_of_isPiece h).splitFrom_joined hne

/-- The lists that are found again. There is no empty one among them, since a text has at least one
piece. -/
theorem split_joined_iff {pieces : List Text} :
    split (joined [','] pieces) = pieces ↔ pieces ≠ [] ∧ ArePieces .start pieces := by
  constructor
  · intro h
    have hne := splitFrom_ne_nil .start (joined [','] pieces)
    have hpieces := arePieces_splitFrom .start (joined [','] pieces)
    rw [← split, h] at hne hpieces
    exact ⟨hne, hpieces⟩
  · intro h
    obtain ⟨hne, hpieces⟩ := h
    exact hpieces.splitFrom_joined hne

/-- **Splitting and joining are inverse.** No text loses a character when it is split. A list is
found again if each of its texts pairs its quotes, closes the parentheses it opens, and has its
commas inside of them or of quotes; the texts may be empty. In general a list is found again exactly
if its texts are cut apart at every comma between them and at no other. -/
theorem split_joined_inverse (t : Text) (pieces : List Text) :
    joined [','] (split t) = t ∧
    (pieces ≠ [] → (∀ piece ∈ pieces, IsPiece piece) →
      split (joined [','] pieces) = pieces) ∧
    (split (joined [','] pieces) = pieces ↔ pieces ≠ [] ∧ ArePieces .start pieces) := by
  refine ⟨joined_split t, ?_, split_joined_iff⟩
  intro hne hpieces
  exact split_joined hne hpieces

/-- Nested parentheses with a quoted one among them, a doubled quote, and empty texts at both ends
and between. -/
theorem split_joined_inverse_of_nested :
    let pieces : List Text := [[], "f(g(a, 1), ',(')".toList, [], "'it''s, b' = :x".toList, []]
    (pieces ≠ [] ∧ ∀ piece ∈ pieces, IsPiece piece) ∧
      split ",f(g(a, 1), ',('),,'it''s, b' = :x,".toList = pieces := by
  intro pieces
  have hne : pieces ≠ [] := List.cons_ne_nil _ _
  have hpieces : ∀ piece ∈ pieces, IsPiece piece := by decide
  exact ⟨⟨hne, hpieces⟩, (split_joined_inverse [] pieces).2.1 hne hpieces⟩

/-! ## 4. Padding -/

theorem Entry.ofPiece_cons {c : Char} (h : isBlank c = true) (t : Text) :
    Entry.ofPiece (c :: t) = Entry.ofPiece t := by
  have hne : c ≠ '=' := by
    rintro rfl
    cases h
  unfold Entry.ofPiece
  rw [cut, if_neg hne]
  cases hcut : cut '=' t with
  | none => simp only [Option.map_none, trim_cons h]
  | some parts => simp only [Option.map_some, trim_cons h]

theorem Entry.ofPiece_concat {c : Char} (h : isBlank c = true) (t : Text) :
    Entry.ofPiece (t ++ [c]) = Entry.ofPiece t := by
  have hne : '=' ≠ c := by
    rintro rfl
    cases h
  unfold Entry.ofPiece
  cases hcut : cut '=' t with
  | none =>
    have hcut' : cut '=' (t ++ [c]) = none := by
      rw [cut_eq_none_iff] at hcut ⊢
      simp [hcut, hne]
    simp only [hcut', trim_concat h]
  | some parts =>
    obtain ⟨before, after⟩ := parts
    obtain ⟨rfl, hmem⟩ := cut_eq_some_iff.mp hcut
    have hcut' : cut '=' (before ++ '=' :: after ++ [c]) = some (before, after ++ [c]) :=
      cut_eq_some_iff.mpr ⟨by simp, hmem⟩
    simp only [hcut', trim_concat h]

/-- Blanks around a list are blanks around its first and its last entry, and these are not part of
the entries. -/
theorem entries_trim (list : Text) : entries (trim list) = entries list := by
  refine apply_trim ?_ ?_ list
  · intro c t h
    have hcomma : (c = ',' && Nesting.start.isTop) = false := by
      have hne : c ≠ ',' := by
        rintro rfl
        cases h
      simp [hne]
    obtain ⟨piece, pieces, hsplit⟩ := List.exists_cons_of_ne_nil (splitFrom_ne_nil .start t)
    simp only [entries, split, splitFrom, hcomma, Bool.false_eq_true, if_false,
      Nesting.step_of_isPlain _ (isPlain_of_isBlank h), hsplit, List.modifyHead_cons, List.map_cons,
      Entry.ofPiece_cons h]
  · intro c t h
    have hne : c ≠ ',' := by
      rintro rfl
      cases h
    obtain ⟨before, last, ht, htc⟩ := exists_splitFrom_append .start t
    have hc : splitFrom (Nesting.start.after t) [c] = [[c]] := by
      simp [splitFrom, hne]
    simp only [entries, split, htc, ht, hc, List.modifyHead_cons, List.map_append, List.map_cons,
      List.map_nil, Entry.ofPiece_concat h]

/-! ## 5. Entries as they are written -/

namespace Entry

/-- An entry as it is written in a list, with whatever blanks its key and its value have. -/
def source (e : Entry) : Text :=
  match e.value with
  | none => e.key
  | some value => e.key ++ '=' :: value

/-- The entry without the blanks around its key and its value. -/
def trimmed (e : Entry) : Entry := ⟨trim e.key, e.value.map trim⟩

theorem ofPiece_source {e : Entry} (h : '=' ∉ e.key) : ofPiece e.source = e.trimmed := by
  obtain ⟨key, value⟩ := e
  unfold ofPiece source trimmed
  cases value with
  | none =>
    have hcut : cut '=' key = none := cut_eq_none_iff.mpr h
    simp only [hcut, Option.map_none]
  | some value =>
    have hcut : cut '=' (key ++ '=' :: value) = some (key, value) := cut_eq_some_iff.mpr ⟨rfl, h⟩
    simp only [hcut, Option.map_some]

end Entry

/-- The entries of a list that is written entry by entry. -/
theorem entries_joined_source {written : List Entry} (hne : written ≠ [])
    (hpiece : ∀ e ∈ written, IsPiece e.source) (hkey : ∀ e ∈ written, '=' ∉ e.key) :
    entries (joined [','] (written.map Entry.source)) = written.map Entry.trimmed := by
  have hpieces : ∀ t ∈ written.map Entry.source, IsPiece t := by
    intro t ht
    obtain ⟨e, he, rfl⟩ := List.mem_map.mp ht
    exact hpiece e he
  rw [entries, split_joined (by simpa using hne) hpieces, List.map_map]
  refine List.map_congr_left fun e he => ?_
  exact Entry.ofPiece_source (hkey e he)

end MacroLint.Fragment
