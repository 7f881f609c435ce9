import MacroLint.Text.Blank
import MacroLint.Text.Word

/-!
# Trimming

A trimmed text is a stretch of the text it was trimmed from, and what is missing at its ends is
blank. Which blanks stood there is forgotten: one more at either end changes nothing. Readers of
padded text are followed with these two equations, blank by blank from the outside, and never with
the definition of `trim`.
-/

set_option autoImplicit false

namespace MacroLint.Text

theorem trimEnd_isPrefix (t : Text) : trimEnd t <+: t := by
  rw [trimEnd, ← List.reverse_suffix, List.reverse_reverse]
  exact List.dropWhile_suffix isBlank

theorem trimStart_isInfix (t : Text) : trimStart t <:+: t :=
  (List.dropWhile_suffix isBlank).isInfix

theorem trimEnd_isInfix (t : Text) : trimEnd t <:+: t := (trimEnd_isPrefix t).isInfix

theorem trim_isInfix (t : Text) : trim t <:+: t := (trimEnd_isInfix _).trans (trimStart_isInfix t)

/-! ## Blanks at the ends -/

theorem trimStart_cons {c : Char} (h : isBlank c = true) (t : Text) :
    trimStart (c :: t) = trimStart t := List.dropWhile_cons_of_pos h

theorem trimEnd_concat {c : Char} (h : isBlank c = true) (t : Text) :
    trimEnd (t ++ [c]) = trimEnd t := by
  rw [trimEnd, List.reverse_append, List.reverse_singleton, List.singleton_append,
    List.dropWhile_cons_of_pos h]
  rfl

theorem trim_cons {c : Char} (h : isBlank c = true) (t : Text) : trim (c :: t) = trim t := by
  rw [trim, trimStart_cons h]
  rfl

theorem trim_concat {c : Char} (h : isBlank c = true) (t : Text) : trim (t ++ [c]) = trim t := by
  have hstart : trimStart (t ++ [c]) = trimStart t ++ [c] ∨
      trimStart (t ++ [c]) = [] ∧ trimStart t = [] := by
    simp only [trimStart, List.dropWhile_append]
    split
    · -- All of `t` is blank, and so is `c`.
      rename_i hempty
      exact Or.inr ⟨List.dropWhile_cons_of_pos h, List.isEmpty_iff.mp hempty⟩
    · exact Or.inl rfl
  rcases hstart with hstart | ⟨hleft, hright⟩
  · rw [trim, hstart, trimEnd_concat h]
    rfl
  · rw [trim, hleft, trim, hright]

/-- A reader that does not see one blank at either end does not see the padding of a text. -/
theorem apply_trim {α : Type} {f : Text → α}
    (hcons : ∀ c t, isBlank c = true → f (c :: t) = f t)
    (hconcat : ∀ c t, isBlank c = true → f (t ++ [c]) = f t) (t : Text) : f (trim t) = f t := by
  have hstart (s : Text) : f (trimStart s) = f s := by
    induction s with
    | nil => rfl
    | cons c s ih =>
      by_cases hc : isBlank c = true
      · rw [trimStart_cons hc, ih, hcons c s hc]
      · rw [trimStart, List.dropWhile_cons_of_neg hc]
  have hend (s : Text) : f (trimEnd s) = f s := by
    rw [← List.reverse_reverse s]
    induction s.reverse with
    | nil => rfl
    | cons c s ih =>
      rw [List.reverse_cons]
      by_cases hc : isBlank c = true
      · rw [trimEnd_concat hc, ih, hconcat c _ hc]
      · simp [trimEnd, hc]
  rw [trim, hend, hstart]

theorem trim_of_forall_not {t : Text} (h : ∀ c ∈ t, isBlank c = false) : trim t = t := by
  have hdrop {s : Text} (hs : ∀ c ∈ s, isBlank c = false) : s.dropWhile isBlank = s := by
    cases s with
    | nil => rfl
    | cons c s =>
      exact List.dropWhile_cons_of_neg (Bool.eq_false_iff.mp (hs c List.mem_cons_self))
  rw [trim, trimStart, hdrop h, trimEnd, hdrop fun c hc => h c (List.mem_reverse.mp hc),
    List.reverse_reverse]

theorem trim_trim (t : Text) : trim (trim t) = trim t :=
  apply_trim (fun _ t h => trim_cons h t) (fun _ t h => trim_concat h t) t

/-- Trimming takes away nothing but blanks. -/
theorem mem_trim_or_isBlank {c : Char} {t : Text} (h : c ∈ t) :
    c ∈ trim t ∨ isBlank c = true := by
  have hdrop {s : Text} (hs : c ∈ s) : c ∈ s.dropWhile isBlank ∨ isBlank c = true := by
    rw [← List.takeWhile_append_dropWhile (p := isBlank) (l := s)] at hs
    rcases List.mem_append.mp hs with hs | hs
    · exact Or.inr (List.all_eq_true.mp List.all_takeWhile c hs)
    · exact Or.inl hs
  rcases hdrop h with hstart | hblank
  · rcases hdrop (List.mem_reverse.mpr hstart) with hend | hblank
    · exact Or.inl (List.mem_reverse.mpr hend)
    · exact Or.inr hblank
  · exact Or.inr hblank

/-! ## Other characters at the ends -/

/-- Word characters lie between `0` and `z`. -/
theorem toNat_of_isWordChar {c : Char} (h : isWordChar c = true) :
    48 ≤ c.toNat ∧ c.toNat ≤ 122 := by
  rcases (Bool.or_eq_true _ _).mp h with h | h
  · rcases (Bool.or_eq_true _ _).mp h with h | h
    · rcases (Bool.or_eq_true _ _).mp h with h | h
      · have hupper : 65 ≤ c.toNat ∧ c.toNat ≤ 90 := of_decide_eq_true h
        omega
      · obtain ⟨hlow, hhigh⟩ := (Bool.and_eq_true _ _).mp h
        have hlower : 97 ≤ c.toNat ∧ c.toNat ≤ 122 :=
          ⟨of_decide_eq_true hlow, of_decide_eq_true hhigh⟩
        omega
    · obtain ⟨hlow, hhigh⟩ := (Bool.and_eq_true _ _).mp h
      have hdigit : 48 ≤ c.toNat ∧ c.toNat ≤ 57 :=
        ⟨of_decide_eq_true hlow, of_decide_eq_true hhigh⟩
      omega
  · obtain rfl : c = '_' := eq_of_beq h
    decide

/-- Word characters and blanks lie apart. -/
theorem not_isBlank_of_isWordChar {c : Char} (h : isWordChar c = true) : isBlank c = false := by
  have hrange := toNat_of_isWordChar h
  refine Bool.eq_false_iff.mpr fun hblank => ?_
  obtain ⟨⟨first, last⟩, hmem, hin⟩ := List.any_eq_true.mp hblank
  have hapart : ∀ r ∈ blankRanges, r.2 < 48 ∨ 122 < r.1 := by decide
  have hrow := hapart _ hmem
  simp only [Bool.and_eq_true, decide_eq_true_eq] at hin
  omega

theorem isWord_iff {t : Text} : isWord t = true ↔ t ≠ [] ∧ ∀ c ∈ t, isWordChar c = true := by
  rw [isWord, Bool.and_eq_true, Bool.not_eq_true', List.isEmpty_eq_false_iff, List.all_eq_true]

theorem not_isBlank_of_isWord {t : Text} (h : isWord t = true) : ∀ c ∈ t, isBlank c = false :=
  fun c hc => not_isBlank_of_isWordChar ((isWord_iff.mp h).2 c hc)

theorem trimStart_append_cons {c : Char} (h : isBlank c = false) (s t : Text) :
    trimStart (s ++ c :: t) = trimStart s ++ c :: t := by
  have hdrop : (c :: t).dropWhile isBlank = c :: t := by
    rw [List.dropWhile_cons_of_neg (Bool.eq_false_iff.mp h)]
  rw [trimStart, List.dropWhile_append]
  split
  · rename_i hempty
    rw [hdrop, trimStart, List.isEmpty_iff.mp hempty]
    rfl
  · rfl

theorem trimEnd_concat_of_not {c : Char} (h : isBlank c = false) (t : Text) :
    trimEnd (t ++ [c]) = t ++ [c] := by
  rw [trimEnd, List.reverse_append, List.reverse_singleton, List.singleton_append,
    List.dropWhile_cons_of_neg (Bool.eq_false_iff.mp h), ← List.singleton_append,
    List.reverse_append, List.reverse_reverse, List.reverse_singleton]

theorem length_trim_le (t : Text) : (trim t).length ≤ t.length := (trim_isInfix t).length_le

/-- A text that is trimmed already does not start with a blank. -/
theorem not_isBlank_head {c : Char} {t : Text} (h : trim (c :: t) = c :: t) :
    isBlank c = false := by
  refine Bool.eq_false_iff.mpr fun hblank => ?_
  have hlength := length_trim_le t
  rw [← trim_cons hblank, h, List.length_cons] at hlength
  omega

/-- And it does not end with one. -/
theorem not_isBlank_getLast {t : Text} (h : trim t = t) (hne : t ≠ []) :
    isBlank (t.getLast hne) = false := by
  refine Bool.eq_false_iff.mpr fun hblank => ?_
  have hlength := length_trim_le t.dropLast
  rw [← trim_concat hblank, List.dropLast_concat_getLast hne, h, List.length_dropLast] at hlength
  have hpos := List.length_pos_iff.mpr hne
  omega

/-- Whatever stands between two trimmed texts is not trimmed away. -/
theorem trim_between {s t : Text} (hs : trim s = s) (hsne : s ≠ []) (ht : trim t = t)
    (htne : t ≠ []) (middle : Text) : trim (s ++ (middle ++ t)) = s ++ (middle ++ t) := by
  obtain ⟨c, s, rfl⟩ := List.exists_cons_of_ne_nil hsne
  have hstart : trimStart (c :: s ++ (middle ++ t)) = c :: s ++ (middle ++ t) :=
    List.dropWhile_cons_of_neg (Bool.eq_false_iff.mp (not_isBlank_head hs))
  have hlast : c :: s ++ (middle ++ t)
      = (c :: s ++ (middle ++ t.dropLast)) ++ [t.getLast htne] := by
    rw [List.append_assoc, List.append_assoc, List.dropLast_concat_getLast htne]
  rw [trim, hstart, hlast, trimEnd_concat_of_not (not_isBlank_getLast ht htne)]

theorem trim_of_isWord {t : Text} (h : isWord t = true) : trim t = t :=
  trim_of_forall_not (not_isBlank_of_isWord h)

theorem trimStart_append_of_isWord {word : Text} (h : isWord word = true) (t : Text) :
    trimStart (word ++ t) = word ++ t := by
  obtain ⟨c, cs, rfl⟩ := List.exists_cons_of_ne_nil (isWord_iff.mp h).1
  have hc := not_isBlank_of_isWord h c List.mem_cons_self
  exact List.dropWhile_cons_of_neg (Bool.eq_false_iff.mp hc)

theorem trimEnd_append_of_isWord {word : Text} (h : isWord word = true) (t : Text) :
    trimEnd (t ++ word) = t ++ word := by
  have hne := (isWord_iff.mp h).1
  have hlast := not_isBlank_of_isWord h _ (List.getLast_mem hne)
  rw [← List.dropLast_concat_getLast hne, ← List.append_assoc, trimEnd_concat_of_not hlast]

/-! ## Padding -/

/-- The text is a core with blanks around it. -/
def Pads (core t : Text) : Prop :=
  ∃ lead tail, (∀ c ∈ lead, isBlank c = true) ∧ (∀ c ∈ tail, isBlank c = true) ∧
    t = lead ++ core ++ tail

theorem exists_trimStart (t : Text) :
    ∃ lead, (∀ c ∈ lead, isBlank c = true) ∧ t = lead ++ trimStart t :=
  ⟨t.takeWhile isBlank, List.all_eq_true.mp List.all_takeWhile,
    List.takeWhile_append_dropWhile.symm⟩

theorem exists_trimEnd (t : Text) :
    ∃ tail, (∀ c ∈ tail, isBlank c = true) ∧ t = trimEnd t ++ tail := by
  obtain ⟨lead, hlead, ht⟩ := exists_trimStart t.reverse
  refine ⟨lead.reverse, fun c hc => hlead c (List.mem_reverse.mp hc), ?_⟩
  rw [← List.reverse_inj, ht, List.reverse_append, List.reverse_reverse, trimEnd,
    List.reverse_reverse]
  rfl

/-- The blanks that are trimmed away at the start are the leading ones. -/
theorem exists_tail_trim (t : Text) :
    ∃ tail, (∀ c ∈ tail, isBlank c = true) ∧ t = t.takeWhile isBlank ++ trim t ++ tail := by
  obtain ⟨tail, htail, hend⟩ := exists_trimEnd (trimStart t)
  refine ⟨tail, htail, ?_⟩
  rw [List.append_assoc, trim, ← hend]
  exact List.takeWhile_append_dropWhile.symm

theorem pads_trim (t : Text) : Pads (trim t) t := by
  obtain ⟨tail, htail, ht⟩ := exists_tail_trim t
  exact ⟨t.takeWhile isBlank, tail, List.all_eq_true.mp List.all_takeWhile, htail, ht⟩

theorem trimStart_append {lead : Text} (h : ∀ c ∈ lead, isBlank c = true) (t : Text) :
    trimStart (lead ++ t) = trimStart t := List.dropWhile_append_of_pos h

theorem trimEnd_append {tail : Text} (h : ∀ c ∈ tail, isBlank c = true) (t : Text) :
    trimEnd (t ++ tail) = trimEnd t := by
  have hreverse : ∀ c ∈ tail.reverse, isBlank c = true := fun c hc => h c (List.mem_reverse.mp hc)
  rw [trimEnd, List.reverse_append, List.dropWhile_append_of_pos hreverse]
  rfl

theorem trim_append {tail : Text} (h : ∀ c ∈ tail, isBlank c = true) (t : Text) :
    trim (t ++ tail) = trim t := by
  induction tail generalizing t with
  | nil => rw [List.append_nil]
  | cons c tail ih =>
    obtain ⟨hc, htail⟩ := List.forall_mem_cons.mp h
    rw [List.append_cons, ih htail, trim_concat hc]

theorem trim_trimEnd (t : Text) : trim (trimEnd t) = trim t := by
  obtain ⟨tail, htail, ht⟩ := exists_trimEnd t
  conv => rhs; rw [ht]
  exact (trim_append htail _).symm

theorem trim_of_pads {core t : Text} (h : Pads core t) : trim t = trim core := by
  obtain ⟨lead, tail, hlead, htail, rfl⟩ := h
  rw [trim_append htail, trim, trimStart_append hlead, trim]

end MacroLint.Text
