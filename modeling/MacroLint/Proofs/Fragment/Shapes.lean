import Mathlib.Data.List.Forall2
import MacroLint.Fragment.Shape
import MacroLint.Proofs.Fragment.Pieces

/-!
# Entries with a shape of their own

A list is split with its quotes and parentheses in mind, also where the shape of its entries leaves
no room for either. For such a list the splitter does no more than cut at every comma: both ways to
split it give entries of that shape, or neither does, and the entries are the same
(`forall₂_split_iff`).

The shape of a column mapping is `IsMapping`. It is about the entry as it is written: the blanks at
its ends, which the reader is not given, are blanks around its columns as the inner ones are.

A mapping can be read in two ways, by a pattern for the whole text or as a list with one entry. The
second way knows of strings, parentheses and commas, cuts at the first equals sign and trims what it
gives back; still both ways agree where the pattern is given trimmed text
(`mapping?_iff_entries`).
-/

set_option autoImplicit false

namespace MacroLint.Fragment

open Text

/-! ## 1. Every comma cuts -/

theorem splitFrom_of_isPlain {n : Nesting} (hn : n.isTop = true) {t : Text}
    (h : ∀ c ∈ t, isPlain c = true) : splitFrom n t = t.splitOn ',' := by
  induction t with
  | nil => rfl
  | cons c t ih =>
    obtain ⟨hc, ht⟩ := List.forall_mem_cons.mp h
    rw [splitFrom, n.step_of_isPlain hc, ih ht, List.splitOn_cons_eq_if_modifyHead]
    simp [hn]

/-- Commas do not make a text less plain. -/
theorem isPlain_of_joined {pieces : List Text}
    (h : ∀ piece ∈ pieces, ∀ c ∈ piece, isPlain c = true) :
    ∀ c ∈ joined [','] pieces, isPlain c = true := by
  induction pieces with
  | nil => exact fun c hc => nomatch hc
  | cons first rest ih =>
    obtain ⟨hfirst, hrest⟩ := List.forall_mem_cons.mp h
    cases rest with
    | nil => rwa [joined, List.intercalate_singleton]
    | cons second rest =>
      rw [joined_cons, List.forall_mem_append, List.forall_mem_append, List.forall_mem_singleton]
      exact ⟨⟨hfirst, rfl⟩, ih hrest⟩

theorem forall₂_split_iff {α : Type} {R : Text → α → Prop}
    (hplain : ∀ piece a, R piece a → ∀ c ∈ piece, isPlain c = true) {t : Text} {as : List α} :
    List.Forall₂ R (split t) as ↔ List.Forall₂ R (t.splitOn ',') as := by
  have hsame {pieces : List Text} (h : List.Forall₂ R pieces as) (ht : joined [','] pieces = t) :
      split t = t.splitOn ',' := by
    have hboth := h.imp fun piece a hR => And.intro (hplain piece a hR) hR
    have hpieces := ((List.forall₂_and_left _ _).mp hboth).1
    exact splitFrom_of_isPlain rfl (ht ▸ isPlain_of_joined hpieces)
  constructor
  · intro h
    rwa [← hsame h (joined_split t)]
  · intro h
    rwa [hsame h (List.intercalate_splitOn ',')]

/-! ## 2. Column mappings -/

/-- The pattern `(\w+)\s*=\s*(\w+)` matches the whole text, and its groups take the columns. -/
structure MatchesMapping (t : Text) (columns : Text × Text) : Prop where
  target : isWord columns.1 = true
  source : isWord columns.2 = true
  written : ∃ left right, (∀ c ∈ left, isBlank c = true) ∧ (∀ c ∈ right, isBlank c = true) ∧
    t = columns.1 ++ left ++ '=' :: (right ++ columns.2)

theorem matchesMapping_of_mapping? {t : Text} {columns : Text × Text}
    (h : mapping? t = some columns) : MatchesMapping t columns := by
  unfold mapping? at h
  cases hcut : cut '=' t with
  | none => rw [hcut] at h; cases h
  | some parts =>
    obtain ⟨before, after⟩ := parts
    rw [hcut] at h
    obtain ⟨hwords, hcolumns⟩ := Option.ite_none_right_eq_some.mp h
    cases hcolumns
    obtain ⟨htarget, hsource⟩ := Bool.and_eq_true_iff.mp hwords
    obtain ⟨left, hleft, hbefore⟩ := exists_trimEnd before
    obtain ⟨right, hright, hafter⟩ := exists_trimStart after
    refine ⟨htarget, hsource, left, right, hleft, hright, ?_⟩
    rw [← hbefore, ← hafter]
    exact (cut_eq_some_iff.mp hcut).1

theorem MatchesMapping.mapping? {t : Text} {columns : Text × Text} (h : MatchesMapping t columns) :
    mapping? t = some columns := by
  obtain ⟨target, source⟩ := columns
  obtain ⟨htarget, hsource, left, right, hleft, hright, rfl⟩ := h
  have hcut : cut '=' (target ++ left ++ '=' :: (right ++ source))
      = some (target ++ left, right ++ source) := by
    refine cut_eq_some_iff.mpr ⟨rfl, fun hmem => ?_⟩
    rcases List.mem_append.mp hmem with hmem | hmem
    · exact absurd ((isWord_iff.mp htarget).2 _ hmem) (by decide)
    · exact absurd (hleft _ hmem) (by decide)
  have hstart : trimStart (right ++ source) = source := by
    rw [trimStart_append hright, ← List.append_nil source, trimStart_append_of_isWord hsource]
  have hend : trimEnd (target ++ left) = target := by
    rw [trimEnd_append hleft]
    exact trimEnd_append_of_isWord htarget []
  rw [Fragment.mapping?, hcut]
  simp [hstart, hend, htarget, hsource]

theorem mapping?_eq_some_iff {t : Text} {columns : Text × Text} :
    mapping? t = some columns ↔ MatchesMapping t columns :=
  ⟨matchesMapping_of_mapping?, MatchesMapping.mapping?⟩

/-- The text is a mapping of columns as it is written: two words with an equals sign between them,
and blanks around each of the two. -/
structure IsMapping (t : Text) (columns : Text × Text) : Prop where
  target : isWord columns.1 = true
  source : isWord columns.2 = true
  written : ∃ before after, Pads columns.1 before ∧ Pads columns.2 after ∧
    t = before ++ '=' :: after

/-- What is written is matched once the blanks at its ends are gone. -/
theorem isMapping_iff_matches {t : Text} {columns : Text × Text} :
    IsMapping t columns ↔ MatchesMapping (trim t) columns := by
  obtain ⟨target, source⟩ := columns
  constructor
  · intro h
    obtain ⟨htarget, hsource, before, after, hbefore, hafter, rfl⟩ := h
    obtain ⟨lead, left, hlead, hleft, rfl⟩ := hbefore
    obtain ⟨right, tail, hright, htail, rfl⟩ := hafter
    have hpads : Pads (target ++ (left ++ '=' :: right ++ source))
        (lead ++ target ++ left ++ '=' :: (right ++ source ++ tail)) :=
      ⟨lead, tail, hlead, htail, by simp⟩
    -- Between the ends that are trimmed away the text begins and ends with a word.
    have hbetween := trim_between (trim_of_isWord htarget) (isWord_iff.mp htarget).1
      (trim_of_isWord hsource) (isWord_iff.mp hsource).1 (left ++ '=' :: right)
    refine ⟨htarget, hsource, left, right, hleft, hright, ?_⟩
    rw [trim_of_pads hpads, hbetween]
    simp
  · intro h
    obtain ⟨htarget, hsource, left, right, hleft, hright, hcore⟩ := h
    obtain ⟨lead, tail, hlead, htail, ht⟩ := pads_trim t
    refine ⟨htarget, hsource, lead ++ (target ++ left), right ++ source ++ tail,
      ⟨lead, left, hlead, hleft, ?_⟩, ⟨right, tail, hright, htail, rfl⟩, ?_⟩
    · exact (List.append_assoc _ _ _).symm
    · rw [ht, hcore]
      simp

theorem mapping?_trim_iff {t : Text} {columns : Text × Text} :
    mapping? (trim t) = some columns ↔ IsMapping t columns :=
  mapping?_eq_some_iff.trans isMapping_iff_matches.symm

theorem IsMapping.mapping?_trim {t : Text} {columns : Text × Text} (h : IsMapping t columns) :
    Fragment.mapping? (trim t) = some columns :=
  mapping?_trim_iff.mpr h

/-- A mapping has no room for quotes and parentheses. -/
theorem IsMapping.isPlain {t : Text} {columns : Text × Text} (h : IsMapping t columns) :
    ∀ c ∈ t, isPlain c = true := by
  obtain ⟨htarget, hsource, before, after, hbefore, hafter, rfl⟩ := h
  have hpads {core padded : Text} (hword : isWord core = true) (hpads : Pads core padded) :
      ∀ c ∈ padded, Fragment.isPlain c = true := by
    apply isPlain_of_isWord_trim
    rwa [trim_of_pads hpads, trim_of_isWord hword]
  rw [List.forall_mem_append, List.forall_mem_cons]
  exact ⟨hpads htarget hbefore, rfl, hpads hsource hafter⟩

/-! ## 3. Mappings and entries -/

/-- Around a word there are word characters and blanks. -/
theorem not_mem_of_pads {core t : Text} (hword : isWord core = true) (hpads : Pads core t)
    {c : Char} (hc : isWordChar c = false) (hblank : isBlank c = false) : c ∉ t := by
  intro hmem
  rcases mem_trim_or_isBlank hmem with hcore | hb
  · rw [trim_of_pads hpads, trim_of_isWord hword] at hcore
    have hchar := (isWord_iff.mp hword).2 c hcore
    rw [hc] at hchar
    cases hchar
  · rw [hblank] at hb
    cases hb

theorem IsMapping.entries {t : Text} {columns : Text × Text} (h : IsMapping t columns) :
    entries t = [⟨columns.1, some columns.2⟩] := by
  have hplain := h.isPlain
  obtain ⟨htarget, hsource, before, after, hbefore, hafter, rfl⟩ := h
  have hcomma : ',' ∉ before ++ '=' :: after := by
    have hleft : ',' ∉ before := not_mem_of_pads htarget hbefore rfl rfl
    have hright : ',' ∉ after := not_mem_of_pads hsource hafter rfl rfl
    simp [hleft, hright]
  have hsplit : split (before ++ '=' :: after) = [before ++ '=' :: after] :=
    splitFrom_of_noTopComma (isPiece_of_isPlain hplain hcomma).noTopComma
  have hcut : cut '=' (before ++ '=' :: after) = some (before, after) :=
    cut_eq_some_iff.mpr ⟨rfl, not_mem_of_pads htarget hbefore rfl rfl⟩
  rw [Fragment.entries, hsplit, List.map_singleton, Entry.ofPiece, hcut]
  simp [trim_of_pads hbefore, trim_of_pads hafter, trim_of_isWord htarget, trim_of_isWord hsource]

/-- A mapping as it is written is a list with one entry, whose key and value are words. -/
theorem isMapping_iff_entries {t k v : Text} :
    IsMapping t (k, v) ↔ entries t = [⟨k, some v⟩] ∧ isWord k = true ∧ isWord v = true := by
  constructor
  · intro h
    exact ⟨h.entries, h.target, h.source⟩
  · intro h
    obtain ⟨hentries, hk, hv⟩ := h
    obtain ⟨piece, hsplit, hpiece⟩ := List.map_eq_singleton_iff.mp hentries
    -- The only piece of a text is the text.
    have ht := joined_split t
    rw [hsplit, joined, List.intercalate_singleton] at ht
    subst ht
    unfold Entry.ofPiece at hpiece
    split at hpiece
    · rename_i before after hcut
      cases hpiece
      exact ⟨hk, hv, before, after, pads_trim before, pads_trim after, (cut_eq_some_iff.mp hcut).1⟩
    · cases hpiece

/-- **The pattern of a mapping and the reader of entries agree** on trimmed text: what the groups of
the pattern take are the key and the value of the only entry, if both are words. -/
theorem mapping?_iff_entries {t : Text} (h : trim t = t) (k v : Text) :
    (mapping? t = some (k, v) ↔
      entries t = [⟨k, some v⟩] ∧ isWord k = true ∧ isWord v = true) ∧
    (mapping? t = some (k, v) ↔ MatchesMapping t (k, v)) := by
  constructor
  · rw [← isMapping_iff_entries, ← mapping?_trim_iff, h]
  · exact mapping?_eq_some_iff

/-- A no-break space and an ideographic one are blanks to both. -/
theorem mapping?_iff_entries_of_spaced :
    let t := "a_1\u00a0=\u3000\t2b".toList
    trim t = t ∧ mapping? t = some ("a_1".toList, "2b".toList) ∧
      entries t = [⟨"a_1".toList, some "2b".toList⟩] := by
  intro t
  have htrim : trim t = t := by decide
  have hmapping : mapping? t = some ("a_1".toList, "2b".toList) := by decide
  exact ⟨htrim, hmapping, ((mapping?_iff_entries htrim _ _).1.mp hmapping).1⟩

end MacroLint.Fragment
