import MacroLint.Proofs.Literal.NormalForm

/-!
# Where a normal form has spaces

A normal form keeps every character that is neither glue nor blank, and puts at most one space
between two of them. Which places get a space is told from the text as it was written, one place at
a time: there has to be a blank that is no line break, and the place must not be a seam.

A place is written down with everything around it (`Joint`), and the three passes are followed
through it. Each pass may be cut at a kept character, `collapse` in front of it and `closeSeams`
behind it; what a pass makes of the two sides is not looked at, except that it keeps what is to be
kept. So a joint of the text becomes a joint of its normal form, between the same two characters.
-/

set_option autoImplicit false

namespace MacroLint.Literal

open Text

/-! ## 1. Joints -/

/-- A character that a normal form keeps: no quote, no plus sign and no blank. -/
def isKept (c : Char) : Bool := !(c == '"' || c == '+' || isBlank c)

/-- A blank that becomes a space: line breaks are glue. -/
def isSpacing (c : Char) : Bool := isBlank c && c != '\r' && c != '\n'

/-- A place in a text between two neighbouring kept characters, or at an end of the text, where
there is a neighbour on one side at most. -/
structure Joint where
  before : Text
  left : Option Char
  /-- What stands between the neighbours. -/
  gap : Text
  right : Option Char
  behind : Text
  isKept_left : ∀ c ∈ left, isKept c = true
  isKept_right : ∀ c ∈ right, isKept c = true
  isKept_gap : ∀ c ∈ gap, isKept c = false
  before_eq_nil : left = none → before = []
  behind_eq_nil : right = none → behind = []

/-- The text that a joint is a place in. -/
def Joint.text (j : Joint) : Text :=
  j.before ++ j.left.toList ++ j.gap ++ j.right.toList ++ j.behind

/-- What a normal form has between two neighbours which `gap` stands between. -/
def spaceBetween (left : Option Char) (gap : Text) (right : Option Char) : Text :=
  if gap.any isSpacing = true ∧ ¬(left = some ']' ∧ right = some '[') then [' '] else []

theorem isKept_eq_true_iff {c : Char} :
    isKept c = true ↔ isGlue c = false ∧ isBlank c = false := by
  unfold isKept isGlue
  constructor
  · intro h
    simp only [Bool.not_eq_true', Bool.or_eq_false_iff] at h
    obtain ⟨⟨hquote, hplus⟩, hblank⟩ := h
    refine ⟨?_, hblank⟩
    -- A line break is blank.
    have hreturn : (c == '\r') = false :=
      beq_false_of_ne fun e => by rw [e] at hblank; cases hblank
    have hfeed : (c == '\n') = false :=
      beq_false_of_ne fun e => by rw [e] at hblank; cases hblank
    rw [hquote, hplus, hreturn, hfeed]
    rfl
  · rintro ⟨hglue, hblank⟩
    simp only [Bool.or_eq_false_iff] at hglue
    rw [hglue.1.1.1, hglue.1.1.2, hblank]
    rfl

theorem not_isKept_of_glue_or_blank (c : Char) (h : isGlue c || isBlank c) : isKept c = false := by
  refine Bool.eq_false_iff.mpr fun hc => ?_
  obtain ⟨hglue, hblank⟩ := isKept_eq_true_iff.mp hc
  rw [hglue, hblank] at h
  cases h

theorem isSpacing_eq_true_iff {c : Char} (h : isKept c = false) :
    isSpacing c = true ↔ isGlue c = false := by
  have hkept : ¬(isGlue c = false ∧ isBlank c = false) :=
    fun hc => Bool.eq_false_iff.mp h (isKept_eq_true_iff.mpr hc)
  unfold isSpacing
  constructor
  · intro hc
    simp only [Bool.and_eq_true, bne_iff_ne, ne_eq] at hc
    obtain ⟨⟨hblank, hreturn⟩, hfeed⟩ := hc
    have hquote : c ≠ '"' := fun e => by rw [e] at hblank; cases hblank
    have hplus : c ≠ '+' := fun e => by rw [e] at hblank; cases hblank
    simp [isGlue, hquote, hplus, hreturn, hfeed]
  · intro hglue
    have hblank : isBlank c = true := by
      rw [← Bool.not_eq_false]
      exact fun hb => hkept ⟨hglue, hb⟩
    simp only [isGlue, Bool.or_eq_false_iff, beq_eq_false_iff_ne, ne_eq] at hglue
    simp [hblank, hglue]

/-! ## 2. Dropping glue and collapsing blanks at a joint -/

theorem withoutGlue_toList {x : Option Char} (h : ∀ c ∈ x, isKept c = true) :
    withoutGlue x.toList = x.toList :=
  withoutGlue_of_none fun c hc => (isKept_eq_true_iff.mp (h c (Option.mem_toList.mp hc))).1

theorem collapse_append_toList {y : Option Char} (h : ∀ c ∈ y, isKept c = true) {t : Text}
    (ht : y = none → t = []) (s : Text) :
    collapse (s ++ y.toList ++ t) = collapse s ++ y.toList ++ collapse t := by
  cases y with
  | none =>
    obtain rfl := ht rfl
    simp [collapse]
  | some c =>
    have hblank : isBlank c = false := (isKept_eq_true_iff.mp (h c rfl)).2
    have hhead : (c :: t).head?.any isBlank = false := by simpa using hblank
    simp only [Option.toList_some, List.append_assoc, List.singleton_append]
    rw [collapse_append hhead, collapse_cons_of_not hblank]

theorem collapse_toList_append {x : Option Char} (h : ∀ c ∈ x, isKept c = true) {s : Text}
    (hs : x = none → s = []) (t : Text) :
    collapse (s ++ x.toList ++ t) = collapse s ++ x.toList ++ collapse t := by
  cases x with
  | none =>
    obtain rfl := hs rfl
    simp [collapse]
  | some c =>
    exact collapse_append_toList h (fun hnone => absurd hnone (Option.some_ne_none c)) s

/-- Of the gap at a joint one space is left, or nothing. -/
theorem collapse_withoutGlue_gap {gap : Text} (h : ∀ c ∈ gap, isKept c = false) :
    collapse (withoutGlue gap) = if gap.any isSpacing then [' '] else [] := by
  have hmem : ∀ c ∈ withoutGlue gap, c ∈ gap ∧ isSpacing c = true ∧ isBlank c = true := by
    intro c hc
    obtain ⟨hgap, -⟩ := List.mem_filter.mp hc
    have hspace := (isSpacing_eq_true_iff (h c hgap)).mpr (not_isGlue_of_mem_withoutGlue hc)
    have hblank := hspace
    simp only [isSpacing, Bool.and_eq_true] at hblank
    exact ⟨hgap, hspace, hblank.1.1⟩
  cases hrest : withoutGlue gap with
  | nil =>
    have hnone : gap.any isSpacing = false := by
      refine List.any_eq_false.mpr fun c hc hspace => ?_
      have hglue := (isSpacing_eq_true_iff (h c hc)).mp hspace
      have hleft : c ∈ withoutGlue gap := List.mem_filter.mpr ⟨hc, by rw [hglue]; rfl⟩
      rw [hrest] at hleft
      cases hleft
    rw [hnone]
    rfl
  | cons d rest =>
    have hany : gap.any isSpacing = true := by
      obtain ⟨hd, hspace, -⟩ := hmem d (hrest ▸ List.mem_cons_self)
      exact List.any_eq_true.mpr ⟨d, hd, hspace⟩
    rw [hany, ← hrest, collapse_of_all (hrest ▸ List.cons_ne_nil d rest)
      fun c hc => (hmem c hc).2.2]
    rfl

/-! ## 3. Closing seams at a joint -/

theorem getLast?_closeSeams (t : Text) : (closeSeams t).getLast? = t.getLast? := by
  fun_induction closeSeams t with
  | case1 t ih => simp only [List.getLast?_cons, ih, Option.getD_some]
  | case2 c t _ ih => rw [List.getLast?_cons, List.getLast?_cons, ih]
  | case3 => rfl

/-- Seams are closed on both sides of a place apart, unless a seam lies across it. -/
theorem closeSeams_append {s t : Text} (hspace : s.getLast? ≠ some ' ')
    (hseam : ¬(s.getLast? = some ']' ∧ [' ', '['] <+: t)) :
    closeSeams (s ++ t) = closeSeams s ++ closeSeams t := by
  fun_induction closeSeams s with
  | case1 s ih =>
    cases s with
    | nil => simp [closeSeams]
    | cons c s =>
      simp only [List.getLast?_cons_cons] at hspace hseam ih
      simp only [List.cons_append, closeSeams]
      rw [← List.cons_append, ih hspace hseam]
  | case2 c s hc ih =>
    have hnext : closeSeams (c :: (s ++ t)) = c :: closeSeams (s ++ t) := by
      rw [closeSeams]
      rintro u rfl hu
      rcases s with _ | ⟨d, _ | ⟨e, s⟩⟩
      · exact hseam ⟨rfl, u, hu.symm⟩
      · simp only [List.singleton_append, List.cons.injEq] at hu
        exact hspace (by rw [hu.1]; rfl)
      · simp only [List.cons_append, List.cons.injEq] at hu
        exact hc s rfl (by rw [hu.1, hu.2.1])
    rw [List.cons_append, hnext, List.cons_append]
    cases s with
    | nil => rfl
    | cons d s =>
      rw [List.getLast?_cons_cons] at hspace hseam
      rw [ih hspace hseam]
  | case3 => rfl

theorem filter_isKept_closeSeams (t : Text) : (closeSeams t).filter isKept = t.filter isKept :=
  filter_closeSeams (by decide) t

theorem exists_closeSeams_concat (s : Text) (c : Char) :
    ∃ s', closeSeams (s ++ [c]) = s' ++ [c] ∧ s'.filter isKept = s.filter isKept := by
  have hlast : (closeSeams (s ++ [c])).getLast? = some c := by
    rw [getLast?_closeSeams, List.getLast?_concat]
  obtain ⟨s', hs'⟩ := List.getLast?_eq_some_iff.mp hlast
  refine ⟨s', hs', ?_⟩
  have hfilter := filter_isKept_closeSeams (s ++ [c])
  rw [hs', List.filter_append, List.filter_append] at hfilter
  exact List.append_cancel_right hfilter

theorem exists_closeSeams_cons (c : Char) (t : Text) :
    ∃ t', closeSeams (c :: t) = c :: t' ∧ t'.filter isKept = t.filter isKept := by
  have hhead : (closeSeams (c :: t)).head? = some c := head?_closeSeams (c :: t)
  obtain ⟨t', ht'⟩ := List.head?_eq_some_iff.mp hhead
  refine ⟨t', ht', ?_⟩
  have hfilter : ([c] ++ t').filter isKept = ([c] ++ t).filter isKept := by
    rw [List.singleton_append, ← ht']
    exact filter_isKept_closeSeams (c :: t)
  rw [List.filter_append, List.filter_append] at hfilter
  exact List.append_cancel_left hfilter

/-- What stands behind a space, or at the start of a text, has no seam in front. -/
theorem exists_closeSeams_right {y : Option Char} {t : Text} (ht : y = none → t = [])
    {space : Text} (hspace : space = [] ∨ space = [' ']) :
    ∃ t', closeSeams (space ++ (y.toList ++ t)) = space ++ (y.toList ++ t') ∧
      t'.filter isKept = t.filter isKept ∧ (y = none → t' = []) := by
  have hright : ∃ t', closeSeams (y.toList ++ t) = y.toList ++ t' ∧
      t'.filter isKept = t.filter isKept ∧ (y = none → t' = []) := by
    cases y with
    | none =>
      obtain rfl := ht rfl
      exact ⟨[], rfl, rfl, fun _ => rfl⟩
    | some c =>
      obtain ⟨t', heq, hfilter⟩ := exists_closeSeams_cons c t
      exact ⟨t', heq, hfilter, nofun⟩
  obtain ⟨t', heq, hfilter, hnil⟩ := hright
  refine ⟨t', ?_, hfilter, hnil⟩
  rcases hspace with rfl | rfl
  · exact heq
  · rw [List.singleton_append, closeSeams_cons_of_ne (by decide), heq, List.singleton_append]

/-- Between a closing and an opening bracket there is no space left. -/
theorem closeSeams_of_seam {space : Text} (hspace : space = [] ∨ space = [' ']) (s t : Text) :
    closeSeams (s ++ [']'] ++ (space ++ '[' :: t)) = closeSeams (s ++ [']'] ++ '[' :: t) := by
  rcases hspace with rfl | rfl
  · rfl
  · simpa using closeSeams_append_seam s t

/-- A seam has an opening bracket on its right. -/
theorem eq_of_seam_prefix {y : Option Char} {t : Text} (hy : y ≠ some ' ')
    (ht : y = none → t = []) {space : Text} (hspace : space = [] ∨ space = [' '])
    (h : [' ', '['] <+: space ++ (y.toList ++ t)) : y = some '[' := by
  cases y with
  | none =>
    obtain rfl := ht rfl
    rcases hspace with rfl | rfl
    · exact absurd h.length_le (by decide)
    · exact absurd h.length_le (by decide)
  | some c =>
    rcases hspace with rfl | rfl
    · obtain rfl := (List.cons_prefix_cons.mp h).1
      exact absurd rfl hy
    · have hopen := (List.cons_prefix_cons.mp h).2
      rw [← (List.cons_prefix_cons.mp hopen).1]

theorem exists_closeSeams_joint {x y : Option Char} {s t : Text} (hx : x ≠ some ' ')
    (hy : y ≠ some ' ') (hs : x = none → s = []) (ht : y = none → t = []) {space : Text}
    (hspace : space = [] ∨ space = [' ']) :
    ∃ s' t', closeSeams (s ++ x.toList ++ (space ++ (y.toList ++ t)))
        = s' ++ x.toList ++ ((if x = some ']' ∧ y = some '[' then [] else space) ++
          (y.toList ++ t')) ∧
      s'.filter isKept = s.filter isKept ∧ t'.filter isKept = t.filter isKept ∧
      (x = none → s' = []) ∧ (y = none → t' = []) := by
  cases x with
  | none =>
    obtain rfl := hs rfl
    obtain ⟨t', heq, hfilter, hnil⟩ := exists_closeSeams_right ht hspace
    exact ⟨[], t', by simpa using heq, rfl, hfilter, fun _ => rfl, hnil⟩
  | some c =>
    obtain ⟨s', hs', hfilters⟩ := exists_closeSeams_concat s c
    have hlast : (s ++ [c]).getLast? = some c := List.getLast?_concat
    by_cases hseam : some c = some ']' ∧ y = some '['
    · obtain ⟨hc, rfl⟩ := hseam
      obtain rfl := Option.some.inj hc
      obtain ⟨t', heq, hfilter⟩ := exists_closeSeams_cons '[' t
      refine ⟨s', t', ?_, hfilters, hfilter, nofun, nofun⟩
      rw [if_pos ⟨rfl, rfl⟩]
      show closeSeams (s ++ [']'] ++ (space ++ '[' :: t)) = s' ++ [']'] ++ '[' :: t'
      rw [closeSeams_of_seam hspace, closeSeams_append (hlast ▸ hx), hs', heq]
      -- What is behind the bracket now is no space.
      rintro ⟨-, hpre⟩
      cases (List.cons_prefix_cons.mp hpre).1
    · obtain ⟨t', heq, hfilter, hnil⟩ := exists_closeSeams_right ht hspace
      refine ⟨s', t', ?_, hfilters, hfilter, nofun, hnil⟩
      rw [if_neg hseam]
      show closeSeams (s ++ [c] ++ _) = s' ++ [c] ++ _
      rw [closeSeams_append (hlast ▸ hx), hs', heq]
      rintro ⟨hc, hpre⟩
      exact hseam ⟨hlast ▸ hc, eq_of_seam_prefix hy ht hspace hpre⟩

/-! ## 4. The normal form -/

theorem spaceBetween_eq (left : Option Char) (gap : Text) (right : Option Char) :
    spaceBetween left gap right = if left = some ']' ∧ right = some '[' then []
      else if gap.any isSpacing then [' '] else [] := by
  unfold spaceBetween
  by_cases hseam : left = some ']' ∧ right = some '['
  · rw [if_pos hseam, if_neg fun h => h.2 hseam]
  · simp only [hseam, not_false_eq_true, and_true, if_false]

theorem filter_isKept_normal (t : Text) : (normal t).filter isKept = t.filter isKept :=
  filter_normal not_isKept_of_glue_or_blank t

theorem ne_space_of_isKept {x : Option Char} (h : ∀ c ∈ x, isKept c = true) : x ≠ some ' ' :=
  fun hx => absurd (h ' ' hx) (by decide)

theorem eq_space_of_mem_spaceBetween {left right : Option Char} {gap : Text} {c : Char}
    (h : c ∈ spaceBetween left gap right) : c = ' ' := by
  unfold spaceBetween at h
  split at h
  · exact List.mem_singleton.mp h
  · cases h

theorem Joint.collapse_withoutGlue_text (j : Joint) :
    collapse (withoutGlue j.text)
      = collapse (withoutGlue j.before) ++ j.left.toList
        ++ ((if j.gap.any isSpacing then [' '] else [])
          ++ (j.right.toList ++ collapse (withoutGlue j.behind))) := by
  simp only [text, withoutGlue_append, withoutGlue_toList j.isKept_left,
    withoutGlue_toList j.isKept_right]
  rw [collapse_append_toList j.isKept_right fun h => by rw [j.behind_eq_nil h]; rfl,
    collapse_toList_append j.isKept_left fun h => by rw [j.before_eq_nil h]; rfl,
    collapse_withoutGlue_gap j.isKept_gap]
  simp only [List.append_assoc]

/-- What the normal form has in the place of a joint: the same neighbours in the same place, and
between them a space or nothing. -/
structure Joint.Becomes (j k : Joint) : Prop where
  left : k.left = j.left
  right : k.right = j.right
  gap : k.gap = spaceBetween j.left j.gap j.right
  before : k.before.filter isKept = j.before.filter isKept
  behind : k.behind.filter isKept = j.behind.filter isKept

theorem Joint.exists_becomes (j : Joint) : ∃ k : Joint, k.text = normal j.text ∧ j.Becomes k := by
  have hspace : (if j.gap.any isSpacing then [' '] else []) = [] ∨
      (if j.gap.any isSpacing then [' '] else []) = [' '] := by
    split
    · exact Or.inr rfl
    · exact Or.inl rfl
  have hstart : j.left = none → collapse (withoutGlue j.before) = [] :=
    fun h => by rw [j.before_eq_nil h]; rfl
  have hstop : j.right = none → collapse (withoutGlue j.behind) = [] :=
    fun h => by rw [j.behind_eq_nil h]; rfl
  obtain ⟨before, behind, hclosed, hbefore, hbehind, hnilBefore, hnilBehind⟩ :=
    exists_closeSeams_joint (ne_space_of_isKept j.isKept_left) (ne_space_of_isKept j.isKept_right)
      hstart hstop hspace
  have hkept (t : Text) : (collapse (withoutGlue t)).filter isKept = t.filter isKept := by
    rw [← filter_isKept_closeSeams]
    exact filter_isKept_normal t
  let k : Joint :=
    { before, left := j.left, gap := spaceBetween j.left j.gap j.right, right := j.right, behind
      isKept_left := j.isKept_left
      isKept_right := j.isKept_right
      isKept_gap := fun c hc => by rw [eq_space_of_mem_spaceBetween hc]; rfl
      before_eq_nil := hnilBefore
      behind_eq_nil := hnilBehind }
  refine ⟨k, ?_, ⟨rfl, rfl, rfl, hbefore.trans (hkept _), hbehind.trans (hkept _)⟩⟩
  show before ++ j.left.toList ++ spaceBetween j.left j.gap j.right ++ j.right.toList ++ behind
    = closeSeams (collapse (withoutGlue j.text))
  rw [j.collapse_withoutGlue_text, hclosed, spaceBetween_eq]
  simp only [List.append_assoc]

theorem normal_eq_self_iff {t : Text} :
    normal t = t ↔ '"' ∉ t ∧ '+' ∉ t ∧ (∀ c ∈ t, isBlank c = true → c = ' ') ∧
      ¬[' ', ' '] <:+: t ∧ ¬[']', ' ', '['] <:+: t := by
  constructor
  · intro h
    obtain ⟨hglue, hspaces, hsingle, hseam⟩ := h ▸ isNormal_normal t
    refine ⟨fun hmem => ?_, fun hmem => ?_, hspaces, hsingle, hseam⟩
    · cases hglue _ hmem
    · cases hglue _ hmem
  · rintro ⟨hquote, hplus, hspaces, hsingle, hseam⟩
    refine normal_of_isNormal ⟨fun c hc => ?_, hspaces, hsingle, hseam⟩
    have hne {d : Char} (hd : d ∉ t) : c ≠ d := fun e => hd (e ▸ hc)
    -- A line break would be a blank other than a space.
    have hreturn : '\r' ∉ t := fun hmem => absurd (hspaces _ hmem rfl) (by decide)
    have hfeed : '\n' ∉ t := fun hmem => absurd (hspaces _ hmem rfl) (by decide)
    simp [isGlue, hne hquote, hne hplus, hne hreturn, hne hfeed]

/-- **What a normal form is.** It has the characters of the text that are no glue and no blank. Its
blanks are spaces, no two of them next to each other; between two neighbours, and at both ends,
there is a space exactly if a blank other than a line break stood there, but none in a seam. So the
texts that are their own normal forms are those which have this shape, and every normal form is
one. -/
theorem normal_spaces :
    (∀ t : Text, (normal t).filter (· != ' ') = t.filter isKept ∧
      (∀ c ∈ normal t, isBlank c = true → c = ' ') ∧ ¬[' ', ' '] <:+: normal t) ∧
    (∀ j : Joint, ∃ k : Joint, k.text = normal j.text ∧ j.Becomes k) ∧
    ∀ t : Text,
      (normal t = t ↔ '"' ∉ t ∧ '+' ∉ t ∧ (∀ c ∈ t, isBlank c = true → c = ' ') ∧
        ¬[' ', ' '] <:+: t ∧ ¬[']', ' ', '['] <:+: t) ∧
      normal (normal t) = normal t := by
  refine ⟨fun t => ?_, Joint.exists_becomes, fun t => ⟨normal_eq_self_iff, normal_idem t⟩⟩
  obtain ⟨hglue, hspaces, hsingle, -⟩ := isNormal_normal t
  refine ⟨?_, hspaces, hsingle⟩
  rw [← filter_isKept_normal]
  refine List.filter_congr fun c hc => ?_
  by_cases hspace : c = ' '
  · rw [hspace]
    rfl
  · have hblank : isBlank c = false := Bool.eq_false_iff.mpr fun hb => hspace (hspaces c hc hb)
    rw [isKept_eq_true_iff.mpr ⟨hglue c hc, hblank⟩]
    exact bne_iff_ne.mpr hspace

/-- A text at two of its places. The tab between the brackets is in a seam and leaves nothing; the
space at the end stays, and not because of the line break behind it. -/
theorem normal_spaces_of_seam_and_end :
    let seam : Joint :=
      { before := "a\r\n b".toList, left := ']', gap := ['+', '\t'], right := '['
        behind := "\n\t x \n".toList
        isKept_left := fun _ h => by cases h; rfl
        isKept_right := fun _ h => by cases h; rfl
        isKept_gap := List.forall_mem_cons.mpr ⟨rfl, List.forall_mem_singleton.mpr rfl⟩
        before_eq_nil := nofun
        behind_eq_nil := nofun }
    let stop : Joint :=
      { before := "a\r\n b]+\t[\n\t ".toList, left := 'x', gap := [' ', '\n'], right := none
        behind := []
        isKept_left := fun _ h => by cases h; rfl
        isKept_right := nofun
        isKept_gap := List.forall_mem_cons.mpr ⟨rfl, List.forall_mem_singleton.mpr rfl⟩
        before_eq_nil := nofun
        behind_eq_nil := fun _ => rfl }
    seam.text = stop.text ∧
      (normal seam.text).filter (· != ' ') = "ab][x".toList ∧
      (∃ k : Joint, k.text = normal seam.text ∧
        k.left = some ']' ∧ k.gap = [] ∧ k.right = some '[') ∧
      ∃ k : Joint, k.text = normal stop.text ∧
        k.left = some 'x' ∧ k.gap = [' '] ∧ k.right = none := by
  intro seam stop
  obtain ⟨hkept, hjoints, -⟩ := normal_spaces
  obtain ⟨k, hk, hseam⟩ := hjoints seam
  obtain ⟨l, hl, hstop⟩ := hjoints stop
  refine ⟨rfl, (hkept seam.text).1, ?_, ?_⟩
  · exact ⟨k, hk, hseam.left, hseam.gap, hseam.right⟩
  · exact ⟨l, hl, hstop.left, hstop.gap, hstop.right⟩

end MacroLint.Literal
