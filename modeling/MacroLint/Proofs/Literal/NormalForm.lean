import MacroLint.Literal.Normal

/-!
# The normal form is one, and local

Two facts about `normal`, for the three passes it is made of. It is a **normal form**: a text that
has the shape of one is left alone (`normal_of_isNormal`), and every output has that shape
(`isNormal_normal`), so normalising twice is normalising once. And it is **local**: what a pass does
to a character depends on its neighbours only, so a text may be cut at a place where the neighbours
are known, and the parts treated on their own (`collapse_append`, `closeSeams_append_seam`).

The passes cannot be swapped, and idempotence of the whole does not follow from idempotence of each:
it needs that a later pass does not undo an earlier one. Here this is the pair of facts that a
closed seam brings no two blanks together and that neither pass brings glue back.
-/

set_option autoImplicit false

namespace MacroLint.Literal

open Text

/-! ## 1. One pass at a time -/

@[simp] theorem withoutGlue_append (s t : Text) :
    withoutGlue (s ++ t) = withoutGlue s ++ withoutGlue t := List.filter_append ..

theorem withoutGlue_of_all {t : Text} (h : ∀ c ∈ t, isGlue c = true) : withoutGlue t = [] := by
  refine List.filter_eq_nil_iff.mpr fun c hc => ?_
  simp [h c hc]

theorem withoutGlue_of_none {t : Text} (h : ∀ c ∈ t, isGlue c = false) : withoutGlue t = t := by
  refine List.filter_eq_self.mpr fun c hc => ?_
  simp [h c hc]

theorem withoutGlue_cons_of_not {c : Char} (h : isGlue c = false) (t : Text) :
    withoutGlue (c :: t) = c :: withoutGlue t := by
  simp [withoutGlue, h]

/-- A run of blanks may be cut off in front of anything that is no blank. -/
theorem collapse_append {s t : Text} (h : t.head?.any isBlank = false) :
    collapse (s ++ t) = collapse s ++ collapse t := by
  induction s with
  | nil => rfl
  | cons c s ih =>
    have hhead : (s ++ t).head?.any isBlank = s.head?.any isBlank := by
      cases s with
      | nil => simpa using h
      | cons d s => rfl
    simp only [List.cons_append, collapse, hhead]
    split
    · split
      · exact ih
      · rw [ih, List.cons_append]
    · rw [ih, List.cons_append]

theorem collapse_cons_of_not {c : Char} (h : isBlank c = false) (t : Text) :
    collapse (c :: t) = c :: collapse t := by
  simp [collapse, h]

/-- A run of blanks is one space. -/
theorem collapse_of_all {t : Text} (hne : t ≠ []) (h : ∀ c ∈ t, isBlank c = true) :
    collapse t = [' '] := by
  induction t with
  | nil => exact absurd rfl hne
  | cons c t ih =>
    cases t with
    | nil => simp [collapse, h c List.mem_cons_self]
    | cons d t =>
      have hd : isBlank d = true := h d (by simp)
      rw [collapse, if_pos (h c List.mem_cons_self), if_pos (by simpa using hd)]
      exact ih (by simp) fun x hx => h x (List.mem_cons_of_mem c hx)

/-- Nothing but spaces is new in a collapsed text. -/
theorem mem_or_eq_space_of_mem_collapse {c : Char} {t : Text} (h : c ∈ collapse t) :
    c ∈ t ∨ c = ' ' := by
  induction t with
  | nil => exact Or.inl h
  | cons d t ih =>
    unfold collapse at h
    split at h
    · split at h
      · exact (ih h).imp_left (List.mem_cons_of_mem d)
      · rcases List.mem_cons.mp h with rfl | h
        · exact Or.inr rfl
        · exact (ih h).imp_left (List.mem_cons_of_mem d)
    · rcases List.mem_cons.mp h with rfl | h
      · exact Or.inl List.mem_cons_self
      · exact (ih h).imp_left (List.mem_cons_of_mem d)

theorem closeSeams_cons_of_ne {c : Char} (h : c ≠ ']') (t : Text) :
    closeSeams (c :: t) = c :: closeSeams t := by
  rw [closeSeams]
  rintro cs rfl -
  exact h rfl

theorem closeSeams_append_of_not_mem {s : Text} (h : ']' ∉ s) (t : Text) :
    closeSeams (s ++ t) = s ++ closeSeams t := by
  induction s with
  | nil => rfl
  | cons c s ih =>
    have hc : c ≠ ']' := fun e => h (e ▸ List.mem_cons_self)
    rw [List.cons_append, closeSeams_cons_of_ne hc, ih fun hs => h (List.mem_cons_of_mem c hs),
      List.cons_append]

theorem closeSeams_of_not_mem {t : Text} (h : ']' ∉ t) : closeSeams t = t := by
  simpa [closeSeams] using closeSeams_append_of_not_mem h []

/-- The first character of a text is never a space between brackets. -/
theorem head?_closeSeams (t : Text) : (closeSeams t).head? = t.head? := by
  fun_cases closeSeams t <;> rfl

/-- A closing bracket behind a text does not make a seam of its beginning. -/
theorem closeSeams_cons_append {c : Char} {s : Text}
    (h : ∀ t, c = ']' → s = ' ' :: '[' :: t → False) (t : Text) :
    closeSeams (c :: (s ++ ']' :: t)) = c :: closeSeams (s ++ ']' :: t) := by
  rw [closeSeams]
  rintro u rfl hu
  cases s with
  | nil => simp at hu
  | cons d s =>
    cases s with
    | nil => simp at hu
    | cons e s =>
      simp only [List.cons_append, List.cons.injEq] at hu
      exact h s rfl (by rw [hu.1, hu.2.1])

/-- A seam may be closed before the others are: seams do not overlap. -/
theorem closeSeams_append_seam (s t : Text) :
    closeSeams (s ++ ']' :: ' ' :: '[' :: t) = closeSeams (s ++ ']' :: '[' :: t) := by
  fun_induction closeSeams s with
  | case1 s ih => simp only [List.cons_append, closeSeams, ih]
  | case2 c s hc ih =>
    rw [List.cons_append, List.cons_append, closeSeams_cons_append hc, closeSeams_cons_append hc,
      ih]
  | case3 =>
    have hopen : closeSeams ('[' :: t) = '[' :: closeSeams t := closeSeams_cons_of_ne (by decide) t
    have hclose : closeSeams (']' :: '[' :: t) = ']' :: closeSeams ('[' :: t) := by
      rw [closeSeams]
      rintro u - hu
      simp at hu
    rw [List.nil_append, List.nil_append, hclose, hopen, closeSeams]

/-! ## 2. Normal forms -/

/-- The shape of a normal form: no glue, no blank but single spaces, and no seam. -/
structure IsNormal (t : Text) : Prop where
  noGlue : ∀ c ∈ t, isGlue c = false
  spaces : ∀ c ∈ t, isBlank c = true → c = ' '
  single : ¬[' ', ' '] <:+: t
  noSeam : ¬[']', ' ', '['] <:+: t

theorem isGlue_of_mem_normal {c : Char} {raw : Text} (h : c ∈ normal raw) : isGlue c = false := by
  rcases mem_or_eq_space_of_mem_collapse ((closeSeams_sublist _).mem h) with h | rfl
  · exact not_isGlue_of_mem_withoutGlue h
  · rfl

theorem head?_of_prefix {c : Char} {t : Text} (h : [c] <+: t) : t.head? = some c := by
  obtain ⟨u, rfl⟩ := h
  rfl

theorem head?_collapse {t : Text} (h : t.head?.any isBlank = false) :
    (collapse t).head? = t.head? := by
  cases t with
  | nil => rfl
  | cons c t => rw [collapse_cons_of_not (by simpa using h), List.head?_cons, List.head?_cons]

theorem not_double_collapse (t : Text) : ¬[' ', ' '] <:+: collapse t := by
  induction t with
  | nil => simp [collapse]
  | cons c t ih =>
    unfold collapse
    split
    · split
      · exact ih
      · rename_i hnext
        rw [Bool.not_eq_true] at hnext
        rw [List.infix_cons_iff, List.cons_prefix_cons]
        rintro (⟨-, hpre⟩ | hinf)
        · -- The space is the last of its run, so what follows is no blank.
          rw [← head?_collapse hnext, head?_of_prefix hpre] at hnext
          cases hnext
        · exact ih hinf
    · rename_i hc
      rw [List.infix_cons_iff, List.cons_prefix_cons]
      rintro (⟨rfl, -⟩ | hinf)
      · exact hc rfl
      · exact ih hinf

theorem not_double_closeSeams {t : Text} (h : ¬[' ', ' '] <:+: t) :
    ¬[' ', ' '] <:+: closeSeams t := by
  fun_induction closeSeams t with
  | case1 t ih =>
    have ht : ¬[' ', ' '] <:+: t := fun hinf => h (hinf.trans ⟨[']', ' ', '['], [], by simp⟩)
    simp only [List.infix_cons_iff, List.cons_prefix_cons]
    rintro (⟨hc, -⟩ | ⟨hc, -⟩ | hinf)
    · cases hc
    · cases hc
    · exact ih ht hinf
  | case2 c t hc ih =>
    rw [List.infix_cons_iff, List.cons_prefix_cons] at h
    rw [List.infix_cons_iff, List.cons_prefix_cons]
    rintro (⟨rfl, hpre⟩ | hinf)
    · have hhead : t.head? = some ' ' := by rw [← head?_closeSeams, head?_of_prefix hpre]
      obtain ⟨u, rfl⟩ := List.head?_eq_some_iff.mp hhead
      exact h (Or.inl ⟨rfl, u, rfl⟩)
    · exact ih (fun hinf => h (Or.inr hinf)) hinf
  | case3 => simp

theorem not_seam_closeSeams (t : Text) : ¬[']', ' ', '['] <:+: closeSeams t := by
  fun_induction closeSeams t with
  | case1 t ih =>
    simp only [List.infix_cons_iff, List.cons_prefix_cons]
    rintro (⟨-, hc, -⟩ | ⟨hc, -⟩ | hinf)
    · cases hc
    · cases hc
    · exact ih hinf
  | case2 c t hc ih =>
    rw [List.infix_cons_iff, List.cons_prefix_cons]
    rintro (⟨rfl, hpre⟩ | hinf)
    · -- A space right behind `c` was there before, and so was the bracket behind it.
      have hspace : t.head? = some ' ' := by
        rw [← head?_closeSeams, head?_of_prefix ((List.prefix_append [' '] ['[']).trans hpre)]
      obtain ⟨u, rfl⟩ := List.head?_eq_some_iff.mp hspace
      rw [closeSeams_cons_of_ne (by decide), List.cons_prefix_cons] at hpre
      have hopen : u.head? = some '[' := by rw [← head?_closeSeams, head?_of_prefix hpre.2]
      obtain ⟨v, rfl⟩ := List.head?_eq_some_iff.mp hopen
      exact hc v rfl rfl
    · exact ih hinf
  | case3 => simp

theorem isNormal_normal (raw : Text) : IsNormal (normal raw) where
  noGlue := fun _ hc => isGlue_of_mem_normal hc
  spaces := fun _ hc => eq_space_of_mem_collapse ((closeSeams_sublist _).mem hc)
  single := not_double_closeSeams (not_double_collapse _)
  noSeam := not_seam_closeSeams _

theorem collapse_of_isNormal {t : Text} (hs : ∀ c ∈ t, isBlank c = true → c = ' ')
    (hd : ¬[' ', ' '] <:+: t) : collapse t = t := by
  induction t with
  | nil => rfl
  | cons c t ih =>
    rw [List.infix_cons_iff, List.cons_prefix_cons] at hd
    have ht : collapse t = t :=
      ih (fun d hmem => hs d (List.mem_cons_of_mem c hmem)) fun hinf => hd (Or.inr hinf)
    by_cases hc : isBlank c = true
    · obtain rfl : c = ' ' := hs c List.mem_cons_self hc
      have hnext : t.head?.any isBlank = false := by
        cases t with
        | nil => rfl
        | cons d t =>
          refine Bool.eq_false_iff.mpr fun hb => hd (Or.inl ⟨rfl, t, ?_⟩)
          rw [hs d (by simp) hb]
          rfl
      rw [collapse, if_pos hc, hnext, ht]
      rfl
    · rw [collapse_cons_of_not (Bool.eq_false_iff.mpr hc), ht]

theorem closeSeams_of_not_infix {t : Text} (h : ¬[']', ' ', '['] <:+: t) : closeSeams t = t := by
  fun_induction closeSeams t with
  | case1 t ih => exact absurd ⟨[], t, rfl⟩ h
  | case2 c t hc ih =>
    rw [List.infix_cons_iff] at h
    rw [ih fun hinf => h (Or.inr hinf)]
  | case3 => rfl

/-- A text in the shape of a normal form is the normal form of itself. -/
theorem normal_of_isNormal {t : Text} (h : IsNormal t) : normal t = t := by
  rw [normal, withoutGlue_of_none h.noGlue, collapse_of_isNormal h.spaces h.single,
    closeSeams_of_not_infix h.noSeam]

theorem normal_idem (raw : Text) : normal (normal raw) = normal raw :=
  normal_of_isNormal (isNormal_normal raw)

/-! ## 3. What may be written into a literal -/

/-- Glue may stand anywhere. -/
theorem normal_append_glue {g : Text} (hg : ∀ c ∈ g, isGlue c = true) (a b : Text) :
    normal (a ++ g ++ b) = normal (a ++ b) := by
  simp only [normal, withoutGlue_append, withoutGlue_of_all hg, List.append_nil]

/-- Between two segments, blanks may stand as well. -/
theorem normal_append_seam {w : Text} (hw : ∀ c ∈ w, isGlue c = true ∨ isBlank c = true)
    (a b : Text) : normal (a ++ ']' :: (w ++ '[' :: b)) = normal (a ++ ']' :: '[' :: b) := by
  have hblank : ∀ c ∈ withoutGlue w, isBlank c = true := by
    intro c hc
    obtain ⟨hmem, hnot⟩ := List.mem_filter.mp hc
    exact (hw c hmem).resolve_left (by simpa using hnot)
  have hglue : isGlue '[' = false ∧ isGlue ']' = false := by decide
  simp only [normal, withoutGlue_append, withoutGlue_cons_of_not hglue.1,
    withoutGlue_cons_of_not hglue.2]
  -- What is left of `w` is a run of blanks between characters that are none.
  have hbracket : isBlank '[' = false ∧ isBlank ']' = false := by decide
  rw [collapse_append (by simpa using hbracket.2), collapse_append (by simpa using hbracket.2),
    collapse_cons_of_not hbracket.2, collapse_cons_of_not hbracket.2,
    collapse_append (by simpa using hbracket.1), collapse_cons_of_not hbracket.1]
  by_cases hnil : withoutGlue w = []
  · rw [hnil]
    rfl
  · rw [collapse_of_all hnil hblank]
    exact closeSeams_append_seam _ _

/-! ## 4. What stays -/

theorem filter_collapse {p : Char → Bool} (hp : ∀ c, isBlank c = true → p c = false) (t : Text) :
    (collapse t).filter p = t.filter p := by
  induction t with
  | nil => rfl
  | cons c t ih =>
    unfold collapse
    split
    · rename_i hc
      have hspace : p ' ' = false := hp ' ' (by decide)
      split
      · rw [ih, List.filter_cons_of_neg (by simp [hp c hc])]
      · rw [List.filter_cons_of_neg (by simp [hspace]), ih,
          List.filter_cons_of_neg (by simp [hp c hc])]
    · rw [List.filter_cons, List.filter_cons, ih]

theorem filter_closeSeams {p : Char → Bool} (hp : p ' ' = false) (t : Text) :
    (closeSeams t).filter p = t.filter p := by
  fun_induction closeSeams t with
  | case1 t ih => simp only [List.filter_cons, hp, ih, Bool.false_eq_true, if_false]
  | case2 c t hc ih => rw [List.filter_cons, List.filter_cons, ih]
  | case3 => rfl

/-- Normalising keeps every character that is neither glue nor blank. -/
theorem filter_normal {p : Char → Bool} (hp : ∀ c, isGlue c || isBlank c → p c = false)
    (t : Text) : (normal t).filter p = t.filter p := by
  have hblank : ∀ c, isBlank c = true → p c = false := fun c hc => hp c (by simp [hc])
  rw [normal, filter_closeSeams (hblank ' ' (by decide)), filter_collapse hblank, withoutGlue,
    List.filter_filter]
  refine List.filter_congr fun c _ => ?_
  cases hc : isGlue c with
  | true => simp [hp c (by simp [hc])]
  | false => simp

end MacroLint.Literal
