import Mathlib.Data.List.Induction
import MacroLint.Proofs.Fragment.Pieces

/-!
# Commas between parentheses

Where parentheses pair up is usually said with a stack: a closing parenthesis matches the innermost
one that is open, and if none is open it is *stray*, matches nothing and is forgotten (`Matching`).
The splitter keeps one signed depth instead. The two are tied by one equation: the depth is the
number of parentheses that are open less the number of strays so far (`nesting_after_start`).

So a stray is not forgotten by the splitter, and the parentheses that open later make up for it: a
comma is cut exactly where at least as many strays stand before it as parentheses are open
(`cutsAt_iff_strays`). A pair protects its commas only if nothing stray stands before it.
-/

set_option autoImplicit false

namespace MacroLint.Fragment

open Text

/-! ## 1. Where a text is cut -/

/-- The splitter cuts a text at a place: some of its pieces are what stands before the place. -/
def CutsAt (t : Text) (k : Nat) : Prop :=
  ∃ before after, before ≠ [] ∧ after ≠ [] ∧ split t = before ++ after ∧
    joined [','] before = t.take k

theorem joined_append {before after : List Text} (hb : before ≠ []) (ha : after ≠ []) :
    joined [','] (before ++ after) = joined [','] before ++ ',' :: joined [','] after := by
  obtain ⟨last, rest, rfl⟩ := List.exists_cons_of_ne_nil ha
  induction before with
  | nil => exact absurd rfl hb
  | cons first before ih =>
    cases before with
    | nil =>
      rw [List.singleton_append, joined_cons, List.append_assoc]
      simp only [joined, List.intercalate_singleton, List.singleton_append]
    | cons second before =>
      have hrest := ih (List.cons_ne_nil second before)
      rw [List.cons_append] at hrest
      rw [List.cons_append, List.cons_append, joined_cons, joined_cons, hrest]
      simp only [List.append_assoc]

theorem ArePieces.isTop_after_joined {n : Nesting} {before after : List Text}
    (h : ArePieces n (before ++ after)) (hb : before ≠ []) (ha : after ≠ []) :
    (n.after (joined [','] before)).isTop = true := by
  induction before generalizing n with
  | nil => exact absurd rfl hb
  | cons first before ih =>
    obtain ⟨-, htop, hrest⟩ := h
    cases before with
    | nil =>
      rw [joined, List.intercalate_singleton]
      exact htop ha
    | cons second before =>
      have hcomma : (n.after first).step ',' = n.after first := Nesting.step_of_isPlain _ rfl
      rw [joined_cons, Nesting.after_append, Nesting.after_append, Nesting.after_cons, hcomma,
        Nesting.after_nil]
      exact ih hrest (List.cons_ne_nil second before)

theorem exists_pieces_iff {t p : Text} :
    (∃ before after, before ≠ [] ∧ after ≠ [] ∧ split t = before ++ after ∧
      joined [','] before = p) ↔ p ++ [','] <+: t ∧ (Nesting.start.after p).isTop = true := by
  constructor
  · rintro ⟨before, after, hb, ha, hsplit, rfl⟩
    have hpieces : ArePieces .start (before ++ after) := hsplit ▸ arePieces_splitFrom .start t
    refine ⟨⟨joined [','] after, ?_⟩, hpieces.isTop_after_joined hb ha⟩
    rw [List.append_assoc, List.singleton_append, ← joined_append hb ha, ← hsplit, joined_split]
  · rintro ⟨⟨rest, rfl⟩, htop⟩
    obtain ⟨before, last, hp, hrest⟩ := exists_splitFrom_append .start p
    have hcut : splitFrom (Nesting.start.after p) (',' :: rest)
        = [] :: splitFrom ((Nesting.start.after p).step ',') rest := by
      simp [splitFrom, htop]
    refine ⟨before ++ [last], splitFrom ((Nesting.start.after p).step ',') rest, by simp,
      splitFrom_ne_nil _ _, ?_, by rw [← hp, joined_splitFrom]⟩
    rw [split, List.append_assoc, List.singleton_append, hrest, hcut, List.modifyHead_cons,
      List.append_nil, List.append_cons]

theorem cutsAt_iff {t : Text} {k : Nat} (hcomma : t[k]? = some ',') :
    CutsAt t k ↔ (Nesting.start.after (t.take k)).isTop = true := by
  have hprefix : t.take k ++ [','] <+: t := by
    obtain ⟨hk, hget⟩ := List.getElem?_eq_some_iff.mp hcomma
    rw [← hget, List.take_append_getElem hk]
    exact List.take_prefix (k + 1) t
  rw [CutsAt, exists_pieces_iff]
  exact and_iff_right hprefix

/-! ## 2. Which parentheses match -/

/-- What a reader knows who keeps a stack of parentheses. -/
structure Matching where
  quoted : Bool
  /-- Where the parentheses stand that are still open, the innermost one first. -/
  opened : List Nat
  /-- How many closing parentheses found none open. -/
  strays : Nat
  /-- Where the parentheses stand that match. -/
  pairs : List (Nat × Nat)
  deriving DecidableEq, Repr

namespace Matching

/-- What is known behind a character that stands at place `i`. -/
def step (m : Matching) (c : Char) (i : Nat) : Matching :=
  if c = '\'' then { m with quoted := !m.quoted }
  else if m.quoted then m
  else if c = '(' then { m with opened := i :: m.opened }
  else if c = ')' then
    match m.opened with
    | [] => { m with strays := m.strays + 1 }
    | j :: rest => { m with opened := rest, pairs := (j, i) :: m.pairs }
  else m

/-- What is known behind a text. -/
def of (t : Text) : Matching := t.zipIdx.foldl (fun m (c, i) => m.step c i) ⟨false, [], 0, []⟩

theorem of_concat (t : Text) (c : Char) : of (t ++ [c]) = (of t).step c t.length := by
  simp [of, List.zipIdx_append]

theorem mem_opened_step {m : Matching} {c : Char} {i j : Nat} :
    j ∈ (m.step c i).opened → (m.step c i).strays = m.strays ∧ (j = i ∨ j ∈ m.opened) := by
  unfold step
  split
  · exact fun h => ⟨rfl, Or.inr h⟩
  split
  · exact fun h => ⟨rfl, Or.inr h⟩
  split
  · exact fun h => ⟨rfl, List.mem_cons.mp h⟩
  split
  · split
    · -- Where a parenthesis is stray, none is open.
      rename_i hopened
      intro h
      rw [hopened] at h
      cases h
    · rename_i first rest hopened
      intro h
      exact ⟨rfl, Or.inr (hopened ▸ List.mem_cons_of_mem first h)⟩
  · exact fun h => ⟨rfl, Or.inr h⟩

/-- A pair that is complete behind a character was complete before, or its opening half was open. -/
theorem mem_pairs_step {m : Matching} {c : Char} {i j k : Nat} :
    (j, k) ∈ (m.step c i).pairs → (j, k) ∈ m.pairs ∨ k = i ∧ j ∈ m.opened := by
  unfold step
  split
  · exact Or.inl
  split
  · exact Or.inl
  split
  · exact Or.inl
  split
  · split
    · exact Or.inl
    · rename_i first rest hopened
      intro h
      rcases List.mem_cons.mp h with hnew | hold
      · cases hnew
        exact Or.inr ⟨rfl, hopened ▸ List.mem_cons_self⟩
      · exact Or.inl hold
  · exact Or.inl

theorem nesting_step {m : Matching} {n : Nesting} (c : Char) (i : Nat)
    (hquoted : n.quoted = m.quoted) (hdepth : n.depth = (m.opened.length : Int) - m.strays) :
    (n.step c).quoted = (m.step c i).quoted ∧
      (n.step c).depth = ((m.step c i).opened.length : Int) - (m.step c i).strays := by
  obtain ⟨quoted, depth⟩ := n
  obtain rfl : quoted = m.quoted := hquoted
  obtain rfl : depth = (m.opened.length : Int) - m.strays := hdepth
  unfold step Nesting.step
  split
  · exact ⟨rfl, rfl⟩
  split
  · exact ⟨rfl, rfl⟩
  split
  · exact ⟨rfl, by simp only [List.length_cons]; omega⟩
  split
  · cases hopened : m.opened with
    | nil => exact ⟨rfl, by simp only [List.length_nil]; omega⟩
    | cons j rest => exact ⟨rfl, by simp only [List.length_cons]; omega⟩
  · exact ⟨rfl, rfl⟩

/-- The splitter's depth is what is open less what was stray. -/
theorem nesting_after_start (t : Text) :
    (Nesting.start.after t).quoted = (of t).quoted ∧
      (Nesting.start.after t).depth = ((of t).opened.length : Int) - (of t).strays := by
  induction t using List.reverseRecOn with
  | nil => exact ⟨rfl, rfl⟩
  | append_singleton t c ih =>
    have hafter : Nesting.start.after (t ++ [c]) = (Nesting.start.after t).step c := by
      simp [Nesting.after]
    rw [hafter, of_concat]
    exact nesting_step c t.length ih.1 ih.2

/-- A parenthesis that is open has been open since it stands there, and in the meantime nothing was
stray. -/
theorem opened_take {t : Text} {i : Nat} (h : i ∈ (of t).opened) :
    i < t.length ∧ (of t).strays = (of (t.take i)).strays ∧
      ∀ k, i < k → k ≤ t.length → i ∈ (of (t.take k)).opened := by
  induction t using List.reverseRecOn with
  | nil => cases h
  | append_singleton t c ih =>
    have hlength : (t ++ [c]).length = t.length + 1 := List.length_append
    have htake {k : Nat} (hk : k ≤ t.length) : (t ++ [c]).take k = t.take k :=
      List.take_append_of_le_length hk
    have hlast {k : Nat} (hk : t.length < k) : (t ++ [c]).take k = t ++ [c] :=
      List.take_of_length_le (by omega)
    have hopen := h
    rw [of_concat] at hopen
    obtain ⟨hstrays, hi⟩ := mem_opened_step hopen
    rw [← of_concat] at hstrays
    rcases hi with rfl | hi
    · refine ⟨by omega, by rw [hstrays, htake (Nat.le_refl _), List.take_length], ?_⟩
      intro k hlt _
      rwa [hlast hlt]
    · obtain ⟨hlt, hbefore, hsince⟩ := ih hi
      refine ⟨by omega, by rw [hstrays, hbefore, htake (Nat.le_of_lt hlt)], ?_⟩
      intro k hik _
      by_cases hk : k ≤ t.length
      · rw [htake hk]
        exact hsince k hik hk
      · rwa [hlast (Nat.not_le.mp hk)]

theorem opened_of_mem_pairs {t : Text} {i j : Nat} (h : (i, j) ∈ (of t).pairs) :
    j < t.length ∧ i ∈ (of (t.take j)).opened := by
  induction t using List.reverseRecOn with
  | nil => cases h
  | append_singleton t c ih =>
    have hlength : (t ++ [c]).length = t.length + 1 := List.length_append
    rw [of_concat] at h
    rcases mem_pairs_step h with hold | ⟨rfl, hopen⟩
    · obtain ⟨hlt, hopen⟩ := ih hold
      rw [List.take_append_of_le_length (Nat.le_of_lt hlt)]
      exact ⟨by omega, hopen⟩
    · rw [List.take_left]
      exact ⟨by omega, hopen⟩

/-- Between the two halves of a pair its opening half is open, and nothing is stray. -/
theorem opened_between {t : Text} {i j k : Nat} (h : (i, j) ∈ (of t).pairs) (hik : i < k)
    (hkj : k < j) :
    i ∈ (of (t.take k)).opened ∧ (of (t.take k)).strays = (of (t.take i)).strays := by
  obtain ⟨hj, hopen⟩ := opened_of_mem_pairs h
  have hlength : (t.take j).length = j := List.length_take_of_le (Nat.le_of_lt hj)
  have hk := (opened_take hopen).2.2 k hik (by omega)
  rw [List.take_take, Nat.min_eq_left (Nat.le_of_lt hkj)] at hk
  refine ⟨hk, ?_⟩
  rw [(opened_take hk).2.1, List.take_take, Nat.min_eq_left (Nat.le_of_lt hik)]

end Matching

/-! ## 3. What a pair protects -/

theorem cutsAt_iff_opened_le {t : Text} {k : Nat} (hcomma : t[k]? = some ',') :
    CutsAt t k ↔ (t.take k).count '\'' % 2 = 0 ∧
      (Matching.of (t.take k)).opened.length ≤ (Matching.of (t.take k)).strays := by
  have hdepth := (Matching.nesting_after_start (t.take k)).2
  rw [cutsAt_iff hcomma, Nesting.isTop, Nesting.quoted_after_start, hdepth]
  simp only [Bool.and_eq_true, Bool.not_eq_true', decide_eq_false_iff_not, decide_eq_true_eq]
  omega

/-- **What parentheses protect.** A comma in a quoted string is never cut. An unquoted one is cut
exactly where at least as many closing parentheses were stray as are open around it; so between the
two halves of a pair it is not cut if nothing was stray before the pair. -/
theorem cutsAt_iff_strays {t : Text} {k : Nat} (hcomma : t[k]? = some ',') :
    ((t.take k).count '\'' % 2 = 1 → ¬CutsAt t k) ∧
    ((t.take k).count '\'' % 2 = 0 → (CutsAt t k ↔
      (Matching.of (t.take k)).opened.length ≤ (Matching.of (t.take k)).strays)) ∧
    ∀ i j, (i, j) ∈ (Matching.of t).pairs → i < k → k < j →
      (Matching.of (t.take i)).strays = 0 → ¬CutsAt t k := by
  have hcuts := cutsAt_iff_opened_le hcomma
  refine ⟨?_, ?_, ?_⟩
  · intro hodd hcut
    have heven := (hcuts.mp hcut).1
    omega
  · intro heven
    rw [hcuts]
    exact and_iff_right heven
  · intro i j hpair hik hkj hnone hcut
    obtain ⟨hopen, hstrays⟩ := Matching.opened_between hpair hik hkj
    have hle := (hcuts.mp hcut).2
    have hpos := List.length_pos_of_mem hopen
    omega

/-- A pair behind a string and a pair, in which a comma and a quoted comma stand. -/
theorem cutsAt_iff_strays_of_nested :
    let t : Text := "f(','),g(1,(2))".toList
    ¬CutsAt t 3 ∧ CutsAt t 6 ∧ ¬CutsAt t 10 := by
  intro t
  refine ⟨(cutsAt_iff_strays rfl).1 (by decide), ?_, ?_⟩
  · exact ((cutsAt_iff_strays rfl).2.1 (by decide)).mpr (by decide)
  · exact (cutsAt_iff_strays rfl).2.2 8 14 (by decide) (by decide) (by decide) (by decide)

/-- A comma between two parentheses that match may be cut: the one that closes in front of them
makes up for the one that opens. -/
theorem cutsAt_between_pair :
    ¬∀ (t : Text) (k : Nat), t[k]? = some ',' →
      ((t.take k).count '\'' % 2 = 1 ∨
        ∃ i j, (i, j) ∈ (Matching.of t).pairs ∧ i < k ∧ k < j) → ¬CutsAt t k := by
  intro hprotects
  refine hprotects "a),(b,c)".toList 5 rfl (Or.inr ⟨3, 7, by decide, by decide, by decide⟩) ?_
  exact (cutsAt_iff_opened_le rfl).mpr ⟨by decide, by decide⟩

end MacroLint.Fragment
