import Mathlib.Data.List.Forall2
import MacroLint.Fragment.Clause
import MacroLint.Proofs.Fragment.Pieces

/-!
# Dynamic conditions as they are written

A clause is written as its text, with the marker in front if it is joined with OR, and with blanks
wherever they do no harm (`Clause.IsWritten`). Every piece of a dynamic condition is written in this
way for the clause that is read from it (`Clause.exists_written_ofPiece`). In the other direction a
clause is read back if its text can be told from what it is written with: it has an end to be trimmed
to, starts with no marker of its own, and holds no comma that would end it (`Clause.IsClear`).

So a dynamic condition decodes to the clauses that it encodes, each with its own joiner, and in the
plain condition each of them but the first stands behind its joiner.
-/

set_option autoImplicit false

namespace MacroLint.Fragment

open Text

/-! ## 1. Clauses as they are written -/

/-- What may stand in front of the text of a clause: blanks, and for OR the marker between them. -/
def Joiner.Leads : Joiner → Text → Prop
  | .and, lead => ∀ c ∈ lead, isBlank c = true
  | .or, lead => ∃ outer inner, (∀ c ∈ outer, isBlank c = true) ∧ (∀ c ∈ inner, isBlank c = true) ∧
      lead = outer ++ orMarker ++ inner

namespace Clause

/-- The text writes a clause: its text stands behind what its joiner asks for, and in front of
blanks. -/
def IsWritten (t : Text) (clause : Clause) : Prop :=
  ∃ lead tail, clause.joiner.Leads lead ∧ (∀ c ∈ tail, isBlank c = true) ∧
    t = lead ++ clause.text ++ tail

/-- The text of the clause can be told from what it is written with. -/
structure IsClear (clause : Clause) : Prop where
  given : clause.text ≠ []
  trimmed : trim clause.text = clause.text
  unmarked : ¬orMarker <+: clause.text
  piece : IsPiece clause.text

instance (clause : Clause) : Decidable clause.IsClear :=
  decidable_of_iff (clause.text ≠ [] ∧ trim clause.text = clause.text ∧
      orMarker.isPrefixOf clause.text = false ∧ IsPiece clause.text)
    ⟨fun ⟨hgiven, htrimmed, hunmarked, hpiece⟩ =>
        ⟨hgiven, htrimmed, by rwa [← List.isPrefixOf_iff_prefix, Bool.not_eq_true], hpiece⟩,
      fun h => ⟨h.given, h.trimmed,
        by rw [← Bool.not_eq_true, List.isPrefixOf_iff_prefix]; exact h.unmarked, h.piece⟩⟩

end Clause

theorem forall_mem_orMarker {P : Char → Prop} (h : P '/' ∧ P '*' ∧ P '#' ∧ P 'O' ∧ P 'R') :
    ∀ c ∈ orMarker, P c := by
  have hmarker : orMarker = ['/', '*', '#', 'O', 'R', '*', '/'] := rfl
  simp [hmarker, h]

/-- Only blanks and the marker stand in front of the text of a clause. -/
theorem Joiner.Leads.forall_mem {joiner : Joiner} {lead : Text} (h : joiner.Leads lead)
    {P : Char → Prop} (hblank : ∀ c, isBlank c = true → P c) (hmarker : ∀ c ∈ orMarker, P c) :
    ∀ c ∈ lead, P c := by
  cases joiner with
  | and => exact fun c hc => hblank c (h c hc)
  | or =>
    obtain ⟨outer, inner, houter, hinner, rfl⟩ := h
    rw [List.forall_mem_append, List.forall_mem_append]
    exact ⟨⟨fun c hc => hblank c (houter c hc), hmarker⟩, fun c hc => hblank c (hinner c hc)⟩

theorem isPiece_of_leads {joiner : Joiner} {lead : Text} (h : joiner.Leads lead) : IsPiece lead := by
  have hplain := h.forall_mem (fun _ => isPlain_of_isBlank) (forall_mem_orMarker (by decide))
  have hcomma : ∀ c ∈ lead, c ≠ ',' := by
    refine h.forall_mem (fun c hc => ?_) (forall_mem_orMarker (by decide))
    rintro rfl
    cases hc
  exact isPiece_of_isPlain hplain fun hmem => hcomma ',' hmem rfl

namespace Clause

theorem IsWritten.isPiece {t : Text} {clause : Clause} (h : clause.IsClear)
    (hwritten : IsWritten t clause) : IsPiece t := by
  obtain ⟨lead, tail, hlead, htail, rfl⟩ := hwritten
  have htail : Joiner.and.Leads tail := htail
  exact ((isPiece_of_leads hlead).append h.piece).append (isPiece_of_leads htail)

/-! ## 2. Reading one clause -/

/-- A clause is read back from a text that writes it. -/
theorem IsWritten.ofPiece {t : Text} {clause : Clause} (h : clause.IsClear)
    (hwritten : IsWritten t clause) : Clause.ofPiece t = clause := by
  obtain ⟨joiner, text⟩ := clause
  obtain ⟨hgiven, htrimmed, hunmarked, -⟩ := h
  obtain ⟨lead, tail, hlead, htail, rfl⟩ := hwritten
  cases joiner with
  | and =>
    have htrim : trim (lead ++ text ++ tail) = text :=
      (trim_of_pads ⟨lead, tail, hlead, htail, rfl⟩).trans htrimmed
    have hprefix : orMarker.isPrefixOf text = false :=
      Bool.eq_false_iff.mpr (mt List.isPrefixOf_iff_prefix.mp hunmarked)
    simp only [Clause.ofPiece, htrim, hprefix, Bool.false_eq_true, if_false]
  | or =>
    obtain ⟨outer, inner, houter, hinner, rfl⟩ := hlead
    have htrim : trim (outer ++ orMarker ++ inner ++ text ++ tail) = orMarker ++ (inner ++ text) := by
      have hpads : Pads (orMarker ++ (inner ++ text))
          (outer ++ orMarker ++ inner ++ text ++ tail) := ⟨outer, tail, houter, htail, by simp⟩
      rw [trim_of_pads hpads]
      have hmarker : trim orMarker = orMarker :=
        trim_of_forall_not (forall_mem_orMarker (by decide))
      exact trim_between hmarker (by decide) htrimmed hgiven inner
    have hrest : trim (inner ++ text) = text :=
      (trim_of_pads ⟨inner, [], hinner, by simp, by simp⟩).trans htrimmed
    have hprefix : orMarker.isPrefixOf (orMarker ++ (inner ++ text)) = true :=
      List.isPrefixOf_iff_prefix.mpr (List.prefix_append _ _)
    simp only [Clause.ofPiece, htrim, hprefix, if_true, List.drop_left, hrest]

/-- What stands in front of the text of a clause in the piece that the clause is read from. -/
def leadOfPiece (piece : Text) : Text :=
  piece.takeWhile isBlank ++
    if orMarker.isPrefixOf (trim piece) then
      orMarker ++ ((trim piece).drop orMarker.length).takeWhile isBlank
    else []

/-- Every piece writes the clause that is read from it. -/
theorem exists_written_ofPiece (piece : Text) :
    (Clause.ofPiece piece).joiner.Leads (leadOfPiece piece) ∧
      ∃ tail, (∀ c ∈ tail, isBlank c = true) ∧
        piece = leadOfPiece piece ++ (Clause.ofPiece piece).text ++ tail := by
  obtain ⟨tail, htail, hpiece⟩ := exists_tail_trim piece
  have houter : ∀ c ∈ piece.takeWhile isBlank, isBlank c = true :=
    List.all_eq_true.mp List.all_takeWhile
  unfold Clause.ofPiece leadOfPiece
  split
  · rename_i hmarked
    obtain ⟨rest, hrest⟩ := List.isPrefixOf_iff_prefix.mp hmarked
    have hdrop : (trim piece).drop orMarker.length = rest := by
      rw [← hrest, List.drop_left]
    obtain ⟨behind, hbehind, hinside⟩ := exists_tail_trim rest
    rw [hdrop]
    refine ⟨⟨_, _, houter, List.all_eq_true.mp List.all_takeWhile, (List.append_assoc ..).symm⟩,
      behind ++ tail, List.forall_mem_append.mpr ⟨hbehind, htail⟩, ?_⟩
    calc piece = piece.takeWhile isBlank ++ (orMarker ++ rest) ++ tail := by rw [hrest, ← hpiece]
      _ = piece.takeWhile isBlank
            ++ (orMarker ++ (rest.takeWhile isBlank ++ trim rest ++ behind)) ++ tail := by
          rw [← hinside]
      _ = _ := by simp only [List.append_assoc]
  · rw [List.append_nil]
    exact ⟨houter, tail, htail, hpiece⟩

end Clause

/-! ## 3. Dynamic conditions -/

theorem isPiece_of_mem_written {cs : List Clause} {written : List Text}
    (hclear : ∀ clause ∈ cs, clause.IsClear)
    (hwritten : List.Forall₂ Clause.IsWritten written cs) : ∀ t ∈ written, IsPiece t := by
  induction hwritten with
  | nil => exact fun _ hmem => nomatch hmem
  | cons hfirst _ ih =>
    obtain ⟨hclause, hrest⟩ := List.forall_mem_cons.mp hclear
    exact List.forall_mem_cons.mpr ⟨hfirst.isPiece hclause, ih hrest⟩

theorem map_ofPiece_of_isWritten {cs : List Clause} {written : List Text}
    (hclear : ∀ clause ∈ cs, clause.IsClear)
    (hwritten : List.Forall₂ Clause.IsWritten written cs) : written.map Clause.ofPiece = cs := by
  induction hwritten with
  | nil => rfl
  | cons hfirst _ ih =>
    obtain ⟨hclause, hrest⟩ := List.forall_mem_cons.mp hclear
    rw [List.map_cons, hfirst.ofPiece hclause, ih hrest]

theorem joined_cons_eq_flatMap (separator first : Text) (rest : List Text) :
    joined separator (first :: rest) = first ++ rest.flatMap fun part => separator ++ part := by
  induction rest generalizing first with
  | nil => rw [joined, List.intercalate_singleton, List.flatMap_nil, List.append_nil]
  | cons second rest ih => rw [joined_cons, ih, List.flatMap_cons, List.append_assoc,
      List.append_assoc]

/-- The first clause stands without a joiner, and each other one behind its own. -/
theorem compose_cons (first : Clause) (rest : List Clause) :
    compose (first :: rest) = first.text ++ rest.flatMap fun clause =>
      ' ' :: (clause.joiner.word ++ ' ' :: clause.text) := by
  rw [compose, joined_cons_eq_flatMap, List.flatMap_map]
  rfl

/-- **Dynamic conditions decode what they encode.** Clear clauses that are written with commas
between them are read back, all of them and each with its joiner. The plain condition is the first of
them, whose joiner is dropped, and behind it each of the others with its own. -/
theorem clauses_joined_of_isWritten (first : Clause) (rest : List Clause) {written : List Text}
    (hclear : ∀ clause ∈ first :: rest, clause.IsClear)
    (hwritten : List.Forall₂ Clause.IsWritten written (first :: rest)) :
    clauses (joined [','] written) = first :: rest ∧
      plainCondition (joined [','] written) = first.text ++ rest.flatMap fun clause =>
        (match clause.joiner with
        | .and => " AND ".toList
        | .or => " OR ".toList) ++ clause.text := by
  have hne : written ≠ [] := by
    rintro rfl
    cases hwritten
  have hread : clauses (joined [','] written) = first :: rest := by
    rw [clauses, split_joined hne (isPiece_of_mem_written hclear hwritten)]
    exact map_ofPiece_of_isWritten hclear hwritten
  refine ⟨hread, ?_⟩
  rw [plainCondition, hread, compose_cons]
  congr 2
  funext clause
  cases clause.joiner <;> rfl

/-- A marker is read in front of the second clause, with its blanks, and one in the middle of the
third is text; so is the joiner of the first clause, which joins nothing. -/
theorem clauses_joined_of_isWritten_of_inner_markers :
    let cs : List Clause := [⟨.or, "a in (:a, ')')"⟩, ⟨.or, "b = :b"⟩, ⟨.and, "c /*#OR*/ = :c"⟩]
    let condition : Text := "/*#OR*/a in (:a, ')') ,\t/*#OR*/ b = :b,c /*#OR*/ = :c "
    clauses condition = cs ∧
      plainCondition condition = "a in (:a, ')') OR b = :b AND c /*#OR*/ = :c" := by
  intro cs condition
  let written : List Text := ["/*#OR*/a in (:a, ')') ", "\t/*#OR*/ b = :b", "c /*#OR*/ = :c "]
  have hspace : ∀ c ∈ [' '], isBlank c = true := List.forall_mem_singleton.mpr rfl
  have htab : ∀ c ∈ ['\t'], isBlank c = true := List.forall_mem_singleton.mpr rfl
  have hnone : ∀ c ∈ ([] : Text), isBlank c = true := List.forall_mem_nil _
  have hwritten : List.Forall₂ Clause.IsWritten written cs :=
    .cons ⟨orMarker, [' '], ⟨[], [], hnone, hnone, rfl⟩, hspace, by decide⟩
      (.cons ⟨'\t' :: (orMarker ++ [' ']), [], ⟨['\t'], [' '], htab, hspace, rfl⟩, hnone, by decide⟩
        (.cons ⟨[], [' '], hnone, hspace, by decide⟩ .nil))
  exact clauses_joined_of_isWritten ⟨.or, "a in (:a, ')')"⟩ _ (by decide +kernel) hwritten

end MacroLint.Fragment
