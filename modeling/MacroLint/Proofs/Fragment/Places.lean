import MacroLint.Proofs.Fragment.Clauses
import MacroLint.Proofs.Fragment.References

/-!
# Clauses where they stand

A clause is looked at by itself: strings are blanked from the start of its text, and a colon at the
start has nothing before it. In the condition it stands behind other clauses. That this makes no
difference is said of places: the text of a clause is given back with its start in the condition
(`placedClauses`), and at every place of it a quote, a colon and a word character are seen from the
clause as they are seen from the condition (`hasBind_iff_referencesAt`).

The splitter and the bind rule keep track of quotes each for itself. What ties them is that a cut is
made outside of strings only, so an even number of quotes stands before each piece; and the two ends
of a text that the readers cut out are never in the middle of a reference (`StandsFree`).
-/

set_option autoImplicit false

namespace MacroLint.Fragment

open Text

/-! ## 1. Places in a text -/

/-- At this place of the text a bind variable is referenced: a single colon stands there, outside of
strings, with a word character behind it. -/
def ReferencesAt (t : Text) (i : Nat) : Prop :=
  t[i]? = some ':' ∧ t[i + 1]?.any isWordChar = true ∧ (t.take i).getLast? ≠ some ':' ∧
    Unquoted (t.take i)

instance (t : Text) (i : Nat) : Decidable (ReferencesAt t i) :=
  inferInstanceAs (Decidable (_ ∧ _ ∧ _ ∧ _))

theorem references_iff_referencesAt {t : Text} :
    References t ↔ ∃ i < t.length, ReferencesAt t i := referencesWhere_iff

/-- A text stands in another one, outside of strings, behind no colon and in front of no word. -/
structure StandsFree (whole before t after : Text) : Prop where
  eq : whole = before ++ t ++ after
  unquoted : Unquoted before
  colon : before.getLast? ≠ some ':'
  word : after.head?.any isWordChar = false

theorem unquoted_append {s : Text} (h : Unquoted s) (t : Text) :
    Unquoted (s ++ t) ↔ Unquoted t := by
  unfold Unquoted at *
  rw [List.count_append]
  omega

section

variable {whole before t after : Text} {j : Nat} (h : StandsFree whole before t after)

include h

theorem StandsFree.take (hj : j ≤ t.length) :
    whole.take (before.length + j) = before ++ t.take j := by
  rw [h.eq, List.append_assoc, List.take_length_add_append, List.take_append_of_le_length hj]

theorem StandsFree.unquoted_take_iff (hj : j ≤ t.length) :
    Unquoted (whole.take (before.length + j)) ↔ Unquoted (t.take j) := by
  rw [h.take hj, unquoted_append h.unquoted]

theorem StandsFree.getElem? (hj : j < t.length) : whole[before.length + j]? = t[j]? := by
  rw [h.eq, List.append_assoc, List.getElem?_append_right (Nat.le_add_right _ _),
    Nat.add_sub_cancel_left, List.getElem?_append_left hj]

/-- What a place of the text references is seen from the text alone. -/
theorem StandsFree.referencesAt_iff (hj : j < t.length) :
    ReferencesAt whole (before.length + j) ↔ ReferencesAt t j := by
  have hnext : whole[before.length + j + 1]?.any isWordChar = t[j + 1]?.any isWordChar := by
    by_cases hlast : j + 1 < t.length
    · rw [Nat.add_assoc, h.getElem? hlast]
    · -- Behind the last place stands what stands behind the text.
      have hlength : j + 1 = t.length := by omega
      rw [Nat.add_assoc, hlength, h.eq, ← List.length_append,
        List.getElem?_append_right (Nat.le_refl _), Nat.sub_self, ← List.head?_eq_getElem?, h.word,
        List.getElem?_eq_none (Nat.le_refl _)]
      rfl
  have hcolon : (whole.take (before.length + j)).getLast? ≠ some ':' ↔
      (t.take j).getLast? ≠ some ':' := by
    rw [h.take (Nat.le_of_lt hj), List.getLast?_append]
    cases hlast : (t.take j).getLast? with
    | some c => simp
    | none => simpa using h.colon
  unfold ReferencesAt
  rw [h.getElem? hj, hnext, hcolon, h.unquoted_take_iff (Nat.le_of_lt hj)]

theorem StandsFree.references_iff :
    References t ↔
      ∃ i, before.length ≤ i ∧ i < before.length + t.length ∧ ReferencesAt whole i := by
  rw [references_iff_referencesAt]
  constructor
  · intro ⟨j, hj, hreferences⟩
    exact ⟨before.length + j, Nat.le_add_right _ _, Nat.add_lt_add_left hj _,
      (h.referencesAt_iff hj).mpr hreferences⟩
  · intro ⟨i, hle, hlt, hreferences⟩
    obtain ⟨j, rfl⟩ := Nat.exists_eq_add_of_le hle
    have hj : j < t.length := Nat.lt_of_add_lt_add_left hlt
    exact ⟨j, hj, (h.referencesAt_iff hj).mp hreferences⟩

end

/-! ## 2. Clauses and their places -/

/-- A clause with the place in the condition where its text starts. -/
structure PlacedClause where
  clause : Clause
  start : Nat
  deriving DecidableEq, Repr

/-- The place behind the text of the clause. -/
def PlacedClause.stop (placed : PlacedClause) : Nat := placed.start + placed.clause.text.length

/-- The clauses of some pieces at their places, when the first piece starts at `start`. Between two
pieces stands a comma. -/
def placeClauses (start : Nat) : List Text → List PlacedClause
  | [] => []
  | piece :: rest =>
    ⟨Clause.ofPiece piece, start + (Clause.leadOfPiece piece).length⟩
      :: placeClauses (start + piece.length + 1) rest

/-- The clauses of a dynamic condition at their places. -/
def placedClauses (condition : Text) : List PlacedClause := placeClauses 0 (split condition)

/-- Placing clauses changes none of them. -/
theorem map_clause_placedClauses (condition : Text) :
    (placedClauses condition).map PlacedClause.clause = clauses condition := by
  have hplace (pieces : List Text) (start : Nat) :
      (placeClauses start pieces).map PlacedClause.clause = pieces.map Clause.ofPiece := by
    induction pieces generalizing start with
    | nil => rfl
    | cons piece rest ih => rw [placeClauses, List.map_cons, List.map_cons, ih]
  exact hplace _ 0

theorem unquoted_iff_after_start {t : Text} :
    Unquoted t ↔ (Nesting.start.after t).quoted = false := by
  rw [Nesting.quoted_after_start, decide_eq_false_iff_not, Unquoted]
  omega

/-- In front of the text of a clause its piece has no quote and no colon. -/
theorem Joiner.Leads.append {joiner : Joiner} {lead front : Text} (h : joiner.Leads lead)
    (hunquoted : Unquoted front) (hcolon : front.getLast? ≠ some ':') :
    Unquoted (front ++ lead) ∧ (front ++ lead).getLast? ≠ some ':' := by
  have hchars : ∀ c ∈ lead, c ≠ '\'' ∧ c ≠ ':' := by
    refine h.forall_mem (fun c hblank => ?_) (forall_mem_orMarker (by decide))
    constructor <;>
    · rintro rfl
      cases hblank
  constructor
  · have hcount : lead.count '\'' = 0 :=
      List.count_eq_zero.mpr fun hmem => (hchars _ hmem).1 rfl
    rw [unquoted_append hunquoted, Unquoted, hcount]
  · rw [List.getLast?_append]
    cases hlast : lead.getLast? with
    | none => exact hcolon
    | some c =>
      have hne := (hchars c (List.mem_of_getLast? hlast)).2
      simpa using hne

/-- Behind a piece and its comma the splitter is where the piece left it. -/
theorem Nesting.after_piece (n : Nesting) (piece : Text) :
    n.after (piece ++ [',']) = n.after piece := by
  rw [after_append]
  exact after_of_isPlain _ (List.forall_mem_singleton.mpr rfl)

/-- The clause of the first piece stands free. Behind its text follows a blank, or the comma before
the next piece, or nothing. -/
theorem exists_standsFree_first {front : Text} (hunquoted : Unquoted front)
    (hcolon : front.getLast? ≠ some ':') (piece : Text) (rest : List Text) :
    ∃ after, StandsFree (front ++ joined [','] (piece :: rest))
      (front ++ Clause.leadOfPiece piece) (Clause.ofPiece piece).text after := by
  obtain ⟨hleads, tail, htail, hpiece⟩ := Clause.exists_written_ofPiece piece
  obtain ⟨hunquoted, hcolon⟩ := hleads.append hunquoted hcolon
  refine ⟨tail ++ rest.flatMap fun part => [','] ++ part, ?_, hunquoted, hcolon, ?_⟩
  · rw [joined_cons_eq_flatMap]
    conv_lhs => rw [hpiece]
    simp only [List.append_assoc]
  · cases tail with
    | nil => cases rest <;> rfl
    | cons c tail =>
      refine Bool.eq_false_iff.mpr fun hword => ?_
      rw [List.cons_append, List.head?_cons, Option.any_some] at hword
      exact Bool.eq_false_iff.mp (not_isBlank_of_isWordChar hword) (htail c List.mem_cons_self)

/-- Every clause stands free in the condition. Of that, `front` is what stands before the pieces that
are left, the comma before the first of them included. -/
theorem exists_standsFree {front : Text} {pieces : List Text} (hunquoted : Unquoted front)
    (hcolon : front.getLast? ≠ some ':') (h : ArePieces (Nesting.start.after front) pieces)
    {placed : PlacedClause} (hplaced : placed ∈ placeClauses front.length pieces) :
    ∃ before after, before.length = placed.start ∧
      StandsFree (front ++ joined [','] pieces) before placed.clause.text after := by
  induction pieces generalizing front with
  | nil => exact nomatch hplaced
  | cons piece rest ih =>
    obtain ⟨-, htop, hrest⟩ := h
    rcases List.mem_cons.mp hplaced with rfl | hplaced
    · obtain ⟨after, hfree⟩ := exists_standsFree_first hunquoted hcolon piece rest
      exact ⟨_, after, List.length_append, hfree⟩
    · cases rest with
      | nil => exact nomatch hplaced
      | cons second rest =>
        have hafter : Nesting.start.after (front ++ (piece ++ [',']))
            = (Nesting.start.after front).after piece := by
          rw [Nesting.after_append, Nesting.after_piece]
        -- The piece ends at the top level, so outside of strings.
        have hquoted : Unquoted (front ++ (piece ++ [','])) := by
          have htop := htop (List.cons_ne_nil second rest)
          rw [unquoted_iff_after_start, hafter]
          simpa using (Bool.and_eq_true_iff.mp htop).1
        have hlength : (front ++ (piece ++ [','])).length = front.length + piece.length + 1 := by
          simp [Nat.add_assoc]
        rw [joined_cons, ← List.append_assoc]
        refine ih hquoted (by simp) ?_ ?_
        · rw [hafter]
          exact hrest
        · rw [hlength]
          exact hplaced

/-! ## 3. Clauses in their condition -/

theorem le_start_of_mem_placeClauses {start : Nat} {pieces : List Text} {placed : PlacedClause}
    (h : placed ∈ placeClauses start pieces) : start ≤ placed.start := by
  induction pieces generalizing start with
  | nil => exact nomatch h
  | cons piece rest ih =>
    rcases List.mem_cons.mp h with rfl | hrest
    · exact Nat.le_add_right _ _
    · have hle := ih hrest
      omega

/-- The clauses stand one behind the other, with a place between them at least. -/
theorem pairwise_placeClauses (start : Nat) (pieces : List Text) :
    (placeClauses start pieces).Pairwise fun first second => first.stop < second.start := by
  induction pieces generalizing start with
  | nil => exact .nil
  | cons piece rest ih =>
    refine .cons (fun placed hplaced => ?_) (ih _)
    have hle := le_start_of_mem_placeClauses hplaced
    obtain ⟨-, tail, -, hpiece⟩ := Clause.exists_written_ofPiece piece
    have hlength := congrArg List.length hpiece
    rw [List.length_append, List.length_append] at hlength
    unfold PlacedClause.stop
    dsimp only
    omega

theorem StandsFree.slice {whole before t after : Text} (h : StandsFree whole before t after) :
    (whole.drop before.length).take t.length = t := by
  rw [h.eq, List.append_assoc, List.drop_left, List.take_left]

/-- **Clauses are checked where they stand.** Each clause is a stretch of its condition, and these
stand in the order of the clauses. A place of the clause is in a string for a reader of the clause if
and only if it is for a reader of the condition, and a clause references a bind variable if and only
if the condition does so within the stretch. -/
theorem hasBind_iff_referencesAt (condition : Text) :
    (placedClauses condition).map PlacedClause.clause = clauses condition ∧
      (placedClauses condition).Pairwise (fun first second => first.stop < second.start) ∧
      ∀ placed ∈ placedClauses condition,
        (condition.drop placed.start).take placed.clause.text.length = placed.clause.text ∧
        (∀ j ≤ placed.clause.text.length,
          Unquoted (condition.take (placed.start + j)) ↔ Unquoted (placed.clause.text.take j)) ∧
        (hasBind placed.clause.text = true ↔
          ∃ i, placed.start ≤ i ∧ i < placed.stop ∧ ReferencesAt condition i) := by
  refine ⟨map_clause_placedClauses condition, pairwise_placeClauses 0 _, fun placed hplaced => ?_⟩
  obtain ⟨before, after, hstart, hfree⟩ :=
    @exists_standsFree [] _ rfl (by simp) (arePieces_splitFrom .start condition) _ hplaced
  rw [List.nil_append, joined_splitFrom] at hfree
  refine ⟨hstart ▸ hfree.slice, fun j hj => ?_, ?_⟩
  · rw [← hstart]
    exact hfree.unquoted_take_iff hj
  · rw [hasBind_iff_references, hfree.references_iff, hstart]
    rfl

/-- The quoted colon of the first clause is no reference. In the second, a string that holds a colon
ends right before one: the colon at the place 21 is a reference for both readers. -/
theorem hasBind_iff_referencesAt_of_quoted_colon :
    let condition : Text := "a = ':x', /*#OR*/ ':':b"
    placedClauses condition = [⟨⟨.and, "a = ':x'"⟩, 0⟩, ⟨⟨.or, "':':b"⟩, 18⟩] ∧
      (¬∃ i, 0 ≤ i ∧ i < 8 ∧ ReferencesAt condition i) ∧
      ∃ i, 18 ≤ i ∧ i < 23 ∧ ReferencesAt condition i := by
  intro condition
  have hplaced : placedClauses condition
      = [⟨⟨.and, "a = ':x'"⟩, 0⟩, ⟨⟨.or, "':':b"⟩, 18⟩] := by decide +kernel
  obtain ⟨-, -, hclauses⟩ := hasBind_iff_referencesAt condition
  obtain ⟨-, -, hfirst⟩ := hclauses ⟨⟨.and, "a = ':x'"⟩, 0⟩ (by simp [hplaced])
  obtain ⟨-, -, hsecond⟩ := hclauses ⟨⟨.or, "':':b"⟩, 18⟩ (by simp [hplaced])
  exact ⟨hplaced, mt hfirst.mpr (by decide +kernel), hsecond.mp (by decide +kernel)⟩

end MacroLint.Fragment
