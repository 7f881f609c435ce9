import MacroLint.Proofs.Plan.Undisturbed

/-!
# The calls that choose rows

To ask whether a row exists and to delete rows take the same parameters: a table, and what chooses
its rows. That is a condition, a dynamic condition or both, or under the flag `<T>` a complete
statement in place of the condition. `Call.ChoosesRows` says which calls these are, and
`Call.rowStatements` what is asked for one of them; `check_rows_language` has both.

Under the flag the number of segments is exact, because a third parameter is refused even if it is
blank; without it, a blank parameter is none.
-/

set_option autoImplicit false

namespace MacroLint

open Fragment Literal

/-! ## 1. The language -/

namespace Literal.Call

/-- A complete statement chooses the rows, and nothing stands behind it. -/
structure HasStatement (call : Call) : Prop where
  count : call.segments.length = 3
  given : (call.param? 2).isSome

/-- Conditions choose the rows: there is a condition or a dynamic condition, and the condition and
every clause of the dynamic condition reference a bind variable. -/
structure HasConditions (call : Call) : Prop where
  given : (call.param? 2).isSome ∨ (call.param? 3).isSome
  condition : ∀ t ∈ call.param? 2, References t
  dynamic : ∀ t ∈ call.param? 3, ∀ clause ∈ clauses t, clause.text ≠ [] ∧ References clause.text

/-- The call names a table and chooses rows of it. -/
structure ChoosesRows (call : Call) (table : Text) : Prop where
  count : call.segments.length ≤ 4
  named : call.param? 1 = some table
  word : Text.isWord table = true
  chosen : if call.has .total then call.HasStatement else call.HasConditions

instance (call : Call) : Decidable call.HasStatement :=
  decidable_of_iff (call.segments.length = 3 ∧ (call.param? 2).isSome)
    ⟨fun ⟨hcount, hgiven⟩ => ⟨hcount, hgiven⟩, fun h => ⟨h.count, h.given⟩⟩

instance (call : Call) : Decidable call.HasConditions :=
  decidable_of_iff (((call.param? 2).isSome ∨ (call.param? 3).isSome) ∧
      (∀ t ∈ call.param? 2, References t) ∧
      ∀ t ∈ call.param? 3, ∀ clause ∈ clauses t, clause.text ≠ [] ∧ References clause.text)
    ⟨fun ⟨hgiven, hcondition, hdynamic⟩ => ⟨hgiven, hcondition, hdynamic⟩,
      fun h => ⟨h.given, h.condition, h.dynamic⟩⟩

instance (call : Call) (table : Text) : Decidable (call.ChoosesRows table) :=
  decidable_of_iff (call.segments.length ≤ 4 ∧ call.param? 1 = some table ∧
      Text.isWord table = true ∧
      if call.has .total then call.HasStatement else call.HasConditions)
    ⟨fun ⟨hcount, hnamed, hword, hchosen⟩ => ⟨hcount, hnamed, hword, hchosen⟩,
      fun h => ⟨h.count, h.named, h.word, h.chosen⟩⟩

/-- The statements for the rows of a table, in the order in which they are asked. -/
def rowStatements (call : Call) (table : Text) : List Text :=
  if call.has .total then (call.param? 2).toList
  else
    (call.param? 2).toList.map (whereStatement table)
      ++ (call.param? 3).toList.map fun t => whereStatement table (plainCondition t)

end Literal.Call

/-! ## 2. The plan -/

namespace Plan

variable {call : Call} {table : Text} {statements : List Text} {u : Unit}

theorem yields_totalRows_iff :
    (totalRows call).Yields statements u ↔
      call.HasStatement ∧ statements = (call.param? 2).toList := by
  rw [totalRows, yields_require_bind_iff, yields_required_bind_iff, decide_eq_true_iff]
  constructor
  · intro ⟨hcount, t, hparam, hask⟩
    have hlength : 2 < call.segments.length := lt_length_of_param? hparam
    refine ⟨⟨Nat.le_antisymm hcount hlength, by rw [hparam]; rfl⟩, ?_⟩
    rw [hparam]
    exact yields_ask_iff.mp hask
  · intro ⟨hstatement, hasked⟩
    obtain ⟨t, hparam⟩ := Option.isSome_iff_exists.mp hstatement.given
    refine ⟨Nat.le_of_eq hstatement.count, t, hparam, ?_⟩
    rw [hparam] at hasked
    exact yields_ask_iff.mpr hasked

theorem yields_forBound_iff :
    (forPresent (call.param? 2) fun condition => do
        require (hasBind condition) (.noBind .condition) condition
        askCondition table condition).Yields statements u ↔
      (∀ t ∈ call.param? 2, References t) ∧
        statements = (call.param? 2).toList.map (whereStatement table) := by
  apply yields_forPresent_iff
  intro t asked v
  rw [yields_require_bind_iff, hasBind_iff_references, askCondition, yields_ask_iff]

theorem yields_conditionedRows_iff :
    (conditionedRows call table).Yields statements u ↔
      call.HasConditions ∧ statements = (call.param? 2).toList.map (whereStatement table)
        ++ (call.param? 3).toList.map fun t => whereStatement table (plainCondition t) := by
  rw [conditionedRows, yields_require_bind_iff, yields_then_iff fun _ _ => yields_forBound_iff,
    Bool.or_eq_true]
  simp only [yields_forPresent_iff fun _ _ _ => yields_askDynamic_iff]
  constructor
  · rintro ⟨hgiven, hcondition, rest, ⟨hdynamic, rfl⟩, hasked⟩
    exact ⟨⟨hgiven, hcondition, hdynamic⟩, hasked⟩
  · intro ⟨hconditions, hasked⟩
    exact ⟨hconditions.given, hconditions.condition, _, ⟨hconditions.dynamic, rfl⟩, hasked⟩

/-- What is asked to choose rows of a table, by either of the two ways. -/
theorem yields_chosenRows_iff :
    (if call.has .total then totalRows call else conditionedRows call table).Yields statements u ↔
      (if call.has .total then call.HasStatement else call.HasConditions) ∧
        statements = call.rowStatements table := by
  unfold Call.rowStatements
  split
  · exact yields_totalRows_iff
  · exact yields_conditionedRows_iff

theorem yields_rows_iff (name : MacroName) :
    (rows name call).Yields statements u ↔
      ∃ table, call.ChoosesRows table ∧ statements = call.rowStatements table := by
  rw [rows, yields_atMost_bind_iff, yields_tableAt_bind_iff]
  simp only [yields_chosenRows_iff]
  constructor
  · intro ⟨hcount, table, ⟨hnamed, hword⟩, hchosen, hasked⟩
    exact ⟨table, ⟨hcount, hnamed, hword, hchosen⟩, hasked⟩
  · intro ⟨table, hchooses, hasked⟩
    exact ⟨hchooses.count, table, ⟨hchooses.named, hchooses.word⟩, hchooses.chosen, hasked⟩

end Plan

/-! ## 3. The check -/

/-- **What chooses rows, exactly.** The calls that are admitted by an oracle that accepts everything
are those that name a table and choose rows of it, by a statement under the flag `<T>` and by
conditions that reference bind variables without it; and for these the statements are known. -/
theorem Family.check_rows_language {family : Family}
    (h : family = .existsRow ∨ family = .delete) (name : MacroName) (call : Call) :
    ((family.check name call .lenient).diagnostic = none ↔ ∃ table, call.ChoosesRows table) ∧
      ∀ table, call.ChoosesRows table →
        (family.check name call .lenient).statements = call.rowStatements table := by
  apply check_lenient
  intro statements
  have hplan : family.plan = Plan.rows := by
    rcases h with rfl | rfl <;> rfl
  rw [hplan]
  exact Plan.yields_rows_iff name

/-- Rows are chosen by a dynamic condition alone, or by a statement under the flag. With a blank
parameter behind the statement no table would do. -/
theorem Family.check_rows_language_of_dynamic_and_total :
    let dynamic : Call := ⟨[], [], [], ["exists", " t ", " ", "a = :a, /*#OR*/ b > :b"], false⟩
    let total : Call := ⟨[], [], [.total], ["delete", "t", " delete from t "], false⟩
    let behind : Call := ⟨[], [], [.total], ["delete", "t", "delete from t", " "], false⟩
    (Family.existsRow.check .existsRow dynamic .lenient).statements
        = ["SELECT * FROM t WHERE a = :a OR b > :b".toList] ∧
      (Family.delete.check .delete total .lenient).statements = ["delete from t".toList] ∧
      (Family.delete.check .delete behind .lenient).diagnostic ≠ none := by
  intro dynamic total behind
  refine ⟨?_, ?_, ?_⟩
  · exact (check_rows_language (Or.inl rfl) .existsRow dynamic).2 "t" (by decide +kernel)
  · exact (check_rows_language (Or.inr rfl) .delete total).2 "t" (by decide +kernel)
  · intro hnone
    obtain ⟨table, hchooses⟩ := (check_rows_language (Or.inr rfl) .delete behind).1.mp hnone
    have hstatement : behind.HasStatement := hchooses.chosen
    cases hstatement.count

end MacroLint
