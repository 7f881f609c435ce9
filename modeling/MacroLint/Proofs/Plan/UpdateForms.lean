import MacroLint.Proofs.Plan.FieldLists

/-!
# The two forms of an update

An update is a complete statement and nothing else, or it names a table and says what to set. Which
of the two a call is meant to be is decided by its first parameter alone (`IsUpdate`), so a call
that begins like a statement is never read as a table, and is refused if a parameter follows.

In the table form the parameters are asked one by one in the order they are written, and then once
more all together. Everything that a call can be refused for is found before the first statement is
asked, with one exception: that nothing is set is found behind the condition (`SetsNothing`).
-/

set_option autoImplicit false

namespace MacroLint

open Fragment Literal

/-! ## 1. The language -/

namespace Fragment

/-- The text begins like a complete update statement: with the word `update` in any case and a blank
behind it. -/
def IsUpdate (t : Text) : Prop :=
  ∃ word blank rest, t = word ++ blank :: rest ∧ Text.lower word = "update" ∧
    Text.isBlank blank = true

end Fragment

namespace Literal.Call

/-- The call is a complete statement. A further segment is not admitted even if it is blank. -/
structure UpdatesInFull (call : Call) (statement : Text) : Prop where
  count : call.segments.length = 2
  stated : call.param? 1 = some statement
  full : IsUpdate statement

/-- The call names a table, and has no more parameters than there are in the table form. -/
structure NamesUpdated (call : Call) (table : Text) : Prop where
  count : call.segments.length ≤ 5
  named : call.param? 1 = some table
  notFull : ¬IsUpdate table
  word : Text.isWord table = true

/-- The call names a table and sets something, by a field list, by a set clause or by both. -/
structure UpdatesTable (call : Call) (table : Text) : Prop extends call.NamesUpdated table where
  sets : (call.param? 2).isSome ∨ (call.param? 4).isSome
  fields : ∀ list ∈ call.param? 2, ValidFields (entries list)

/-- The call names a table and sets nothing. -/
structure SetsNothing (call : Call) (table : Text) : Prop extends call.NamesUpdated table where
  fields : call.param? 2 = none
  clause : call.param? 4 = none

/-- What is set, in the order in which it is written. -/
def setParts (call : Call) : List Text :=
  ((call.param? 2).toList.map fun list => assignments (entries list)) ++ (call.param? 4).toList

/-- The statements for the table form, in the order in which they are asked: the field list, the
condition and the set clause by themselves, and the statement that is made of them. -/
def updateStatements (call : Call) (table : Text) : List Text :=
  ((call.param? 2).toList.map fun list => setStatement table (assignments (entries list)))
    ++ (call.param? 3).toList.map (whereStatement table)
    ++ (call.param? 4).toList.map (setStatement table)
    ++ [setStatement table (Text.joined ", " call.setParts) ++ whereTail (call.param? 3)]

end Literal.Call

/-! ## 2. The plan -/

namespace Plan

variable {call : Call} {table : Text} {statements : List Text} {u : Unit}

theorem isUpdateStatement_iff {t : Text} : isUpdateStatement t = true ↔ IsUpdate t := by
  rw [isUpdateStatement, Bool.and_eq_true, List.isPrefixOf_iff_prefix]
  constructor
  · intro ⟨⟨rest, hlower⟩, hblank⟩
    obtain ⟨word, behind, rfl, hword, -⟩ := List.map_eq_append_iff.mp hlower.symm
    have hlength : word.length = "update".length := by
      rw [← List.length_map (f := Char.toLower), hword]
      rfl
    rw [← hlength, List.drop_left] at hblank
    cases behind with
    | nil => cases hblank
    | cons blank behind => exact ⟨word, blank, behind, rfl, hword, hblank⟩
  · rintro ⟨word, blank, rest, rfl, hword, hblank⟩
    have hlength : word.length = "update".length := by
      rw [← List.length_map (f := Char.toLower)]
      exact congrArg List.length hword
    refine ⟨⟨Text.lower (blank :: rest), ?_⟩, ?_⟩
    · rw [← hword]
      exact (List.map_append ..).symm
    · rw [← hlength, List.drop_left]
      exact hblank

/-- A word has no blank, so it is never taken for a statement. -/
theorem not_isUpdate_of_isWord {t : Text} (h : Text.isWord t = true) : ¬IsUpdate t := by
  rintro ⟨word, blank, rest, rfl, -, hblank⟩
  rw [Text.not_isBlank_of_isWord h blank (by simp)] at hblank
  cases hblank

theorem yields_setFields_iff {list listed : Option Text} :
    (setFields table list).Yields statements listed ↔
      ((∀ t ∈ list, ValidFields (entries t)) ∧
          listed = list.map fun t => assignments (entries t)) ∧
        statements = list.toList.map fun t => setStatement table (assignments (entries t)) := by
  cases list with
  | none => simp [setFields, yields_done_iff, eq_comm]
  | some t =>
    rw [setFields, yields_bind_iff_of_silent fun _ _ => yields_fields_iff]
    constructor
    · rintro ⟨_, ⟨hvalid, rfl⟩, hask⟩
      obtain ⟨first, _, rest, hfirst, hrest, rfl⟩ := yields_bind_iff.mp hask
      obtain rfl := yields_ask_iff.mp hfirst
      obtain ⟨rfl, rfl⟩ := yields_done_iff.mp hrest
      exact ⟨⟨fun t' ht' => Option.some.inj ht' ▸ hvalid, rfl⟩, rfl⟩
    · rintro ⟨⟨hvalid, rfl⟩, rfl⟩
      refine ⟨_, ⟨hvalid t rfl, rfl⟩, yields_bind_iff.mpr ?_⟩
      exact ⟨_, (), [], yields_ask_iff.mpr rfl, yields_done_iff.mpr ⟨rfl, rfl⟩, rfl⟩

theorem toList_append_eq_setParts :
    ((call.param? 2).map fun list => assignments (entries list)).toList ++ (call.param? 4).toList
      = call.setParts := by
  rw [Option.toList_map]
  rfl

theorem isEmpty_setParts_iff :
    (!call.setParts.isEmpty) = true ↔ (call.param? 2).isSome ∨ (call.param? 4).isSome := by
  unfold Call.setParts
  cases call.param? 2 <;> cases call.param? 4 <;> simp

theorem yields_updateTable_iff (name : MacroName) :
    (updateTable name call).Yields statements u ↔
      ∃ table, call.UpdatesTable table ∧ statements = call.updateStatements table := by
  rw [updateTable, yields_atMost_bind_iff, yields_tableAt_bind_iff]
  simp only [yields_bind_iff_of_asks fun _ _ => yields_setFields_iff, yields_forCondition_bind_iff,
    yields_forAsk_bind_iff, yields_require_bind_iff, askWhole, yields_ask_iff]
  constructor
  · rintro ⟨hcount, table, ⟨hnamed, hword⟩, _, ⟨hfields, rfl⟩, _, ⟨_, ⟨_, ⟨hsets, rfl⟩, rfl⟩, rfl⟩,
      hasked⟩
    rw [toList_append_eq_setParts] at hsets hasked
    have hnames : call.NamesUpdated table := ⟨hcount, hnamed, not_isUpdate_of_isWord hword, hword⟩
    refine ⟨table, ⟨hnames, isEmpty_setParts_iff.mp hsets, hfields⟩, ?_⟩
    simpa [Call.updateStatements] using hasked
  · intro ⟨table, h, hasked⟩
    have hsets := isEmpty_setParts_iff.mpr h.sets
    rw [← toList_append_eq_setParts] at hsets
    refine ⟨h.count, table, ⟨h.named, h.word⟩, _, ⟨h.fields, rfl⟩, _,
      ⟨_, ⟨_, ⟨hsets, rfl⟩, rfl⟩, rfl⟩, ?_⟩
    rw [toList_append_eq_setParts]
    simpa [Call.updateStatements] using hasked

theorem yields_updateInFull_iff {t : Text} :
    (updateInFull call t).Yields statements u ↔ call.segments.length ≤ 2 ∧ statements = [t] := by
  rw [updateInFull, yields_require_bind_iff, askWhole, yields_ask_iff, decide_eq_true_iff]

theorem yields_update_iff (name : MacroName) :
    (update name call).Yields statements u ↔
      (∃ t, call.UpdatesInFull t ∧ statements = [t]) ∨
        ∃ table, call.UpdatesTable table ∧ statements = call.updateStatements table := by
  rw [update, yields_required_bind_iff]
  constructor
  · intro ⟨t, hparam, h⟩
    split at h
    · rename_i hfull
      obtain ⟨hcount, hasked⟩ := yields_updateInFull_iff.mp h
      have hlength := Nat.le_antisymm hcount (lt_length_of_param? hparam)
      exact Or.inl ⟨t, ⟨hlength, hparam, isUpdateStatement_iff.mp hfull⟩, hasked⟩
    · exact Or.inr ((yields_updateTable_iff name).mp h)
  · intro h
    rcases h with ⟨t, hfull, hasked⟩ | ⟨table, htable, hasked⟩
    · refine ⟨t, hfull.stated, ?_⟩
      rw [if_pos (isUpdateStatement_iff.mpr hfull.full)]
      exact yields_updateInFull_iff.mpr ⟨Nat.le_of_eq hfull.count, hasked⟩
    · refine ⟨table, htable.named, ?_⟩
      rw [if_neg (mt isUpdateStatement_iff.mp htable.notFull)]
      exact (yields_updateTable_iff name).mpr ⟨table, htable, hasked⟩

/-! ## 3. What is refused -/

theorem update_of_isUpdate (name : MacroName) {t : Text} (hparam : call.param? 1 = some t)
    (h : IsUpdate t) : update name call = updateInFull call t := by
  simp [update, required, hparam, isUpdateStatement_iff.mpr h]

theorem update_of_not_isUpdate (name : MacroName) {t : Text} (hparam : call.param? 1 = some t)
    (h : ¬IsUpdate t) : update name call = updateTable name call := by
  have hfalse : isUpdateStatement t = false := Bool.eq_false_iff.mpr (mt isUpdateStatement_iff.mp h)
  simp [update, required, hparam, hfalse]

theorem stops_of_isUpdate (name : MacroName) {t : Text} (hparam : call.param? 1 = some t)
    (h : IsUpdate t) (hcount : 2 < call.segments.length) :
    (update name call).Stops [] (Fault.afterStatement.report call.normalized) := by
  rw [update_of_isUpdate name hparam h]
  exact (stops_require (decide_eq_false (Nat.not_le.mpr hcount)) _ _).bind _

/-- That nothing is set is found behind the condition. -/
theorem stops_of_setsNothing (name : MacroName) (h : call.SetsNothing table) :
    (update name call).Stops ((call.param? 3).toList.map (whereStatement table))
      ((Fault.missing .setFieldsOrClause).report call.normalized) := by
  have hplan : updateTable name call = forPresent (call.param? 3) (askCondition table)
      >>= fun _ => fail (.missing .setFieldsOrClause) call.normalized := by
    simp [updateTable, atMost, tableAt, required, require, setFields, forPresent, fail, h.count,
      h.named, h.word, h.fields, h.clause]
  have hcondition : (forPresent (call.param? 3) (askCondition table)).Yields
      ((call.param? 3).toList.map (whereStatement table)) () := yields_forAsk_iff.mpr rfl
  rw [update_of_not_isUpdate name h.named h.notFull, hplan, ← List.append_nil (List.map _ _)]
  exact hcondition.bind_stops (stops_fail _ _)

theorem exists_stops_setFields (table : Text) {list : Text} (h : ¬ValidFields (entries list)) :
    ∃ d, (setFields table (some list)).Stops [] d := by
  obtain ⟨_, _, _, fault, -, -, -, hfail⟩ := exists_offender .setFields h
  refine ⟨fault.report list, ?_⟩
  rw [setFields, hfail]
  exact (stops_fail fault list).bind _

/-- Whatever else is wrong with the table form is found before anything is asked. -/
theorem exists_stops_updateTable (name : MacroName) (hparam : call.param? 1 = some table)
    (hfull : ¬IsUpdate table) (hupdates : ¬call.UpdatesTable table)
    (hsets : ¬call.SetsNothing table) : ∃ d, (updateTable name call).Stops [] d := by
  by_cases hcount : call.segments.length ≤ 5
  · have hcounted : (atMost name call 5).Yields [] () :=
      yields_require_iff.mpr ⟨decide_eq_true hcount, rfl⟩
    by_cases hword : Text.isWord table = true
    · have hnamed : (tableAt call 1 .table).Yields [] table :=
        yields_tableAt_iff.mpr ⟨⟨hparam, hword⟩, rfl⟩
      have hnames : call.NamesUpdated table := ⟨hcount, hparam, hfull, hword⟩
      cases hlist : call.param? 2 with
      | none =>
        cases hclause : call.param? 4 with
        | none => exact absurd ⟨hnames, hlist, hclause⟩ hsets
        | some clause =>
          refine absurd ⟨hnames, Or.inr (by rw [hclause]; rfl), ?_⟩ hupdates
          rw [hlist]
          exact fun _ hmem => nomatch hmem
      | some list =>
        have hinvalid : ¬ValidFields (entries list) := by
          intro hvalid
          refine hupdates ⟨hnames, Or.inl (by rw [hlist]; rfl), ?_⟩
          rw [hlist]
          intro t ht
          cases ht
          exact hvalid
        obtain ⟨d, hstops⟩ := exists_stops_setFields table hinvalid
        refine ⟨d, hcounted.bind_stops (hnamed.bind_stops ?_)⟩
        rw [hlist]
        exact hstops.bind _
    · have hunnamed : (tableAt call 1 .table).Stops []
          ((Fault.tableName .table table).report table) := by
        rw [tableAt, required, hparam]
        exact (stops_require (Bool.not_eq_true _ ▸ hword) _ _).bind _
      exact ⟨_, hcounted.bind_stops (hunnamed.bind _)⟩
  · exact ⟨_, (stops_require (decide_eq_false hcount) _ _).bind _⟩

theorem exists_stops_update (name : MacroName) (hfull : ∀ t, ¬call.UpdatesInFull t)
    (htable : ∀ table, ¬call.UpdatesTable table) (hsets : ∀ table, ¬call.SetsNothing table) :
    ∃ d, (update name call).Stops [] d := by
  cases hparam : call.param? 1 with
  | none =>
    rw [update, required, hparam]
    exact ⟨_, (stops_fail _ _).bind _⟩
  | some t =>
    by_cases h : IsUpdate t
    · have hcount : 2 < call.segments.length := by
        refine Nat.lt_of_le_of_ne (lt_length_of_param? hparam) fun heq => ?_
        exact hfull t ⟨heq.symm, hparam, h⟩
      exact ⟨_, stops_of_isUpdate name hparam h hcount⟩
    · rw [update_of_not_isUpdate name hparam h]
      exact exists_stops_updateTable name hparam h (htable t) (hsets t)

end Plan

/-! ## 4. The check -/

/-- **What an update admits, exactly.** The calls that are admitted by an oracle that accepts
everything are a complete statement by itself, and a table with valid fields or a set clause; the
statements for them are known. A call that begins like a complete statement and goes on is refused
by a rule. A call that sets nothing lacks a parameter, but its condition has been asked by then; it
is the only call that is refused so late. -/
theorem Family.check_update_language (name : MacroName) (call : Call) :
    let run := Family.update.check name call .lenient
    (run.diagnostic = none ↔
      (∃ t, call.UpdatesInFull t) ∨ ∃ table, call.UpdatesTable table) ∧
    (∀ t, call.UpdatesInFull t → run.statements = [t]) ∧
    (∀ table, call.UpdatesTable table → run.statements = call.updateStatements table) ∧
    (∀ t, call.param? 1 = some t → IsUpdate t → 2 < call.segments.length →
      run.statements = [] ∧ ∃ d, run.diagnostic = some d ∧ d.kind = .rule) ∧
    (∀ table, call.SetsNothing table →
      run.statements = (call.param? 3).toList.map (whereStatement table) ∧
        ∃ d, run.diagnostic = some d ∧ d.kind = .arity) ∧
    (run.diagnostic ≠ none → (∀ table, ¬call.SetsNothing table) → run.statements = []) := by
  intro run
  -- The first parameter is indexed by the form it belongs to.
  have hplan (statements : List Text) : (Family.update.plan name call).Yields statements () ↔
      ∃ first, Sum.elim call.UpdatesInFull call.UpdatesTable first ∧
        statements = Sum.elim (fun t => [t]) call.updateStatements first := by
    rw [Sum.exists]
    exact Plan.yields_update_iff name
  obtain ⟨haccepted, hasked⟩ := check_lenient hplan
  rw [Sum.exists] at haccepted
  refine ⟨haccepted, fun t => hasked (.inl t), fun table => hasked (.inr table), ?_, ?_, ?_⟩
  · intro t hparam hfull hcount
    have hrun : run = _ :=
      @check_of_stops .update name call _ _ (Plan.stops_of_isUpdate name hparam hfull hcount)
    rw [hrun]
    exact ⟨rfl, _, rfl, rfl⟩
  · intro table h
    have hrun : run = _ := @check_of_stops .update name call _ _ (Plan.stops_of_setsNothing name h)
    rw [hrun]
    exact ⟨rfl, _, rfl, rfl⟩
  · intro hrefused hsets
    have hnone := mt haccepted.mpr hrefused
    rw [not_or, not_exists, not_exists] at hnone
    obtain ⟨d, hstops⟩ := Plan.exists_stops_update name hnone.1 hnone.2 hsets
    have hrun : run = _ := @check_of_stops .update name call _ _ hstops
    rw [hrun]

/-- All that can be set is set with a condition; a statement is asked as it is, but not with a blank
parameter behind it; and for a table whose name begins like a statement nothing is set. -/
theorem Family.check_update_language_of_both_forms :
    let table : Call := ⟨[], [], [], ["update", "t", "a, b = 1", "c = :c", " d = d + 1"], false⟩
    let full : Call := ⟨[], [], [], ["update", " Update\nt SET a = 1 "], false⟩
    let behind : Call := ⟨[], [], [], ["update", "update t SET a = 1", " "], false⟩
    let nothing : Call := ⟨[], [], [], ["update", "update_log", "", "c = :c"], false⟩
    (Family.update.check .update table .lenient).statements
        = ["UPDATE t SET a = :a, b = 1".toList, "SELECT * FROM t WHERE c = :c".toList,
          "UPDATE t SET d = d + 1".toList,
          "UPDATE t SET a = :a, b = 1, d = d + 1 WHERE c = :c".toList] ∧
      (Family.update.check .update full .lenient).statements = ["Update\nt SET a = 1".toList] ∧
      (Family.update.check .update behind .lenient).statements = [] ∧
      (Family.update.check .update nothing .lenient).statements
        = ["SELECT * FROM update_log WHERE c = :c".toList] := by
  intro table full behind nothing
  have hlog : nothing.NamesUpdated "update_log" :=
    ⟨by decide, rfl, Plan.not_isUpdate_of_isWord (by decide), by decide⟩
  refine ⟨?_, ?_, ?_, ?_⟩
  · refine (check_update_language .update table).2.2.1 "t" ⟨⟨?_, rfl, ?_, ?_⟩, Or.inl rfl, ?_⟩
    · decide
    · exact Plan.not_isUpdate_of_isWord (by decide)
    · decide
    · decide +kernel
  · refine (check_update_language .update full).2.1 "Update\nt SET a = 1" ⟨rfl, rfl, ?_⟩
    exact ⟨"Update", '\n', "t SET a = 1", rfl, rfl, rfl⟩
  · refine ((check_update_language .update behind).2.2.2.1 "update t SET a = 1" rfl ?_ ?_).1
    · exact ⟨"update", ' ', "t SET a = 1", rfl, rfl, rfl⟩
    · decide
  · exact ((check_update_language .update nothing).2.2.2.2.1 "update_log" ⟨hlog, rfl, rfl⟩).1

end MacroLint
