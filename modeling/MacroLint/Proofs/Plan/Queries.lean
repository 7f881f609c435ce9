import MacroLint.Proofs.Plan.Undisturbed

/-!
# The queries that are admitted

A query macro takes a complete query and four optional clauses. None of the clauses has to be there
and none depends on another, so each that is there gives one statement, at its own place in the row
(`Call.queryStatements`). The only thing a call can be refused for behind its query is the dynamic
condition, of which every clause has to say something and to reference a bind variable
(`Call.BindsDynamic`). It is read in the middle of the row: the clauses in front of it have been
asked by then, the tail has not, and the first clause at fault is the one that is reported
(`exists_stops_plainQuery`).
-/

set_option autoImplicit false

namespace MacroLint

open Fragment Literal

/-! ## 1. The language -/

namespace Fragment.Clause

/-- The clause says something and references a bind variable. -/
def IsBound (clause : Clause) : Prop := clause.text ≠ [] ∧ References clause.text

instance (clause : Clause) : Decidable clause.IsBound :=
  inferInstanceAs (Decidable (clause.text ≠ [] ∧ References clause.text))

/-- What is reported of a clause that is not bound, and with what: an empty clause cannot be shown,
so the condition is. -/
inductive Unbound (condition : Text) (clause : Clause) : Fault → Text → Prop where
  | empty (htext : clause.text = []) : clause.Unbound condition .emptyClause condition
  | noBind (htext : clause.text ≠ []) (hnone : ¬References clause.text) :
    clause.Unbound condition (.noBind .dynamicClause) clause.text

end Fragment.Clause

namespace Literal.Call

/-- Every clause of the dynamic condition is bound, if there is one at this position. -/
def BindsDynamic (call : Call) (position : Nat) : Prop :=
  ∀ t ∈ call.param? position, ∀ clause ∈ clauses t, clause.IsBound

instance (call : Call) (position : Nat) : Decidable (call.BindsDynamic position) :=
  inferInstanceAs (Decidable (∀ t ∈ call.param? position, ∀ clause ∈ clauses t, clause.IsBound))

/-- The statements for a query and the clauses in front of its dynamic condition, in the order in
which they are asked. -/
def leadingStatements (call : Call) : List Text :=
  (call.param? 1).toList
    ++ (call.param? 2).toList.map (fun fields : Text => "SELECT " ++ fields ++ " FROM dual")
    ++ (call.param? 3).toList.map fun condition : Text => "SELECT * FROM dual WHERE " ++ condition

/-- The statements for a query and all of its clauses, in the order in which they are asked. -/
def queryStatements (call : Call) : List Text :=
  call.leadingStatements
    ++ (call.param? 4).toList.map
      (fun dynamic : Text => "SELECT * FROM dual WHERE " ++ plainCondition dynamic)
    ++ (call.param? 5).toList.map fun tail : Text => "SELECT * FROM dual " ++ tail

end Literal.Call

/-! ## 2. The plan -/

theorem Fragment.fieldsStatement_eq (fields : Text) :
    fieldsStatement fields = "SELECT " ++ fields ++ " FROM dual" := by
  have hdual : (" FROM " : Text) ++ dual = " FROM dual" := rfl
  unfold fieldsStatement
  simp only [List.append_assoc, hdual]

theorem Fragment.tailStatement_eq (clause : Text) :
    tailStatement clause = "SELECT * FROM dual " ++ clause := by
  have hdual : "SELECT * FROM dual ".toList = "SELECT * FROM ".toList ++ dual ++ [' '] := rfl
  unfold tailStatement
  simp only [hdual, List.append_assoc, List.singleton_append]

namespace Plan

variable {call : Call} {position : Nat} {statements : List Text} {u : Unit}

/-- The row of the statements, as the plan groups them. -/
theorem append_eq_queryStatements :
    (call.param? 1).toList ++ ((call.param? 2).toList.map fieldsStatement
      ++ ((call.param? 3).toList.map (whereStatement dual)
        ++ (((call.param? 4).toList.map fun dynamic =>
            whereStatement dual (plainCondition dynamic))
          ++ (call.param? 5).toList.map tailStatement))) = call.queryStatements := by
  rw [funext fieldsStatement_eq, funext tailStatement_eq]
  simp only [← List.append_assoc]
  rfl

theorem yields_queryClauses_iff :
    (queryClauses call position).Yields statements u ↔
      call.BindsDynamic (position + 2) ∧ statements =
        (call.param? position).toList.map fieldsStatement
          ++ ((call.param? (position + 1)).toList.map (whereStatement dual)
            ++ (((call.param? (position + 2)).toList.map fun dynamic =>
                whereStatement dual (plainCondition dynamic))
              ++ (call.param? (position + 3)).toList.map tailStatement)) := by
  rw [queryClauses, yields_forAsk_bind_iff]
  simp only [yields_forCondition_bind_iff,
    yields_then_iff fun _ _ => yields_forPresent_iff fun _ _ _ => yields_askDynamic_iff,
    yields_forAsk_iff]
  constructor
  · rintro ⟨_, ⟨_, ⟨hbinds, _, rfl, rfl⟩, rfl⟩, hasked⟩
    exact ⟨hbinds, hasked⟩
  · intro ⟨hbinds, hasked⟩
    exact ⟨_, ⟨_, ⟨hbinds, _, rfl, rfl⟩, rfl⟩, hasked⟩

theorem yields_query_bind_iff {α : Type} {f : Unit → Plan α} {a : α} :
    (query call >>= f).Yields statements a ↔
      (call.param? 1).isSome ∧
        ∃ rest, (f ()).Yields rest a ∧ statements = (call.param? 1).toList ++ rest := by
  refine yields_then_iff fun asked _ => ?_
  rw [query, yields_required_bind_iff]
  cases hparam : call.param? 1 with
  | none => simp
  | some sql => simp [askWhole, yields_ask_iff]

theorem yields_plainQuery_iff (name : MacroName) :
    (plainQuery name call).Yields statements u ↔
      (call.segments.length ≤ 6 ∧ (call.param? 1).isSome ∧ call.BindsDynamic 4) ∧
        statements = call.queryStatements := by
  rw [plainQuery, yields_atMost_bind_iff, yields_query_bind_iff]
  simp only [yields_queryClauses_iff]
  constructor
  · rintro ⟨hcount, hquery, _, ⟨hbinds, rfl⟩, rfl⟩
    exact ⟨⟨hcount, hquery, hbinds⟩, append_eq_queryStatements⟩
  · intro ⟨⟨hcount, hquery, hbinds⟩, hasked⟩
    exact ⟨hcount, hquery, _, ⟨hbinds, rfl⟩, hasked.trans append_eq_queryStatements.symm⟩

/-! ## 3. What is refused -/

/-- A step that fails behind steps that ask nothing ends them all. -/
theorem stops_forM {α : Type} {plan : α → Plan Unit} {before : List α} {x : α} {d : Diagnostic}
    (hbefore : ∀ y ∈ before, (plan y).Yields [] ()) (hx : (plan x).Stops [] d) (after : List α) :
    ((before ++ x :: after).forM plan).Stops [] d := by
  induction before with
  | nil => exact hx.bind _
  | cons first before ih =>
    obtain ⟨hfirst, hrest⟩ := List.forall_mem_cons.mp hbefore
    exact hfirst.bind_stops (ih hrest)

theorem exists_stops_acceptClause (condition : Text) {clause : Clause} (h : ¬clause.IsBound) :
    ∃ fault context, clause.Unbound condition fault context ∧
      (acceptClause condition clause).Stops [] (fault.report context) := by
  by_cases htext : clause.text = []
  · refine ⟨_, _, .empty htext, ?_⟩
    exact (stops_require (by simp [htext]) _ _).bind _
  · have hnone : ¬References clause.text := fun hreferences => h ⟨htext, hreferences⟩
    refine ⟨_, _, .noBind htext hnone, ?_⟩
    have hgiven : (require (!clause.text.isEmpty) .emptyClause condition).Yields [] () :=
      yields_require_iff.mpr ⟨by simp [htext], rfl⟩
    have hbind : hasBind clause.text = false :=
      Bool.eq_false_iff.mpr (mt hasBind_iff_references.mp hnone)
    exact hgiven.bind_stops (stops_require hbind _ _)

/-- A dynamic condition that is not bound is refused for its first clause at fault, and nothing is
asked. -/
theorem exists_stops_askDynamic (table : Text) {condition : Text}
    (h : ¬∀ clause ∈ clauses condition, clause.IsBound) :
    ∃ before clause after fault context, clauses condition = before ++ clause :: after ∧
      (∀ earlier ∈ before, earlier.IsBound) ∧ clause.Unbound condition fault context ∧
      (askDynamic table condition).Stops [] (fault.report context) := by
  obtain ⟨clause, hfound⟩ : ∃ clause,
      (clauses condition).find? (fun clause => !decide clause.IsBound) = some clause := by
    rw [← Option.isSome_iff_exists, List.find?_isSome]
    simpa using h
  obtain ⟨hclause, before, after, hclauses, hbefore⟩ := List.find?_eq_some_iff_append.mp hfound
  have hbound : ∀ earlier ∈ before, earlier.IsBound := by
    simpa using hbefore
  obtain ⟨fault, context, hunbound, hstops⟩ :=
    exists_stops_acceptClause condition (by simpa using hclause)
  refine ⟨before, clause, after, fault, context, hclauses, hbound, hunbound, ?_⟩
  have haccepted : ∀ earlier ∈ before, (acceptClause condition earlier).Yields [] () :=
    fun earlier hearlier => yields_acceptClause_iff.mpr ⟨hbound earlier hearlier, rfl⟩
  rw [askDynamic, hclauses]
  exact (stops_forM haccepted hstops after).bind _

/-- The dynamic condition is read between the clauses in front of it and the tail. -/
theorem stops_queryClauses {condition : Text} {d : Diagnostic}
    (hparam : call.param? (position + 2) = some condition)
    (h : (askDynamic dual condition).Stops [] d) :
    (queryClauses call position).Stops ((call.param? position).toList.map fieldsStatement
      ++ (call.param? (position + 1)).toList.map (whereStatement dual)) d := by
  have hfields : (forPresent (call.param? position) fun fields =>
      ask ⟨fieldsStatement fields, .queryFields, fields⟩).Yields
      ((call.param? position).toList.map fieldsStatement) () := yields_forAsk_iff.mpr rfl
  have hcondition : (forPresent (call.param? (position + 1)) (askCondition dual)).Yields
      ((call.param? (position + 1)).toList.map (whereStatement dual)) () :=
    yields_forAsk_iff.mpr rfl
  have hdynamic : (forPresent (call.param? (position + 2)) (askDynamic dual)).Stops [] d := by
    rw [hparam]
    exact h
  rw [queryClauses, ← List.append_nil (List.map (whereStatement dual) _)]
  exact hfields.bind_stops (hcondition.bind_stops (hdynamic.bind _))

/-- A call that only its dynamic condition keeps from being admitted is refused between the clauses
in front of it and the tail, for the first clause at fault. -/
theorem exists_stops_plainQuery (name : MacroName) (hcount : call.segments.length ≤ 6)
    (hquery : (call.param? 1).isSome) {condition : Text} (hparam : call.param? 4 = some condition)
    (h : ¬∀ clause ∈ clauses condition, clause.IsBound) :
    ∃ before clause after fault context, clauses condition = before ++ clause :: after ∧
      (∀ earlier ∈ before, earlier.IsBound) ∧ clause.Unbound condition fault context ∧
      (plainQuery name call).Stops call.leadingStatements (fault.report context) := by
  obtain ⟨before, clause, after, fault, context, hclauses, hbefore, hunbound, hstops⟩ :=
    exists_stops_askDynamic dual h
  refine ⟨before, clause, after, fault, context, hclauses, hbefore, hunbound, ?_⟩
  obtain ⟨sql, hsql⟩ := Option.isSome_iff_exists.mp hquery
  have hcounted : (atMost name call 6).Yields [] () :=
    yields_require_iff.mpr ⟨decide_eq_true hcount, rfl⟩
  have hasked : (query call).Yields [sql] () :=
    yields_required_bind_iff.mpr ⟨sql, hsql, yields_ask_iff.mpr rfl⟩
  have hrow : call.leadingStatements = [] ++ ([sql] ++ ((call.param? 2).toList.map fieldsStatement
      ++ (call.param? 3).toList.map (whereStatement dual))) := by
    rw [Call.leadingStatements, hsql, funext fieldsStatement_eq, List.append_assoc]
    rfl
  rw [plainQuery, hrow]
  exact hcounted.bind_stops (hasked.bind_stops (stops_queryClauses hparam hstops))

end Plan

/-! ## 4. The check -/

/-- **What can be queried, exactly.** The calls that are admitted by an oracle that accepts
everything are those with a query, at most four clauses and only bound clauses in the dynamic
condition; what is asked for them is the query and then each clause at its place. If nothing but the
dynamic condition is wrong, the query and the clauses in front of it have been asked, and the first
clause at fault is reported. -/
theorem Family.check_select_language (name : MacroName) (call : Call) :
    let run := Family.select.check name call .lenient
    (run.diagnostic = none ↔
      call.segments.length ≤ 6 ∧ (call.param? 1).isSome ∧ call.BindsDynamic 4) ∧
    (run.diagnostic = none → run.statements = call.queryStatements) ∧
    (call.segments.length ≤ 6 → (call.param? 1).isSome → ¬call.BindsDynamic 4 →
      run.statements = call.leadingStatements ∧
      ∃ condition before clause after fault context, call.param? 4 = some condition ∧
        clauses condition = before ++ clause :: after ∧ (∀ earlier ∈ before, earlier.IsBound) ∧
        clause.Unbound condition fault context ∧
        run.diagnostic = some ((fault.report context).orUsage name.usage?)) := by
  intro run
  obtain ⟨haccepted, hasked⟩ := @check_lenient .select name call Unit
    (fun _ => call.segments.length ≤ 6 ∧ (call.param? 1).isSome ∧ call.BindsDynamic 4)
    (fun _ => call.queryStatements) fun statements => by
      rw [exists_const]
      exact Plan.yields_plainQuery_iff name
  rw [exists_const] at haccepted
  refine ⟨haccepted, fun hnone => hasked () (haccepted.mp hnone), ?_⟩
  intro hcount hquery hbinds
  obtain ⟨condition, hparam, hclauses⟩ :
      ∃ condition, call.param? 4 = some condition ∧
        ¬∀ clause ∈ clauses condition, clause.IsBound := by
    simpa [Call.BindsDynamic] using hbinds
  obtain ⟨before, clause, after, fault, context, hlist, hbefore, hunbound, hstops⟩ :=
    Plan.exists_stops_plainQuery name hcount hquery hparam hclauses
  have hrun : run = _ := @check_of_stops .select name call _ _ hstops
  rw [hrun]
  exact ⟨rfl, condition, before, clause, after, fault, context, hparam, hlist, hbefore, hunbound,
    rfl⟩

/-- All clauses are there, or none. A dynamic condition whose second clause references nothing is
refused behind the condition in front of it. -/
theorem Family.check_select_language_of_full_and_bare :
    let full : Call := ⟨[], [], [], ["select", " select 1", "a, b", "c = 1",
      " a = :a , /*#OR*/ b > :b", "order by a"], false⟩
    let bare : Call := ⟨[], [], [], ["selectList", "select 1", "", " "], false⟩
    let unbound : Call := ⟨[], [], [], ["select", "select 1", "", "c = 1", "a = :a, b = ':b'",
      "order by a"], false⟩
    (Family.select.check .select full .lenient).statements
        = ["select 1".toList, "SELECT a, b FROM dual".toList, "SELECT * FROM dual WHERE c = 1".toList,
          "SELECT * FROM dual WHERE a = :a OR b > :b".toList,
          "SELECT * FROM dual order by a".toList] ∧
      (Family.select.check .selectList bare .lenient).statements = ["select 1".toList] ∧
      (Family.select.check .select unbound .lenient).statements
        = ["select 1".toList, "SELECT * FROM dual WHERE c = 1".toList] := by
  intro full bare unbound
  have hfull := check_select_language .select full
  have hbare := check_select_language .selectList bare
  have hunbound := check_select_language .select unbound
  refine ⟨?_, ?_, ?_⟩
  · exact hfull.2.1 (hfull.1.mpr ⟨by decide, by decide, by decide +kernel⟩)
  · exact hbare.2.1 (hbare.1.mpr ⟨by decide, by decide, by decide +kernel⟩)
  · exact (hunbound.2.2 (by decide) (by decide) (by decide +kernel)).1

end MacroLint
