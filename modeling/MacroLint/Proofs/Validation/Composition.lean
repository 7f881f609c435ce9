import MacroLint.Proofs.Sql.Reading
import MacroLint.Proofs.Validation.Resolution

/-!
# Conditions that are asked apart

A literal may choose rows by a condition and by a dynamic condition. The program that is written for
it joins the two with AND; the validator asks for each of them in a statement of its own. The
statement with both is never asked, and this file says when it would have been accepted.

The answers of an oracle that looks at nothing but the statement do not depend on when they are
asked, so a plan has a value that is computed from left to right (`Plan.value?`), and what was asked
on the way to it was accepted. That gives the two statements with one condition each
(`accepted_of_validate`); what becomes of the two conditions in one statement is a question about
reading and grammar, which is answered in `Sql.queryFault?_joined_iff`. What stands in place of a
condition need not be one: a semicolon may end it, or clauses may follow it. Where it is a condition
and nothing more, the two compose; otherwise they do not always.
-/

set_option autoImplicit false

namespace MacroLint

open Fragment Literal

/-! ## 1. Plans whose statements have fixed verdicts -/

namespace Plan

variable {α β : Type} {verdict : Text → Option Failure}

/-- The value of a plan if each statement has the same answer whenever it is asked. -/
def value? (verdict : Text → Option Failure) : Plan α → Option α
  | done a => some a
  | stop _ => none
  | put statement answered => (answered (verdict statement)).value? verdict

theorem value?_bind (p : Plan α) (f : α → Plan β) :
    (p >>= f).value? verdict = (p.value? verdict).bind fun a => (f a).value? verdict := by
  induction p with
  | done a => rfl
  | stop d => rfl
  | put statement answered ih => exact ih _

/-- The value is what a run ends with. -/
theorem toOption_outcome (p : Plan α) (asked : List Text) :
    (p.trace (fun _ statement => verdict statement) asked).outcome.toOption = p.value? verdict := by
  induction p generalizing asked with
  | done a => rfl
  | stop d => rfl
  | put statement answered ih => exact ih _ _

theorem value?_bind_eq_some_iff {p : Plan α} {f : α → Plan β} {b : β} :
    (p >>= f).value? verdict = some b ↔
      ∃ a, p.value? verdict = some a ∧ (f a).value? verdict = some b := by
  rw [value?_bind, Option.bind_eq_some_iff]

theorem value?_ask_iff {probe : Probe} {u : Unit} :
    (ask probe).value? verdict = some u ↔ verdict probe.statement = none := by
  rw [ask, value?]
  cases verdict probe.statement with
  | none => exact iff_of_true rfl rfl
  | some failure => exact iff_of_false nofun nofun

theorem value?_require_iff {test : Bool} {fault : Fault} {context : Text} {u : Unit} :
    (require test fault context).value? verdict = some u ↔ test = true := by
  rw [require]
  cases test with
  | false => exact iff_of_false nofun nofun
  | true => exact iff_of_true rfl rfl

theorem value?_forPresent {a : Option α} {plan : α → Plan Unit} {u : Unit}
    (h : (forPresent a plan).value? verdict = some u) {x : α} (hx : a = some x) :
    (plan x).value? verdict = some u := by
  subst hx
  exact h

theorem value?_tableAt {call : Call} {position : Nat} {part : Part} {table : Text}
    (h : (tableAt call position part).value? verdict = some table) :
    call.param? position = some table ∧ Text.isWord table = true := by
  obtain ⟨t, hrequired, h⟩ := value?_bind_eq_some_iff.mp h
  obtain ⟨_, hword, h⟩ := value?_bind_eq_some_iff.mp h
  cases h
  refine ⟨?_, value?_require_iff.mp hword⟩
  rw [required] at hrequired
  split at hrequired
  · rename_i hparam
    cases hrequired
    exact hparam
  · cases hrequired

/-- A dynamic condition that is admitted is accepted as the condition it amounts to. -/
theorem verdict_of_askDynamic {table condition : Text} {u : Unit}
    (h : (askDynamic table condition).value? verdict = some u) :
    verdict (whereStatement table (plainCondition condition)) = none := by
  obtain ⟨_, -, hask⟩ := value?_bind_eq_some_iff.mp h
  exact value?_ask_iff.mp hask

/-- Both conditions on the rows of a table have been accepted. -/
theorem verdict_of_rows {name : MacroName} {call : Call} {u : Unit}
    (htotal : call.has .total = false) (h : (rows name call).value? verdict = some u)
    {condition dynamic : Text} (hcondition : call.param? 2 = some condition)
    (hdynamic : call.param? 3 = some dynamic) :
    ∃ table, call.param? 1 = some table ∧ Text.isWord table = true ∧
      verdict (whereStatement table condition) = none ∧
      verdict (whereStatement table (plainCondition dynamic)) = none := by
  obtain ⟨_, -, h⟩ := value?_bind_eq_some_iff.mp h
  obtain ⟨table, htable, h⟩ := value?_bind_eq_some_iff.mp h
  obtain ⟨hparam, hword⟩ := value?_tableAt htable
  rw [htotal] at h
  obtain ⟨_, -, h⟩ := value?_bind_eq_some_iff.mp h
  obtain ⟨_, hfixed, h⟩ := value?_bind_eq_some_iff.mp h
  obtain ⟨_, -, hask⟩ := value?_bind_eq_some_iff.mp (value?_forPresent hfixed hcondition)
  refine ⟨table, hparam, hword, value?_ask_iff.mp hask, ?_⟩
  exact verdict_of_askDynamic (value?_forPresent h hdynamic)

/-- Both conditions behind a query have been accepted. -/
theorem verdict_of_plainQuery {name : MacroName} {call : Call} {u : Unit}
    (h : (plainQuery name call).value? verdict = some u)
    {condition dynamic : Text} (hcondition : call.param? 3 = some condition)
    (hdynamic : call.param? 4 = some dynamic) :
    verdict (whereStatement dual condition) = none ∧
      verdict (whereStatement dual (plainCondition dynamic)) = none := by
  obtain ⟨_, -, h⟩ := value?_bind_eq_some_iff.mp h
  obtain ⟨_, -, h⟩ := value?_bind_eq_some_iff.mp h
  obtain ⟨_, -, h⟩ := value?_bind_eq_some_iff.mp h
  obtain ⟨_, hfixed, h⟩ := value?_bind_eq_some_iff.mp h
  obtain ⟨_, hrest, -⟩ := value?_bind_eq_some_iff.mp h
  refine ⟨value?_ask_iff.mp (value?_forPresent hfixed hcondition), ?_⟩
  exact verdict_of_askDynamic (value?_forPresent hrest hdynamic)

end Plan

/-! ## 2. Literals with both conditions -/

/-- What chooses rows where a condition and a dynamic condition do. -/
structure Selection where
  table : Text
  condition : Text
  dynamic : Text
  deriving DecidableEq, Repr

namespace Selection

/-- The dynamic condition as the plain one that it amounts to. -/
def plainDynamic (chosen : Selection) : Text := plainCondition chosen.dynamic

/-- The statement with both conditions, which is not asked. -/
def statement (chosen : Selection) : Text :=
  whereStatement chosen.table (chosen.condition ++ " AND " ++ chosen.plainDynamic)

/-- What a call chooses rows by, if its plan asks for both conditions and it has them. -/
def ofCall? (name : MacroName) (call : Call) : Option Selection :=
  match name.family? with
  | some .existsRow | some .delete =>
    if call.has .total then none
    else do return ⟨← call.param? 1, ← call.param? 2, ← call.param? 3⟩
  | some .select => do return ⟨dual, ← call.param? 3, ← call.param? 4⟩
  | _ => none

end Selection

theorem Selection.cases_ofCall? {name : MacroName} {call : Call} {chosen : Selection}
    (h : ofCall? name call = some chosen) :
    (∃ family, name.family? = some family ∧ family.plan = Plan.rows ∧ call.has .total = false ∧
      call.param? 1 = some chosen.table ∧ call.param? 2 = some chosen.condition ∧
      call.param? 3 = some chosen.dynamic) ∨
    (name.family? = some .select ∧ chosen.table = dual ∧
      call.param? 3 = some chosen.condition ∧ call.param? 4 = some chosen.dynamic) := by
  unfold ofCall? at h
  cases hfamily : name.family? with
  | none =>
    rw [hfamily] at h
    cases h
  | some family =>
    rw [hfamily] at h
    cases family with
    | existsRow | delete =>
      obtain ⟨htotal, h⟩ := Option.ite_none_left_eq_some.mp h
      obtain ⟨table, htable, h⟩ := Option.bind_eq_some_iff.mp h
      obtain ⟨condition, hcondition, h⟩ := Option.bind_eq_some_iff.mp h
      obtain ⟨dynamic, hdynamic, h⟩ := Option.bind_eq_some_iff.mp h
      cases h
      exact Or.inl ⟨_, rfl, rfl, Bool.eq_false_iff.mpr htotal, htable, hcondition, hdynamic⟩
    | select =>
      obtain ⟨condition, hcondition, h⟩ := Option.bind_eq_some_iff.mp h
      obtain ⟨dynamic, hdynamic, h⟩ := Option.bind_eq_some_iff.mp h
      cases h
      exact Or.inr ⟨rfl, rfl, hcondition, hdynamic⟩
    | _ => cases h

/-- The plan of a literal that is valid has a value. -/
theorem value?_of_validate (verdict : Text → Option Failure) {raw : Text} {name : MacroName}
    {call : Call} {family : Family} (hres : resolve raw = .ok (name, call))
    (hfamily : name.family? = some family)
    (h : (validate (fun _ s => verdict s) raw).diagnostic = none) :
    (family.plan name call).value? verdict = some () := by
  have hval : validate (fun _ s => verdict s) raw = family.check name call fun _ s => verdict s := by
    simp only [validate, hres, hfamily]
  rw [hval] at h
  rw [← Plan.toOption_outcome _ []]
  cases hout : ((family.plan name call).trace (fun _ s => verdict s) []).outcome with
  | ok u => rfl
  | error d => exact absurd ((diagnostic_of_error hout name.usage?).symm.trans h) nofun

namespace Sql

open Keyword

variable {d : Dialect}

/-- A literal that is valid names a table, and each of its conditions has been accepted. -/
theorem accepted_of_validate {raw : Text} {name : MacroName} {call : Call} {chosen : Selection}
    (hres : resolve raw = .ok (name, call)) (hchosen : Selection.ofCall? name call = some chosen)
    (hvalid : (validate (oracle d) raw).diagnostic = none) :
    read d chosen.table = some [.name] ∧
      queryFault? d (whereStatement chosen.table chosen.condition) = none ∧
      queryFault? d (whereStatement chosen.table chosen.plainDynamic) = none := by
  have hvalue {family : Family} (hfamily : name.family? = some family) :=
    value?_of_validate (fun s => (queryFault? d s).map Failure.query) hres hfamily hvalid
  rcases Selection.cases_ofCall? hchosen with
    ⟨family, hfamily, hplan, htotal, htable, hcondition, hdynamic⟩ |
      ⟨hfamily, htable, hcondition, hdynamic⟩
  · have h := hvalue hfamily
    rw [hplan] at h
    obtain ⟨table, hparam, hword, hfixed, hjoined⟩ :=
      Plan.verdict_of_rows htotal h hcondition hdynamic
    obtain rfl := Option.some.inj (hparam.symm.trans htable)
    rw [Option.map_eq_none_iff] at hfixed hjoined
    exact ⟨read_table hword hfixed, hfixed, hjoined⟩
  · obtain ⟨hfixed, hjoined⟩ := Plan.verdict_of_plainQuery (hvalue hfamily) hcondition hdynamic
    rw [Option.map_eq_none_iff] at hfixed hjoined
    rw [htable]
    exact ⟨read_dual, hfixed, hjoined⟩

/-! ## 3. The conditions together -/

/-- **Two conditions compose if they are no more than conditions.** If a literal is valid, the
statement with both of its conditions is accepted exactly if the first condition has no semicolon
and does not end with a direction, and the clauses that stand outside of parentheses in the first
and then in the second are at most one GROUP BY and behind it at most one ORDER BY. If the first has
neither a semicolon nor a clause, the statement is accepted, whatever the second is. -/
theorem conditions_compose {raw : Text} {name : MacroName} {call : Call} {chosen : Selection}
    (hres : resolve raw = .ok (name, call)) (hchosen : Selection.ofCall? name call = some chosen)
    (hvalid : (validate (oracle d) raw).diagnostic = none) :
    ∃ cs rs, read d chosen.condition = some cs ∧ read d chosen.plainDynamic = some rs ∧
      (oracle d [] chosen.statement = none ↔
        .sign .semicolon ∉ cs ∧
        cs.getLast? ≠ some (.keyword ASC) ∧ cs.getLast? ≠ some (.keyword DESC) ∧
        (outerClauses 0 cs ++ outerClauses 0 rs).Sublist [GROUP, ORDER]) ∧
      (.sign .semicolon ∉ cs → outerClauses 0 cs = [] → oracle d [] chosen.statement = none) := by
  obtain ⟨htable, hfixed, hjoined⟩ := accepted_of_validate hres hchosen hvalid
  obtain ⟨cs, rs, hcs, hrs, hjoined⟩ := queryFault?_joined_iff htable hfixed hjoined
  rw [← Option.map_eq_none_iff (f := Failure.query)] at hjoined
  exact ⟨cs, rs, hcs, hrs, hjoined⟩

/-- The conditions of a deletion compose, and so do two conditions that bring one clause each along,
in their order. -/
theorem conditions_compose_of_delete :
    oracle .generic [] "SELECT * FROM t WHERE a = :a AND b = :b OR c > :c" = none ∧
    oracle .generic [] "SELECT * FROM dual WHERE a = 1 group by a AND b = :b order by c"
      = none := by
  constructor
  · let raw : Text := "[delete][t][a = :a][b = :b, /*#OR*/c > :c]"
    let call : Call := ⟨raw, raw, [], ["delete", "t", "a = :a", "b = :b, /*#OR*/c > :c"], false⟩
    let chosen : Selection := ⟨"t", "a = :a", "b = :b, /*#OR*/c > :c"⟩
    have hres : resolve raw = .ok (.delete, call) := resolve_of_toOption (by decide +kernel)
    have hchosen : Selection.ofCall? .delete call = some chosen := by decide +kernel
    have hread : read .generic chosen.condition = some [.name, .sign .equal, .bind] := by
      decide +kernel
    obtain ⟨cs, rs, hcs, -, -, hcompose⟩ :=
      conditions_compose (d := .generic) hres hchosen (by decide +kernel)
    obtain rfl := Option.some.inj (hread.symm.trans hcs)
    exact hcompose (by decide) (by decide)
  · let raw : Text := "[select][select 1][][a = 1 group by a][b = :b order by c]"
    let call : Call :=
      ⟨raw, raw, [], ["select", "select 1", "", "a = 1 group by a", "b = :b order by c"], false⟩
    let chosen : Selection := ⟨dual, "a = 1 group by a", "b = :b order by c"⟩
    have hres : resolve raw = .ok (.select, call) := resolve_of_toOption (by decide +kernel)
    have hchosen : Selection.ofCall? .select call = some chosen := by decide +kernel
    have hread : read .generic chosen.condition
        = some [.name, .sign .equal, .number, .keyword GROUP, .keyword BY, .name] := by
      decide +kernel
    have hread' : (read .generic chosen.plainDynamic).map (outerClauses 0) = some [ORDER] := by
      decide +kernel
    obtain ⟨cs, rs, hcs, hrs, hiff, -⟩ :=
      conditions_compose (d := .generic) hres hchosen (by decide +kernel)
    obtain rfl := Option.some.inj (hread.symm.trans hcs)
    rw [hrs] at hread'
    refine hiff.mpr ⟨by decide, by decide, by decide, ?_⟩
    rw [Option.some.inj hread']
    decide

/-- A semicolon behind the first condition, or a direction at its end, is admitted by the statement
with this condition alone; the statement with both is refused. -/
theorem not_conditions_compose :
    (validate (oracle .generic) "[delete][t][a = :a;][b = :b]".toList).diagnostic = none ∧
    (validate (oracle .generic) "[delete][t][a = :a order by a desc][b = :b]".toList).diagnostic
      = none ∧
    (oracle .generic [] "SELECT * FROM t WHERE a = :a; AND b = :b".toList).isSome ∧
    (oracle .generic [] "SELECT * FROM t WHERE a = :a order by a desc AND b = :b".toList).isSome ∧
    ¬∀ (raw : Text) (name : MacroName) (call : Call) (chosen : Selection),
      resolve raw = .ok (name, call) → Selection.ofCall? name call = some chosen →
        (validate (oracle .generic) raw).diagnostic = none →
          oracle .generic [] chosen.statement = none := by
  have hvalid : (validate (oracle .generic) "[delete][t][a = :a;][b = :b]".toList).diagnostic
      = none := by
    decide +kernel
  have hrefused : (oracle .generic [] "SELECT * FROM t WHERE a = :a; AND b = :b".toList).isSome := by
    decide +kernel
  refine ⟨hvalid, by decide +kernel, hrefused, by decide +kernel, fun hall => ?_⟩
  let raw : Text := "[delete][t][a = :a;][b = :b]"
  let call : Call := ⟨raw, raw, [], ["delete", "t", "a = :a;", "b = :b"], false⟩
  have hres : resolve raw = .ok (.delete, call) := resolve_of_toOption (by decide +kernel)
  let chosen : Selection := ⟨"t", "a = :a;", "b = :b"⟩
  have hchosen : Selection.ofCall? .delete call = some chosen := by decide +kernel
  have hstatement : chosen.statement = "SELECT * FROM t WHERE a = :a; AND b = :b".toList := by
    decide +kernel
  have hnone := hall raw .delete call chosen hres hchosen hvalid
  rw [hstatement] at hnone
  rw [hnone] at hrefused
  cases hrefused

end Sql

end MacroLint
