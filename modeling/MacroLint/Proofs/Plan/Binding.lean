import MacroLint.Proofs.Fragment.References
import MacroLint.Proofs.Plan.Contract
import MacroLint.Proofs.Validation.Resolution

/-!
# Conditions that reference a bind variable

Rows of a table are chosen by a condition and by the clauses of a dynamic condition, and each of
these has to reference a bind variable. A check that accepts a call has made sure of it for all of
them, and one that refuses a call for it shows a text that has none. Both are read off one contract
of the plans (`Binding`).
-/

set_option autoImplicit false

namespace MacroLint

open Fragment Literal

/-- The texts that choose the rows of a table: the condition and the clauses of the dynamic
condition. -/
def Literal.Call.conditions (call : Call) : List Text :=
  (call.param? 2).toList ++ ((call.param? 3).toList.flatMap fun t => (clauses t).map Clause.text)

theorem mem_conditions {call : Call} {t : Text} (h : call.param? 2 = some t) :
    t ∈ call.conditions :=
  List.mem_append_left _ (Option.mem_toList.mpr h)

theorem mem_conditions_of_clause {call : Call} {t : Text} {clause : Clause}
    (h : call.param? 3 = some t) (hclause : clause ∈ clauses t) : clause.text ∈ call.conditions :=
  List.mem_append_right _
    (List.mem_flatMap.mpr ⟨t, Option.mem_toList.mpr h, List.mem_map_of_mem hclause⟩)

/-- The calls whose conditions have to reference a bind variable: rows are chosen by conditions and
not by a complete statement, or they are deleted in a batch. -/
def MacroName.AsksBind (name : MacroName) (call : Call) : Prop :=
  ((name = .existsRow ∨ name = .delete) ∧ call.has .total = false) ∨ name = .batchDelete

instance (name : MacroName) (call : Call) : Decidable (name.AsksBind call) :=
  inferInstanceAs (Decidable (_ ∨ _))

/-- A rule that is broken is the one on the number of parameters, or the text that is reported is a
condition without a bind variable. -/
def Fault.BreaksBind (call : Call) (fault : Fault) (context : Text) : Prop :=
  fault.kind = .rule →
    (∃ name allowed found, fault = .tooMany name allowed found) ∨
      (context ∈ call.conditions ∧ hasBind context = false)

theorem Fault.breaksBind_of_kind_ne (call : Call) (fault : Fault) (context : Text)
    (h : fault.kind ≠ .rule) : fault.BreaksBind call context := fun hkind => absurd hkind h

namespace Plan

variable {α : Type} {call : Call}

/-- The plan refuses for the lack of a bind variable only what has none. -/
abbrev Binding (call : Call) (Q : α → Prop) (p : Plan α) : Prop :=
  p.Meets (Fault.BreaksBind call) (fun _ => True) Q

theorem binding_atMost (name : MacroName) (segments : Nat) :
    (atMost name call segments).Binding call fun _ => call.segments.length ≤ segments :=
  (meets_require fun _ _ => Or.inl ⟨_, _, _, rfl⟩).imp fun _ h => of_decide_eq_true h

theorem binding_required (position : Nat) (part : Part) :
    (required call position part).Binding call fun t => call.param? position = some t :=
  meets_required ((Fault.missing part).breaksBind_of_kind_ne call call.normalized nofun)

theorem binding_tableAt (position : Nat) (part : Part) :
    (tableAt call position part).Binding call fun t => call.param? position = some t :=
  meets_tableAt ((Fault.missing part).breaksBind_of_kind_ne call call.normalized nofun)
    fun table _ => (Fault.tableName part table).breaksBind_of_kind_ne call table nofun

theorem binding_requireBind (part : Part) {t : Text} (hmem : t ∈ call.conditions) :
    (require (hasBind t) (.noBind part) t).Binding call fun _ => hasBind t = true :=
  meets_require fun h _ => Or.inr ⟨hmem, h⟩

theorem binding_askDynamic (table : Text) {condition : Text}
    (hmem : ∀ clause ∈ clauses condition, clause.text ∈ call.conditions) :
    (askDynamic table condition).Binding call
      fun _ => ∀ clause ∈ clauses condition, hasBind clause.text = true := by
  have hclauses : ((clauses condition).forM (acceptClause condition)).Binding call
      fun _ => ∀ clause ∈ clauses condition, hasBind clause.text = true := by
    refine meets_forM_all fun clause hclause => ?_
    have hempty := Fault.emptyClause.breaksBind_of_kind_ne call condition nofun
    exact (meets_require fun _ => hempty).bind
      fun _ _ => binding_requireBind .dynamicClause (hmem clause hclause)
  exact hclauses.bind fun _ hall => (meets_ask trivial).imp fun _ _ => hall

/-- Every condition of the call has a bind variable, and there is one. -/
def AllBind (call : Call) : Prop :=
  call.conditions ≠ [] ∧ ∀ t ∈ call.conditions, hasBind t = true

theorem clauses_ne_nil (condition : Text) : clauses condition ≠ [] :=
  fun h => splitFrom_ne_nil .start condition (List.map_eq_nil_iff.mp h)

theorem allBind_of_param? (hthere : (call.param? 2).isSome = true ∨ (call.param? 3).isSome = true)
    (hcondition : ∀ t, call.param? 2 = some t → hasBind t = true)
    (hdynamic : ∀ t, call.param? 3 = some t → ∀ clause ∈ clauses t, hasBind clause.text = true) :
    AllBind call := by
  refine ⟨?_, ?_⟩
  · intro hnone
    obtain ⟨hleft, hright⟩ := List.append_eq_nil_iff.mp hnone
    rcases hthere with hthere | hthere
    · obtain ⟨t, ht⟩ := Option.isSome_iff_exists.mp hthere
      rw [ht] at hleft
      cases hleft
    · obtain ⟨t, ht⟩ := Option.isSome_iff_exists.mp hthere
      rw [ht, Option.toList_some, List.flatMap_singleton, List.map_eq_nil_iff] at hright
      exact clauses_ne_nil t hright
  · intro t ht
    rcases List.mem_append.mp ht with ht | ht
    · exact hcondition t (Option.mem_toList.mp ht)
    · obtain ⟨dynamic, hmem, ht⟩ := List.mem_flatMap.mp ht
      obtain ⟨clause, hclause, rfl⟩ := List.mem_map.mp ht
      exact hdynamic dynamic (Option.mem_toList.mp hmem) clause hclause

theorem binding_conditionedRows (table : Text) :
    (conditionedRows call table).Binding call fun _ => AllBind call := by
  have hmissing := (Fault.missing .condition).breaksBind_of_kind_ne call call.normalized nofun
  refine (meets_require fun _ => hmissing).bind fun _ hthere => ?_
  have hcondition : (forPresent (call.param? 2) fun condition => do
      require (hasBind condition) (.noBind .condition) condition
      askCondition table condition).Binding call
        fun _ => ∀ t, call.param? 2 = some t → hasBind t = true := by
    refine meets_forPresent_all fun t ht => ?_
    exact (binding_requireBind .condition (mem_conditions ht)).bind
      fun _ hbind => (meets_ask trivial).imp fun _ _ => hbind
  refine hcondition.bind fun _ hcondition => ?_
  have hdynamic : (forPresent (call.param? 3) (askDynamic table)).Binding call
      fun _ => ∀ t, call.param? 3 = some t → ∀ clause ∈ clauses t, hasBind clause.text = true :=
    meets_forPresent_all fun t ht =>
      binding_askDynamic table fun clause hclause => mem_conditions_of_clause ht hclause
  refine hdynamic.imp fun _ hdynamic => ?_
  exact allBind_of_param? (Bool.or_eq_true_iff.mp hthere) hcondition hdynamic

theorem binding_rows (name : MacroName) (h : call.has .total = false) :
    (rows name call).Binding call fun _ => AllBind call := by
  refine (binding_atMost name 4).bind fun _ _ => ?_
  refine (binding_tableAt 1 .table).bind fun table _ => ?_
  rw [h]
  exact binding_conditionedRows table

theorem binding_batchRows : (batchRows .batchDelete call).Binding call fun _ => AllBind call := by
  refine (binding_atMost .batchDelete 3).bind fun _ hcount => ?_
  refine (binding_tableAt 1 .table).bind fun table _ => ?_
  refine (binding_required 2 .condition).bind fun condition hcondition => ?_
  refine (binding_requireBind .condition (mem_conditions hcondition)).bind fun _ hbind => ?_
  refine (meets_ask trivial).imp fun _ _ => ?_
  -- A fourth segment is not admitted, so there is no dynamic condition.
  have hnone : call.param? 3 = none := by
    rw [Call.param?, List.getElem?_eq_none hcount]
    rfl
  refine allBind_of_param? (Or.inl (by rw [hcondition]; rfl)) ?_ ?_
  · intro t ht
    rw [hcondition] at ht
    cases ht
    exact hbind
  · intro t ht
    rw [hnone] at ht
    cases ht

end Plan

open Plan in
theorem MacroName.exists_binding_plan {name : MacroName} {call : Call} (h : name.AsksBind call) :
    ∃ family, name.family? = some family ∧
      (family.plan name call).Binding call fun _ => AllBind call := by
  rcases h with ⟨rfl | rfl, htotal⟩ | rfl
  · exact ⟨.existsRow, rfl, binding_rows .existsRow htotal⟩
  · exact ⟨.delete, rfl, binding_rows .delete htotal⟩
  · exact ⟨.batchCondition, rfl, binding_batchRows⟩

namespace Fault

theorem message_noBind (part : Part) :
    (noBind part).message = part.words ++ " must reference a bind variable" := rfl

theorem message_tooMany (name : MacroName) (allowed found : Nat) :
    (tooMany name allowed found).message
      = "[" ++ name.spelling ++ "] accepts at most " ++ Nat.toDigits 10 allowed
        ++ " parameter(s), found " ++ Nat.toDigits 10 found := rfl

/-- The wording that asks for a bind variable is not that of the number of parameters, which ends in
a digit. -/
theorem message_tooMany_ne (name : MacroName) (allowed found : Nat) (part : Part) :
    (tooMany name allowed found).message ≠ (noBind part).message := by
  obtain ⟨c, hc⟩ : ∃ c, (Nat.toDigits 10 found).getLast? = some c :=
    ⟨_, List.getLast?_eq_some_getLast Nat.toDigits_ne_nil⟩
  have hmany : (tooMany name allowed found).message.getLast? = some c := by
    rw [message_tooMany, List.getLast?_append, hc]
    rfl
  have hbind : (noBind part).message.getLast? = some 'e' := by
    rw [message_noBind, List.getLast?_append]
    rfl
  have hdigit : c.isDigit = true :=
    Nat.isDigit_of_mem_toDigits (by decide) (by decide) (List.mem_of_getLast? hc)
  intro h
  rw [h, hbind] at hmany
  cases hmany
  cases hdigit

end Fault

theorem check_binds {family : Family} {name : MacroName} {call : Call} (oracle : Oracle)
    (h : (family.plan name call).Binding call fun _ => Plan.AllBind call) :
    ((family.check name call oracle).diagnostic = none → Plan.AllBind call) ∧
    ∀ d part, (family.check name call oracle).diagnostic = some d → d.kind = .rule →
      d.message = (Fault.noBind part).message →
        ∃ context ∈ call.conditions, d.context = some context ∧ hasBind context = false := by
  rcases h.outcome oracle [] with
    ⟨a, hall, hout⟩ | ⟨fault, context, hfault, hout⟩ | ⟨probe, failure, -, -, -, -, hout⟩
  · have hnone := diagnostic_of_ok hout name.usage?
    refine ⟨fun _ => hall, fun d part hd => ?_⟩
    exact absurd (hnone.symm.trans hd) nofun
  · have hsome := diagnostic_of_error hout name.usage?
    refine ⟨fun hnone => absurd (hsome.symm.trans hnone) nofun, ?_⟩
    intro d part hd hkind hmessage
    obtain rfl := Option.some.inj (hsome.symm.trans hd)
    rcases hfault hkind with ⟨found, allowed, count, rfl⟩ | ⟨hmem, hbind⟩
    · exact absurd hmessage (Fault.message_tooMany_ne found allowed count part)
    · exact ⟨context, hmem, rfl, hbind⟩
  · have hsome := diagnostic_of_error hout name.usage?
    refine ⟨fun hnone => absurd (hsome.symm.trans hnone) nofun, ?_⟩
    intro d part hd hkind
    obtain rfl := Option.some.inj (hsome.symm.trans hd)
    cases hkind

/-- **Conditions are admitted for the bind variables they reference.** What the rule sees are the
references outside strings, and if no comment opens, those are the references in the code. A literal
that has to have them and is valid has them in all its conditions; if the lack of one is reported,
the text that is shown is a condition without any. -/
theorem validate_conditions :
    (∀ t, hasBind t = true ↔ References t) ∧
    (∀ t, CommentFree t → (hasBind t = true ↔ ReferencesWhere InCode t)) ∧
    ∀ (oracle : Oracle) (raw : Text) (name : MacroName) (call : Call),
      resolve raw = .ok (name, call) → name.AsksBind call →
        ((validate oracle raw).diagnostic = none →
          call.conditions ≠ [] ∧ ∀ t ∈ call.conditions, References t) ∧
        ∀ d part, (validate oracle raw).diagnostic = some d → d.kind = .rule →
          d.message = (Fault.noBind part).message →
            ∃ context ∈ call.conditions, d.context = some context ∧ ¬References context := by
  refine ⟨fun t => hasBind_iff_references, fun t => hasBind_iff_inCode, ?_⟩
  intro oracle raw name call hres hasks
  obtain ⟨family, hfamily, hplan⟩ := MacroName.exists_binding_plan hasks
  have hval : validate oracle raw = family.check name call oracle := by
    simp only [validate, hres, hfamily]
  obtain ⟨hvalid, hreport⟩ := check_binds oracle hplan
  rw [hval]
  constructor
  · intro hnone
    obtain ⟨hne, hall⟩ := hvalid hnone
    exact ⟨hne, fun t ht => hasBind_iff_references.mp (hall t ht)⟩
  · intro d part hd hkind hmessage
    obtain ⟨context, hmem, hcontext, hbind⟩ := hreport d part hd hkind hmessage
    refine ⟨context, hmem, hcontext, fun href => ?_⟩
    rw [hasBind_iff_references.mpr href] at hbind
    cases hbind

/-- A deletion with a cast and a variable in its condition is valid. One with a variable in a string
is refused, and its condition is shown. -/
theorem validate_conditions_of_delete :
    (hasBind "a = '/*' or b = :b" = true ↔ ReferencesWhere InCode "a = '/*' or b = :b") ∧
    References "a::int = :a" ∧
    ∃ d, (validate .lenient "[delete][t][a = ':a']".toList).diagnostic = some d ∧
      d.context = some "a = ':a'".toList ∧ ¬References "a = ':a'" := by
  obtain ⟨-, hcode, hvalidate⟩ := validate_conditions
  refine ⟨hcode _ (by decide), ?_, ?_⟩
  · let raw : Text := "[delete][t][a::int = :a]"
    let call : Call := ⟨raw, raw, [], ["delete", "t", "a::int = :a"], false⟩
    have hres : resolve raw = .ok (.delete, call) := resolve_of_toOption (by decide +kernel)
    have hvalid := (hvalidate .lenient raw .delete call hres (by decide)).1 (by decide +kernel)
    exact hvalid.2 _ (by decide)
  · let raw : Text := "[delete][t][a = ':a']"
    let call : Call := ⟨raw, raw, [], ["delete", "t", "a = ':a'"], false⟩
    have hres : resolve raw = .ok (.delete, call) := resolve_of_toOption (by decide +kernel)
    have hseen : (validate .lenient raw).diagnostic.map (fun d => (d.kind, d.message))
        = some (.rule, (Fault.noBind .condition).message) := by
      decide +kernel
    obtain ⟨d, hd, hpair⟩ := Option.map_eq_some_iff.mp hseen
    obtain ⟨hkind, hmessage⟩ := Prod.mk.inj hpair
    obtain ⟨context, hmem, hcontext, hnone⟩ :=
      (hvalidate .lenient raw .delete call hres (by decide)).2 d .condition hd hkind hmessage
    obtain rfl := List.mem_singleton.mp hmem
    exact ⟨d, hd, hcontext, hnone⟩

/-- A comment is read like any other text: a variable in a comment is seen, and one behind a comment
with a quote is not. Under the flag `<T>` there is no condition to look at. -/
theorem validate_conditions_of_comment :
    (hasBind "/*:a*/" = true ∧ ¬ReferencesWhere InCode "/*:a*/") ∧
    (hasBind "/*'*/:a" = false ∧ ReferencesWhere InCode "/*'*/:a") ∧
    (validate .lenient "[delete][t][/*:a*/]".toList).diagnostic = none ∧
    ((validate .lenient "[delete][t][/*'*/:a]".toList).diagnostic.map Diagnostic.message
      = some (Fault.noBind .condition).message) ∧
    (validate .lenient "[delete]<T>[t][delete from t]".toList).diagnostic = none ∧
    ¬ReferencesWhere InCode "delete from t" := by
  decide +kernel

end MacroLint
