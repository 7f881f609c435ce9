import MacroLint.Proofs.Fragment.References
import MacroLint.Validation

/-!
# Plans that nothing is rejected of

What a family admits is seen when the oracle accepts everything: then a plan has one way to go, and
it is the plan's own. Either it asks some statements and ends with a value (`Yields`), or it asks
some statements and then refuses the call (`Stops`).

Both are relations between a plan, its statements and its end, and there is one `iff` for each step
that plans are made of. So the language of a family and the statements for a call of that language
are read off its plan together, by rewriting, and no proof goes through a trace. Most steps ask
nothing; for these `yields_bind_iff_of_silent` takes the empty row of statements out at once.
-/

set_option autoImplicit false

namespace MacroLint

open Fragment Literal

namespace Plan

variable {α β : Type}

/-! ## 1. The two ways to go -/

/-- The plan asks these statements and ends with this value, if each of them is accepted. -/
def Yields (p : Plan α) (statements : List Text) (a : α) : Prop :=
  p.trace .lenient [] = ⟨statements, .ok a⟩

/-- The plan asks these statements and ends with this diagnostic, although each of them is
accepted. -/
def Stops (p : Plan α) (statements : List Text) (d : Diagnostic) : Prop :=
  p.trace .lenient [] = ⟨statements, .error d⟩

/-- Nothing depends on what was asked before: an oracle that accepts everything has no use for its
memory. -/
theorem trace_lenient (p : Plan α) (asked : List Text) :
    p.trace .lenient asked
      = ⟨asked ++ (p.trace .lenient []).statements, (p.trace .lenient []).outcome⟩ := by
  induction p generalizing asked with
  | done a | stop d => simp [trace]
  | put statement answered ih =>
    show (answered none).trace .lenient (asked ++ [statement]) = _
    rw [ih none (asked ++ [statement])]
    show _ = Trace.mk (asked ++ ((answered none).trace .lenient [statement]).statements)
      ((answered none).trace .lenient [statement]).outcome
    rw [ih none [statement], List.append_assoc]

theorem yields_or_stops (p : Plan α) :
    (∃ statements a, p.Yields statements a) ∨ ∃ statements d, p.Stops statements d := by
  cases hout : (p.trace .lenient []).outcome with
  | ok a => exact Or.inl ⟨(p.trace .lenient []).statements, a, by rw [Yields, ← hout]⟩
  | error d => exact Or.inr ⟨(p.trace .lenient []).statements, d, by rw [Stops, ← hout]⟩

/-! ## 2. Rules for the steps -/

theorem yields_done_iff {a b : α} {statements : List Text} :
    (done a).Yields statements b ↔ a = b ∧ statements = [] := by
  simp [Yields, trace, eq_comm, and_comm]

theorem not_yields_fail {fault : Fault} {context : Text} {statements : List Text} {a : α} :
    ¬(fail fault context).Yields statements a := by
  simp [Yields, fail, trace]

theorem stops_fail (fault : Fault) (context : Text) :
    (fail fault context : Plan α).Stops [] (fault.report context) := rfl

theorem yields_ask_iff {probe : Probe} {statements : List Text} {u : Unit} :
    (ask probe).Yields statements u ↔ statements = [probe.statement] := by
  simp [Yields, ask, trace, Oracle.lenient, eq_comm]

theorem yields_bind_iff {p : Plan α} {f : α → Plan β} {statements : List Text} {b : β} :
    (p >>= f).Yields statements b ↔
      ∃ first a rest, p.Yields first a ∧ (f a).Yields rest b ∧ statements = first ++ rest := by
  unfold Yields
  rw [trace_bind, Trace.andThen]
  cases hp : p.trace .lenient [] with
  | mk first outcome =>
    cases outcome with
    | error d => simp
    | ok a =>
      simp only [Trace.mk.injEq, Except.ok.injEq]
      rw [trace_lenient, Trace.mk.injEq]
      constructor
      · rintro ⟨rfl, hb⟩
        exact ⟨first, a, _, ⟨rfl, rfl⟩, by rw [← hb], rfl⟩
      · rintro ⟨_, _, rest, ⟨rfl, rfl⟩, hf, rfl⟩
        rw [hf]
        exact ⟨rfl, rfl⟩

theorem Stops.bind {p : Plan α} {statements : List Text} {d : Diagnostic} (h : p.Stops statements d)
    (f : α → Plan β) : (p >>= f).Stops statements d := by
  unfold Stops
  rw [trace_bind, h]
  rfl

theorem Yields.bind_stops {p : Plan α} {f : α → Plan β} {first rest : List Text} {a : α}
    {d : Diagnostic} (hp : p.Yields first a) (hf : (f a).Stops rest d) :
    (p >>= f).Stops (first ++ rest) d := by
  unfold Stops
  rw [trace_bind, hp]
  show (f a).trace .lenient first = _
  rw [trace_lenient, hf]

/-- A step whose value settles what it asks. -/
theorem yields_bind_iff_of_asks {R : α → Prop} {asks : α → List Text} {p : Plan α}
    {f : α → Plan β} {statements : List Text} {b : β}
    (hp : ∀ asked a, p.Yields asked a ↔ R a ∧ asked = asks a) :
    (p >>= f).Yields statements b ↔
      ∃ a, R a ∧ ∃ rest, (f a).Yields rest b ∧ statements = asks a ++ rest := by
  rw [yields_bind_iff]
  constructor
  · intro ⟨first, a, rest, hfirst, hrest, hasked⟩
    obtain ⟨ha, rfl⟩ := (hp first a).mp hfirst
    exact ⟨a, ha, rest, hrest, hasked⟩
  · intro ⟨a, ha, rest, hrest, hasked⟩
    exact ⟨asks a, a, rest, (hp (asks a) a).mpr ⟨ha, rfl⟩, hrest, hasked⟩

/-- A step without a value to speak of. -/
theorem yields_then_iff {R : Prop} {first : List Text} {p : Plan Unit} {f : Unit → Plan β}
    {statements : List Text} {b : β} (hp : ∀ asked u, p.Yields asked u ↔ R ∧ asked = first) :
    (p >>= f).Yields statements b ↔
      R ∧ ∃ rest, (f ()).Yields rest b ∧ statements = first ++ rest := by
  rw [yields_bind_iff_of_asks hp]
  constructor
  · intro ⟨_, h⟩
    exact h
  · intro h
    exact ⟨(), h⟩

/-- A step that asks nothing leaves no trace but its value. -/
theorem yields_bind_iff_of_silent {R : α → Prop} {p : Plan α} {f : α → Plan β}
    {statements : List Text} {b : β} (hp : ∀ asked a, p.Yields asked a ↔ R a ∧ asked = []) :
    (p >>= f).Yields statements b ↔ ∃ a, R a ∧ (f a).Yields statements b := by
  rw [yields_bind_iff_of_asks hp]
  simp

/-- A step that asks nothing and has no value to speak of is a test. -/
theorem yields_then_iff_of_silent {R : Prop} {p : Plan Unit} {f : Unit → Plan β}
    {statements : List Text} {b : β} (hp : ∀ asked u, p.Yields asked u ↔ R ∧ asked = []) :
    (p >>= f).Yields statements b ↔ R ∧ (f ()).Yields statements b := by
  rw [yields_then_iff hp]
  simp

theorem yields_require_iff {test : Bool} {fault : Fault} {context : Text} {statements : List Text}
    {u : Unit} :
    (require test fault context).Yields statements u ↔ test = true ∧ statements = [] := by
  unfold require
  split
  · rename_i htest
    simp [yields_done_iff, htest]
  · rename_i htest
    simp [not_yields_fail, htest]

theorem stops_require {test : Bool} (h : test = false) (fault : Fault) (context : Text) :
    (require test fault context).Stops [] (fault.report context) := by
  rw [require, h]
  exact stops_fail fault context

theorem yields_require_bind_iff {test : Bool} {fault : Fault} {context : Text} {f : Unit → Plan β}
    {statements : List Text} {b : β} :
    (require test fault context >>= f).Yields statements b ↔
      test = true ∧ (f ()).Yields statements b :=
  yields_then_iff_of_silent fun _ _ => yields_require_iff

/-! ## 3. Parameters -/

section

variable {call : Call} {position : Nat} {part : Part} {statements : List Text}

/-- Only a segment that is there has a text. -/
theorem lt_length_of_param? {t : Text} (h : call.param? position = some t) :
    position < call.segments.length := by
  refine Nat.lt_of_not_le fun hle => ?_
  rw [Call.param?, List.getElem?_eq_none hle] at h
  cases h

theorem yields_atMost_bind_iff {name : MacroName} {segments : Nat} {f : Unit → Plan β} {b : β} :
    (atMost name call segments >>= f).Yields statements b ↔
      call.segments.length ≤ segments ∧ (f ()).Yields statements b := by
  rw [atMost, yields_require_bind_iff, decide_eq_true_iff]

theorem yields_required_iff {t : Text} :
    (required call position part).Yields statements t ↔
      call.param? position = some t ∧ statements = [] := by
  unfold required
  cases hparam : call.param? position with
  | none => simp [not_yields_fail]
  | some found => simp [yields_done_iff]

theorem yields_required_bind_iff {f : Text → Plan β} {b : β} :
    (required call position part >>= f).Yields statements b ↔
      ∃ t, call.param? position = some t ∧ (f t).Yields statements b :=
  yields_bind_iff_of_silent fun _ _ => yields_required_iff

theorem yields_tableAt_iff {table : Text} :
    (tableAt call position part).Yields statements table ↔
      (call.param? position = some table ∧ Text.isWord table = true) ∧ statements = [] := by
  rw [tableAt, yields_required_bind_iff]
  simp only [yields_require_bind_iff]
  constructor
  · intro ⟨t, hparam, hword, hdone⟩
    obtain ⟨rfl, hnil⟩ := yields_done_iff.mp hdone
    exact ⟨⟨hparam, hword⟩, hnil⟩
  · intro ⟨⟨hparam, hword⟩, hnil⟩
    exact ⟨table, hparam, hword, yields_done_iff.mpr ⟨rfl, hnil⟩⟩

theorem yields_tableAt_bind_iff {f : Text → Plan β} {b : β} :
    (tableAt call position part >>= f).Yields statements b ↔
      ∃ table, (call.param? position = some table ∧ Text.isWord table = true) ∧
        (f table).Yields statements b :=
  yields_bind_iff_of_silent fun _ _ => yields_tableAt_iff

end

/-! ## 4. Optional parameters and clauses -/

/-- A parameter that is there has to be admitted, and gives its statement; one that is not there
gives none. -/
theorem yields_forPresent_iff {R : α → Prop} {asks : α → Text} {a : Option α}
    {plan : α → Plan Unit} {statements : List Text} {u : Unit}
    (h : ∀ x asked v, (plan x).Yields asked v ↔ R x ∧ asked = [asks x]) :
    (forPresent a plan).Yields statements u ↔
      (∀ x ∈ a, R x) ∧ statements = a.toList.map asks := by
  cases a with
  | none => simp [forPresent, yields_done_iff]
  | some x => simp [forPresent, h]

/-- An optional parameter that is asked as it is. -/
theorem yields_forAsk_iff {probe : α → Probe} {a : Option α} {statements : List Text} {u : Unit} :
    (forPresent a fun x => ask (probe x)).Yields statements u ↔
      statements = a.toList.map fun x => (probe x).statement := by
  cases a with
  | none => simp [forPresent, yields_done_iff]
  | some x => simp [forPresent, yields_ask_iff]

theorem yields_forAsk_bind_iff {probe : α → Probe} {a : Option α} {f : Unit → Plan β}
    {statements : List Text} {b : β} :
    ((forPresent a fun x => ask (probe x)) >>= f).Yields statements b ↔
      ∃ rest, (f ()).Yields rest b ∧
        statements = (a.toList.map fun x => (probe x).statement) ++ rest := by
  have hask (asked : List Text) (v : Unit) :
      (forPresent a fun x => ask (probe x)).Yields asked v ↔
        True ∧ asked = a.toList.map fun x => (probe x).statement := by
    rw [yields_forAsk_iff, true_and]
  rw [yields_then_iff hask, true_and]

theorem yields_forCondition_bind_iff {table : Text} {condition : Option Text} {f : Unit → Plan β}
    {statements : List Text} {b : β} :
    (forPresent condition (askCondition table) >>= f).Yields statements b ↔
      ∃ rest, (f ()).Yields rest b ∧
        statements = condition.toList.map (whereStatement table) ++ rest :=
  yields_forAsk_bind_iff

theorem yields_forM_iff {R : α → Prop} {items : List α} {plan : α → Plan Unit}
    {statements : List Text} {u : Unit}
    (h : ∀ x asked v, (plan x).Yields asked v ↔ R x ∧ asked = []) :
    (items.forM plan).Yields statements u ↔ (∀ x ∈ items, R x) ∧ statements = [] := by
  induction items with
  | nil =>
    show (done ()).Yields statements u ↔ _
    simp [yields_done_iff]
  | cons x rest ih =>
    show (plan x >>= fun _ => rest.forM plan).Yields statements u ↔ _
    rw [yields_then_iff_of_silent (h x), ih, List.forall_mem_cons, and_assoc]

theorem yields_acceptClause_iff {condition : Text} {clause : Clause} {statements : List Text}
    {u : Unit} :
    (acceptClause condition clause).Yields statements u ↔
      (clause.text ≠ [] ∧ References clause.text) ∧ statements = [] := by
  rw [acceptClause, yields_require_bind_iff, yields_require_iff, hasBind_iff_references]
  simp [and_assoc]

theorem yields_askDynamic_iff {table condition : Text} {statements : List Text} {u : Unit} :
    (askDynamic table condition).Yields statements u ↔
      (∀ clause ∈ clauses condition, clause.text ≠ [] ∧ References clause.text) ∧
        statements = [whereStatement table (plainCondition condition)] := by
  have hclauses (asked : List Text) (v : Unit) :
      ((clauses condition).forM (acceptClause condition)).Yields asked v ↔
        (∀ clause ∈ clauses condition, clause.text ≠ [] ∧ References clause.text) ∧
          asked = [] :=
    yields_forM_iff fun _ _ _ => yields_acceptClause_iff
  rw [askDynamic, yields_then_iff_of_silent hclauses, yields_ask_iff]

end Plan

/-! ## 5. Checks -/

namespace Family

variable {family : Family} {name : MacroName} {call : Call}

theorem check_of_yields {statements : List Text} {u : Unit}
    (h : (family.plan name call).Yields statements u) :
    family.check name call .lenient = ⟨statements, none⟩ := by
  rw [check, Plan.run, h]
  rfl

theorem check_of_stops {statements : List Text} {d : Diagnostic}
    (h : (family.plan name call).Stops statements d) :
    family.check name call .lenient = ⟨statements, some (d.orUsage name.usage?)⟩ := by
  rw [check, Plan.run, h]
  rfl

/-- A plan that is known with its statements gives the language of a family and, for the calls of
the language, what is asked. -/
theorem check_lenient {ι : Type} {L : ι → Prop} {asks : ι → List Text}
    (h : ∀ statements, (family.plan name call).Yields statements () ↔
      ∃ i, L i ∧ statements = asks i) :
    ((family.check name call .lenient).diagnostic = none ↔ ∃ i, L i) ∧
      ∀ i, L i → (family.check name call .lenient).statements = asks i := by
  have hstatements : ∀ i, L i → family.check name call .lenient = ⟨asks i, none⟩ :=
    fun i hi => check_of_yields ((h (asks i)).mpr ⟨i, hi, rfl⟩)
  refine ⟨⟨?_, ?_⟩, fun i hi => by rw [hstatements i hi]⟩
  · intro hnone
    rcases (family.plan name call).yields_or_stops with ⟨asked, _, hyields⟩ | ⟨asked, d, hstops⟩
    · obtain ⟨i, hi, -⟩ := (h asked).mp hyields
      exact ⟨i, hi⟩
    · rw [check_of_stops hstops] at hnone
      cases hnone
  · intro ⟨i, hi⟩
    rw [hstatements i hi]

end Family
end MacroLint
