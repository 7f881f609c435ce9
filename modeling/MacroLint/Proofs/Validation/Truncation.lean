import MacroLint.Proofs.Plan.Families
import MacroLint.Proofs.Validation.Resolution

/-!
# An oracle cuts a run short and does nothing else

A literal fixes a row of statements and a way to end: those of the run in which everything is
accepted. An oracle can stop that run at a statement, and then the report is about this rejection.
It cannot make the run ask anything else, skip a statement, or end in another way.

The content is in the plans and not in `Plan.trace`: a plan is free to branch on each answer, and
`Meets` says of the plans here that the branches for a rejection are dead ends
(`Proofs/Plan/Families`). Given that, the two halves below are inductions over a plan at an
arbitrary place in the conversation, in terms of the answer that an oracle gives to the `k`-th
statement of a row *when the row is asked in order*. That is the only notion of verdict that makes
sense for an oracle with a memory: its answer to a statement depends on what came before.
-/

set_option autoImplicit false

namespace MacroLint

/-- The answer of an oracle to the statement at place `k` of a row that it is asked in order; past
the end of the row nothing is asked and nothing rejected. -/
def Oracle.verdict (oracle : Oracle) (statements : List Text) (k : Nat) : Option Failure :=
  statements[k]?.bind (oracle (statements.take k))

namespace Plan

variable {α : Type} {F : Fault → Text → Prop} {A : Probe → Prop} {Q : α → Prop}

/-- The statement that comes next is the one behind those that were asked. -/
theorem verdict_trace_put (oracle : Oracle) (asked : List Text) (statement : Text)
    (p : Plan α) :
    oracle.verdict (p.trace .lenient (asked ++ [statement])).statements asked.length
      = oracle asked statement := by
  obtain ⟨rest, hrest⟩ := prefix_trace p .lenient (asked ++ [statement])
  rw [← hrest]
  simp [Oracle.verdict, List.append_assoc]

/-- If every further statement of the undisturbed trace is accepted, the trace is undisturbed. -/
theorem Meets.trace_eq {p : Plan α} (hp : p.Meets F A Q) (oracle : Oracle) (asked : List Text)
    (hacc : ∀ k, asked.length ≤ k →
      oracle.verdict (p.trace .lenient asked).statements k = none) :
    p.trace oracle asked = p.trace .lenient asked := by
  induction p generalizing asked with
  | done a => rfl
  | stop d => rfl
  | put statement answered ih =>
    simp only [trace, Oracle.lenient] at hacc ⊢
    have hfirst : oracle asked statement = none := by
      rw [← verdict_trace_put oracle asked statement (answered none)]
      exact hacc asked.length (Nat.le_refl _)
    rw [hfirst]
    refine ih none hp.2 _ fun k hk => hacc k ?_
    simp at hk
    omega

/-- If the further statements before place `k` are accepted and the one at `k` is not, the trace
ends there, with the rejection. -/
theorem Meets.trace_eq_take {p : Plan α} (hp : p.Meets F A Q) (oracle : Oracle)
    (asked : List Text) {k : Nat} {failure : Failure} (hle : asked.length ≤ k)
    (hacc : ∀ j, asked.length ≤ j → j < k →
      oracle.verdict (p.trace .lenient asked).statements j = none)
    (hrej : oracle.verdict (p.trace .lenient asked).statements k = some failure) :
    ∃ probe, A probe ∧ p.trace oracle asked
      = ⟨(p.trace .lenient asked).statements.take (k + 1), .error (probe.rejected failure)⟩ := by
  induction p generalizing asked with
  | done a | stop d =>
    -- Nothing is asked, so nothing can be rejected at `k`.
    simp [trace, Oracle.verdict, List.getElem?_eq_none hle] at hrej
  | put statement answered ih =>
    obtain ⟨⟨probe, hA, hs, hdead⟩, hnone⟩ := hp
    simp only [trace, Oracle.lenient] at hacc hrej ⊢
    rcases Nat.eq_or_lt_of_le hle with rfl | hlt
    · -- This is the statement that is rejected.
      rw [verdict_trace_put] at hrej
      refine ⟨probe, hA, ?_⟩
      rw [hrej, hdead failure]
      obtain ⟨rest, hrest⟩ := prefix_trace (answered none) .lenient (asked ++ [statement])
      rw [← hrest, List.take_left' (by simp)]
      rfl
    · have hfirst : oracle asked statement = none := by
        rw [← verdict_trace_put oracle asked statement (answered none)]
        exact hacc asked.length (Nat.le_refl _) hlt
      rw [hfirst]
      refine ih none hnone (asked ++ [statement]) ?_ (fun j hj => hacc j ?_) hrej
      · simpa using Nat.succ_le_of_lt hlt
      · simp at hj
        omega

end Plan

/-! ## Runs -/

/-- What depends on the oracle can only be cut short by it: the run in which everything is accepted
does not end with a rejection, a run in which its statements are all accepted is this run, and
otherwise the first rejection ends the run behind the statement that is rejected. -/
structure OnlyCutShort (run : Oracle → Run) : Prop where
  end_ne : (run .lenient).diagnostic.map Diagnostic.kind ≠ some .statement
  accepted : ∀ oracle : Oracle,
    (∀ k < (run .lenient).statements.length,
      oracle.verdict (run .lenient).statements k = none) →
    run oracle = run .lenient
  rejected : ∀ (oracle : Oracle) (k : Nat) (failure : Failure),
    k < (run .lenient).statements.length →
    (∀ j < k, oracle.verdict (run .lenient).statements j = none) →
    oracle.verdict (run .lenient).statements k = some failure →
    (run oracle).statements = (run .lenient).statements.take (k + 1) ∧
    ∃ d, (run oracle).diagnostic = some d ∧ d.kind = .statement ∧ d.detail = some failure.cause

theorem Plan.Steady.onlyCutShort {p : Plan Unit} (hp : p.Steady) (usage : Option Usage) :
    OnlyCutShort fun oracle => (p.run oracle).explain usage where
  end_ne := by
    rcases hp.outcome .lenient [] with
      ⟨a, -, hout⟩ | ⟨fault, context, hF, hout⟩ | ⟨_, _, _, _, hans, _⟩
    · simp [Plan.run, diagnostic_of_ok hout]
    · simpa [Plan.run, diagnostic_of_error hout] using hF.kind_ne
    · -- The lenient oracle rejects nothing.
      cases hans
  accepted := by
    intro oracle hacc
    have htrace := hp.trace_eq oracle [] fun k _ => ?_
    · simp only [Plan.run, htrace]
    · rcases Nat.lt_or_ge k (p.trace .lenient []).statements.length with hk | hk
      · exact hacc k hk
      · simp [Oracle.verdict, List.getElem?_eq_none hk]
  rejected := by
    intro oracle k failure hk hacc hrej
    obtain ⟨probe, -, htrace⟩ :=
      hp.trace_eq_take oracle [] (Nat.zero_le k) (fun j _ hj => hacc j hj) hrej
    refine ⟨by simp only [Plan.run, htrace]; rfl, (probe.rejected failure).orUsage usage, ?_⟩
    exact ⟨diagnostic_of_error (by rw [htrace]) usage, rfl, rfl⟩

theorem onlyCutShort_of_unasked (d : Option Diagnostic)
    (hd : d.map Diagnostic.kind ≠ some .statement) : OnlyCutShort fun _ => ⟨[], d⟩ where
  end_ne := hd
  accepted := fun _ _ => rfl
  rejected := fun _ _ _ hk => absurd hk (Nat.not_lt_zero _)

/-- **An oracle only cuts a run short**: the run of a literal, and the run of the checks of any
family on any macro and any call, also on calls that no literal reads as. -/
theorem oracle_only_cuts_short :
    (∀ raw : Text, OnlyCutShort fun oracle => validate oracle raw) ∧
    ∀ (family : Family) (name : MacroName) (call : Literal.Call),
      OnlyCutShort fun oracle => family.check name call oracle := by
  have hcheck (family : Family) (name : MacroName) (call : Literal.Call) :
      OnlyCutShort fun oracle => family.check name call oracle :=
    (family.steady_plan name call).onlyCutShort name.usage?
  refine ⟨fun raw => ?_, hcheck⟩
  -- Which of the three ways a validation goes is settled before the oracle is asked.
  unfold validate
  cases h : resolve raw with
  | error d =>
    refine onlyCutShort_of_unasked (some d) ?_
    rcases (refused_of_resolve h).kind with hk | hk <;> simp [hk]
  | ok found =>
    obtain ⟨name, call⟩ := found
    cases hfam : name.family? with
    | none => simpa only [hfam] using onlyCutShort_of_unasked none (by simp)
    | some family => simpa only [hfam] using hcheck family name call

end MacroLint
