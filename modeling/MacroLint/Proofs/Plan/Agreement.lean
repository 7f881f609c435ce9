import MacroLint.Validation

/-!
# Plans that agree

Two literals may be written differently and mean the same. Their plans then put the same statements
to every oracle and find the same faults, and only where a diagnostic echoes the literal, or a part
of it, can the writing be seen. `Plan.Agree` says so of two plans: they are the same tree, but for
contexts that `echo` relates, and for the values they end with.

The rules follow those of a contract (`Plan.Meets`), on two sides at once. What an oracle makes of
two plans that agree is said once, in `Agree.trace`.
-/

set_option autoImplicit false

namespace MacroLint

/-- The contexts are the same, or an echo of two writings. -/
def SameUpTo (echo : Text → Text → Prop) (context context' : Text) : Prop :=
  context = context' ∨ echo context context'

/-- The diagnostics are the same, but for an echo in the context. -/
structure Diagnostic.Agree (echo : Text → Text → Prop) (d d' : Diagnostic) : Prop where
  kind : d.kind = d'.kind
  message : d.message = d'.message
  detail : d.detail = d'.detail
  usage : d.usage = d'.usage
  context : Option.Rel (SameUpTo echo) d.context d'.context

/-- The same statements are asked, and both runs end well or with diagnostics that agree. -/
structure Run.Agree (echo : Text → Text → Prop) (run run' : Run) : Prop where
  statements : run.statements = run'.statements
  diagnostic : Option.Rel (Diagnostic.Agree echo) run.diagnostic run'.diagnostic

theorem eq_of_rel {α : Type} {r : α → α → Prop} (hr : ∀ a b, r a b → a = b) {a b : Option α}
    (h : Option.Rel r a b) : a = b := by
  cases h with
  | none => rfl
  | some hab => exact congrArg some (hr _ _ hab)

/-- Where an echo is the text itself, nothing can differ. -/
theorem Diagnostic.Agree.eq {d d' : Diagnostic} (h : d.Agree Eq d') : d = d' := by
  have hcontext : d.context = d'.context := eq_of_rel (fun _ _ hsame => hsame.elim id id) h.context
  cases d
  cases d'
  congr
  · exact h.kind
  · exact h.message
  · exact h.detail
  · exact h.usage

theorem Run.Agree.eq {run run' : Run} (h : run.Agree Eq run') : run = run' := by
  have hdiagnostic := eq_of_rel (fun _ _ hd => Diagnostic.Agree.eq hd) h.diagnostic
  cases run
  cases run'
  congr
  exact h.statements

namespace Plan

open Literal

variable {α β γ δ : Type} {echo : Text → Text → Prop}

/-- The plans branch alike and ask the same statements. They end at the same places, with values
that `R` relates or with diagnostics that agree. -/
inductive Agree (echo : Text → Text → Prop) (R : α → β → Prop) : Plan α → Plan β → Prop where
  | done {a : α} {b : β} (h : R a b) : Agree echo R (done a) (done b)
  | stop {d d' : Diagnostic} (h : d.Agree echo d') : Agree echo R (stop d) (stop d')
  | put {statement : Text} {answered : Option Failure → Plan α}
      {answered' : Option Failure → Plan β}
      (h : ∀ answer, Agree echo R (answered answer) (answered' answer)) :
      Agree echo R (put statement answered) (put statement answered')

/-! ## 1. The rules -/

theorem Agree.bind {R : α → β → Prop} {S : γ → δ → Prop} {p : Plan α} {p' : Plan β}
    {f : α → Plan γ} {f' : β → Plan δ} (hp : Agree echo R p p')
    (hf : ∀ a b, R a b → Agree echo S (f a) (f' b)) : Agree echo S (p >>= f) (p' >>= f') := by
  induction hp with
  | done h => exact hf _ _ h
  | stop h => exact .stop h
  | put h ih => exact .put ih

/-- Where the first plans end with the same value, what follows has to agree for one value only. -/
theorem Agree.bind_eq {S : γ → δ → Prop} {p p' : Plan α} {f : α → Plan γ} {f' : α → Plan δ}
    (hp : Agree echo Eq p p') (hf : ∀ a, Agree echo S (f a) (f' a)) :
    Agree echo S (p >>= f) (p' >>= f') := by
  apply hp.bind
  intro a b hab
  rw [← hab]
  exact hf a

theorem agree_fail {R : α → β → Prop} {fault : Fault} {context context' : Text}
    (h : SameUpTo echo context context') :
    Agree echo R (fail fault context) (fail fault context') :=
  .stop ⟨rfl, rfl, rfl, rfl, .some h⟩

theorem agree_ask {probe probe' : Probe} (hs : probe.statement = probe'.statement)
    (hp : probe.part = probe'.part) (hf : SameUpTo echo probe.fragment probe'.fragment) :
    Agree echo Eq (ask probe) (ask probe') := by
  unfold ask
  rw [hs]
  refine .put fun answer => ?_
  cases answer with
  | none => exact .done rfl
  | some failure =>
    refine .stop ⟨rfl, ?_, rfl, rfl, .some hf⟩
    show (Fault.rejected probe.part).message = (Fault.rejected probe'.part).message
    rw [hp]

theorem agree_require {test : Bool} {fault : Fault} {context context' : Text}
    (h : SameUpTo echo context context') :
    Agree echo Eq (require test fault context) (require test fault context') := by
  cases test with
  | true => exact .done rfl
  | false => exact agree_fail h

theorem Agree.refl (p : Plan α) : Agree echo Eq p p := by
  induction p with
  | done a => exact .done rfl
  | stop d =>
    refine .stop ⟨rfl, rfl, rfl, rfl, ?_⟩
    cases d.context with
    | none => exact .none
    | some context => exact .some (Or.inl rfl)
  | put statement answered ih => exact .put ih

/-! ## 2. The steps that plans share -/

variable {call call' : Call}

theorem agree_atMost (name : MacroName) (segments : Nat)
    (hlength : call.segments.length = call'.segments.length)
    (hecho : echo call.normalized call'.normalized) :
    Agree echo Eq (atMost name call segments) (atMost name call' segments) := by
  unfold atMost
  rw [hlength]
  exact agree_require (Or.inr hecho)

theorem agree_required {position : Nat} (part : Part)
    (h : call.param? position = call'.param? position)
    (hecho : echo call.normalized call'.normalized) :
    Agree echo Eq (required call position part) (required call' position part) := by
  unfold required
  rw [h]
  cases call'.param? position with
  | none => exact agree_fail (Or.inr hecho)
  | some t => exact .done rfl

theorem agree_tableAt {position : Nat} (part : Part)
    (h : call.param? position = call'.param? position)
    (hecho : echo call.normalized call'.normalized) :
    Agree echo Eq (tableAt call position part) (tableAt call' position part) := by
  apply (agree_required part h hecho).bind_eq
  intro table
  exact Agree.refl _

/-! ## 3. What an oracle makes of plans that agree -/

theorem Agree.trace {R : α → β → Prop} {p : Plan α} {p' : Plan β} (h : Agree echo R p p')
    (oracle : Oracle) (asked : List Text) :
    (p.trace oracle asked).statements = (p'.trace oracle asked).statements ∧
    ((∃ a b, R a b ∧ (p.trace oracle asked).outcome = .ok a ∧
        (p'.trace oracle asked).outcome = .ok b) ∨
      ∃ d d', d.Agree echo d' ∧ (p.trace oracle asked).outcome = .error d ∧
        (p'.trace oracle asked).outcome = .error d') := by
  induction h generalizing asked with
  | done h => exact ⟨rfl, Or.inl ⟨_, _, h, rfl, rfl⟩⟩
  | stop h => exact ⟨rfl, Or.inr ⟨_, _, h, rfl, rfl⟩⟩
  | put h ih => exact ih _ _

theorem Agree.run {p p' : Plan Unit} (h : Agree echo Eq p p') (oracle : Oracle)
    (usage : Option Usage) :
    ((p.run oracle).explain usage).Agree echo ((p'.run oracle).explain usage) := by
  obtain ⟨hstatements, hend⟩ := h.trace oracle []
  refine ⟨hstatements, ?_⟩
  rcases hend with ⟨_, _, -, hok, hok'⟩ | ⟨d, d', hd, herror, herror'⟩
  · simp only [Run.explain, Plan.run, Trace.run, hok, hok', Option.map_none]
    exact .none
  · simp only [Run.explain, Plan.run, Trace.run, herror, herror', Option.map_some]
    refine .some ⟨hd.kind, hd.message, hd.detail, ?_, hd.context⟩
    rw [Diagnostic.usage_orUsage, Diagnostic.usage_orUsage, hd.usage]

end Plan
end MacroLint
