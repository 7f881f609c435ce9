import MacroLint.Plan.Parameter

/-!
# Contracts of plans

A plan is a tree that may branch on every answer of the oracle, so what it does is known only after
the whole tree has been looked at. `Meets F A Q` is the look at the tree, done once: it says of a
plan that

* it ends with a value only if the value satisfies `Q`,
* it ends of its own accord with a diagnostic only if that reports a fault in a context that `F`
  allows,
* each statement it puts is that of a probe that `A` allows, and **a rejection of the statement ends
  the plan with the diagnostic of that very probe**.

The last clause is the one that the type `Plan` leaves open. It is part of the contract and not a
predicate of its own because every user of a contract needs it: without it a plan has as many
endings as the oracle has answers, with it there is one path through the tree, and rejections only
cut it short.

What follows from a contract is stated for `Plan.trace` at an arbitrary place in the conversation
with the oracle, since that is the form in which an induction over the tree goes through.
-/

set_option autoImplicit false

namespace MacroLint.Plan

variable {α β : Type} {F : Fault → Text → Prop} {A : Probe → Prop}

/-! ## 1. The contract and its rules -/

/-- What a plan may end with and what it may ask; see above. -/
def Meets (F : Fault → Text → Prop) (A : Probe → Prop) (Q : α → Prop) : Plan α → Prop
  | done a => Q a
  | stop d => ∃ fault context, F fault context ∧ d = fault.report context
  | put statement answered =>
    (∃ probe, A probe ∧ probe.statement = statement ∧
      ∀ failure, answered (some failure) = stop (probe.rejected failure)) ∧
    (answered none).Meets F A Q

theorem Meets.bind {Q : α → Prop} {R : β → Prop} {p : Plan α} {f : α → Plan β}
    (hp : p.Meets F A Q) (hf : ∀ a, Q a → (f a).Meets F A R) : (p >>= f).Meets F A R := by
  induction p with
  | done a => exact hf a hp
  | stop d => exact hp
  | put statement answered ih =>
    obtain ⟨⟨probe, hA, hs, hrej⟩, hnone⟩ := hp
    refine ⟨⟨probe, hA, hs, fun failure => ?_⟩, ih none hnone⟩
    -- The rejected branch is a `stop`, and nothing follows a `stop`.
    show answered (some failure) >>= f = stop (probe.rejected failure)
    rw [hrej failure, stop_bind]

theorem meets_done {Q : α → Prop} {a : α} (h : Q a) : (done a).Meets F A Q := h

theorem meets_fail {Q : α → Prop} {fault : Fault} {context : Text} (h : F fault context) :
    (fail fault context : Plan α).Meets F A Q := ⟨fault, context, h, rfl⟩

theorem meets_ask {probe : Probe} (h : A probe) : (ask probe).Meets F A fun _ => True :=
  ⟨⟨probe, h, rfl, fun _ => rfl⟩, trivial⟩

theorem meets_require {test : Bool} {fault : Fault} {context : Text}
    (h : test = false → F fault context) :
    (require test fault context).Meets F A fun _ => test = true := by
  unfold require
  split
  · rename_i htest
    exact meets_done htest
  · rename_i htest
    exact meets_fail (h (Bool.not_eq_true _ ▸ htest))

theorem Meets.mono {Q R : α → Prop} {G : Fault → Text → Prop} {B : Probe → Prop} {p : Plan α}
    (hp : p.Meets F A Q) (hF : ∀ fault context, F fault context → G fault context)
    (hA : ∀ probe, A probe → B probe) (hQ : ∀ a, Q a → R a) : p.Meets G B R := by
  induction p with
  | done a => exact hQ a hp
  | stop d =>
    obtain ⟨fault, context, h, hd⟩ := hp
    exact ⟨fault, context, hF fault context h, hd⟩
  | put statement answered ih =>
    obtain ⟨⟨probe, h, hs, hrej⟩, hnone⟩ := hp
    exact ⟨⟨probe, hA probe h, hs, hrej⟩, ih none hnone⟩

theorem Meets.imp {Q R : α → Prop} {p : Plan α} (hp : p.Meets F A Q) (hQ : ∀ a, Q a → R a) :
    p.Meets F A R :=
  hp.mono (fun _ _ => id) (fun _ => id) hQ

/-- What is made sure of a parameter holds of it if it is there. -/
theorem meets_forPresent_all {P : α → Prop} {a : Option α} {plan : α → Plan Unit}
    (h : ∀ x, a = some x → (plan x).Meets F A fun _ => P x) :
    (forPresent a plan).Meets F A fun _ => ∀ x, a = some x → P x := by
  cases a with
  | none => exact meets_done nofun
  | some x =>
    refine (h x rfl).imp ?_
    intro _ hx y hy
    cases hy
    exact hx

theorem meets_forPresent {a : Option α} {plan : α → Plan Unit}
    (h : ∀ x, a = some x → (plan x).Meets F A fun _ => True) :
    (forPresent a plan).Meets F A fun _ => True :=
  (meets_forPresent_all h).imp fun _ _ => trivial

/-- What is made sure of each item holds of all of them. -/
theorem meets_forM_all {P : α → Prop} {items : List α} {plan : α → Plan Unit}
    (h : ∀ x ∈ items, (plan x).Meets F A fun _ => P x) :
    (items.forM plan).Meets F A fun _ => ∀ x ∈ items, P x := by
  induction items with
  | nil => exact meets_done nofun
  | cons x rest ih =>
    refine Meets.bind (h x List.mem_cons_self) fun _ hx => ?_
    have hrest := ih fun y hy => h y (List.mem_cons_of_mem x hy)
    exact hrest.imp fun _ hall => List.forall_mem_cons.mpr ⟨hx, hall⟩

theorem meets_forM {items : List α} {plan : α → Plan Unit}
    (h : ∀ x ∈ items, (plan x).Meets F A fun _ => True) :
    (items.forM plan).Meets F A fun _ => True :=
  (meets_forM_all h).imp fun _ _ => trivial

theorem meets_required {call : Literal.Call} {position : Nat} {part : Part}
    (h : F (.missing part) call.normalized) :
    (required call position part).Meets F A fun t => call.param? position = some t := by
  unfold required
  split
  · rename_i ht
    exact meets_done ht
  · exact meets_fail h

theorem meets_tableAt {call : Literal.Call} {position : Nat} {part : Part}
    (hmissing : F (.missing part) call.normalized)
    (hname : ∀ table, call.param? position = some table → F (.tableName part table) table) :
    (tableAt call position part).Meets F A fun t => call.param? position = some t := by
  refine (meets_required hmissing).bind fun table htable => ?_
  exact (meets_require fun _ => hname table htable).bind fun _ _ => meets_done htable

/-! ## 2. What a plan that meets a contract does under an oracle -/

/-- What the oracle was asked before stays the beginning of what it was asked. -/
theorem prefix_trace (p : Plan α) (oracle : Oracle) (asked : List Text) :
    asked <+: (p.trace oracle asked).statements := by
  induction p generalizing asked with
  | done a => exact List.prefix_rfl
  | stop d => exact List.prefix_rfl
  | put statement answered ih =>
    exact (List.prefix_append asked [statement]).trans (ih _ _)

/-- A plan puts statements of probes that the contract allows, and no others. -/
theorem Meets.of_mem_statements {Q : α → Prop} {p : Plan α} (hp : p.Meets F A Q) (oracle : Oracle)
    (asked : List Text) {s : Text} (hs : s ∈ (p.trace oracle asked).statements) :
    s ∈ asked ∨ ∃ probe, A probe ∧ probe.statement = s := by
  induction p generalizing asked with
  | done a => exact Or.inl hs
  | stop d => exact Or.inl hs
  | put statement answered ih =>
    obtain ⟨⟨probe, hA, rfl, hrej⟩, hnone⟩ := hp
    have hmem : s ∈ asked ++ [probe.statement] ∨ ∃ probe, A probe ∧ probe.statement = s := by
      simp only [trace] at hs
      cases hans : oracle asked probe.statement with
      | none =>
        rw [hans] at hs
        exact ih none hnone _ hs
      | some failure =>
        rw [hans, hrej failure] at hs
        exact Or.inl hs
    rcases hmem with hmem | hprobe
    · rcases List.mem_append.mp hmem with hasked | hlast
      · exact Or.inl hasked
      · exact Or.inr ⟨probe, hA, (List.mem_singleton.mp hlast).symm⟩
    · exact Or.inr hprobe

/-- The three ways to end: with a value, with a fault the plan found itself, and with the rejection
of a statement, which then is the last one. -/
theorem Meets.outcome {Q : α → Prop} {p : Plan α} (hp : p.Meets F A Q) (oracle : Oracle)
    (asked : List Text) :
    (∃ a, Q a ∧ (p.trace oracle asked).outcome = .ok a) ∨
    (∃ fault context, F fault context ∧
      (p.trace oracle asked).outcome = .error (fault.report context)) ∨
    ∃ probe failure before, A probe ∧ oracle before probe.statement = some failure ∧
      (p.trace oracle asked).statements = before ++ [probe.statement] ∧
      (p.trace oracle asked).outcome = .error (probe.rejected failure) := by
  induction p generalizing asked with
  | done a => exact Or.inl ⟨a, hp, rfl⟩
  | stop d =>
    obtain ⟨fault, context, h, rfl⟩ := hp
    exact Or.inr (Or.inl ⟨fault, context, h, rfl⟩)
  | put statement answered ih =>
    obtain ⟨⟨probe, hA, rfl, hrej⟩, hnone⟩ := hp
    simp only [trace]
    cases hans : oracle asked probe.statement with
    | none => exact ih none hnone _
    | some failure =>
      refine Or.inr (Or.inr ⟨probe, failure, asked, hA, hans, ?_, ?_⟩)
      · rw [hrej failure]
        rfl
      · rw [hrej failure]
        rfl

end MacroLint.Plan
