import MacroLint.Validation

/-!
# What comes before a plan

A literal is resolved to a macro and a call, or it is refused as a whole. This file says once what
each of the two outcomes amounts to, so that no statement about `validate` has to go through the
stages of `resolve` again: a resolved literal has passed all of them (`resolve_eq_ok_iff`), and what
a refused literal is reported with does not depend on the stage it failed in
(`refused_of_resolve`).
-/

set_option autoImplicit false

namespace MacroLint

open Literal

theorem resolve_eq_ok_iff {raw : Text} {name : MacroName} {call : Call} :
    resolve raw = .ok (name, call) ↔
      bracketFault (normal raw) = none ∧ Call.ofNormal raw (normal raw) = .ok call ∧
        MacroName.ofText? call.name = some name := by
  simp only [resolve]
  cases hb : bracketFault (normal raw) with
  | some fault => simp
  | none =>
    cases hc : Call.ofNormal raw (normal raw) with
    | error fault => simp
    | ok found =>
      dsimp only
      constructor
      · intro h
        cases hn : MacroName.ofText? found.name with
        | none =>
          rw [hn] at h
          cases h
        | some other =>
          rw [hn] at h
          cases h
          exact ⟨rfl, rfl, hn⟩
      · rintro ⟨-, hfound, hn⟩
        cases hfound
        rw [hn]

/-- To resolve a literal by evaluation: reports are not compared there. -/
theorem resolve_of_toOption {raw : Text} {found : MacroName × Call}
    (h : (resolve raw).toOption = some found) : resolve raw = .ok found := by
  cases hres : resolve raw with
  | error d =>
    rw [hres] at h
    cases h
  | ok other =>
    rw [hres] at h
    cases h
    rfl

/-- The diagnostic of a literal that is refused as a whole: there is no macro yet whose usage could
be shown, and no statement that could have been rejected. -/
structure Diagnostic.Refused (d : Diagnostic) : Prop where
  kind : d.kind = .format ∨ d.kind = .unknownName
  context : d.context.isSome
  detail : d.detail = none
  usage : d.usage = none

theorem refused_of_resolve {raw : Text} {d : Diagnostic} (h : resolve raw = .error d) :
    d.Refused := by
  simp only [resolve] at h
  split at h
  · cases h
    exact ⟨Or.inl rfl, rfl, rfl, rfl⟩
  · split at h
    · cases h
      exact ⟨Or.inl rfl, rfl, rfl, rfl⟩
    · split at h
      · cases h
        exact ⟨Or.inr rfl, rfl, rfl, rfl⟩
      · cases h

/-- What a run reports is what its trace ended with, with the usage that explains it. -/
theorem diagnostic_of_error {t : Trace Unit} {d : Diagnostic} (h : t.outcome = .error d)
    (usage : Option Usage) : (t.run.explain usage).diagnostic = some (d.orUsage usage) := by
  simp only [Run.explain, Trace.run, h, Option.map_some]

theorem diagnostic_of_ok {t : Trace Unit} {a : Unit} (h : t.outcome = .ok a)
    (usage : Option Usage) : (t.run.explain usage).diagnostic = none := by
  simp only [Run.explain, Trace.run, h, Option.map_none]

/-- The three ways in which a validation goes. -/
theorem validate_cases (oracle : Oracle) (raw : Text) :
    (∃ d, resolve raw = .error d ∧ validate oracle raw = ⟨[], some d⟩) ∨
    (∃ name call, resolve raw = .ok (name, call) ∧ name.family? = none ∧
      validate oracle raw = ⟨[], none⟩) ∨
    ∃ name call family, resolve raw = .ok (name, call) ∧ name.family? = some family ∧
      validate oracle raw = family.check name call oracle := by
  unfold validate
  cases h : resolve raw with
  | error d => exact Or.inl ⟨d, rfl, rfl⟩
  | ok found =>
    obtain ⟨name, call⟩ := found
    cases hfam : name.family? with
    | none => exact Or.inr (Or.inl ⟨name, call, rfl, hfam, by simp only [hfam]⟩)
    | some family => exact Or.inr (Or.inr ⟨name, call, family, rfl, hfam, by simp only [hfam]⟩)

end MacroLint
