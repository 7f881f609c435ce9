import MacroLint.Proofs.Plan.Families
import MacroLint.Proofs.Validation.Resolution

/-!
# The shape of a diagnostic

A reader of a diagnostic may rely on its kind to know which of its parts are there. There are two
sorts, and the kind tells them apart: a literal is refused as a whole, before any statement is
asked and without usage (`Diagnostic.Refused`), or its parameters are at fault, and then the usage
of its macro is shown (`Diagnostic.OfMacro`). Every diagnostic has a context, and a detail exactly
when a statement was rejected.

The second sort is where the work is. There are some thirty places in the plans that report a
fault, and none of them sets a usage; what makes the statement go through is that a plan can end in
three ways only (`Plan.Meets.outcome`), and that the faults it finds by itself are faults of
parameters.
-/

set_option autoImplicit false

namespace MacroLint

open Literal

/-- The families are exactly the macros with a usage: an explained diagnostic has something to
show. -/
theorem MacroName.isSome_usage? (name : MacroName) : name.usage?.isSome = name.family?.isSome := by
  cases name <;> rfl

/-- The diagnostic about the parameters of a macro. -/
structure Diagnostic.OfMacro (name : MacroName) (d : Diagnostic) : Prop where
  kind : d.kind ≠ .format ∧ d.kind ≠ .unknownName
  context : d.context.isSome
  detail : d.detail.isSome ↔ d.kind = .statement
  usage : d.usage = name.usage?

theorem Fault.OfParameters.ofMacro {fault : Fault} (h : fault.OfParameters) (context : Text)
    (name : MacroName) : ((fault.report context).orUsage name.usage?).OfMacro name where
  kind := by
    rcases h with h | h | h <;> simp [h]
  context := rfl
  detail := by
    rcases h with h | h | h <;> simp [h]
  usage := by simp

theorem Probe.ofMacro_rejected (probe : Probe) (failure : Failure) (name : MacroName) :
    ((probe.rejected failure).orUsage name.usage?).OfMacro name where
  kind := by simp
  context := rfl
  detail := by simp
  usage := by simp

/-- Whatever the oracle answers, a diagnostic of a check is one about the parameters of the macro. -/
theorem Family.ofMacro_check {family : Family} {name : MacroName} {call : Call} {oracle : Oracle}
    {d : Diagnostic} (h : (family.check name call oracle).diagnostic = some d) : d.OfMacro name := by
  rcases (family.steady_plan name call).outcome oracle [] with
    ⟨a, -, hout⟩ | ⟨fault, context, hfault, hout⟩ | ⟨probe, failure, -, -, -, -, hout⟩
  · have hnone := diagnostic_of_ok hout name.usage?
    exact absurd (hnone.symm.trans h) nofun
  · have hsome := diagnostic_of_error hout name.usage?
    rw [← Option.some.inj (hsome.symm.trans h)]
    exact hfault.ofMacro context name
  · have hsome := diagnostic_of_error hout name.usage?
    rw [← Option.some.inj (hsome.symm.trans h)]
    exact probe.ofMacro_rejected failure name

/-- **The kind of a diagnostic tells which parts it has.** A context is always there and a detail
exactly for a rejected statement. The usage is missing exactly for the two kinds of fault that
concern the literal as a whole, and then no statement was asked; otherwise the literal reads as a
call of a macro that has a family, and the usage is that of this macro. -/
theorem validate_diagnostic_shape {oracle : Oracle} {raw : Text} {d : Diagnostic}
    (h : (validate oracle raw).diagnostic = some d) :
    d.context.isSome ∧
    (d.detail.isSome ↔ d.kind = .statement) ∧
    ((d.usage.map Usage.template = none ∧ d.usage.map Usage.doc = none) ↔
      d.kind = .format ∨ d.kind = .unknownName) ∧
    (d.kind = .format ∨ d.kind = .unknownName → (validate oracle raw).statements = []) ∧
    (¬(d.kind = .format ∨ d.kind = .unknownName) →
      ∃ name call family usage, Call.ofNormal raw (normal raw) = .ok call ∧
        MacroName.ofText? call.name = some name ∧ name.family? = some family ∧
        name.usage? = some usage ∧ d.usage.map Usage.template = some usage.template ∧
        d.usage.map Usage.doc = some usage.doc) := by
  rcases validate_cases oracle raw with ⟨d', hres, hval⟩ | ⟨_, _, _, _, hval⟩ |
    ⟨name, call, family, hres, hfam, hval⟩
  · -- The literal is refused.
    rw [hval] at h ⊢
    cases h
    have hd := refused_of_resolve hres
    refine ⟨hd.context, ?_, ?_, fun _ => rfl, fun hk => absurd hd.kind hk⟩
    · rw [hd.detail]
      rcases hd.kind with hk | hk <;> simp [hk]
    · simp [hd.usage, hd.kind]
  · -- Nothing is checked.
    rw [hval] at h
    cases h
  · -- The plan of a family was put to the oracle.
    rw [hval] at h ⊢
    have hd := Family.ofMacro_check h
    have hkind : ¬(d.kind = .format ∨ d.kind = .unknownName) :=
      fun hk => hk.elim hd.kind.1 hd.kind.2
    obtain ⟨usage, husage⟩ : ∃ usage, name.usage? = some usage := by
      rw [← Option.isSome_iff_exists, name.isSome_usage?, hfam]
      rfl
    obtain ⟨-, hcall, hname⟩ := resolve_eq_ok_iff.mp hres
    refine ⟨hd.context, hd.detail, ?_, fun hk => absurd hk hkind, fun _ => ?_⟩
    · simp [hd.usage, husage, hkind]
    · exact ⟨name, call, family, usage, hcall, hname, hfam, husage, by simp [hd.usage, husage],
        by simp [hd.usage, husage]⟩

/-- The condition of a query is rejected: there is a detail. -/
theorem validate_shape_of_rejected_condition :
    ∃ d, (validate (.scripted [none, some (.query (.grammar "no".toList))])
        "[select][select 1][a]".toList).diagnostic = some d ∧
      d.kind = .statement ∧ d.context.isSome ∧ d.detail.isSome := by
  obtain ⟨d, hd⟩ : ∃ d, (validate (.scripted [none, some (.query (.grammar "no".toList))])
      "[select][select 1][a]".toList).diagnostic = some d :=
    Option.isSome_iff_exists.mp (by decide +kernel)
  have hkind : some d.kind = some .statement := by
    rw [← Option.map_some, ← hd]
    decide +kernel
  have hshape := validate_diagnostic_shape hd
  exact ⟨d, hd, Option.some.inj hkind, hshape.1, hshape.2.1.mpr (Option.some.inj hkind)⟩

end MacroLint
