import MacroLint.Proofs.Plan.Families
import MacroLint.Proofs.Validation.Shape

/-!
# Where the report comes from

A diagnostic shows a text and says what is wrong with it. That text is cut out of the normal form of
the literal, so the user can find it there, except when a composed statement is rejected: then it is
that statement, the last one that was asked (`validate_context`). Neither the statements nor the
report have glue in them, and since line breaks are glue, the message fills the first line of the
rendered diagnostic and the context the second (`validate_noGlue`).

Both statements are about the same case distinction, `provenance_of_validate`: a diagnostic reports
a fault in a stretch of the normal form, or the rejection of a probe that meets the contract of its
family.
-/

set_option autoImplicit false

namespace MacroLint

open Literal

/-- A literal that is refused as a whole is reported with its normal form. -/
theorem exists_of_resolve_error {raw : Text} {d : Diagnostic} (h : resolve raw = .error d) :
    ∃ fault : Fault, d = fault.report (normal raw) ∧ ∀ t ∈ fault.quotes, NoGlue t := by
  simp only [resolve] at h
  split at h
  · cases h
    refine ⟨_, rfl, ?_⟩
    intro t ht
    cases ht
  · split at h
    · rename_i fault hcall
      cases h
      refine ⟨_, rfl, ?_⟩
      cases fault with
      | noSegment =>
        intro t ht
        cases ht
      | unknownFlag letter =>
        intro t ht
        rw [List.mem_singleton.mp ht]
        intro c hc
        rw [List.mem_singleton.mp hc]
        exact noGlue_normal raw letter (mem_of_unknownFlag hcall)
    · split at h
      · rename_i call hcall _ _
        cases h
        obtain ⟨hnormal, hof⟩ := ofLiteral_ofNormal hcall
        refine ⟨_, rfl, ?_⟩
        intro t ht
        rw [List.mem_singleton.mp ht]
        exact hof.noGlue.of_isInfix hof.name
      · cases h

/-- A diagnostic reports a fault in a stretch of the normal form, or the rejection of the statement
that was asked last. -/
theorem provenance_of_validate {oracle : Oracle} {raw : Text} {d : Diagnostic}
    (h : (validate oracle raw).diagnostic = some d) :
    (∃ fault : Fault, ∃ context usage, d = (fault.report context).orUsage usage ∧
      d.kind ≠ .statement ∧ context <:+: normal raw ∧ ∀ t ∈ fault.quotes, NoGlue t) ∨
    ∃ name call family, ∃ probe : Probe, ∃ failure asked, resolve raw = .ok (name, call) ∧
      name.family? = some family ∧ call.normalized = normal raw ∧ call.OfLiteral ∧
      probe.Traced family call ∧ oracle asked probe.statement = some failure ∧
      (validate oracle raw).statements = asked ++ [probe.statement] ∧
      d = (probe.rejected failure).orUsage name.usage? := by
  rcases validate_cases oracle raw with ⟨d', hres, hval⟩ | ⟨_, _, _, _, hval⟩ |
    ⟨name, call, family, hres, hfam, hval⟩
  · rw [hval] at h
    cases h
    have hkind : d.kind ≠ .statement := by
      rcases (refused_of_resolve hres).kind with hk | hk <;> simp [hk]
    obtain ⟨fault, rfl, hquotes⟩ := exists_of_resolve_error hres
    exact Or.inl ⟨fault, normal raw, none, rfl, hkind, List.infix_rfl, hquotes⟩
  · rw [hval] at h
    cases h
  · obtain ⟨hnormal, hof⟩ := ofLiteral_ofNormal (resolve_eq_ok_iff.mp hres).2.1
    rw [hval] at h ⊢
    rcases (family.traced_plan name call).outcome oracle [] with
      ⟨a, -, hout⟩ | ⟨fault, context, hfault, hout⟩ |
      ⟨probe, failure, asked, hprobe, hans, hasked, hout⟩
    · have hnone := diagnostic_of_ok hout name.usage?
      exact absurd (hnone.symm.trans h) nofun
    · have hsome := diagnostic_of_error hout name.usage?
      cases Option.some.inj (hsome.symm.trans h)
      have hkind : ((fault.report context).orUsage name.usage?).kind ≠ .statement := by
        simpa using hfault.ofParameters.kind_ne
      refine Or.inl ⟨fault, context, name.usage?, rfl, hkind, ?_, ?_⟩
      · exact hnormal ▸ hof.isInfix hfault.context
      · exact fun t ht => hfault.quotes t ht hof.glueFree
    · have hsome := diagnostic_of_error hout name.usage?
      cases Option.some.inj (hsome.symm.trans h)
      exact Or.inr ⟨name, call, family, probe, failure, asked, hres, hfam, hnormal, hof, hprobe,
        hans, hasked, rfl⟩

/-! ## 1. Contexts -/

theorem Part.eq_of_words_copyStatement {part : Part} (h : part.words = copyStatement.words) :
    part = copyStatement := by
  cases part <;> first | rfl | exact absurd h (by decide)

theorem Part.eq_of_words_updateStatement {part : Part} (h : part.words = updateStatement.words) :
    part = updateStatement := by
  cases part <;> first | rfl | exact absurd h (by decide)

/-- The wording of a rejection tells a composed statement from everything else. -/
theorem Family.eq_of_composedPart? {family : Family} {call : Call} {part other : Part}
    (h : family.composedPart? call = some part)
    (hm : (Fault.rejected other).message = (Fault.rejected part).message) : other = part := by
  have hwords : other.words = part.words := List.append_cancel_left hm
  by_cases hcopy : part = .copyStatement
  · subst hcopy
    exact Part.eq_of_words_copyStatement hwords
  · by_cases hupdate : part = .updateStatement
    · subst hupdate
      exact Part.eq_of_words_updateStatement hwords
    · exact absurd h (Family.composedPart?_ne hcopy hupdate)

/-- The diagnostic says that the composed statement of a copy, or of an update in table form, was
rejected. -/
def Diagnostic.AboutComposed (raw : Text) (d : Diagnostic) : Prop :=
  ∃ name call family part, resolve raw = .ok (name, call) ∧ name.family? = some family ∧
    family.composedPart? call = some part ∧ d.kind = .statement ∧
    d.message = (Fault.rejected part).message

/-- **The context of a diagnostic is a stretch of the normal form**, unless a composed statement was
rejected. Then the context is this statement, and it was asked last. -/
theorem validate_context {oracle : Oracle} {raw : Text} {d : Diagnostic}
    (h : (validate oracle raw).diagnostic = some d) :
    (¬d.AboutComposed raw → ∃ context, d.context = some context ∧ context <:+: normal raw) ∧
    (d.AboutComposed raw → ∃ name call family asked statement failure,
      resolve raw = .ok (name, call) ∧ name.family? = some family ∧
      family.Composes call statement ∧ d.context = some statement ∧
      (validate oracle raw).statements = asked ++ [statement] ∧
      oracle asked statement = some failure) := by
  rcases provenance_of_validate h with ⟨fault, context, usage, rfl, hkind, hcut, -⟩ |
    ⟨name, call, family, probe, failure, asked, hres, hfam, hnormal, hof, hprobe, hans, hasked, rfl⟩
  · refine ⟨fun _ => ⟨context, rfl, hcut⟩, ?_⟩
    rintro ⟨-, -, -, -, -, -, -, hk, -⟩
    exact absurd hk hkind
  · constructor
    · intro hplain
      refine ⟨probe.fragment, rfl, hnormal ▸ hof.isInfix (hprobe.cutOut ?_)⟩
      intro hpart
      exact hplain ⟨name, call, family, probe.part, hres, hfam, hpart, rfl, rfl⟩
    · rintro ⟨name', call', family', part, hres', hfam', hpart, -, hmessage⟩
      cases hres.symm.trans hres'
      cases hfam.symm.trans hfam'
      have hreported : family.composedPart? call = some probe.part := by
        rw [Family.eq_of_composedPart? hpart hmessage]
        exact hpart
      obtain ⟨hcomposes, hfragment⟩ := hprobe.composed hreported
      refine ⟨name, call, family, asked, probe.statement, failure, hres, hfam, hcomposes, ?_,
        hasked, hans⟩
      rw [← hfragment]
      rfl

/-- The copy itself is rejected, after its condition was accepted. -/
theorem validate_context_of_rejected_copy :
    ∃ d, (validate (.scripted [none, some (.query (.grammar "no".toList))])
        "[insertSelect][a][b][][x = 1]".toList).diagnostic = some d ∧
      d.AboutComposed "[insertSelect][a][b][][x = 1]".toList ∧
      ∃ asked statement, d.context = some statement ∧
        (validate (.scripted [none, some (.query (.grammar "no".toList))])
          "[insertSelect][a][b][][x = 1]".toList).statements = asked ++ [statement] := by
  have hseen : (validate (.scripted [none, some (.query (.grammar "no".toList))])
      "[insertSelect][a][b][][x = 1]".toList).diagnostic.map (fun d => (d.kind, d.message))
        = some (.statement, (Fault.rejected .copyStatement).message) := by
    decide +kernel
  obtain ⟨d, hd, hpair⟩ := Option.map_eq_some_iff.mp hseen
  obtain ⟨hkind, hmessage⟩ := Prod.mk.inj hpair
  have hname : (resolve "[insertSelect][a][b][][x = 1]".toList).toOption.map Prod.fst
      = some .insertSelect := by
    decide +kernel
  have habout : d.AboutComposed "[insertSelect][a][b][][x = 1]".toList := by
    cases hres : resolve "[insertSelect][a][b][][x = 1]".toList with
    | error _ =>
      rw [hres] at hname
      cases hname
    | ok found =>
      obtain ⟨name, call⟩ := found
      rw [hres] at hname
      cases hname
      exact ⟨.insertSelect, call, .insertSelect, .copyStatement, hres, rfl, rfl, hkind, hmessage⟩
  obtain ⟨_, _, _, asked, statement, _, -, -, -, hcontext, hasked, -⟩ :=
    (validate_context hd).2 habout
  exact ⟨d, hd, habout, asked, statement, hcontext, hasked⟩

/-! ## 2. Glue and lines -/

theorem not_mem_of_noGlue {t : Text} (h : NoGlue t) : '\n' ∉ t := by
  intro hmem
  have hglue := h '\n' hmem
  cases hglue

/-- What is laid out under a heading starts on a new line. -/
theorem Diagnostic.head?_under (heading : Text) (h : heading.head? = some '\n') (t : Option Text) :
    ∀ c ∈ (under heading t).head?, c = '\n' := by
  intro c hc
  cases t with
  | none => cases hc
  | some t =>
    rw [under, List.head?_append, h] at hc
    exact (Option.some.inj hc).symm

theorem head?_append_of_forall {s t : Text} {c : Char} (hs : ∀ d ∈ s.head?, d = c)
    (ht : ∀ d ∈ t.head?, d = c) : ∀ d ∈ (s ++ t).head?, d = c := by
  cases s with
  | nil => exact ht
  | cons d s => exact hs

/-- A text without line feeds is the first line, if what follows starts on a new line. -/
theorem splitOn_append_of_head? {s t : Text} (hs : '\n' ∉ s) (ht : ∀ c ∈ t.head?, c = '\n') :
    ∃ rest, (s ++ t).splitOn '\n' = s :: rest := by
  cases t with
  | nil => exact ⟨[], by rw [List.append_nil, List.splitOn_eq_singleton hs]⟩
  | cons c t =>
    cases ht c rfl
    exact ⟨t.splitOn '\n', List.splitOn_append_cons_self_of_not_mem hs t⟩

theorem Diagnostic.splitOn_render {d : Diagnostic} {context : Text} (h : d.context = some context)
    (hm : '\n' ∉ d.message) (hc : '\n' ∉ context) :
    ∃ rest, d.render.splitOn '\n' = d.message :: ("  at: ".toList ++ context) :: rest := by
  have hlayout : d.render = d.message ++ '\n' :: (("  at: ".toList ++ context)
      ++ (under "\n  cause: " d.detail ++ (under "\n\nusage: " (d.usage.map Usage.template)
        ++ under "\n\n" (d.usage.map fun u => Text.trimEnd u.doc)))) := by
    rw [render, h]
    simp only [List.append_assoc]
    rfl
  have htail := head?_append_of_forall (head?_under "\n  cause: " (by decide) d.detail)
    (head?_append_of_forall (head?_under "\n\nusage: " (by decide) (d.usage.map Usage.template))
      (head?_under "\n\n" (by decide) (d.usage.map fun u => Text.trimEnd u.doc)))
  have hline : '\n' ∉ "  at: ".toList ++ context := by
    rw [List.mem_append]
    rintro (hlead | hmem)
    · exact absurd hlead (by decide)
    · exact hc hmem
  obtain ⟨rest, hrest⟩ := splitOn_append_of_head? hline htail
  refine ⟨rest, ?_⟩
  rw [hlayout, List.splitOn_append_cons_self_of_not_mem hm, hrest]

theorem not_isGlue_iff {c : Char} :
    isGlue c = false ↔ c ≠ '"' ∧ c ≠ '+' ∧ c ≠ '\r' ∧ c ≠ '\n' := by
  simp [isGlue, and_assoc]

theorem noGlue_of_mem_statements {oracle : Oracle} {raw s : Text}
    (h : s ∈ (validate oracle raw).statements) : NoGlue s := by
  rcases validate_cases oracle raw with ⟨_, _, hval⟩ | ⟨_, _, _, _, hval⟩ |
    ⟨name, call, family, hres, -, hval⟩
  · rw [hval] at h
    cases h
  · rw [hval] at h
    cases h
  · rw [hval] at h
    obtain ⟨-, hof⟩ := ofLiteral_ofNormal (resolve_eq_ok_iff.mp hres).2.1
    rcases (family.traced_plan name call).of_mem_statements oracle [] h with
      hnone | ⟨probe, hprobe, rfl⟩
    · cases hnone
    · exact hprobe.noGlue hof.glueFree

theorem noGlue_of_diagnostic {oracle : Oracle} {raw : Text} {d : Diagnostic}
    (h : (validate oracle raw).diagnostic = some d) :
    NoGlue d.message ∧ ∃ context, d.context = some context ∧ NoGlue context := by
  rcases provenance_of_validate h with ⟨fault, context, usage, rfl, -, hcut, hquotes⟩ |
    ⟨name, call, family, probe, failure, asked, -, -, -, hof, hprobe, -, -, rfl⟩
  · exact ⟨Fault.noGlue_message hquotes, context, rfl, (noGlue_normal raw).of_isInfix hcut⟩
  · have hquotes : ∀ t ∈ (Fault.rejected probe.part).quotes, NoGlue t := nofun
    refine ⟨Fault.noGlue_message hquotes, probe.fragment, rfl, ?_⟩
    by_cases hpart : family.composedPart? call = some probe.part
    · rw [(hprobe.composed hpart).2]
      exact hprobe.noGlue hof.glueFree
    · exact hof.glueFree (hprobe.cutOut hpart)

/-- **Glue reaches neither the statements nor the report**, and the message and the context are the
first two lines of the rendered diagnostic. -/
theorem validate_noGlue (oracle : Oracle) (raw : Text) :
    (∀ s ∈ (validate oracle raw).statements, ∀ c ∈ s, c ≠ '"' ∧ c ≠ '+' ∧ c ≠ '\r' ∧ c ≠ '\n') ∧
    ∀ d, (validate oracle raw).diagnostic = some d → ∃ context rest, d.context = some context ∧
      (∀ c ∈ d.message ++ context, c ≠ '"' ∧ c ≠ '+' ∧ c ≠ '\r' ∧ c ≠ '\n') ∧
      d.render.splitOn '\n' = d.message :: ("  at: ".toList ++ context) :: rest := by
  constructor
  · intro s hs c hc
    exact not_isGlue_iff.mp (noGlue_of_mem_statements hs c hc)
  · intro d hd
    obtain ⟨hmessage, context, hcontext, hfree⟩ := noGlue_of_diagnostic hd
    obtain ⟨rest, hrest⟩ := Diagnostic.splitOn_render hcontext (not_mem_of_noGlue hmessage)
      (not_mem_of_noGlue hfree)
    refine ⟨context, rest, hcontext, ?_, hrest⟩
    intro c hc
    exact not_isGlue_iff.mp (noGlue_append.mpr ⟨hmessage, hfree⟩ c hc)

/-- The literal is written on two lines of source code, and its condition is rejected. -/
theorem validate_noGlue_of_line_break :
    ∃ d context rest, (validate (.scripted [some (.query (.grammar "no".toList))])
        "[insertSelect][a]\" +\n\"[b][][x = 1]".toList).diagnostic = some d ∧
      d.context = some context ∧
      d.render.splitOn '\n' = d.message :: ("  at: ".toList ++ context) :: rest := by
  obtain ⟨d, hd⟩ : ∃ d, (validate (.scripted [some (.query (.grammar "no".toList))])
      "[insertSelect][a]\" +\n\"[b][][x = 1]".toList).diagnostic = some d :=
    Option.isSome_iff_exists.mp (by decide +kernel)
  obtain ⟨context, rest, hcontext, -, hrender⟩ := (validate_noGlue _ _).2 d hd
  exact ⟨d, context, rest, hd, hcontext, hrender⟩

end MacroLint
