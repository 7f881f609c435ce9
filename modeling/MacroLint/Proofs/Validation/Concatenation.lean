import MacroLint.Proofs.Literal.NormalForm
import MacroLint.Validation

/-!
# How a literal is put together in source code does not matter

A literal reaches the tool as it stands in source code, cut into quoted pieces. The verdict does not
depend on the cuts. One lemma carries this: **`validate` looks at a literal through its normal form
only** (`validate_congr`). The text as written is kept in the call and no plan reads it.

What remains is about `normal` alone and is in `Proofs/Literal/NormalForm`: normalising is
idempotent, glue may stand anywhere, and blanks may stand between two segments.
-/

set_option autoImplicit false

namespace MacroLint

open Literal

namespace Literal

/-- The text that a call was written as is kept and not read. -/
theorem Call.ofNormal_raw (raw other normalized : Text) :
    Call.ofNormal raw normalized
      = (Call.ofNormal other normalized).map fun call => { call with raw := raw } := by
  simp only [Call.ofNormal]
  cases Flag.ofLetters (Lexeme.flagLetters (lexemes normalized)) with
  | error letter => rfl
  | ok flags =>
    cases Lexeme.segments (lexemes normalized) with
    | nil => rfl
    | cons first params => rfl

end Literal

theorem Family.plan_raw (family : Family) (name : MacroName) (call : Call) (raw : Text) :
    family.plan name { call with raw := raw } = family.plan name call := by
  cases family <;> rfl

theorem resolve_raw {raw other : Text} (h : normal raw = normal other) :
    resolve raw
      = (resolve other).map fun found => (found.1, { found.2 with raw := raw }) := by
  simp only [resolve, h]
  cases bracketFault (normal other) with
  | some fault => rfl
  | none =>
    simp only [Call.ofNormal_raw raw other]
    cases Call.ofNormal other (normal other) with
    | error fault => rfl
    | ok call =>
      -- The name is looked up in the segments, which are the same.
      have hname : ({ call with raw := raw } : Call).name = call.name := rfl
      simp only [Except.map, hname]
      cases MacroName.ofText? call.name with
      | none => rfl
      | some name => rfl

/-- A literal is validated through its normal form. -/
theorem validate_congr {raw other : Text} (h : normal raw = normal other) (oracle : Oracle) :
    validate oracle raw = validate oracle other := by
  simp only [validate, resolve_raw h]
  cases resolve other with
  | error d => rfl
  | ok found =>
    obtain ⟨name, call⟩ := found
    simp only [Except.map]
    cases name.family? with
    | none => rfl
    | some family => simp only [Family.check, Family.plan_raw]

/-- **Source concatenation never changes a verdict**, whatever the oracle answers: a literal and its
normal form have the same run, quotes, plus signs and line breaks may stand anywhere in a literal,
and between the brackets of two segments any blanks may stand beside them. -/
theorem validate_normal_and_glue (oracle : Oracle) :
    (∀ raw, validate oracle (normal raw) = validate oracle raw) ∧
    (∀ a g b : Text, (∀ c ∈ g, c = '"' ∨ c = '+' ∨ c = '\r' ∨ c = '\n') →
      validate oracle (a ++ g ++ b) = validate oracle (a ++ b)) ∧
    (∀ a w b : Text, (∀ c ∈ w, (c = '"' ∨ c = '+' ∨ c = '\r' ∨ c = '\n') ∨ Text.isBlank c) →
      validate oracle ((a ++ [']']) ++ w ++ ('[' :: b))
        = validate oracle ((a ++ [']']) ++ ('[' :: b))) := by
  have hglue {c : Char} (hc : c = '"' ∨ c = '+' ∨ c = '\r' ∨ c = '\n') : isGlue c = true := by
    rcases hc with rfl | rfl | rfl | rfl <;> rfl
  refine ⟨fun raw => validate_congr (normal_idem raw) oracle, fun a g b hg => ?_,
    fun a w b hw => ?_⟩
  · exact validate_congr (normal_append_glue (fun c hc => hglue (hg c hc)) a b) oracle
  · have h := normal_append_seam (fun c hc => (hw c hc).imp_left hglue) a b
    exact validate_congr (by simpa using h) oracle

/-- A name cut in two lines, and two segments with a tab beside the cut. -/
theorem validate_glue_in_name_and_seam :
    validate .lenient ("[trun".toList ++ "\"+\n\"".toList ++ "cate][t]".toList)
        = validate .lenient ("[trun".toList ++ "cate][t]".toList) ∧
    validate .lenient (("[truncate".toList ++ [']']) ++ "\t\"+\"".toList ++ ('[' :: "t]".toList))
        = validate .lenient (("[truncate".toList ++ [']']) ++ ('[' :: "t]".toList)) := by
  have h := validate_normal_and_glue .lenient
  have htab : Text.isBlank '\t' = true := rfl
  exact ⟨h.2.1 _ _ _ (by simp), h.2.2 _ _ _ (by simp [htab])⟩

end MacroLint
