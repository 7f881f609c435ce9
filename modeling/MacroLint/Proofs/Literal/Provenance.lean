import MacroLint.Proofs.Fragment.Stretches
import MacroLint.Proofs.Literal.NormalForm
import MacroLint.Proofs.Literal.Reading

/-!
# A call is cut out of a normal form

The lexemes of a text spell it, so the inner text of a segment is a stretch of the text, and so is
everything that is trimmed, cut or taken apart from it later. A normal form has no glue, and what is
cut out of a text without glue has none.

What is known of every call is only what it contains (`Call.Contains`). `Call.OfLiteral` says of a
call that was read from a literal that all this is in its normal form; a call that is put together
by hand need not be of this kind.
-/

set_option autoImplicit false

namespace MacroLint.Literal

open Text

/-! ## 1. Text without glue -/

/-- The text has no quotes, plus signs and line breaks. -/
def NoGlue (t : Text) : Prop := ∀ c ∈ t, isGlue c = false

instance (t : Text) : Decidable (NoGlue t) :=
  List.decidableBAll (fun c => isGlue c = false) t

@[simp] theorem noGlue_nil : NoGlue [] := by
  intro c hc
  cases hc

@[simp] theorem noGlue_cons {c : Char} {t : Text} :
    NoGlue (c :: t) ↔ isGlue c = false ∧ NoGlue t := List.forall_mem_cons

@[simp] theorem noGlue_append {s t : Text} : NoGlue (s ++ t) ↔ NoGlue s ∧ NoGlue t :=
  List.forall_mem_append

theorem NoGlue.of_isInfix {s t : Text} (ht : NoGlue t) (h : s <:+: t) : NoGlue s :=
  fun c hc => ht c (h.subset hc)

theorem NoGlue.joined {separator : Text} {parts : List Text} (hs : NoGlue separator)
    (hp : ∀ part ∈ parts, NoGlue part) : NoGlue (joined separator parts) := by
  induction parts with
  | nil => exact noGlue_nil
  | cons first rest ih =>
    have hfirst := hp first List.mem_cons_self
    cases rest with
    | nil => simpa [Text.joined] using hfirst
    | cons second rest =>
      rw [Text.joined, List.intercalate_cons_cons, noGlue_append, noGlue_append]
      exact ⟨⟨hfirst, hs⟩, ih fun part hpart => hp part (List.mem_cons_of_mem first hpart)⟩

theorem noGlue_normal (raw : Text) : NoGlue (normal raw) := (isNormal_normal raw).noGlue

/-! ## 2. Segments and letters are in the text -/

theorem Lexeme.source_isInfix {t : Text} {l : Lexeme} (h : l ∈ lexemes t) : l.source <:+: t := by
  have hmem : l.source ∈ (lexemes t).map Lexeme.source := List.mem_map_of_mem h
  have hflat := List.infix_of_mem_flatten hmem
  rwa [← List.flatMap_def, flatMap_source_lexemes] at hflat

theorem segment_isInfix {t inner : Text} (h : inner ∈ Lexeme.segments (lexemes t)) :
    inner <:+: t := by
  obtain ⟨l, hl, hinner⟩ := List.mem_filterMap.mp h
  cases l with
  | segment text =>
    cases hinner
    have hsource : inner <:+: (Lexeme.segment inner).source :=
      ⟨['['], [']'], by simp [Lexeme.source]⟩
    exact hsource.trans (Lexeme.source_isInfix hl)
  | gap c | flag letters | stray text => cases hinner

theorem inlineMarker?_subset {segment letters name : Text}
    (h : inlineMarker? segment = some (letters, name)) :
    letters ⊆ segment ∧ name <:+: segment := by
  unfold inlineMarker? at h
  split at h
  · cases h
  · rename_i before rest hcut
    obtain ⟨hbefore, hrest⟩ := isInfix_of_cut hcut
    split at h
    · rename_i found hmarker
      cases h
      constructor
      · intro c hc
        have hc : c ∈ rest := by
          rw [Lexeme.marker?_eq hmarker]
          exact List.mem_append_left _ hc
        exact (hrest.trans (trim_isInfix segment)).subset hc
      · exact (trimEnd_isInfix before).trans (hbefore.trans (trim_isInfix segment))
    · cases h

theorem nameOfSegment_isInfix (segment : Text) : nameOfSegment segment <:+: segment := by
  unfold nameOfSegment
  split
  · rename_i hmarker
    exact (inlineMarker?_subset hmarker).2
  · exact List.infix_rfl

theorem lettersOfSegment_subset (segment : Text) : lettersOfSegment segment ⊆ segment := by
  unfold lettersOfSegment
  split
  · rename_i hmarker
    exact (inlineMarker?_subset hmarker).1
  · exact List.nil_subset segment

theorem markerLetters_subset (ls : List Lexeme) :
    Lexeme.markerLetters ls ⊆ ls.flatMap Lexeme.source := by
  intro c hc
  obtain ⟨l, hl, hmem⟩ := List.mem_flatMap.mp hc
  refine List.mem_flatMap.mpr ⟨l, hl, ?_⟩
  cases l with
  | flag letters => simp [Lexeme.source, hmem]
  | gap c | segment inner | stray text => cases hmem

theorem flagLetters_subset (ls : List Lexeme) :
    Lexeme.flagLetters ls ⊆ ls.flatMap Lexeme.source := by
  induction ls with
  | nil => exact List.Subset.refl []
  | cons l ls ih =>
    intro c hc
    rw [List.flatMap_cons, List.mem_append]
    cases l with
    | flag letters =>
      rcases List.mem_append.mp hc with hc | hc
      · exact Or.inl (by simp [Lexeme.source, hc])
      · exact Or.inr (ih hc)
    | segment inner =>
      rcases List.mem_append.mp hc with hc | hc
      · exact Or.inl (by simp [Lexeme.source, lettersOfSegment_subset inner hc])
      · exact Or.inr (markerLetters_subset ls hc)
    | gap c | stray text => exact Or.inr (ih hc)

/-! ## 3. Calls -/

namespace Call

/-- The text is a stretch of the normal form, or of a segment. -/
def Contains (call : Call) (t : Text) : Prop :=
  t <:+: call.normalized ∨ ∃ s ∈ call.segments, t <:+: s

theorem contains_normalized (call : Call) : call.Contains call.normalized := Or.inl List.infix_rfl

theorem Contains.of_isInfix {call : Call} {s t : Text} (ht : call.Contains t) (h : s <:+: t) :
    call.Contains s := by
  rcases ht with hnormal | ⟨segment, hmem, hsegment⟩
  · exact Or.inl (h.trans hnormal)
  · exact Or.inr ⟨segment, hmem, h.trans hsegment⟩

theorem contains_of_param? {call : Call} {position : Nat} {t : Text}
    (h : call.param? position = some t) : call.Contains t := by
  obtain ⟨hmap, -⟩ := Option.filter_eq_some_iff.mp h
  obtain ⟨s, hs, rfl⟩ := Option.map_eq_some_iff.mp hmap
  exact Or.inr ⟨s, List.mem_of_getElem? hs, trim_isInfix s⟩

/-- No text of the call has glue. -/
def GlueFree (call : Call) : Prop := ∀ ⦃t⦄, call.Contains t → NoGlue t

end Call

/-- The segments of the call are stretches of its normal form, which has no glue. -/
structure Call.OfLiteral (call : Call) : Prop where
  segments : ∀ s ∈ call.segments, s <:+: call.normalized
  noGlue : NoGlue call.normalized

theorem Call.OfLiteral.isInfix {call : Call} (h : call.OfLiteral) {t : Text}
    (ht : call.Contains t) : t <:+: call.normalized := by
  rcases ht with hnormal | ⟨s, hs, hcut⟩
  · exact hnormal
  · exact hcut.trans (h.segments s hs)

theorem Call.OfLiteral.glueFree {call : Call} (h : call.OfLiteral) : call.GlueFree :=
  fun _ ht => h.noGlue.of_isInfix (h.isInfix ht)

theorem Call.OfLiteral.name {call : Call} (h : call.OfLiteral) :
    call.name <:+: call.normalized := by
  refine (trim_isInfix _).trans ?_
  cases hs : call.segments with
  | nil => exact List.nil_infix
  | cons first rest => exact h.segments first (by simp [hs])

/-- A call that is read from a normal form keeps it, and is cut out of it. -/
theorem ofLiteral_ofNormal {raw other : Text} {call : Call}
    (h : Call.ofNormal raw (normal other) = .ok call) :
    call.normalized = normal other ∧ call.OfLiteral := by
  obtain ⟨flags, first, params, -, hsegments, rfl⟩ := Call.ofNormal_eq_ok_iff.mp h
  refine ⟨rfl, ?_, noGlue_normal other⟩
  intro s hs
  rcases List.mem_cons.mp hs with rfl | hs
  · have hfirst : first ∈ Lexeme.segments (lexemes (normal other)) := by simp [hsegments]
    exact (nameOfSegment_isInfix first).trans (segment_isInfix hfirst)
  · exact segment_isInfix (by simp [hsegments, hs])

/-- The letter that is refused as a flag stands in the normal form. -/
theorem mem_of_unknownFlag {raw normalized : Text} {letter : Char}
    (h : Call.ofNormal raw normalized = .error (.unknownFlag letter)) : letter ∈ normalized := by
  rcases Call.ofNormal_eq_error_iff.mp h with ⟨other, hletters, hfault⟩ | ⟨-, -, hfault⟩
  · rw [CallFault.unknownFlag.inj hfault]
    have hmem := List.mem_of_find?_eq_some (ofLetters_eq_error_iff.mp hletters)
    rw [← flatMap_source_lexemes normalized]
    exact flagLetters_subset _ hmem
  · cases hfault

end MacroLint.Literal
