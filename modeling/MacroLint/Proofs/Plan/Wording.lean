import MacroLint.Fault
import MacroLint.Fragment.Statement
import MacroLint.Proofs.Literal.Provenance

/-!
# Fixed words bring no glue

Messages and statements are made of fixed words and of texts from the literal. The words have no
glue, so a message has none if the texts it quotes have none (`Fault.noGlue_message`), and a
statement has none if its parameters have none: one lemma for each way to build a statement.
-/

set_option autoImplicit false

namespace MacroLint

open Fragment Literal

/-! ## 1. Messages -/

theorem Part.noGlue_words (part : Part) : NoGlue part.words := by
  cases part <;> decide

theorem MacroName.noGlue_spelling (name : MacroName) : NoGlue name.spelling := by
  cases name <;> decide

theorem noGlue_toDigits (n : Nat) : NoGlue (Nat.toDigits 10 n) := by
  intro c hc
  have hdigit : c.isDigit = true := Nat.isDigit_of_mem_toDigits (by decide) (by decide) hc
  cases hglue : isGlue c with
  | false => rfl
  | true =>
    simp only [isGlue, Bool.or_eq_true, beq_iff_eq] at hglue
    rcases hglue with ((rfl | rfl) | rfl) | rfl <;> cases hdigit

theorem Fault.noGlue_quoted {t : Text} (h : NoGlue t) : NoGlue (quoted t) := by
  rw [quoted, List.cons_append, noGlue_cons, noGlue_append]
  exact ⟨rfl, h, by decide⟩

/-- The texts that are quoted in the wording of a fault. -/
def Fault.quotes : Fault → List Text
  | unknownName t | tableName _ t | sequenceName t | fieldName t | noValue t | repeatedField t
  | mappingShape t | repeatedTarget t | pagingKey _ t | repeatedPagingKey _ t => [t]
  | pagingValue key value => [key, value]
  | call (.unknownFlag letter) => [[letter]]
  | brackets _ | call .noSegment | missing _ | tooMany .. | noBind _ | dynamicBesideStatement
  | afterStatement | emptyClause | emptyEntry _ | noRowLimit _ | rejected _ => []

/-- The wording of a fault brings no glue of its own. -/
theorem Fault.noGlue_message {fault : Fault} (h : ∀ t ∈ fault.quotes, NoGlue t) :
    NoGlue fault.message := by
  cases fault with
  | brackets fault => cases fault <;> decide
  | call fault =>
    cases fault with
    | noSegment => decide
    | unknownFlag letter =>
      have hletter : NoGlue [letter] := h [letter] List.mem_cons_self
      show NoGlue ("unknown macro flag <".toList ++ ([letter] ++ ">".toList))
      exact noGlue_append.mpr ⟨by decide, noGlue_append.mpr ⟨hletter, by decide⟩⟩
  | dynamicBesideStatement | afterStatement | emptyClause => decide
  | missing part | rejected part | emptyEntry part =>
    exact noGlue_append.mpr ⟨by decide, part.noGlue_words⟩
  | noBind part | noRowLimit part => exact noGlue_append.mpr ⟨part.noGlue_words, by decide⟩
  | tooMany name allowed found =>
    show NoGlue ("[" ++ name.spelling ++ "] accepts at most " ++ Nat.toDigits 10 allowed
      ++ " parameter(s), found " ++ Nat.toDigits 10 found)
    simp only [noGlue_append]
    exact ⟨⟨⟨⟨⟨by decide, name.noGlue_spelling⟩, by decide⟩, noGlue_toDigits allowed⟩, by decide⟩,
      noGlue_toDigits found⟩
  | unknownName t => exact noGlue_append.mpr ⟨by decide, h t List.mem_cons_self⟩
  | fieldName t | noValue t | repeatedField t =>
    exact noGlue_append.mpr ⟨by decide, noGlue_quoted (h t List.mem_cons_self)⟩
  | sequenceName t | mappingShape t | repeatedTarget t =>
    have hquoted := noGlue_quoted (h t List.mem_cons_self)
    exact noGlue_append.mpr ⟨noGlue_append.mpr ⟨by decide, hquoted⟩, by decide⟩
  | tableName part t | pagingKey part t | repeatedPagingKey part t =>
    have hquoted := noGlue_quoted (h t List.mem_cons_self)
    refine noGlue_append.mpr ⟨noGlue_append.mpr ⟨?_, by decide⟩, hquoted⟩
    exact noGlue_append.mpr ⟨by decide, part.noGlue_words⟩
  | pagingValue key value =>
    have hkey : NoGlue key := h key List.mem_cons_self
    have hvalue : NoGlue value := h value (List.mem_cons_of_mem key List.mem_cons_self)
    exact noGlue_append.mpr ⟨noGlue_append.mpr ⟨hkey, by decide⟩, noGlue_quoted hvalue⟩

/-! ## 2. Statements -/

namespace Fragment

theorem noGlue_whereStatement {table condition : Text} (ht : NoGlue table)
    (hc : NoGlue condition) : NoGlue (whereStatement table condition) := by
  unfold whereStatement
  simp only [noGlue_append]
  exact ⟨⟨⟨by decide, ht⟩, by decide⟩, hc⟩

theorem noGlue_fieldsStatement {fields : Text} (hf : NoGlue fields) :
    NoGlue (fieldsStatement fields) := by
  unfold fieldsStatement
  simp only [noGlue_append]
  exact ⟨⟨⟨by decide, hf⟩, by decide⟩, by decide⟩

theorem noGlue_tailStatement {clause : Text} (hc : NoGlue clause) :
    NoGlue (tailStatement clause) := by
  unfold tailStatement
  simp only [noGlue_append, noGlue_cons]
  exact ⟨by decide, rfl, hc⟩

theorem noGlue_setStatement {table assignments : Text} (ht : NoGlue table)
    (ha : NoGlue assignments) : NoGlue (setStatement table assignments) := by
  unfold setStatement
  simp only [noGlue_append]
  exact ⟨⟨⟨by decide, ht⟩, by decide⟩, ha⟩

theorem noGlue_whereTail {condition : Option Text} (h : ∀ t, condition = some t → NoGlue t) :
    NoGlue (whereTail condition) := by
  cases condition with
  | none => exact noGlue_nil
  | some t => exact noGlue_append.mpr ⟨by decide, h t rfl⟩

theorem noGlue_copyStatement {target source : Text} {mapping : List (Text × Text)}
    {condition : Option Text} (ht : NoGlue target) (hs : NoGlue source)
    (hm : ∀ column ∈ mapping, NoGlue column.1 ∧ NoGlue column.2)
    (hc : ∀ t, condition = some t → NoGlue t) :
    NoGlue (copyStatement target source mapping condition) := by
  have htail := noGlue_whereTail hc
  unfold copyStatement
  split
  · simp only [noGlue_append]
    exact ⟨⟨⟨⟨by decide, ht⟩, by decide⟩, hs⟩, htail⟩
  · have htargets : NoGlue (Text.joined ", " (mapping.map Prod.fst)) := by
      refine NoGlue.joined (by decide) fun t hmem => ?_
      obtain ⟨column, hcolumn, rfl⟩ := List.mem_map.mp hmem
      exact (hm column hcolumn).1
    have hsources : NoGlue (Text.joined ", " (mapping.map Prod.snd)) := by
      refine NoGlue.joined (by decide) fun t hmem => ?_
      obtain ⟨column, hcolumn, rfl⟩ := List.mem_map.mp hmem
      exact (hm column hcolumn).2
    simp only [noGlue_append]
    exact ⟨⟨⟨⟨⟨⟨⟨⟨by decide, ht⟩, by decide⟩, htargets⟩, by decide⟩, hsources⟩, by decide⟩, hs⟩,
      htail⟩

/-- The entries of a list without glue have none. -/
theorem noGlue_of_mem_entries {list : Text} {entry : Entry} (hlist : NoGlue list)
    (h : entry ∈ entries list) : NoGlue entry.key ∧ NoGlue entry.valueOrBind := by
  obtain ⟨hkey, hvalue⟩ := isInfix_of_mem_entries h
  have hkey := hlist.of_isInfix hkey
  refine ⟨hkey, ?_⟩
  unfold Entry.valueOrBind
  cases hv : entry.value with
  | none => exact noGlue_cons.mpr ⟨rfl, hkey⟩
  | some value => exact hlist.of_isInfix (hvalue value hv)

theorem noGlue_assignments {fields : List Entry}
    (h : ∀ field ∈ fields, NoGlue field.key ∧ NoGlue field.valueOrBind) :
    NoGlue (assignments fields) := by
  refine NoGlue.joined (by decide) fun t hmem => ?_
  obtain ⟨field, hfield, rfl⟩ := List.mem_map.mp hmem
  obtain ⟨hkey, hvalue⟩ := h field hfield
  exact noGlue_append.mpr ⟨noGlue_append.mpr ⟨hkey, by decide⟩, hvalue⟩

theorem noGlue_insertStatement {table : Text} {fields : List Entry} (ht : NoGlue table)
    (h : ∀ field ∈ fields, NoGlue field.key ∧ NoGlue field.valueOrBind) :
    NoGlue (insertStatement table fields) := by
  have hkeys : NoGlue (Text.joined ", " (fields.map Entry.key)) := by
    refine NoGlue.joined (by decide) fun t hmem => ?_
    obtain ⟨field, hfield, rfl⟩ := List.mem_map.mp hmem
    exact (h field hfield).1
  have hvalues : NoGlue (Text.joined ", " (fields.map Entry.valueOrBind)) := by
    refine NoGlue.joined (by decide) fun t hmem => ?_
    obtain ⟨field, hfield, rfl⟩ := List.mem_map.mp hmem
    exact (h field hfield).2
  unfold insertStatement
  simp only [noGlue_append]
  exact ⟨⟨⟨⟨⟨⟨by decide, ht⟩, by decide⟩, hkeys⟩, by decide⟩, hvalues⟩, by decide⟩

theorem noGlue_plainCondition {condition : Text} (h : NoGlue condition) :
    NoGlue (plainCondition condition) := by
  have hclause {clause : Clause} (hmem : clause ∈ clauses condition) : NoGlue clause.text :=
    h.of_isInfix (isInfix_of_mem_clauses hmem)
  unfold plainCondition
  cases hcs : clauses condition with
  | nil => exact noGlue_nil
  | cons first rest =>
    rw [hcs] at hclause
    refine NoGlue.joined (by decide) fun t hmem => ?_
    rcases List.mem_cons.mp hmem with rfl | hmem
    · exact hclause List.mem_cons_self
    · obtain ⟨clause, hrest, rfl⟩ := List.mem_map.mp hmem
      have htext : NoGlue clause.text := hclause (List.mem_cons_of_mem first hrest)
      refine noGlue_append.mpr ⟨?_, noGlue_cons.mpr ⟨rfl, htext⟩⟩
      cases clause.joiner <;> decide

end Fragment

end MacroLint
