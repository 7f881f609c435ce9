import MacroLint.Proofs.Plan.Contract
import MacroLint.Proofs.Plan.Readers
import MacroLint.Proofs.Plan.Wording
import MacroLint.Validation

/-!
# The plans of the families meet one contract

A plan reports faults of parameters only: something is missing, has a wrong shape, or does not go
together with the rest. Faults of the literal as a whole (its brackets, its flags, its name) are
found before a plan is made, and `rejected` is not a fault that a plan finds, it is the oracle's.

And a plan adds nothing to its call but fixed words. A text that it reports something about is a
stretch of the call, and glue is in its statements and messages only if it is in the call. There is
one exception: a copy and an update in table form end with a statement that is composed of several
parameters, and if that is rejected it is reported as it was asked. For which calls there is such a
statement is `Family.composedPart?`, and what it looks like `Family.Composes`.

All this is one contract (`Plan.Traced`), since it takes one look at every plan: the text at each
place is followed back to a parameter. The contract is proved for each step that plans share and
then for each plan by following its steps, for every call, also for one that is put together by
hand. `Plan.Steady` is the part of it that does not speak about texts.
-/

set_option autoImplicit false

namespace MacroLint

open Fragment Literal

/-! ## 1. The contract -/

/-- A fault of the parameters of a macro that is known. -/
def Fault.OfParameters (fault : Fault) : Prop :=
  fault.kind = .arity ∨ fault.kind = .pattern ∨ fault.kind = .rule

theorem Fault.OfParameters.kind_ne {fault : Fault} (h : fault.OfParameters) :
    fault.kind ≠ .statement := by
  rcases h with h | h | h <;> simp [h]

/-- The part that the last statement of a plan is reported as, if that statement is composed of
several parameters. -/
def Family.composedPart? (family : Family) (call : Call) : Option Part :=
  match family with
  | .insertSelect => some .copyStatement
  | .update => if (call.param? 1).any Plan.isUpdateStatement then none else some .updateStatement
  | _ => none

/-- The statements that are composed of the parameters of a call. -/
inductive Family.Composes (call : Call) : Family → Text → Prop where
  | copy {target source : Text} {columns : List (Text × Text)}
      (htarget : call.param? 1 = some target) (hsource : call.param? 2 = some source)
      (hcolumns : Plan.mappingList (call.param? 3) = .done columns) :
      Composes call .insertSelect (copyStatement target source columns (call.param? 4))
  | update {table : Text} (htable : call.param? 1 = some table)
      (hform : Plan.isUpdateStatement table = false) :
      Composes call .update
        (setStatement table (Text.joined ", "
          (((call.param? 2).map fun list => assignments (entries list)).toList
            ++ (call.param? 4).toList))
          ++ whereTail (call.param? 3))

/-- Only two parts are reported for composed statements. -/
theorem Family.composedPart?_ne {family : Family} {call : Call} {part : Part}
    (hcopy : part ≠ .copyStatement) (hupdate : part ≠ .updateStatement) :
    family.composedPart? call ≠ some part := by
  unfold composedPart?
  split
  · exact fun h => hcopy (Option.some.inj h).symm
  · split
    · exact nofun
    · exact fun h => hupdate (Option.some.inj h).symm
  · exact nofun

/-- The statement has no glue but that of the call, and it is asked for a stretch of the call, or
for itself if it is composed. -/
structure Probe.Traced (family : Family) (call : Call) (probe : Probe) : Prop where
  noGlue : call.GlueFree → NoGlue probe.statement
  cutOut : family.composedPart? call ≠ some probe.part → call.Contains probe.fragment
  composed : family.composedPart? call = some probe.part →
    family.Composes call probe.statement ∧ probe.fragment = probe.statement

/-- The fault is one of parameters and found in a stretch of the call, and what it quotes has no
glue but that of the call. -/
structure Fault.Traced (call : Call) (fault : Fault) (context : Text) : Prop where
  ofParameters : fault.OfParameters
  context : call.Contains context
  quotes : ∀ t ∈ fault.quotes, call.GlueFree → NoGlue t

theorem Fault.traced_of_quotes_eq_nil {call : Call} {fault : Fault} {context : Text}
    (hp : fault.OfParameters) (hc : call.Contains context) (hq : fault.quotes = []) :
    fault.Traced call context where
  ofParameters := hp
  context := hc
  quotes := by
    rw [hq]
    intro t ht
    cases ht

theorem Fault.traced_of_quotes_eq {call : Call} {fault : Fault} {context t : Text}
    (hp : fault.OfParameters) (hc : call.Contains context) (hq : fault.quotes = [t])
    (ht : call.GlueFree → NoGlue t) : fault.Traced call context where
  ofParameters := hp
  context := hc
  quotes := by
    rw [hq]
    intro s hs
    rwa [List.mem_singleton.mp hs]

namespace Plan

variable {α : Type} {family : Family} {call : Call}

/-- What the plan asks and reports comes out of the call. -/
abbrev Traced (family : Family) (call : Call) (Q : α → Prop) (p : Plan α) : Prop :=
  p.Meets (Fault.Traced call) (Probe.Traced family call) Q

/-- The plan finds faults of parameters only, and ends when a statement is rejected. -/
abbrev Steady (p : Plan α) : Prop :=
  p.Meets (fun fault _ => fault.OfParameters) (fun _ => True) fun _ => True

theorem Traced.steady {Q : α → Prop} {p : Plan α} (h : p.Traced family call Q) : p.Steady :=
  h.mono (fun _ _ hfault => hfault.ofParameters) (fun _ _ => trivial) fun _ _ => trivial

theorem traced_ask {probe : Probe} (hs : call.GlueFree → NoGlue probe.statement)
    (hf : call.Contains probe.fragment) (hp : family.composedPart? call ≠ some probe.part) :
    (ask probe).Traced family call fun _ => True :=
  meets_ask ⟨hs, fun _ => hf, fun h => absurd h hp⟩

theorem traced_require {test : Bool} {fault : Fault} {context : Text}
    (h : fault.Traced call context) :
    (require test fault context).Traced family call fun _ => True :=
  (meets_require fun _ => h).imp fun _ _ => trivial

/-- A test of the call as a whole. -/
theorem traced_requireOfCall {test : Bool} {fault : Fault} (hp : fault.OfParameters)
    (hq : fault.quotes = []) :
    (require test fault call.normalized).Traced family call fun _ => True :=
  traced_require (Fault.traced_of_quotes_eq_nil hp call.contains_normalized hq)

/-! ## 2. The steps that plans share -/

theorem traced_atMost (name : MacroName) (segments : Nat) :
    (atMost name call segments).Traced family call fun _ => True :=
  traced_requireOfCall (Or.inr (Or.inr rfl)) rfl

theorem traced_required (position : Nat) (part : Part) :
    (required call position part).Traced family call fun t => call.param? position = some t :=
  meets_required (Fault.traced_of_quotes_eq_nil (Or.inl rfl) call.contains_normalized rfl)

theorem traced_tableAt (position : Nat) (part : Part) :
    (tableAt call position part).Traced family call fun t => call.param? position = some t := by
  refine meets_tableAt
    (Fault.traced_of_quotes_eq_nil (Or.inl rfl) call.contains_normalized rfl) fun table htable => ?_
  have hcut := Call.contains_of_param? htable
  exact Fault.traced_of_quotes_eq (Or.inr (Or.inl rfl)) hcut rfl fun hfree => hfree hcut

theorem traced_askWhole {statement : Text} {part : Part} (h : call.Contains statement)
    (hp : family.composedPart? call ≠ some part) :
    (askWhole statement part).Traced family call fun _ => True :=
  traced_ask (fun hfree => hfree h) h hp

theorem traced_askCondition {table condition : Text} (ht : call.GlueFree → NoGlue table)
    (h : call.Contains condition) :
    (askCondition table condition).Traced family call fun _ => True :=
  traced_ask (fun hfree => noGlue_whereStatement (ht hfree) (hfree h)) h
    (Family.composedPart?_ne nofun nofun)

theorem traced_acceptClause {condition : Text} {clause : Clause} (h : call.Contains condition)
    (hmem : clause ∈ clauses condition) :
    (acceptClause condition clause).Traced family call fun _ => True := by
  have hempty : Fault.emptyClause.Traced call condition :=
    Fault.traced_of_quotes_eq_nil (Or.inr (Or.inl rfl)) h rfl
  have hnoBind : (Fault.noBind .dynamicClause).Traced call clause.text :=
    Fault.traced_of_quotes_eq_nil (Or.inr (Or.inr rfl)) (h.of_isInfix (isInfix_of_mem_clauses hmem))
      rfl
  exact (traced_require hempty).bind fun _ _ => traced_require hnoBind

theorem traced_askDynamic {table condition : Text} (ht : call.GlueFree → NoGlue table)
    (h : call.Contains condition) :
    (askDynamic table condition).Traced family call fun _ => True := by
  refine Meets.bind (meets_forM fun clause hmem => traced_acceptClause h hmem) fun _ _ => ?_
  refine traced_ask (fun hfree => ?_) h (Family.composedPart?_ne nofun nofun)
  exact noGlue_whereStatement (ht hfree) (noGlue_plainCondition (hfree h))

/-! ## 3. Lists whose entries are read one by one

What a reader can find is listed in `Proofs/Plan/Readers`; here each of these faults is classed, and
followed back to the list. -/

theorem traced_of_fieldFault? {part : Part} {field : Entry} {fault : Fault} {context : Text}
    (hc : call.Contains context) (hkey : call.Contains field.key)
    (h : fieldFault? part field = some fault) : fault.Traced call context := by
  unfold fieldFault? at h
  split at h
  · cases h
    exact Fault.traced_of_quotes_eq_nil (Or.inr (Or.inl rfl)) hc rfl
  · split at h
    · cases h
      exact Fault.traced_of_quotes_eq (Or.inr (Or.inl rfl)) hc rfl fun hfree => hfree hkey
    · split at h
      · cases h
        exact Fault.traced_of_quotes_eq (Or.inr (Or.inl rfl)) hc rfl fun hfree => hfree hkey
      · cases h

theorem traced_fields {list : Text} (part : Part) (h : call.Contains list) :
    (fields list part).Traced family call fun read => read = entries list := by
  unfold fields
  split
  · rename_i fault hfault
    obtain ⟨field, hmem, hcause⟩ := exists_of_fieldsFault? hfault
    have hkey := h.of_isInfix (isInfix_of_mem_entries hmem).1
    refine meets_fail ?_
    rcases hcause with hcause | rfl
    · exact traced_of_fieldFault? h hkey hcause
    · exact Fault.traced_of_quotes_eq (Or.inr (Or.inr rfl)) h rfl fun hfree => hfree hkey
  · exact meets_done rfl

theorem traced_mappingList {list : Option Text} (h : ∀ t, list = some t → call.Contains t) :
    (mappingList list).Traced family call fun columns => mappingList list = done columns := by
  cases list with
  | none => exact meets_done rfl
  | some list =>
    have hlist := h list rfl
    cases hm : mappings [] ((split list).map Text.trim) with
    | ok columns =>
      have hdone : mappingList (some list) = done columns := by
        simp only [mappingList, hm]
      rw [hdone]
      exact meets_done rfl
    | error fault =>
      have hfail : mappingList (some list) = fail fault list := by
        simp only [mappingList, hm]
      rw [hfail]
      refine meets_fail ?_
      obtain ⟨entry, hmem, hcause⟩ := exists_of_mappings_error hm
      have hentry := hlist.of_isInfix (isInfix_of_mem_trimmed hmem)
      rcases hcause with rfl | ⟨target, source, hread, rfl⟩
      · exact Fault.traced_of_quotes_eq (Or.inr (Or.inl rfl)) hlist rfl fun hfree => hfree hentry
      · have htarget := hentry.of_isInfix (isInfix_of_mapping? hread).1
        exact Fault.traced_of_quotes_eq (Or.inr (Or.inr rfl)) hlist rfl fun hfree => hfree htarget

theorem noGlue_of_mappingList {list : Option Text} {columns : List (Text × Text)}
    (h : ∀ t, list = some t → NoGlue t) (hdone : mappingList list = done columns) :
    ∀ column ∈ columns, NoGlue column.1 ∧ NoGlue column.2 := by
  intro column hcolumn
  cases list with
  | none =>
    cases hdone
    cases hcolumn
  | some list =>
    simp only [mappingList] at hdone
    split at hdone
    · cases hdone
    · rename_i hm
      cases hdone
      obtain ⟨entry, hmem, hread⟩ := exists_of_mem_mappings hcolumn hm
      have hentry := (h list rfl).of_isInfix (isInfix_of_mem_trimmed hmem)
      obtain ⟨htarget, hsource⟩ := isInfix_of_mapping? hread
      exact ⟨hentry.of_isInfix htarget, hentry.of_isInfix hsource⟩

theorem traced_accept {block : Text} (paging : Paging) (h : call.Contains block) :
    (paging.accept block).Traced family call fun _ => True := by
  unfold Paging.accept
  split
  · rename_i fault hfault
    obtain ⟨entry, hmem, hcause⟩ := Paging.exists_of_keysSet_error hfault
    obtain ⟨hkey, hvalue⟩ := isInfix_of_mem_entries hmem
    -- A canonical key is one of three words, and not cut out of the block.
    have hcanonical {key : Text} (hread : paging.key? entry.key = some key) : NoGlue key := by
      have hkeys : ∀ key ∈ paging.keys, NoGlue key := by
        cases paging <;> decide
      exact hkeys key (Paging.mem_keys_of_key? hread)
    refine meets_fail ?_
    rcases hcause with rfl | ⟨key, hread, rfl | rfl⟩
    · exact Fault.traced_of_quotes_eq (Or.inr (Or.inl rfl)) h rfl
        fun hfree => hfree (h.of_isInfix hkey)
    · refine ⟨Or.inr (Or.inl rfl), h, ?_⟩
      intro t ht hfree
      rcases List.mem_cons.mp ht with rfl | ht
      · exact hcanonical hread
      · rw [List.mem_singleton.mp ht]
        cases hv : entry.value with
        | none => exact noGlue_nil
        | some value => exact hfree (h.of_isInfix (hvalue value hv))
    · exact Fault.traced_of_quotes_eq (Or.inr (Or.inr rfl)) h rfl fun _ => hcanonical hread
  · -- The entries are fine one by one, and the key that has to be set may still be missing.
    exact traced_require (Fault.traced_of_quotes_eq_nil (Or.inr (Or.inr rfl)) h rfl)

/-! ## 4. The plans -/

theorem noGlue_dual : NoGlue dual := by decide

theorem traced_query : (query call).Traced family call fun _ => True := by
  refine (traced_required 1 .query).bind fun statement hstatement => ?_
  exact traced_askWhole (Call.contains_of_param? hstatement) (Family.composedPart?_ne nofun nofun)

theorem traced_queryClauses (position : Nat) :
    (queryClauses call position).Traced family call fun _ => True := by
  have hne {part : Part} := @Family.composedPart?_ne family call part
  refine (meets_forPresent fun fields hfields => ?_).bind fun _ _ => ?_
  · have hcut := Call.contains_of_param? hfields
    exact traced_ask (fun hfree => noGlue_fieldsStatement (hfree hcut)) hcut (hne nofun nofun)
  refine (meets_forPresent fun condition hcondition => ?_).bind fun _ _ => ?_
  · exact traced_askCondition (fun _ => noGlue_dual) (Call.contains_of_param? hcondition)
  refine (meets_forPresent fun condition hcondition => ?_).bind fun _ _ => ?_
  · exact traced_askDynamic (fun _ => noGlue_dual) (Call.contains_of_param? hcondition)
  refine meets_forPresent fun clause hclause => ?_
  have hcut := Call.contains_of_param? hclause
  exact traced_ask (fun hfree => noGlue_tailStatement (hfree hcut)) hcut (hne nofun nofun)

theorem traced_plainQuery (name : MacroName) :
    (plainQuery name call).Traced family call fun _ => True := by
  refine (traced_atMost name 6).bind fun _ _ => ?_
  exact traced_query.bind fun _ _ => traced_queryClauses 2

theorem traced_pagedQuery (paging : Paging) (name : MacroName) :
    (pagedQuery paging name call).Traced family call fun _ => True := by
  refine (traced_atMost name 7).bind fun _ _ => ?_
  refine traced_query.bind fun _ _ => ?_
  refine (traced_required 2 paging.part).bind fun block hblock => ?_
  refine (traced_accept paging (Call.contains_of_param? hblock)).bind fun _ _ => ?_
  exact traced_queryClauses 3

theorem traced_totalRows : (totalRows call).Traced family call fun _ => True := by
  refine (traced_requireOfCall (Or.inr (Or.inr rfl)) rfl).bind fun _ _ => ?_
  refine (traced_required 2 .condition).bind fun statement hstatement => ?_
  exact traced_askWhole (Call.contains_of_param? hstatement) (Family.composedPart?_ne nofun nofun)

theorem traced_conditionedRows {table : Text} (ht : call.GlueFree → NoGlue table) :
    (conditionedRows call table).Traced family call fun _ => True := by
  refine (traced_requireOfCall (Or.inl rfl) rfl).bind fun _ _ => ?_
  refine (meets_forPresent fun condition hcondition => ?_).bind fun _ _ => ?_
  · have hcut := Call.contains_of_param? hcondition
    have hnoBind : (Fault.noBind .condition).Traced call condition :=
      Fault.traced_of_quotes_eq_nil (Or.inr (Or.inr rfl)) hcut rfl
    exact (traced_require hnoBind).bind fun _ _ => traced_askCondition ht hcut
  exact meets_forPresent fun condition hcondition =>
    traced_askDynamic ht (Call.contains_of_param? hcondition)

theorem traced_rows (name : MacroName) : (rows name call).Traced family call fun _ => True := by
  refine (traced_atMost name 4).bind fun _ _ => ?_
  refine (traced_tableAt 1 .table).bind fun table htable => ?_
  split
  · exact traced_totalRows
  · exact traced_conditionedRows fun hfree => hfree (Call.contains_of_param? htable)

theorem traced_batchRows (name : MacroName) :
    (batchRows name call).Traced family call fun _ => True := by
  refine (traced_atMost name 3).bind fun _ _ => ?_
  refine (traced_tableAt 1 .table).bind fun table htable => ?_
  refine (traced_required 2 .condition).bind fun condition hcondition => ?_
  have hcut := Call.contains_of_param? hcondition
  have hnoBind : (Fault.noBind .condition).Traced call condition :=
    Fault.traced_of_quotes_eq_nil (Or.inr (Or.inr rfl)) hcut rfl
  refine (traced_require hnoBind).bind fun _ _ => ?_
  exact traced_askCondition (fun hfree => hfree (Call.contains_of_param? htable)) hcut

theorem traced_allRows (name : MacroName) :
    (allRows name call).Traced family call fun _ => True := by
  refine (traced_atMost name 2).bind fun _ _ => ?_
  exact (traced_tableAt 1 .table).bind fun _ _ => meets_done trivial

theorem traced_sequence (name : MacroName) :
    (sequence name call).Traced family call fun _ => True := by
  refine (traced_atMost name 3).bind fun _ _ => ?_
  refine (traced_tableAt 1 .table).bind fun _ _ => ?_
  refine (traced_required 2 .sequenceName).bind fun sequence hsequence => ?_
  have hcut := Call.contains_of_param? hsequence
  refine traced_require (Fault.traced_of_quotes_eq (Or.inr (Or.inl rfl)) hcut rfl ?_)
  exact fun hfree => hfree hcut

theorem traced_insertFields (name : MacroName) :
    (insertFields name call).Traced family call fun _ => True := by
  refine (traced_atMost name 3).bind fun _ _ => ?_
  refine (traced_tableAt 1 .table).bind fun table htable => ?_
  refine (traced_required 2 .fieldList).bind fun list hlist => ?_
  have hcut := Call.contains_of_param? hlist
  refine (traced_fields .fieldList hcut).bind fun read hread => ?_
  subst hread
  refine traced_ask (fun hfree => ?_) hcut (Family.composedPart?_ne nofun nofun)
  refine noGlue_insertStatement (hfree (Call.contains_of_param? htable)) fun field hfield => ?_
  have hmem := (List.mergeSort_perm _ _).mem_iff.mp hfield
  exact noGlue_of_mem_entries (hfree hcut) hmem

theorem traced_transfer (name : MacroName) :
    (transfer name call).Traced .insertSelect call fun _ => True := by
  refine (traced_atMost name 5).bind fun _ _ => ?_
  refine (traced_tableAt 1 .targetTable).bind fun target htarget => ?_
  refine (traced_tableAt 2 .sourceTable).bind fun source hsource => ?_
  refine (traced_mappingList fun t ht => Call.contains_of_param? ht).bind fun columns hcolumns => ?_
  have hnoGlue (hfree : call.GlueFree) {position : Nat} {t : Text}
      (ht : call.param? position = some t) : NoGlue t := hfree (Call.contains_of_param? ht)
  refine (meets_forPresent fun condition hcondition => ?_).bind fun _ _ => ?_
  · exact traced_askCondition (fun hfree => hnoGlue hfree hsource)
      (Call.contains_of_param? hcondition)
  refine meets_ask ⟨?_, fun h => absurd rfl h, fun _ => ⟨.copy htarget hsource hcolumns, rfl⟩⟩
  intro hfree
  have hmapped := noGlue_of_mappingList (fun t ht => hnoGlue hfree ht) hcolumns
  exact noGlue_copyStatement (hnoGlue hfree htarget) (hnoGlue hfree hsource) hmapped
    fun t ht => hnoGlue hfree ht

theorem traced_setFields {table : Text} {list : Option Text} (ht : call.GlueFree → NoGlue table)
    (h : ∀ t, list = some t → call.Contains t) :
    (setFields table list).Traced family call fun listed =>
      listed = list.map fun t => assignments (entries t) := by
  cases list with
  | none => exact meets_done rfl
  | some list =>
    have hcut := h list rfl
    refine (traced_fields .setFields hcut).bind fun read hread => ?_
    subst hread
    refine Meets.bind (traced_ask (fun hfree => ?_) hcut ?_) fun _ _ => meets_done rfl
    · refine noGlue_setStatement (ht hfree) (noGlue_assignments fun field hfield => ?_)
      exact noGlue_of_mem_entries (hfree hcut) hfield
    · exact Family.composedPart?_ne nofun nofun

theorem traced_updateTable (name : MacroName) {first : Text}
    (hfirst : call.param? 1 = some first) (hform : isUpdateStatement first = false) :
    (updateTable name call).Traced .update call fun _ => True := by
  have hnoGlue (hfree : call.GlueFree) {position : Nat} {t : Text}
      (ht : call.param? position = some t) : NoGlue t := hfree (Call.contains_of_param? ht)
  have hne {part : Part} := @Family.composedPart?_ne .update call part
  refine (traced_atMost name 5).bind fun _ _ => ?_
  refine (traced_tableAt 1 .table).bind fun table htable => ?_
  cases hfirst.symm.trans htable
  refine (traced_setFields (fun hfree => hnoGlue hfree htable) fun t ht =>
    Call.contains_of_param? ht).bind fun listed hlisted => ?_
  refine (meets_forPresent fun condition hcondition => ?_).bind fun _ _ => ?_
  · exact traced_askCondition (fun hfree => hnoGlue hfree htable)
      (Call.contains_of_param? hcondition)
  refine (meets_forPresent fun clause hclause => ?_).bind fun _ _ => ?_
  · refine traced_ask (fun hfree => ?_) (Call.contains_of_param? hclause) (hne nofun nofun)
    exact noGlue_setStatement (hnoGlue hfree htable) (hnoGlue hfree hclause)
  refine (traced_requireOfCall (Or.inl rfl) rfl).bind fun _ _ => ?_
  -- What is left is the statement made of all parameters.
  have hpart : Family.update.composedPart? call = some .updateStatement := by
    simp [Family.composedPart?, hfirst, hform]
  subst hlisted
  refine meets_ask ⟨?_, fun h => absurd hpart h, fun _ => ⟨.update hfirst hform, rfl⟩⟩
  intro hfree
  refine noGlue_append.mpr ⟨noGlue_setStatement (hnoGlue hfree htable) ?_, ?_⟩
  · refine NoGlue.joined (by decide) fun part hpart => ?_
    rcases List.mem_append.mp hpart with hlisted | hclause
    · obtain ⟨list, hlist, rfl⟩ := Option.map_eq_some_iff.mp (Option.mem_toList.mp hlisted)
      exact noGlue_assignments fun field hfield =>
        noGlue_of_mem_entries (hnoGlue hfree hlist) hfield
    · exact hnoGlue hfree (Option.mem_toList.mp hclause)
  · exact noGlue_whereTail fun t ht => hnoGlue hfree ht

theorem traced_update (name : MacroName) :
    (update name call).Traced .update call fun _ => True := by
  refine (traced_required 1 .tableOrStatement).bind fun first hfirst => ?_
  split
  · rename_i hform
    refine (traced_requireOfCall (Or.inr (Or.inr rfl)) rfl).bind fun _ _ => ?_
    refine traced_askWhole (Call.contains_of_param? hfirst) ?_
    simp [Family.composedPart?, hfirst, hform]
  · rename_i hform
    exact traced_updateTable name hfirst (Bool.not_eq_true _ ▸ hform)

end Plan

/-- **What a plan asks and reports comes out of its call**, for every family, every macro, also one
of another family, and every call. -/
theorem Family.traced_plan (family : Family) (name : MacroName) (call : Call) :
    (family.plan name call).Traced family call fun _ => True := by
  cases family with
  | existsRow | delete => exact Plan.traced_rows name
  | insertFields => exact Plan.traced_insertFields name
  | batchCondition => exact Plan.traced_batchRows name
  | insertSelect => exact Plan.traced_transfer name
  | select => exact Plan.traced_plainQuery name
  | selectPage => exact Plan.traced_pagedQuery .page name
  | selectRowNum => exact Plan.traced_pagedQuery .limit name
  | update => exact Plan.traced_update name
  | getSequence => exact Plan.traced_sequence name
  | truncate => exact Plan.traced_allRows name

/-- **The plan of every family is steady**, for every macro and every call, also for a macro of
another family. -/
theorem Family.steady_plan (family : Family) (name : MacroName) (call : Call) :
    (family.plan name call).Steady := (family.traced_plan name call).steady

end MacroLint
