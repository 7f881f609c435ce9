import Mathlib.Data.List.Nodup
import MacroLint.Proofs.Fragment.Pieces
import MacroLint.Proofs.Plan.Contract
import MacroLint.Proofs.Plan.Readers
import MacroLint.Validation

/-!
# Paging is a block and nothing else

A query macro with a paging block and the plain one have the same parameters, but for the block that
stands between the query and its clauses. If the block is valid the two plans are the same: not a
statement more is asked, and each clause is asked in its own place although it stands one position
further (`pagedQuery_eq`). If it is not, the plan fails behind the query.

What makes a block valid is said by `Paging.Valid`, of its entries all at once. The reader goes
through them one by one and remembers canonical spellings; that both come to the same is
`Paging.accept_of_valid` and `Paging.exists_of_not_valid`.
-/

set_option autoImplicit false

namespace MacroLint

open Fragment Literal

namespace Plan
namespace Paging

/-! ## 1. Valid blocks -/

/-- Every entry sets a key of the block to an admissible value, no key is set twice, and the number
of rows is set. -/
structure Valid (paging : Paging) (block : Text) : Prop where
  known : ∀ entry ∈ entries block, ∃ key ∈ paging.keys, Text.lower key = Text.lower entry.key
  values : ∀ entry ∈ entries block, entry.value.any isPageValue = true
  once : ((entries block).map fun entry => Text.lower entry.key).Nodup
  rowLimit : ∃ entry ∈ entries block, Text.lower entry.key = Text.lower rowLimitKey

instance (paging : Paging) (block : Text) : Decidable (paging.Valid block) :=
  decidable_of_iff
    ((∀ entry ∈ entries block, ∃ key ∈ paging.keys, Text.lower key = Text.lower entry.key) ∧
      (∀ entry ∈ entries block, entry.value.any isPageValue = true) ∧
      ((entries block).map fun entry => Text.lower entry.key).Nodup ∧
      ∃ entry ∈ entries block, Text.lower entry.key = Text.lower rowLimitKey)
    ⟨fun ⟨hknown, hvalues, honce, hlimit⟩ => ⟨hknown, hvalues, honce, hlimit⟩,
      fun h => ⟨h.known, h.values, h.once, h.rowLimit⟩⟩

theorem valid_trim {paging : Paging} {block : Text} :
    paging.Valid (Text.trim block) ↔ paging.Valid block := by
  constructor
  · rintro ⟨hknown, hvalues, honce, hlimit⟩
    rw [entries_trim] at hknown hvalues honce hlimit
    exact ⟨hknown, hvalues, honce, hlimit⟩
  · rintro ⟨hknown, hvalues, honce, hlimit⟩
    rw [← entries_trim] at hknown hvalues honce hlimit
    exact ⟨hknown, hvalues, honce, hlimit⟩

/-- No two keys of a block are the same in another case. -/
theorem eq_of_lower {paging : Paging} {key key' : Text} (hkey : key ∈ paging.keys)
    (hkey' : key' ∈ paging.keys) (h : Text.lower key = Text.lower key') : key = key' := by
  have hkeys : ∀ k ∈ paging.keys, ∀ k' ∈ paging.keys, Text.lower k = Text.lower k' → k = k' := by
    cases paging <;> decide
  exact hkeys key hkey key' hkey' h

theorem key?_eq_some_iff {paging : Paging} {written key : Text} :
    paging.key? written = some key ↔ key ∈ paging.keys ∧ Text.lower key = Text.lower written := by
  constructor
  · intro h
    exact ⟨mem_keys_of_key? h, lower_of_key? h⟩
  · rintro ⟨hmem, hlower⟩
    cases hfound : paging.key? written with
    | none =>
      have hnone := List.find?_eq_none.mp hfound key hmem
      exact absurd (beq_iff_eq.mpr hlower) hnone
    | some other =>
      have hother := (lower_of_key? hfound).trans hlower.symm
      rw [eq_of_lower (mem_keys_of_key? hfound) hmem hother]

theorem isPageValue_getD (value : Option Text) :
    isPageValue (value.getD []) = value.any isPageValue := by
  cases value <;> rfl

/-- That no key is set twice can be seen from what is written, if every key is known. -/
theorem nodup_canonicalKeys_iff {paging : Paging} {entries : List Entry}
    (h : ∀ entry ∈ entries, (paging.key? entry.key).isSome) :
    (paging.canonicalKeys entries).Nodup ↔
      (entries.map fun entry => Text.lower entry.key).Nodup := by
  have hlower : (paging.canonicalKeys entries).map Text.lower
      = entries.map fun entry => Text.lower entry.key := by
    induction entries with
    | nil => rfl
    | cons entry rest ih =>
      obtain ⟨key, hkey⟩ := Option.isSome_iff_exists.mp (h entry List.mem_cons_self)
      have hrest := ih fun other hother => h other (List.mem_cons_of_mem entry hother)
      rw [canonicalKeys_cons hkey, List.map_cons, List.map_cons, lower_of_key? hkey, hrest]
  have hmem {key : Text} (hkey : key ∈ paging.canonicalKeys entries) : key ∈ paging.keys := by
    obtain ⟨entry, -, hfound⟩ := List.mem_filterMap.mp hkey
    exact mem_keys_of_key? hfound
  rw [← hlower]
  constructor
  · intro hnodup
    exact hnodup.map_on fun key hkey key' hkey' => eq_of_lower (hmem hkey) (hmem hkey')
  · exact List.Nodup.of_map Text.lower

/-- The reader accepts the valid blocks. -/
theorem valid_iff {paging : Paging} {block : Text} :
    paging.Valid block ↔
      ∃ keys, paging.keysSet [] (entries block) = .ok keys ∧ rowLimitKey ∈ keys := by
  have hlimit : rowLimitKey ∈ paging.keys := by
    cases paging <;> decide
  simp only [keysSet_eq_ok_iff]
  constructor
  · intro h
    have hknown : ∀ entry ∈ entries block, (paging.key? entry.key).isSome := by
      intro entry hentry
      obtain ⟨key, hkey⟩ := h.known entry hentry
      rw [key?_eq_some_iff.mpr hkey]
      rfl
    refine ⟨_, ⟨?_, (nodup_canonicalKeys_iff hknown).mpr h.once, ?_, rfl⟩, ?_⟩
    · intro entry hentry
      rw [isPageValue_getD]
      exact ⟨hknown entry hentry, h.values entry hentry⟩
    · exact fun _ _ => List.not_mem_nil
    · obtain ⟨entry, hentry, hlower⟩ := h.rowLimit
      have hkey := key?_eq_some_iff.mpr ⟨hlimit, hlower.symm⟩
      rw [List.append_nil, List.mem_reverse]
      exact List.mem_filterMap.mpr ⟨entry, hentry, hkey⟩
  · rintro ⟨keys, ⟨hentries, hnodup, -, rfl⟩, hset⟩
    refine ⟨?_, ?_, ?_, ?_⟩
    · intro entry hentry
      obtain ⟨key, hkey⟩ := Option.isSome_iff_exists.mp (hentries entry hentry).1
      exact ⟨key, key?_eq_some_iff.mp hkey⟩
    · intro entry hentry
      rw [← isPageValue_getD]
      exact (hentries entry hentry).2
    · exact (nodup_canonicalKeys_iff fun entry hentry => (hentries entry hentry).1).mp hnodup
    · rw [List.append_nil, List.mem_reverse] at hset
      obtain ⟨entry, hentry, hkey⟩ := List.mem_filterMap.mp hset
      exact ⟨entry, hentry, (lower_of_key? hkey).symm⟩

theorem accept_of_valid {paging : Paging} {block : Text} (h : paging.Valid block) :
    paging.accept block = done () := by
  obtain ⟨keys, hkeys, hlimit⟩ := valid_iff.mp h
  unfold accept
  rw [hkeys]
  simp [require, hlimit]

theorem exists_of_not_valid {paging : Paging} {block : Text} (h : ¬paging.Valid block) :
    ∃ fault, paging.accept block = fail fault block := by
  unfold accept
  cases hkeys : paging.keysSet [] (entries block) with
  | error fault => exact ⟨fault, rfl⟩
  | ok keys =>
    have hlimit : rowLimitKey ∉ keys := fun hmem => h (valid_iff.mpr ⟨keys, hkeys, hmem⟩)
    exact ⟨.noRowLimit paging.part, by simp [require, hlimit]⟩

/-- A blank block has one entry, without a value. -/
theorem Valid.trim_ne_nil {paging : Paging} {block : Text} (h : paging.Valid block) :
    Text.trim block ≠ [] := by
  intro hblank
  have hvalues := (valid_trim.mpr h).values
  rw [hblank] at hvalues
  have hnone := hvalues (Entry.ofPiece []) List.mem_cons_self
  cases hnone

/-- The family of the macros that have a block of this kind. -/
def family : Paging → Family
  | page => .selectPage
  | limit => .selectRowNum

theorem plan_family (paging : Paging) : paging.family.plan = pagedQuery paging := by
  cases paging <;> rfl

end Paging

/-! ## 2. The plan with a block and the plan without -/

theorem atMost_of_le (name : MacroName) {call : Call} {segments : Nat}
    (h : call.segments.length ≤ segments) : atMost name call segments = done () := by
  simp [atMost, require, h]

theorem atMost_of_lt (name : MacroName) {call : Call} {segments : Nat}
    (h : segments < call.segments.length) :
    atMost name call segments
      = fail (.tooMany name (segments - 1) (call.segments.length - 1)) call.normalized := by
  simp [atMost, require, Nat.not_le.mpr h]

theorem query_of_ne_nil {call : Call} {sql : Text} (h : call.segments[1]? = some sql)
    (hsql : Text.trim sql ≠ []) : query call = askWhole (Text.trim sql) .query := by
  have hparam : call.param? 1 = some (Text.trim sql) := by
    simp [Call.param?, h, hsql]
  simp [query, required, hparam]

theorem query_of_eq_nil {call : Call} {sql : Text} (h : call.segments[1]? = some sql)
    (hsql : Text.trim sql = []) : query call = fail (.missing .query) call.normalized := by
  have hparam : call.param? 1 = none := by
    simp [Call.param?, h, hsql]
  simp [query, required, hparam, fail]

section

variable {paging : Paging} {paged plain : Call} {head head' sql block : Text} {rest : List Text}
  (hpaged : paged.segments = head :: sql :: block :: rest)
  (hplain : plain.segments = head' :: sql :: rest)

include hpaged in
theorem length_segments_paged (hlength : rest.length ≤ 4) : paged.segments.length ≤ 7 := by
  simp only [hpaged, List.length_cons]
  omega

include hplain in
theorem length_segments_plain (hlength : rest.length ≤ 4) : plain.segments.length ≤ 6 := by
  simp only [hplain, List.length_cons]
  omega

include hpaged hplain

/-- The clauses stand one position further behind a block, and are asked in the same places. -/
theorem queryClauses_eq : queryClauses paged 3 = queryClauses plain 2 := by
  have hshift (position : Nat) : paged.param? (position + 3) = plain.param? (position + 2) := by
    simp [Call.param?, hpaged, hplain]
  unfold queryClauses
  rw [hshift 0, hshift 1, hshift 2, hshift 3]

/-- With a valid block the two plans are the same. -/
theorem pagedQuery_eq (name name' : MacroName) (hlength : rest.length ≤ 4)
    (hsql : Text.trim sql ≠ []) (hvalid : paging.Valid block) :
    pagedQuery paging name paged = plainQuery name' plain := by
  have hblock : paged.param? 2 = some (Text.trim block) := by
    simp [Call.param?, hpaged, hvalid.trim_ne_nil]
  have haccept := Paging.accept_of_valid (Paging.valid_trim.mpr hvalid)
  unfold pagedQuery plainQuery
  rw [atMost_of_le name (length_segments_paged hpaged hlength),
    atMost_of_le name' (length_segments_plain hplain hlength),
    query_of_ne_nil (by simp [hpaged]) hsql, query_of_ne_nil (by simp [hplain]) hsql,
    queryClauses_eq hpaged hplain]
  simp only [required, hblock, done_bind, haccept]

omit hplain in
/-- With any other block the plan ends behind the query. -/
theorem pagedQuery_of_not_valid (name : MacroName) (hlength : rest.length ≤ 4)
    (hsql : Text.trim sql ≠ []) (hvalid : ¬paging.Valid block) :
    ∃ fault context, pagedQuery paging name paged
      = askWhole (Text.trim sql) .query >>= fun _ => fail fault context := by
  have hblock : ∃ fault context,
      (required paged 2 paging.part >>= paging.accept) = fail fault context := by
    by_cases hblank : Text.trim block = []
    · have hnone : paged.param? 2 = none := by
        simp [Call.param?, hpaged, hblank]
      exact ⟨.missing paging.part, paged.normalized, by simp [required, hnone, fail]⟩
    · have hsome : paged.param? 2 = some (Text.trim block) := by
        simp [Call.param?, hpaged, hblank]
      obtain ⟨fault, hfault⟩ := Paging.exists_of_not_valid (mt Paging.valid_trim.mp hvalid)
      exact ⟨fault, Text.trim block, by simp [required, hsome, hfault]⟩
  obtain ⟨fault, context, hblock⟩ := hblock
  refine ⟨fault, context, ?_⟩
  unfold pagedQuery
  rw [atMost_of_le name (length_segments_paged hpaged hlength),
    query_of_ne_nil (by simp [hpaged]) hsql, done_bind]
  refine congrArg _ (funext fun _ => ?_)
  rw [← bind_assoc, hblock]
  rfl

omit hplain in
theorem pagedQuery_of_eq_nil (name : MacroName) (hlength : rest.length ≤ 4)
    (hsql : Text.trim sql = []) :
    pagedQuery paging name paged = fail (.missing .query) paged.normalized := by
  unfold pagedQuery
  rw [atMost_of_le name (length_segments_paged hpaged hlength),
    query_of_eq_nil (by simp [hpaged]) hsql]
  rfl

omit hpaged in
theorem plainQuery_of_eq_nil (name : MacroName) (hlength : rest.length ≤ 4)
    (hsql : Text.trim sql = []) :
    plainQuery name plain = fail (.missing .query) plain.normalized := by
  unfold plainQuery
  rw [atMost_of_le name (length_segments_plain hplain hlength),
    query_of_eq_nil (by simp [hplain]) hsql]
  rfl

omit hplain in
theorem pagedQuery_of_lt (name : MacroName) (hlength : 4 < rest.length) :
    pagedQuery paging name paged
      = fail (.tooMany name 6 (paged.segments.length - 1)) paged.normalized := by
  unfold pagedQuery
  rw [atMost_of_lt name (by simp only [hpaged, List.length_cons]; omega)]
  rfl

omit hpaged in
theorem plainQuery_of_lt (name : MacroName) (hlength : 4 < rest.length) :
    plainQuery name plain
      = fail (.tooMany name 5 (plain.segments.length - 1)) plain.normalized := by
  unfold plainQuery
  rw [atMost_of_lt name (by simp only [hplain, List.length_cons]; omega)]
  rfl

end
end Plan

/-! ## 3. Runs -/

/-- The diagnostics are about the same fault; they may show the usages of two macros. -/
structure Diagnostic.SameFault (d d' : Diagnostic) : Prop where
  kind : d.kind = d'.kind
  message : d.message = d'.message
  detail : d.detail = d'.detail

theorem Diagnostic.sameFault_orUsage (d : Diagnostic) (usage usage' : Option Usage) :
    (d.orUsage usage).SameFault (d.orUsage usage') := ⟨rfl, rfl, rfl⟩

/-- What a run reports does not depend on the usage that explains it. -/
theorem Run.explain_explain (run : Run) (usage usage' : Option Usage) :
    ((run.explain usage).diagnostic.isSome ↔ (run.explain usage').diagnostic.isSome) ∧
    ∀ d d', (run.explain usage).diagnostic = some d → (run.explain usage').diagnostic = some d' →
      d.SameFault d' ∧ d.context = d'.context := by
  unfold explain
  cases run.diagnostic with
  | none =>
    refine ⟨Iff.rfl, ?_⟩
    intro d d' hd
    cases hd
  | some reported =>
    refine ⟨Iff.rfl, ?_⟩
    intro d d' hd hd'
    cases hd
    cases hd'
    exact ⟨reported.sameFault_orUsage usage usage', rfl⟩

theorem Plan.run_fail (fault : Fault) (context : Text) (oracle : Oracle) (usage : Option Usage) :
    ((fail fault context).run oracle).explain usage
      = ⟨[], some ((fault.report context).orUsage usage)⟩ := rfl

/-- A plan that asks one statement and then fails does both under every oracle. -/
theorem Plan.run_askWhole_fail (statement : Text) (part : Part) (fault : Fault) (context : Text)
    (oracle : Oracle) (usage : Option Usage) :
    let run := ((askWhole statement part >>= fun _ => fail fault context).run oracle).explain usage
    run.diagnostic.isSome ∧ run.statements = [statement] := by
  cases h : oracle [] statement with
  | none => simp [Plan.run, Run.explain, askWhole, ask, fail, trace, Trace.run, h]
  | some failure => simp [Plan.run, Run.explain, askWhole, ask, fail, trace, Trace.run, h]

/-- **Paging adds a block to a query and nothing else.** With a valid block, the same statements are
asked as without it, and the runs end alike: up to four clauses, with the same fault in the same
context, unless there is no query, which is reported with the literal. With any other block the run
fails behind the query, whatever the oracle says. -/
theorem Family.check_paging (paging : Plan.Paging) (name name' : MacroName) (oracle : Oracle)
    {paged plain : Call} {head head' sql block : Text} {rest : List Text}
    (hpaged : paged.segments = head :: sql :: block :: rest)
    (hplain : plain.segments = head' :: sql :: rest) :
    let run := paging.family.check name paged oracle
    let run' := Family.select.check name' plain oracle
    (paging.Valid block → run.statements = run'.statements ∧
      (run.diagnostic.isSome ↔ run'.diagnostic.isSome) ∧
      (rest.length ≤ 4 → ∀ d d', run.diagnostic = some d → run'.diagnostic = some d' →
        d.SameFault d' ∧
        if Text.trim sql = [] then
          d.context = some paged.normalized ∧ d'.context = some plain.normalized
        else d.context = d'.context)) ∧
    (¬paging.Valid block → rest.length ≤ 4 → Text.trim sql ≠ [] →
      run.diagnostic.isSome ∧ run.statements = [Text.trim sql]) := by
  intro run run'
  have hrun : run = ((Plan.pagedQuery paging name paged).run oracle).explain name.usage? := by
    show ((paging.family.plan name paged).run oracle).explain name.usage? = _
    rw [paging.plan_family]
  have hrun' : run' = ((Plan.plainQuery name' plain).run oracle).explain name'.usage? := rfl
  constructor
  · intro hvalid
    by_cases hlength : rest.length ≤ 4
    · by_cases hsql : Text.trim sql = []
      · -- Without a query nothing is asked.
        rw [Plan.pagedQuery_of_eq_nil hpaged name hlength hsql, Plan.run_fail] at hrun
        rw [Plan.plainQuery_of_eq_nil hplain name' hlength hsql, Plan.run_fail] at hrun'
        rw [hrun, hrun']
        refine ⟨rfl, Iff.rfl, ?_⟩
        rintro - d d' hd hd'
        cases hd
        cases hd'
        rw [if_pos hsql]
        exact ⟨⟨rfl, rfl, rfl⟩, rfl, rfl⟩
      · rw [Plan.pagedQuery_eq hpaged hplain name name' hlength hsql hvalid] at hrun
        obtain ⟨hends, hsame⟩ := Run.explain_explain
          ((Plan.plainQuery name' plain).run oracle) name.usage? name'.usage?
        rw [← hrun, ← hrun'] at hends hsame
        refine ⟨?_, hends, ?_⟩
        · rw [hrun, hrun']
          rfl
        · rintro - d d' hd hd'
          rw [if_neg hsql]
          exact hsame d d' hd hd'
    · -- There are too many clauses for either template.
      have hlt : 4 < rest.length := Nat.lt_of_not_le hlength
      rw [Plan.pagedQuery_of_lt hpaged name hlt, Plan.run_fail] at hrun
      rw [Plan.plainQuery_of_lt hplain name' hlt, Plan.run_fail] at hrun'
      rw [hrun, hrun']
      exact ⟨rfl, Iff.rfl, fun h => absurd h hlength⟩
  · intro hvalid hlength hsql
    obtain ⟨fault, context, hplan⟩ := Plan.pagedQuery_of_not_valid hpaged name hlength hsql hvalid
    rw [hrun, hplan]
    exact Plan.run_askWhole_fail _ _ fault context oracle name.usage?

/-- A page is read from three keys in any case, and the condition is rejected; without the row limit
the block is refused. -/
theorem Family.check_paging_of_page :
    let rest : List Text := ["", "a = 1"]
    let block : Text := "pageNo=1, PAGESIZE = :n, rownum=10"
    let paged : Call := ⟨[], [], [], "selectPage" :: "select 1" :: block :: rest, false⟩
    let short : Call := ⟨[], [], [], "selectPage" :: "select 1" :: "pageNo=1" :: rest, false⟩
    let plain : Call := ⟨[], [], [], "select" :: "select 1" :: rest, false⟩
    let oracle := Oracle.scripted [none, some (.query (.grammar "no".toList))]
    (Plan.Paging.page.family.check .selectPage paged oracle).statements
        = (Family.select.check .select plain oracle).statements ∧
      (Plan.Paging.page.family.check .selectPage short oracle).statements
        = [Text.trim "select 1".toList] := by
  intro rest block paged short plain oracle
  have hvalid : Plan.Paging.page.Valid block := by decide +kernel
  have hshort : ¬Plan.Paging.page.Valid "pageNo=1" := by decide +kernel
  have hpaged : paged.segments = _ :: "select 1".toList :: _ :: rest := rfl
  have hpaged' : short.segments = _ :: "select 1".toList :: _ :: rest := rfl
  have hplain : plain.segments = _ :: "select 1".toList :: rest := rfl
  have hagree := Family.check_paging .page .selectPage .select oracle hpaged hplain
  have hfail := Family.check_paging .page .selectPage .select oracle hpaged' hplain
  exact ⟨(hagree.1 hvalid).1, (hfail.2 hshort (by decide) (by decide +kernel)).2⟩

end MacroLint
