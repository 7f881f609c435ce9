import MacroLint.Proofs.Fragment.Shapes
import MacroLint.Proofs.Plan.Readers
import MacroLint.Proofs.Plan.Undisturbed

/-!
# Copying mapped columns

Rows are copied between two tables that are named, and with a list of mappings only the mapped
columns are. The list is read entry by entry, with the target columns before an entry at hand; that
every entry is a mapping and no column is a target twice (`MapsColumns`) is what the reading comes
to, wherever in the list the two targets stand (`mappings_eq_ok_iff`).

The statement lists targets and sources apart. They stay aligned because they are the two sides of
one list of pairs, which holds one pair for each entry, in the order of the entries.
-/

set_option autoImplicit false

namespace MacroLint

open Fragment Literal

/-! ## 1. The language -/

namespace Fragment

/-- The list maps these columns: one pair of columns is written in each of its entries, and the
target columns differ in more than case. -/
structure MapsColumns (list : Text) (columns : List (Text × Text)) : Prop where
  entries : List.Forall₂ IsMapping (list.splitOn ',') columns
  distinct : (columns.map fun column => Text.lower column.1).Nodup

/-- The columns that are mapped by a list, if there is one, and none without a list. -/
def MapsIfPresent : Option Text → List (Text × Text) → Prop
  | none, columns => columns = []
  | some list, columns => MapsColumns list columns

/-- A list maps one column at least. -/
theorem MapsColumns.ne_nil {list : Text} {columns : List (Text × Text)}
    (h : MapsColumns list columns) : columns ≠ [] := by
  rintro rfl
  exact List.splitOn_ne_nil ',' list (List.forall₂_nil_right_iff.mp h.entries)

end Fragment

/-- The call names two tables, and maps columns if it has a list of mappings. -/
structure Literal.Call.CopiesRows (call : Call) (target source : Text)
    (columns : List (Text × Text)) : Prop where
  count : call.segments.length ≤ 5
  target : call.param? 1 = some target ∧ Text.isWord target = true
  source : call.param? 2 = some source ∧ Text.isWord source = true
  columns : MapsIfPresent (call.param? 3) columns

/-! ## 2. The plan -/

namespace Plan

variable {call : Call} {statements : List Text}

theorem yields_mappingList_iff {list : Option Text} {columns : List (Text × Text)} :
    (mappingList list).Yields statements columns ↔
      MapsIfPresent list columns ∧ statements = [] := by
  cases list with
  | none => simp [mappingList, MapsIfPresent, yields_done_iff, eq_comm]
  | some list =>
    have hread : mappings [] ((split list).map Text.trim) = .ok columns ↔
        MapsColumns list columns := by
      rw [mappings_eq_ok_iff, List.forall₂_map_left_iff]
      simp only [mapping?_trim_iff, forall₂_split_iff fun _ _ => IsMapping.isPlain]
      constructor
      · intro ⟨hentries, hdistinct, _⟩
        exact ⟨hentries, hdistinct⟩
      · intro h
        exact ⟨h.entries, h.distinct, fun _ _ => List.not_mem_nil⟩
    show _ ↔ MapsColumns list columns ∧ statements = []
    rw [← hread, mappingList]
    cases mappings [] ((split list).map Text.trim) with
    | error fault => simp [not_yields_fail]
    | ok read => simp [yields_done_iff]

theorem yields_transfer_iff (name : MacroName) {u : Unit} :
    (transfer name call).Yields statements u ↔
      ∃ copy : Text × Text × List (Text × Text), call.CopiesRows copy.1 copy.2.1 copy.2.2 ∧
        statements = (call.param? 4).toList.map (whereStatement copy.2.1)
          ++ [copyStatement copy.1 copy.2.1 copy.2.2 (call.param? 4)] := by
  rw [transfer, yields_atMost_bind_iff, yields_tableAt_bind_iff]
  simp only [yields_tableAt_bind_iff, yields_bind_iff_of_silent fun _ _ => yields_mappingList_iff,
    yields_forCondition_bind_iff, askWhole, yields_ask_iff]
  constructor
  · rintro ⟨hcount, target, htarget, source, hsource, columns, hcolumns, _, rfl, hasked⟩
    exact ⟨(target, source, columns), ⟨hcount, htarget, hsource, hcolumns⟩, hasked⟩
  · rintro ⟨⟨target, source, columns⟩, h, hasked⟩
    exact ⟨h.count, target, h.target, source, h.source, columns, h.columns, _, rfl, hasked⟩

end Plan

/-! ## 3. The check -/

/-- **What can be copied, exactly.** The calls that are admitted by an oracle that accepts
everything are those that name two tables and map columns wherever they have a list; the list is cut
at every comma for this. The condition is asked by itself, if there is one, and then one statement
that lists the columns pair by pair, or copies all of them. -/
theorem Family.check_insertSelect_language (name : MacroName) (call : Call) :
    let run := Family.insertSelect.check name call .lenient
    (run.diagnostic = none ↔ ∃ target source columns, call.CopiesRows target source columns) ∧
    ∀ target source columns, call.CopiesRows target source columns →
      (call.param? 3 = none →
        run.statements = (call.param? 4).toList.map (whereStatement source)
          ++ ["INSERT INTO " ++ target ++ " SELECT * FROM " ++ source
            ++ whereTail (call.param? 4)]) ∧
      ((call.param? 3).isSome →
        run.statements = (call.param? 4).toList.map (whereStatement source)
          ++ ["INSERT INTO " ++ target ++ " (" ++ Text.joined ", " (columns.map Prod.fst)
            ++ ") SELECT " ++ Text.joined ", " (columns.map Prod.snd) ++ " FROM " ++ source
            ++ whereTail (call.param? 4)]) := by
  intro run
  obtain ⟨haccepted, hasked⟩ := @check_lenient .insertSelect name call _ _ _
    fun _ => Plan.yields_transfer_iff name
  refine ⟨?_, ?_⟩
  · simp only [run, haccepted, Prod.exists]
  · intro target source columns h
    have hrun := hasked (target, source, columns) h
    have hcolumns := h.columns
    refine ⟨?_, ?_⟩
    · intro hnone
      rw [hnone] at hcolumns
      obtain rfl : columns = [] := hcolumns
      exact hrun
    · intro hsome
      obtain ⟨list, hlist⟩ := Option.isSome_iff_exists.mp hsome
      rw [hlist] at hcolumns
      have hne : columns ≠ [] := MapsColumns.ne_nil hcolumns
      obtain ⟨first, rest, rfl⟩ := List.exists_cons_of_ne_nil hne
      exact hrun

/-- Two columns are copied where a condition holds, and all of them without a list. A list whose
only comma is between parentheses is cut there, and no piece of it is a mapping. -/
theorem Family.check_insertSelect_language_of_nested_comma :
    let mapped : Call :=
      ⟨[], [], [], ["insertSelect", "t", "s", " id = src_id ,\tName=nom", "c = :c"], false⟩
    let all : Call := ⟨[], [], [], ["insertSelect", "t", "s", " "], false⟩
    let nested : Call := ⟨[], [], [], ["insertSelect", "t", "s", "a = f(b, c)"], false⟩
    (Family.insertSelect.check .insertSelect mapped .lenient).statements
        = ["SELECT * FROM s WHERE c = :c".toList,
          "INSERT INTO t (id, Name) SELECT src_id, nom FROM s WHERE c = :c".toList] ∧
      (Family.insertSelect.check .insertSelect all .lenient).statements
        = ["INSERT INTO t SELECT * FROM s".toList] ∧
      (Family.insertSelect.check .insertSelect nested .lenient).diagnostic ≠ none := by
  intro mapped all nested
  refine ⟨?_, ?_, ?_⟩
  · have hcolumns : MapsColumns "id = src_id ,\tName=nom" [("id", "src_id"), ("Name", "nom")] := by
      refine ⟨?_, by decide⟩
      refine .cons (mapping?_trim_iff.mp ?_) (.cons (mapping?_trim_iff.mp ?_) .nil)
      · decide
      · decide
    have hcopies : mapped.CopiesRows "t" "s" [("id", "src_id"), ("Name", "nom")] :=
      ⟨by decide, ⟨rfl, by decide⟩, ⟨rfl, by decide⟩, hcolumns⟩
    exact ((check_insertSelect_language .insertSelect mapped).2 _ _ _ hcopies).2 rfl
  · have hcopies : all.CopiesRows "t" "s" [] :=
      ⟨by decide, ⟨rfl, by decide⟩, ⟨rfl, by decide⟩, rfl⟩
    exact ((check_insertSelect_language .insertSelect all).2 _ _ _ hcopies).1 rfl
  · intro hnone
    obtain ⟨_, _, columns, hcopies⟩ :=
      (check_insertSelect_language .insertSelect nested).1.mp hnone
    have hcolumns : MapsColumns "a = f(b, c)" columns := hcopies.columns
    have hcut : List.splitOn ',' ("a = f(b, c)" : Text) = ["a = f(b", " c)"] := by decide
    have hnone : mapping? (Text.trim "a = f(b") = none := by decide
    have hentries := hcut ▸ hcolumns.entries
    obtain ⟨column, _, hfirst, -⟩ := List.forall₂_cons_left_iff.mp hentries
    rw [hfirst.mapping?_trim] at hnone
    cases hnone

end MacroLint
