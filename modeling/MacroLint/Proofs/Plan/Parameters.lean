import Mathlib.Data.List.DropRight
import MacroLint.Proofs.Plan.Agreement
import MacroLint.Validation

/-!
# What a plan sees of its call

A plan looks at its call through four windows: the trimmed text of a parameter at a position, where
a blank parameter is no parameter (`Call.param?`); the number of segments; the flag `<T>`, in the
families that choose rows; and the normal form, which is only ever echoed. The name, the text as it
was written and the flag for aliases are seen by none.

The number of segments is the window that lets blank parameters be seen, and it is narrow. Every
plan refuses more segments than its template has (`Family.limit`), and two of them count below that
limit as well, because a complete statement admits no parameter behind it, not even a blank one
(`Family.counts`). `Family.SeesAlike` says of two calls that they look the same through all four,
and `SeesAlike.agree` that their plans agree then. It is proved for each plan by following its
steps, from those steps that look at the call to the first from which on nothing does.
-/

set_option autoImplicit false

namespace MacroLint

open Literal

/-! ## 1. Parameters by position -/

/-- The parameters of a call, trimmed, without the blank ones at the end. -/
def Literal.Call.params (call : Call) : List Text :=
  (call.segments.tail.map Text.trim).rdropWhile List.isEmpty

/-- Blank texts at the end of a list are found by none who takes a blank text for none. -/
theorem getElem?_rdropWhile_isEmpty (texts : List Text) (position : Nat) :
    ((texts.rdropWhile List.isEmpty)[position]?).filter (fun t => !t.isEmpty)
      = texts[position]?.filter fun t => !t.isEmpty := by
  induction texts using List.reverseRecOn with
  | nil => rfl
  | append_singleton texts last ih =>
    rw [List.rdropWhile_concat]
    split
    · rename_i hlast
      have hnil : last = [] := List.isEmpty_iff.mp hlast
      rw [ih, hnil]
      rcases Nat.lt_trichotomy position texts.length with hlt | rfl | hgt
      · rw [List.getElem?_append_left hlt]
      · rw [List.getElem?_concat_length, List.getElem?_eq_none (Nat.le_refl _)]
        rfl
      · have hbeyond : (texts ++ [[]]).length ≤ position := by
          rw [List.length_append]
          exact hgt
        rw [List.getElem?_eq_none hbeyond, List.getElem?_eq_none (Nat.le_of_lt hgt)]
    · rfl

theorem Literal.Call.param?_succ (call : Call) (position : Nat) :
    call.param? (position + 1) = call.params[position]?.filter fun t => !t.isEmpty := by
  rw [Call.params, getElem?_rdropWhile_isEmpty, List.getElem?_map, List.getElem?_tail]
  rfl

/-! ## 2. Calls that look alike -/

namespace Plan

variable {echo : Text → Text → Prop} {call call' : Call}

/-- The calls have the same parameter at each position, in writings that `echo` relates. -/
structure SameParams (echo : Text → Text → Prop) (call call' : Call) : Prop where
  param? : ∀ position, call.param? (position + 1) = call'.param? (position + 1)
  normalized : echo call.normalized call'.normalized

/-- The calls have the same number of segments, or neither has more than a template admits. -/
def SameCount (limit : Nat) (call call' : Call) : Prop :=
  call.segments.length = call'.segments.length ∨
    call.segments.length ≤ limit ∧ call'.segments.length ≤ limit

theorem agree_atMost_of_sameCount (name : MacroName) {limit : Nat} (h : SameParams echo call call')
    (hcount : SameCount limit call call') :
    Agree echo Eq (atMost name call limit) (atMost name call' limit) := by
  rcases hcount with hlength | ⟨hle, hle'⟩
  · exact agree_atMost name limit hlength h.normalized
  · simp only [atMost, require, hle, hle', decide_true, if_true]
    exact .done rfl

namespace SameParams

variable (h : SameParams echo call call')
include h

theorem agree_required (position : Nat) (part : Part) :
    Agree echo Eq (required call (position + 1) part) (required call' (position + 1) part) :=
  Plan.agree_required part (h.param? position) h.normalized

theorem agree_tableAt (position : Nat) (part : Part) :
    Agree echo Eq (tableAt call (position + 1) part) (tableAt call' (position + 1) part) :=
  Plan.agree_tableAt part (h.param? position) h.normalized

/-- Most plans open with their template and a table. -/
theorem agree_opening (name : MacroName) {limit : Nat} (part : Part)
    (hcount : SameCount limit call call') {α : Type} {next next' : Text → Plan α}
    (hnext : ∀ table, Agree echo Eq (next table) (next' table)) :
    Agree echo Eq (atMost name call limit >>= fun _ => tableAt call 1 part >>= next)
      (atMost name call' limit >>= fun _ => tableAt call' 1 part >>= next') := by
  apply (agree_atMost_of_sameCount name h hcount).bind_eq
  intro _
  exact (h.agree_tableAt 0 part).bind_eq hnext

/-! ## 3. The plans, one by one -/

theorem agree_totalRows (hlength : call.segments.length = call'.segments.length) :
    Agree echo Eq (totalRows call) (totalRows call') := by
  unfold totalRows
  rw [hlength]
  apply (agree_require (Or.inr h.normalized)).bind_eq
  intro _
  apply (h.agree_required 1 .condition).bind_eq
  intro statement
  exact Agree.refl _

theorem agree_conditionedRows (table : Text) :
    Agree echo Eq (conditionedRows call table) (conditionedRows call' table) := by
  unfold conditionedRows
  rw [h.param? 1, h.param? 2]
  apply (agree_require (Or.inr h.normalized)).bind_eq
  intro _
  exact Agree.refl _

theorem agree_rows (name : MacroName) (htotal : call.has .total = call'.has .total)
    (hcount : SameCount 4 call call')
    (hlength : call.has .total = true → call.segments.length = call'.segments.length) :
    Agree echo Eq (rows name call) (rows name call') := by
  unfold rows
  apply h.agree_opening name .table hcount
  intro table
  rw [← htotal]
  cases hhas : call.has .total with
  | true => exact h.agree_totalRows (hlength hhas)
  | false => exact h.agree_conditionedRows table

theorem agree_batchRows (name : MacroName) (hcount : SameCount 3 call call') :
    Agree echo Eq (batchRows name call) (batchRows name call') := by
  unfold batchRows
  apply h.agree_opening name .table hcount
  intro table
  apply (h.agree_required 1 .condition).bind_eq
  intro condition
  exact Agree.refl _

theorem agree_allRows (name : MacroName) (hcount : SameCount 2 call call') :
    Agree echo Eq (allRows name call) (allRows name call') := by
  unfold allRows
  apply h.agree_opening name .table hcount
  intro table
  exact Agree.refl _

theorem agree_sequence (name : MacroName) (hcount : SameCount 3 call call') :
    Agree echo Eq (sequence name call) (sequence name call') := by
  unfold sequence
  apply h.agree_opening name .table hcount
  intro table
  apply (h.agree_required 1 .sequenceName).bind_eq
  intro sequence
  exact Agree.refl _

theorem agree_insertFields (name : MacroName) (hcount : SameCount 3 call call') :
    Agree echo Eq (insertFields name call) (insertFields name call') := by
  unfold insertFields
  apply h.agree_opening name .table hcount
  intro table
  apply (h.agree_required 1 .fieldList).bind_eq
  intro list
  exact Agree.refl _

theorem agree_transfer (name : MacroName) (hcount : SameCount 5 call call') :
    Agree echo Eq (transfer name call) (transfer name call') := by
  unfold transfer
  apply h.agree_opening name .targetTable hcount
  intro target
  apply (h.agree_tableAt 1 .sourceTable).bind_eq
  intro source
  rw [h.param? 2, h.param? 3]
  exact Agree.refl _

theorem queryClauses_congr (position : Nat) :
    queryClauses call (position + 1) = queryClauses call' (position + 1) := by
  unfold queryClauses
  rw [h.param? position, h.param? (position + 1), h.param? (position + 2), h.param? (position + 3)]

theorem agree_query : Agree echo Eq (query call) (query call') := by
  unfold query
  apply (h.agree_required 0 .query).bind_eq
  intro statement
  exact Agree.refl _

theorem agree_plainQuery (name : MacroName) (hcount : SameCount 6 call call') :
    Agree echo Eq (plainQuery name call) (plainQuery name call') := by
  unfold plainQuery
  apply (agree_atMost_of_sameCount name h hcount).bind_eq
  intro _
  apply h.agree_query.bind_eq
  intro _
  rw [h.queryClauses_congr 1]
  exact Agree.refl _

theorem agree_pagedQuery (paging : Paging) (name : MacroName) (hcount : SameCount 7 call call') :
    Agree echo Eq (pagedQuery paging name call) (pagedQuery paging name call') := by
  unfold pagedQuery
  apply (agree_atMost_of_sameCount name h hcount).bind_eq
  intro _
  apply h.agree_query.bind_eq
  intro _
  apply (h.agree_required 1 paging.part).bind_eq
  intro block
  rw [h.queryClauses_congr 2]
  exact Agree.refl _

theorem agree_updateInFull (statement : Text)
    (hlength : call.segments.length = call'.segments.length) :
    Agree echo Eq (updateInFull call statement) (updateInFull call' statement) := by
  unfold updateInFull
  rw [hlength]
  apply (agree_require (Or.inr h.normalized)).bind_eq
  intro _
  exact Agree.refl _

theorem agree_updateTable (name : MacroName) (hcount : SameCount 5 call call') :
    Agree echo Eq (updateTable name call) (updateTable name call') := by
  unfold updateTable
  apply h.agree_opening name .table hcount
  intro table
  rw [h.param? 1, h.param? 2, h.param? 3]
  apply (Agree.refl _).bind_eq
  intro listed
  apply (Agree.refl _).bind_eq
  intro _
  apply (Agree.refl _).bind_eq
  intro _
  -- Whether anything is set is the last thing that is reported with the literal.
  apply (agree_require (Or.inr h.normalized)).bind_eq
  intro _
  exact Agree.refl _

theorem agree_update (name : MacroName) (hcount : SameCount 5 call call')
    (hlength : (call.param? 1).any isUpdateStatement = true →
      call.segments.length = call'.segments.length) :
    Agree echo Eq (update name call) (update name call') := by
  unfold update
  have hfirst := h.param? 0
  cases hparam : call.param? 1 with
  | none =>
    rw [hparam] at hfirst
    simp only [required, hparam, ← hfirst]
    exact agree_fail (Or.inr h.normalized)
  | some first =>
    rw [hparam] at hfirst hlength
    simp only [required, hparam, ← hfirst, done_bind]
    by_cases hform : isUpdateStatement first = true
    · rw [if_pos hform, if_pos hform]
      exact h.agree_updateInFull first (hlength hform)
    · rw [if_neg hform, if_neg hform]
      exact h.agree_updateTable name hcount

end SameParams
end Plan

/-! ## 4. Families -/

namespace Family

/-- The number of segments in the template of a family, the name included. -/
def limit : Family → Nat
  | existsRow | delete => 4
  | insertFields | batchCondition | getSequence => 3
  | insertSelect | update => 5
  | select => 6
  | selectPage | selectRowNum => 7
  | truncate => 2

/-- Whether segments are counted below that limit: beside a complete statement they are. -/
def counts (family : Family) (call : Call) : Bool :=
  match family with
  | existsRow | delete => call.has .total
  | update => (call.param? 1).any Plan.isUpdateStatement
  | _ => false

/-- The plan of the family cannot tell the calls apart, but for echoes of their writings. -/
structure SeesAlike (echo : Text → Text → Prop) (family : Family) (call call' : Call) : Prop
    extends Plan.SameParams echo call call' where
  total : family = existsRow ∨ family = delete → call.has .total = call'.has .total
  count : Plan.SameCount family.limit call call'
  length : family.counts call = true → call.segments.length = call'.segments.length

/-- **A plan depends on nothing but what it sees.** -/
theorem SeesAlike.agree {echo : Text → Text → Prop} {family : Family} {call call' : Call}
    (h : family.SeesAlike echo call call') (name : MacroName) :
    Plan.Agree echo Eq (family.plan name call) (family.plan name call') := by
  cases family with
  | existsRow => exact h.agree_rows name (h.total (Or.inl rfl)) h.count h.length
  | delete => exact h.agree_rows name (h.total (Or.inr rfl)) h.count h.length
  | insertFields => exact h.agree_insertFields name h.count
  | batchCondition => exact h.agree_batchRows name h.count
  | insertSelect => exact h.agree_transfer name h.count
  | select => exact h.agree_plainQuery name h.count
  | selectPage => exact h.agree_pagedQuery .page name h.count
  | selectRowNum => exact h.agree_pagedQuery .limit name h.count
  | update => exact h.agree_update name h.count h.length
  | getSequence => exact h.agree_sequence name h.count
  | truncate => exact h.agree_allRows name h.count

/-- **Blank and absent parameters are the same, and padding is invisible**: calls whose parameters
are the same when they are trimmed, and blank ones at the end are dropped, have the same run, as
long as neither is refused for its length. Where segments are counted, their numbers have to be the
same as well. -/
theorem check_of_params_eq (family : Family) (name : MacroName) (oracle : Oracle)
    {call call' : Call} (hnormalized : call.normalized = call'.normalized)
    (hflags : call.flags = call'.flags) (hparams : call.params = call'.params)
    (hlimit : call.segments.length ≤ family.limit) (hlimit' : call'.segments.length ≤ family.limit)
    (hcounts : family.counts call = true → call.segments.length = call'.segments.length) :
    family.check name call oracle = family.check name call' oracle := by
  have hsees : family.SeesAlike Eq call call' := by
    refine ⟨⟨?_, hnormalized⟩, ?_, Or.inr ⟨hlimit, hlimit'⟩, hcounts⟩
    · intro position
      rw [Call.param?_succ, Call.param?_succ, hparams]
    · intro _
      rw [Call.has, Call.has, hflags]
  exact ((hsees.agree name).run oracle name.usage?).eq

/-- A query is written with padding and two blank parameters at its end, and its condition is
rejected. A complete statement is counted, so there the padding is all that differs. -/
theorem check_of_params_eq_of_padded :
    let padded : Call := ⟨[], "n", [], ["select", " select 1 ", "", "\ta = :a", " ", ""], false⟩
    let bare : Call := ⟨[], "n", [], ["select", "select 1", " ", "a = :a"], false⟩
    let total : Call := ⟨[], "n", [.total], ["exists", " t ", "select 1"], false⟩
    let total' : Call := ⟨[], "n", [.total], ["exists", "t", "select 1 "], false⟩
    let oracle := Oracle.scripted [none, some (.query (.grammar "no".toList))]
    select.check .select padded oracle = select.check .select bare oracle ∧
      existsRow.check .existsRow total oracle = existsRow.check .existsRow total' oracle := by
  intro padded bare total total' oracle
  have hparams : padded.params = bare.params ∧ total.params = total'.params := by decide +kernel
  constructor
  · exact check_of_params_eq select .select oracle rfl rfl hparams.1 (by decide) (by decide) nofun
  · exact check_of_params_eq existsRow .existsRow oracle rfl rfl hparams.2 (by decide) (by decide)
      fun _ => rfl

end Family
end MacroLint
