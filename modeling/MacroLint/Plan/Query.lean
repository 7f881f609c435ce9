import MacroLint.Fragment.Shape
import MacroLint.Plan.Parameter

/-!
# Queries

The query macros start with a complete query, which is asked at once. Four optional clauses end
their templates; each is asked in the smallest query on `dual` that it fits into. Between the two
stands, for the macros that page or limit their rows, a block of keys and values.

The block is read entry by entry. Each key is known in any ASCII case by one spelling, which is what
messages use and what decides whether a key is set twice.
-/

set_option autoImplicit false

namespace MacroLint.Plan

open Fragment Literal

/-! ## Clauses -/

/-- The optional clauses, the first of which has its place at `position`. -/
def queryClauses (call : Call) (position : Nat) : Plan Unit := do
  forPresent (call.param? position) fun fields =>
    ask ⟨fieldsStatement fields, .queryFields, fields⟩
  forPresent (call.param? (position + 1)) (askCondition dual)
  forPresent (call.param? (position + 2)) (askDynamic dual)
  forPresent (call.param? (position + 3)) fun clause =>
    ask ⟨tailStatement clause, .tailClause, clause⟩

/-- The query itself, at its place behind the name. -/
def query (call : Call) : Plan Unit := do
  let statement ← required call 1 .query
  askWhole statement .query

/-- `[sql][query fields][condition][dynamic condition][group/order clause]`. -/
def plainQuery (name : MacroName) (call : Call) : Plan Unit := do
  atMost name call 6
  query call
  queryClauses call 2

/-! ## Paging blocks -/

/-- The two kinds of paging block. -/
inductive Paging where
  /-- Page number, page size and number of rows. -/
  | page
  /-- The number of rows alone. -/
  | limit
  deriving DecidableEq, Repr

namespace Paging

/-- The key that every block has to set. -/
def rowLimitKey : Text := "rownum"

/-- The keys of a block in their canonical spelling. -/
def keys : Paging → List Text
  | page => ["pageNo", "pageSize", rowLimitKey]
  | limit => [rowLimitKey]

/-- The part that a block is reported as. -/
def part : Paging → Part
  | page => .paging
  | limit => .rowLimit

/-- The canonical spelling of a key. -/
def key? (paging : Paging) (written : Text) : Option Text :=
  paging.keys.find? fun key => Text.lower key == Text.lower written

/-- The keys that some entries set, in canonical spelling, given the keys set before them. -/
def keysSet (paging : Paging) (seen : List Text) : List Entry → Except Fault (List Text)
  | [] => .ok seen
  | entry :: rest =>
    match paging.key? entry.key with
    | none => .error (.pagingKey paging.part entry.key)
    | some key =>
      if !isPageValue (entry.value.getD []) then .error (.pagingValue key (entry.value.getD []))
      else if key ∈ seen then .error (.repeatedPagingKey paging.part key)
      else keysSet paging (key :: seen) rest

/-- Admits a paging block. -/
def accept (paging : Paging) (block : Text) : Plan Unit :=
  match paging.keysSet [] (entries block) with
  | .error fault => fail fault block
  | .ok keys => Plan.require (keys.contains rowLimitKey) (.noRowLimit paging.part) block

end Paging

/-- `[sql][paging block]` and the optional clauses. -/
def pagedQuery (paging : Paging) (name : MacroName) (call : Call) : Plan Unit := do
  atMost name call 7
  query call
  let block ← required call 2 paging.part
  paging.accept block
  queryClauses call 3

end MacroLint.Plan
