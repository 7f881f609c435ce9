import MacroLint.MacroName

/-!
# Families

Macros whose parameters have the same shape are checked alike; such a group is a family. Five
macros of the list belong to none: a literal that names one passes once its name is known.
-/

set_option autoImplicit false

namespace MacroLint

/-- A group of macros whose parameters have the same shape. -/
inductive Family where
  /-- Whether a row exists: a table and conditions on its rows. -/
  | existsRow
  /-- Deleting rows: the same parameters as `existsRow`. -/
  | delete
  /-- A table and a list of fields to insert. -/
  | insertFields
  /-- A table and one condition. -/
  | batchCondition
  /-- Copying rows between two tables. -/
  | insertSelect
  /-- A query with optional clauses. -/
  | select
  /-- A query with a paging block and optional clauses. -/
  | selectPage
  /-- A query with a row limit and optional clauses. -/
  | selectRowNum
  /-- Updating rows, by a statement or by a table and assignments. -/
  | update
  /-- A table and the name of a sequence. -/
  | getSequence
  /-- A table alone. -/
  | truncate
  deriving DecidableEq, Repr

/-- The family of a macro, `none` for a macro whose parameters are not checked. -/
def MacroName.family? : MacroName → Option Family
  | existsRow => some .existsRow
  | delete => some .delete
  | insert | batchInsert | getSerialNo => some .insertFields
  | batchDelete | getPrefetchSeq => some .batchCondition
  | insertSelect => some .insertSelect
  | select | selectList => some .select
  | selectPage => some .selectPage
  | selectRowNum => some .selectRowNum
  | update => some .update
  | getSequence => some .getSequence
  | truncate => some .truncate
  | batchUpdate | getTableColumn | selectDynaSql | selectDynaRowNumSql | selectDynaPageSql => none

end MacroLint
