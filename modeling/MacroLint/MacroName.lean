import MacroLint.Text.Blank

/-!
# Macro names

The allow-list of macros. A literal is accepted only if its first segment names one of them, in any
ASCII case and with blanks around it. The order of `MacroName.all` is the order in which the list is
shown.
-/

set_option autoImplicit false

namespace MacroLint

/-- The macros a literal may name. -/
inductive MacroName where
  | existsRow
  | insert
  | insertSelect
  | batchInsert
  | delete
  | batchDelete
  | update
  | batchUpdate
  | select
  | selectList
  | selectRowNum
  | selectPage
  | getSerialNo
  | getSequence
  | truncate
  | getTableColumn
  | selectDynaSql
  | selectDynaRowNumSql
  | selectDynaPageSql
  | getPrefetchSeq
  deriving DecidableEq, Repr

namespace MacroName

/-- All macros, in the order of the list. -/
def all : List MacroName :=
  [existsRow, insert, insertSelect, batchInsert, delete, batchDelete, update, batchUpdate, select,
    selectList, selectRowNum, selectPage, getSerialNo, getSequence, truncate, getTableColumn,
    selectDynaSql, selectDynaRowNumSql, selectDynaPageSql, getPrefetchSeq]

/-- The canonical spelling of a name. -/
def spelling : MacroName → Text
  | existsRow => "exists"
  | insert => "insert"
  | insertSelect => "insertSelect"
  | batchInsert => "batchInsert"
  | delete => "delete"
  | batchDelete => "batchDelete"
  | update => "update"
  | batchUpdate => "batchUpdate"
  | select => "select"
  | selectList => "selectList"
  | selectRowNum => "selectRowNum"
  | selectPage => "selectPage"
  | getSerialNo => "getSerialNo"
  | getSequence => "getSequence"
  | truncate => "truncate"
  | getTableColumn => "getTableColumn"
  | selectDynaSql => "selectDynaSql"
  | selectDynaRowNumSql => "selectDynaRowNumSql"
  | selectDynaPageSql => "selectDynaPageSql"
  | getPrefetchSeq => "getPrefetchSeq"

/-- The macro that a text names, blanks around it and ASCII case aside. -/
def ofText? (t : Text) : Option MacroName :=
  all.find? fun name => Text.lower name.spelling == Text.lower (Text.trim t)

/-- The list leaves no macro out. -/
theorem mem_all (name : MacroName) : name ∈ all := by
  cases name <;> simp [all]

/-- Each macro is found under its own spelling. -/
theorem ofText?_spelling (name : MacroName) : ofText? name.spelling = some name := by
  cases name <;> decide +kernel

end MacroName
end MacroLint
