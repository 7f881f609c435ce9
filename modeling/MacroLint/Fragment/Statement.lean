import MacroLint.Fragment.Entry

/-!
# Statements

A fragment cannot be parsed alone, so it is put into the smallest statement in which it stands where
it will stand later. Where such a statement needs a table and the literal gives none, the table is
`dual`. The statements of two macros, an update in its table form and a copy between tables, are
composed from several parameters.
-/

set_option autoImplicit false

namespace MacroLint.Fragment

open Text

/-- The table of a statement that needs one and has none. -/
def dual : Text := "dual"

/-- A condition behind WHERE. -/
def whereStatement (table condition : Text) : Text :=
  "SELECT * FROM " ++ table ++ " WHERE " ++ condition

/-- A list of query fields. -/
def fieldsStatement (fields : Text) : Text := "SELECT " ++ fields ++ " FROM " ++ dual

/-- A clause such as ORDER BY at the end of a query. -/
def tailStatement (clause : Text) : Text := "SELECT * FROM " ++ dual ++ ' ' :: clause

/-- The fields of one row, columns and values in two lists of the same order. -/
def insertStatement (table : Text) (fields : List Entry) : Text :=
  "INSERT INTO " ++ table ++ " (" ++ joined ", " (fields.map Entry.key) ++ ") VALUES ("
    ++ joined ", " (fields.map Entry.valueOrBind) ++ ")"

/-- Assignments behind SET. -/
def setStatement (table assignments : Text) : Text :=
  "UPDATE " ++ table ++ " SET " ++ assignments

/-- The fields as assignments. -/
def assignments (fields : List Entry) : Text :=
  joined ", " (fields.map fun e => e.key ++ " = " ++ e.valueOrBind)

/-- A condition at the end of a statement, if there is one. -/
def whereTail : Option Text → Text
  | none => []
  | some condition => " WHERE " ++ condition

/-- Copies rows of `source` into `target`: the mapped columns, or all of them without a mapping. -/
def copyStatement (target source : Text) (mapping : List (Text × Text)) (condition : Option Text) :
    Text :=
  match mapping with
  | [] => "INSERT INTO " ++ target ++ " SELECT * FROM " ++ source ++ whereTail condition
  | _ =>
    "INSERT INTO " ++ target ++ " (" ++ joined ", " (mapping.map Prod.fst) ++ ") SELECT "
      ++ joined ", " (mapping.map Prod.snd) ++ " FROM " ++ source ++ whereTail condition

end MacroLint.Fragment
