import MacroLint.Diagnostic
import MacroLint.Literal.Bracket
import MacroLint.Literal.Call

/-!
# Faults

Everything that can be wrong with a literal, as a cause and not as a text: the kind and the wording
of each fault are functions of it. A fault becomes a diagnostic together with the text it was found
in.
-/

set_option autoImplicit false

namespace MacroLint

open Literal (BracketFault CallFault)

/-- What a message can refer to: a parameter, or a statement made of parameters. -/
inductive Part where
  | table
  | targetTable
  | sourceTable
  | tableOrStatement
  | condition
  | conditionStatement
  | dynamicCondition
  | dynamicClause
  | fieldList
  | setFields
  | setClause
  | setFieldsOrClause
  | query
  | queryFields
  | tailClause
  | paging
  | rowLimit
  | sequenceName
  | copyStatement
  | updateStatement
  deriving DecidableEq, Repr

/-- The words for a part, as in the templates. -/
def Part.words : Part → Text
  | table => "[table]"
  | targetTable => "[target table]"
  | sourceTable => "[source table]"
  | tableOrStatement => "[table] or UPDATE statement"
  | condition => "[condition]"
  | conditionStatement => "[condition] statement"
  | dynamicCondition => "[dynamic condition]"
  | dynamicClause => "every [dynamic condition] clause"
  | fieldList => "[field list]"
  | setFields => "[set fields]"
  | setClause => "[set clause]"
  | setFieldsOrClause => "[set fields] or [set clause]"
  | query => "[sql]"
  | queryFields => "[query fields]"
  | tailClause => "[group/order clause]"
  | paging => "[paging]"
  | rowLimit => "[rownum]"
  | sequenceName => "[sequence name]"
  | copyStatement => "[insertSelect] statement"
  | updateStatement => "[update] statement"

/-- The causes for which a literal is wrong. -/
inductive Fault where
  /-- The brackets do not pair up. -/
  | brackets (fault : BracketFault)
  /-- The literal is no call of a macro. -/
  | call (fault : CallFault)
  /-- No macro has this name. -/
  | unknownName (name : Text)
  /-- A required parameter is missing or blank. -/
  | missing (part : Part)
  /-- There are more parameters than the template of the macro has. -/
  | tooMany (name : MacroName) (allowed found : Nat)
  /-- A table name is no word. -/
  | tableName (part : Part) (name : Text)
  /-- A sequence name is no identifier. -/
  | sequenceName (name : Text)
  /-- A condition references no bind variable. -/
  | noBind (part : Part)
  /-- A dynamic condition stands beside a complete statement. -/
  | dynamicBesideStatement
  /-- A parameter follows a complete statement. -/
  | afterStatement
  /-- A clause of a dynamic condition is empty. -/
  | emptyClause
  /-- An entry of a field list has an empty key. -/
  | emptyEntry (part : Part)
  /-- A key of a field list is no word. -/
  | fieldName (key : Text)
  /-- A field has an equals sign and no value behind it. -/
  | noValue (key : Text)
  /-- A field is listed twice. -/
  | repeatedField (key : Text)
  /-- An entry is not of the form `target = source`. -/
  | mappingShape (entry : Text)
  /-- A column is the target of two mappings. -/
  | repeatedTarget (column : Text)
  /-- A paging block has a key it does not know. -/
  | pagingKey (part : Part) (key : Text)
  /-- The value of a paging key is neither a positive integer nor a bind variable. -/
  | pagingValue (key value : Text)
  /-- A paging key is set twice. -/
  | repeatedPagingKey (part : Part) (key : Text)
  /-- A paging block does not set the number of rows. -/
  | noRowLimit (part : Part)
  /-- A statement was rejected. -/
  | rejected (part : Part)
  deriving DecidableEq, Repr

namespace Fault

/-- The kind of a fault. -/
def kind : Fault → Kind
  | brackets _ | call _ => .format
  | unknownName _ => .unknownName
  | missing _ => .arity
  | tableName .. | sequenceName _ | emptyClause | emptyEntry _ | fieldName _ | noValue _
  | mappingShape _ | pagingKey .. | pagingValue .. => .pattern
  | tooMany .. | noBind _ | dynamicBesideStatement | afterStatement | repeatedField _
  | repeatedTarget _ | repeatedPagingKey .. | noRowLimit _ => .rule
  | rejected _ => .statement

/-- A text in single quotes. -/
def quoted (t : Text) : Text := '\'' :: t ++ ['\'']

/-- The wording of a fault. -/
def message : Fault → Text
  | brackets .absent | call .noSegment => "syntax invalid, see documentation"
  | brackets .unopened => "missing left bracket ["
  | brackets .unclosed => "missing right bracket ]"
  | call (.unknownFlag letter) => "unknown macro flag <" ++ letter :: ">"
  | unknownName name => "cannot resolve macro name: " ++ name
  | missing part => "missing " ++ part.words
  | tooMany name allowed found =>
    "[" ++ name.spelling ++ "] accepts at most " ++ Nat.toDigits 10 allowed
      ++ " parameter(s), found " ++ Nat.toDigits 10 found
  | tableName part name => "invalid " ++ part.words ++ " " ++ quoted name
  | sequenceName name =>
    "invalid " ++ Part.sequenceName.words ++ " " ++ quoted name ++ ", must start with a letter"
  | noBind part => part.words ++ " must reference a bind variable"
  | dynamicBesideStatement => Part.dynamicCondition.words ++ " is not allowed in <T> mode"
  | afterStatement => "a complete UPDATE statement accepts no further parameters"
  | emptyClause => "empty clause in " ++ Part.dynamicCondition.words
  | emptyEntry part => "empty entry in " ++ part.words
  | fieldName key => "invalid field name " ++ quoted key
  | noValue key => "missing value for field " ++ quoted key
  | repeatedField key => "duplicate field " ++ quoted key
  | mappingShape entry =>
    "invalid field mapping " ++ quoted entry ++ ", expected target=source"
  | repeatedTarget column => "target column " ++ quoted column ++ " is mapped twice"
  | pagingKey part key => "unknown " ++ part.words ++ " key " ++ quoted key
  | pagingValue key value =>
    key ++ " must be a positive integer or a bind variable, found " ++ quoted value
  | repeatedPagingKey part key => "duplicate " ++ part.words ++ " key " ++ quoted key
  | noRowLimit part => part.words ++ " must set rownum"
  | rejected part => "cannot parse " ++ part.words

/-- The diagnostic for a fault found in a text. -/
def report (fault : Fault) (context : Text) : Diagnostic :=
  (Diagnostic.ofMessage fault.kind fault.message).inContext context

@[simp] theorem kind_report (fault : Fault) (context : Text) :
    (fault.report context).kind = fault.kind := rfl

@[simp] theorem context_report (fault : Fault) (context : Text) :
    (fault.report context).context = some context := rfl

@[simp] theorem detail_report (fault : Fault) (context : Text) :
    (fault.report context).detail = none := rfl

@[simp] theorem usage_report (fault : Fault) (context : Text) :
    (fault.report context).usage = none := rfl

end Fault
end MacroLint
