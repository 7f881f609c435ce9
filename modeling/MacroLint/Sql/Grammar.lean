import MacroLint.Sql.Token

/-!
# The grammar of statements

Four statements are known: SELECT, INSERT, UPDATE and DELETE, with the clauses and expressions that
plain SQL has. What is asked of a statement is only whether it follows the grammar, so there is no
syntax tree: the grammar is run.

A `Symbol` is something that may come next. Some symbols are optional. One token decides how a
symbol is begun: `Symbol.takes` gives the symbols that have to follow that token before the symbol
is complete, or tells that the symbol cannot begin with it. A row of symbols reads a token by its
first symbol, and passes over optional symbols that cannot begin with the token (`feed`). A text
follows the grammar when every token is read and only optional symbols are left (`follows`).

How tightly operators bind does not matter for this, with one exception that is in the grammar: the
first operand of BETWEEN ends before the AND that belongs to it, so it holds no comparison and no
AND or OR of its own.
-/

set_option autoImplicit false

namespace MacroLint.Sql

open Keyword Sign

/-- What may come next in a statement. -/
inductive Symbol where
  /-- Exactly this keyword. -/
  | word (k : Keyword)
  /-- Exactly this sign. -/
  | mark (s : Sign)
  /-- A name. -/
  | name
  /-- A whole statement. -/
  | statement
  /-- The qualification of a name: a dot and a name, any number of times. -/
  | qualifier
  /-- DISTINCT, in front of the items of a query. -/
  | distinct
  /-- An item of a query: a star, or an expression with an alias. -/
  | item
  /-- Further items, each behind a comma. -/
  | items
  /-- An alias, with or without AS. -/
  | naming
  /-- The FROM clause. -/
  | source
  /-- A table or a query in parentheses, with an alias. -/
  | table
  /-- Further tables, each behind a comma or JOIN. -/
  | tables
  /-- The condition of a join. -/
  | joinCondition
  /-- The WHERE clause. -/
  | filter
  /-- The GROUP BY clause. -/
  | grouping
  /-- The ORDER BY clause. -/
  | ordering
  /-- The direction of a sort key. -/
  | direction
  /-- Further sort keys, each behind a comma. -/
  | sortKeys
  /-- The first operand of an expression. -/
  | operand
  /-- Operators with their operands. -/
  | operations
  /-- Arithmetic operators with their operands. -/
  | arithmetic
  /-- The arguments of a function, or the qualification of a column. -/
  | call
  /-- Arguments between parentheses. -/
  | arguments
  /-- Expressions or a query between parentheses. -/
  | group
  /-- Further expressions, each behind a comma. -/
  | expressions
  /-- What a NOT behind an operand may deny. -/
  | denied
  /-- NULL or NOT NULL, behind IS. -/
  | nullTest
  /-- The start of a CASE: its operand, if any, and its first branch. -/
  | cases
  /-- Further branches of a CASE, and its end. -/
  | branches
  /-- An assignment. -/
  | assignment
  /-- Further assignments, each behind a comma. -/
  | assignments
  /-- The columns of an INSERT. -/
  | columns
  /-- Further names, each behind a comma. -/
  | names
  /-- The rows of an INSERT, or the query that gives them. -/
  | rows
  /-- Further rows, each behind a comma. -/
  | moreRows
  deriving DecidableEq, Repr

namespace Symbol

/-- The symbols that may be passed over. -/
def optional : Symbol → Bool
  | qualifier | distinct | items | naming | source | tables | joinCondition | filter | grouping
  | ordering | direction | sortKeys | operations | arithmetic | call | arguments | expressions
  | assignments | columns | names | moreRows => true
  | word _ | mark _ | name | statement | item | table | operand | group | denied | nullTest | cases
  | branches | assignment | rows => false

/-! ## Rows of symbols that occur in several places -/

/-- An expression. -/
def expression : List Symbol := [operand, operations]

/-- A query behind its SELECT. -/
def query : List Symbol := [distinct, item, items, source, filter, grouping, ordering]

/-- One row of values. -/
def row : List Symbol := [mark lparen, operand, operations, expressions, mark rparen]

/-! ## How a symbol begins -/

/-- An operand that begins with this token. The operand of a sign or a NOT in front is the next
one; what binds how far does not matter here. -/
def operandTakes : Token → Option (List Symbol)
  | .name => some [call]
  | .number | .string | .bind | .keyword NULL => some []
  | .sign minus | .sign plus | .keyword NOT => some [operand]
  | .sign lparen => some [group, mark rparen]
  | .keyword CASE => some [cases]
  | _ => none

/-- An expression that begins with this token. -/
def expressionTakes (t : Token) : Option (List Symbol) :=
  (operandTakes t).map fun rest => rest ++ [operations]

/-- A test that begins with this keyword behind an operand, and that NOT may deny. -/
def testTakes : Keyword → Option (List Symbol)
  | IN => some [mark lparen, group, mark rparen]
  | LIKE => some [operand]
  | BETWEEN => some [operand, arithmetic, word AND, operand]
  | _ => none

/-- Whether a sign is an arithmetic operator. -/
def isArithmetic : Sign → Bool
  | plus | minus | asterisk | slash => true
  | _ => false

/-- Whether a sign compares two operands. -/
def isComparison : Sign → Bool
  | equal | unequal | less | atMost | greater | atLeast => true
  | _ => false

/-- The operators and tests behind an operand. -/
def operationsTakes : Token → Option (List Symbol)
  | .sign s => if isArithmetic s || isComparison s then some expression else none
  | .keyword AND | .keyword OR => some expression
  | .keyword NOT => some [denied, operations]
  | .keyword IS => some [nullTest, operations]
  | .keyword k => (testTakes k).map fun rest => rest ++ [operations]
  | _ => none

/-- The statements by their first keyword. -/
def statementTakes : Keyword → Option (List Symbol)
  | SELECT => some query
  | INSERT => some [word INTO, name, qualifier, columns, rows]
  | UPDATE => some [table, word SET, assignment, assignments, filter]
  | DELETE => some [word FROM, table, filter]
  | _ => none

/-- The symbols that complete a symbol which begins with this token, `none` where it cannot. -/
def takes : Symbol → Token → Option (List Symbol)
  | word k, .keyword l => if k = l then some [] else none
  | mark s, .sign r => if s = r then some [] else none
  | name, .name => some []
  | statement, .keyword k => statementTakes k
  | qualifier, .sign dot => some [name, qualifier]
  | distinct, .keyword DISTINCT => some []
  | item, .sign asterisk => some []
  | item, t => (expressionTakes t).map fun rest => rest ++ [naming]
  | items, .sign comma => some [item, items]
  | naming, .keyword AS => some [name]
  | naming, .name => some []
  | source, .keyword FROM => some [table, tables]
  | table, .name => some [qualifier, naming]
  | table, .sign lparen => some (word SELECT :: query ++ [mark rparen, naming])
  | tables, .sign comma => some [table, tables]
  | tables, .keyword JOIN => some [table, joinCondition, tables]
  | joinCondition, .keyword ON => some expression
  | filter, .keyword WHERE => some expression
  | grouping, .keyword GROUP => some (word BY :: expression ++ [expressions])
  | ordering, .keyword ORDER => some (word BY :: expression ++ [direction, sortKeys])
  | direction, .keyword ASC | direction, .keyword DESC => some []
  | sortKeys, .sign comma => some (expression ++ [direction, sortKeys])
  | operand, t => operandTakes t
  | operations, t => operationsTakes t
  | arithmetic, .sign s => if isArithmetic s then some [operand, arithmetic] else none
  | call, .sign lparen => some [arguments, mark rparen]
  | call, .sign dot => some [name, call]
  | arguments, .sign asterisk => some []
  | arguments, .keyword DISTINCT => some (expression ++ [expressions])
  | arguments, t => (expressionTakes t).map fun rest => rest ++ [expressions]
  | group, .keyword SELECT => some query
  | group, t => (expressionTakes t).map fun rest => rest ++ [expressions]
  | expressions, .sign comma => some (expression ++ [expressions])
  | denied, .keyword k => testTakes k
  | nullTest, .keyword NOT => some [word NULL]
  | nullTest, .keyword NULL => some []
  | cases, .keyword WHEN => some (expression ++ word THEN :: expression ++ [branches])
  | cases, t =>
    (expressionTakes t).map fun rest =>
      rest ++ word WHEN :: expression ++ word THEN :: expression ++ [branches]
  | branches, .keyword WHEN => some (expression ++ word THEN :: expression ++ [branches])
  | branches, .keyword ELSE => some (expression ++ [word END])
  | branches, .keyword END => some []
  | assignment, .name => some (qualifier :: mark equal :: expression)
  | assignments, .sign comma => some [assignment, assignments]
  | columns, .sign lparen => some [name, names, mark rparen]
  | names, .sign comma => some [name, names]
  | rows, .keyword VALUES => some (row ++ [moreRows])
  | rows, .keyword SELECT => some query
  | moreRows, .sign comma => some (row ++ [moreRows])
  | _, _ => none

end Symbol

/-- The symbols that are left when a row of symbols has read a token, `none` where it cannot. -/
def feed (t : Token) : List Symbol → Option (List Symbol)
  | [] => none
  | s :: rest =>
    match s.takes t with
    | some begun => some (begun ++ rest)
    | none => if s.optional then feed t rest else none

/-- The symbols that are left when a row of symbols has read some tokens. -/
def feedAll (row : List Symbol) : List Token → Option (List Symbol)
  | [] => some row
  | t :: ts =>
    match feed t row with
    | some left => feedAll left ts
    | none => none

/-- Whether some tokens complete a row of symbols. -/
def follows (row : List Symbol) (tokens : List Token) : Bool :=
  match feedAll row tokens with
  | some left => left.all Symbol.optional
  | none => false

/-- Whether some tokens are one statement. -/
def isStatement (tokens : List Token) : Bool := follows [.statement] tokens

end MacroLint.Sql
