import MacroLint.Sql.Dialect
import MacroLint.Text.Word

/-!
# SQL tokens

A statement is read as keywords, names, literals, bind variables and signs. How a name or a literal
is spelled plays no part in the grammar, so the tokens do not keep it; a keyword is known in any
ASCII case and is never a name.

The reader is an automaton over characters: `Pending` is the token that is being read, a character
either continues it (`Pending.grow`) or ends it (`Pending.close`) and starts the next one
(`Pending.start`). So what a text reads as depends on what stands before it only through the pending
token, and reading is one recursion on the text.
-/

set_option autoImplicit false

namespace MacroLint.Sql

open Text

/-- The words that have a meaning of their own and are never names. -/
inductive Keyword where
  | SELECT | DISTINCT | FROM | JOIN | ON | WHERE | GROUP | ORDER | BY | ASC | DESC | AS
  | INSERT | INTO | VALUES | UPDATE | SET | DELETE
  | AND | OR | NOT | IN | BETWEEN | LIKE | IS | NULL | CASE | WHEN | THEN | ELSE | END
  | HAVING | LIMIT | OFFSET | UNION | INTERSECT | EXCEPT
  deriving DecidableEq, Repr

namespace Keyword

/-- All keywords. -/
def all : List Keyword :=
  [SELECT, DISTINCT, FROM, JOIN, ON, WHERE, GROUP, ORDER, BY, ASC, DESC, AS, INSERT, INTO,
    VALUES, UPDATE, SET, DELETE, AND, OR, NOT, IN, BETWEEN, LIKE, IS, NULL, CASE, WHEN, THEN,
    ELSE, END, HAVING, LIMIT, OFFSET, UNION, INTERSECT, EXCEPT]

/-- The spelling of a keyword in small letters. -/
def spelling : Keyword → Text
  | SELECT => "select"
  | DISTINCT => "distinct"
  | FROM => "from"
  | JOIN => "join"
  | ON => "on"
  | WHERE => "where"
  | GROUP => "group"
  | ORDER => "order"
  | BY => "by"
  | ASC => "asc"
  | DESC => "desc"
  | AS => "as"
  | INSERT => "insert"
  | INTO => "into"
  | VALUES => "values"
  | UPDATE => "update"
  | SET => "set"
  | DELETE => "delete"
  | AND => "and"
  | OR => "or"
  | NOT => "not"
  | IN => "in"
  | BETWEEN => "between"
  | LIKE => "like"
  | IS => "is"
  | NULL => "null"
  | CASE => "case"
  | WHEN => "when"
  | THEN => "then"
  | ELSE => "else"
  | END => "end"
  | HAVING => "having"
  | LIMIT => "limit"
  | OFFSET => "offset"
  | UNION => "union"
  | INTERSECT => "intersect"
  | EXCEPT => "except"

/-- The keyword that a word is, in any ASCII case. -/
def ofWord? (word : Text) : Option Keyword := all.find? fun k => k.spelling == lower word

/-- The list leaves no keyword out. -/
theorem mem_all (k : Keyword) : k ∈ all := by
  cases k <;> simp [all]

end Keyword

/-- The signs of a statement. -/
inductive Sign where
  | equal | unequal | less | atMost | greater | atLeast
  | plus | minus | asterisk | slash
  | lparen | rparen | comma | dot | semicolon
  deriving DecidableEq, Repr

/-- The sign that one character is. -/
def Sign.ofChar? : Char → Option Sign
  | '=' => some equal
  | '<' => some less
  | '>' => some greater
  | '+' => some plus
  | '-' => some minus
  | '*' => some asterisk
  | '/' => some slash
  | '(' => some lparen
  | ')' => some rparen
  | ',' => some comma
  | '.' => some dot
  | ';' => some semicolon
  | _ => none

/-- A token of a statement. -/
inductive Token where
  | keyword (k : Keyword)
  | name
  | number
  | string
  | bind
  | sign (s : Sign)
  deriving DecidableEq, Repr

/-- The token that a word is. -/
def Token.ofWord (word : Text) : Token :=
  match Keyword.ofWord? word with
  | some k => keyword k
  | none => name

/-- What has been read of a token. -/
inductive Pending where
  /-- Nothing but blanks and comments. -/
  | gap
  /-- The letters of a word, the last one first. -/
  | word (letters : Text)
  /-- The digits of a number, which may still get a fraction if it is `whole`. -/
  | number (whole : Bool)
  /-- A colon that has no name yet. -/
  | colon
  /-- A bind variable. -/
  | bind
  /-- A string whose closing quote is still to come. -/
  | openString
  /-- A string behind its closing quote, unless the quote is doubled. -/
  | closedString
  /-- A name in back quotes, the second of which is still to come. -/
  | openName
  /-- A name in back quotes. -/
  | closedName
  /-- A sign. -/
  | sign (s : Sign)
  /-- A comment; `star` tells whether the last character may be the star of its end. -/
  | comment (star : Bool)
  deriving DecidableEq, Repr

namespace Pending

/-- The pending token with one more character, `none` where the character is not part of it. -/
def grow (p : Pending) (c : Char) : Option Pending :=
  match p with
  | gap => if isBlank c then some gap else none
  | word letters => if isWordChar c then some (word (c :: letters)) else none
  | number whole =>
    if c.isDigit then some (number whole)
    else if c = '.' && whole then some (number false)
    else none
  | colon | bind => if isWordChar c then some bind else none
  | openString => some (if c = '\'' then closedString else openString)
  | closedString => if c = '\'' then some openString else none
  | openName => some (if c = '`' then closedName else openName)
  | closedName => none
  | sign .less =>
    if c = '=' then some (sign .atMost) else if c = '>' then some (sign .unequal) else none
  | sign .greater => if c = '=' then some (sign .atLeast) else none
  | sign .slash => if c = '*' then some (comment false) else none
  | sign _ => none
  | comment star => some (if star && c = '/' then gap else comment (c = '*'))

/-- The tokens that a pending token amounts to when it ends, `none` where it may not end yet. -/
def close : Pending → Option (List Token)
  | gap => some []
  | word letters => some [.ofWord letters.reverse]
  | number _ => some [.number]
  | bind => some [.bind]
  | closedString => some [.string]
  | closedName => some [.name]
  | sign s => some [.sign s]
  | colon | openString | openName | comment _ => none

/-- The pending token that a character starts, `none` where it starts none. -/
def start (d : Dialect) (c : Char) : Option Pending :=
  if isBlank c then some gap
  else if c.isDigit then some (number true)
  else if isWordChar c then some (word [c])
  else if c = '\'' then some openString
  else if c = ':' then some colon
  else if c = '`' then if d.backQuotes then some openName else none
  else (Sign.ofChar? c).map sign

end Pending

/-- The tokens of a text behind a pending token, `none` where the characters do not make tokens. -/
def readFrom (d : Dialect) (p : Pending) : Text → Option (List Token)
  | [] => p.close
  | c :: cs =>
    match p.grow c with
    | some grown => readFrom d grown cs
    | none =>
      match p.close, Pending.start d c with
      | some tokens, some started => (readFrom d started cs).map (tokens ++ ·)
      | _, _ => none

/-- The tokens of a text. -/
def read (d : Dialect) (t : Text) : Option (List Token) := readFrom d .gap t

end MacroLint.Sql
