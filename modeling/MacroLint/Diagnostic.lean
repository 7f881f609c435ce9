import MacroLint.MacroName.Usage

/-!
# Diagnostics

A diagnostic is what the user gets to see about a wrong literal: what is wrong, the text it is wrong
in, the parser's cause if a parser was asked, and how the macro is meant to be used if the macro is
known. `render` lays these out; a part that is absent leaves no trace in the layout.
-/

set_option autoImplicit false

namespace MacroLint

/-- The kinds of fault. -/
inductive Kind where
  /-- Brackets or flag markers are malformed. -/
  | format
  /-- The name is not on the list of macros. -/
  | unknownName
  /-- A required parameter is missing or blank. -/
  | arity
  /-- A name or value does not have the required shape. -/
  | pattern
  /-- A statement was rejected. -/
  | statement
  /-- The parameters are fine one by one and do not go together. -/
  | rule
  deriving DecidableEq, Repr

/-- The words for a kind. -/
def Kind.words : Kind → Text
  | format => "format error"
  | unknownName => "unknown macro"
  | arity => "missing parameter"
  | pattern => "invalid parameter"
  | statement => "sql syntax error"
  | rule => "invalid composition"

/-- What is reported about a wrong literal. -/
structure Diagnostic where
  kind : Kind
  message : Text
  /-- The literal or the fragment that the message is about. -/
  context : Option Text
  /-- The cause given by whoever rejected a statement. -/
  detail : Option Text
  /-- How the macro is meant to be used. -/
  usage : Option Usage
  deriving DecidableEq, Repr

namespace Diagnostic

/-- A diagnostic with a message alone. -/
def ofMessage (kind : Kind) (message : Text) : Diagnostic := ⟨kind, message, none, none, none⟩

/-- The diagnostic about another text. -/
def inContext (d : Diagnostic) (context : Text) : Diagnostic := { d with context := some context }

/-- The diagnostic with another cause. -/
def withDetail (d : Diagnostic) (detail : Text) : Diagnostic := { d with detail := some detail }

/-- The diagnostic with another usage. -/
def withUsage (d : Diagnostic) (usage : Usage) : Diagnostic := { d with usage := some usage }

/-- The diagnostic with a usage, if there is one to show and none is shown yet. -/
def orUsage (d : Diagnostic) (usage : Option Usage) : Diagnostic :=
  { d with usage := d.usage.or usage }

@[simp] theorem kind_orUsage (d : Diagnostic) (usage : Option Usage) :
    (d.orUsage usage).kind = d.kind := rfl

@[simp] theorem context_orUsage (d : Diagnostic) (usage : Option Usage) :
    (d.orUsage usage).context = d.context := rfl

@[simp] theorem detail_orUsage (d : Diagnostic) (usage : Option Usage) :
    (d.orUsage usage).detail = d.detail := rfl

@[simp] theorem usage_orUsage (d : Diagnostic) (usage : Option Usage) :
    (d.orUsage usage).usage = d.usage.or usage := rfl

/-- A heading and the text below it, nothing at all for a text that is absent. -/
def under (heading : Text) : Option Text → Text
  | none => []
  | some t => heading ++ t

/-- The layout of a diagnostic: the message, then context and cause on indented lines of their own,
then template and documentation as paragraphs. There is no line feed at the end. -/
def render (d : Diagnostic) : Text :=
  d.message ++ under "\n  at: " d.context ++ under "\n  cause: " d.detail
    ++ under "\n\nusage: " (d.usage.map Usage.template)
    ++ under "\n\n" (d.usage.map fun u => Text.trimEnd u.doc)

end Diagnostic
end MacroLint
