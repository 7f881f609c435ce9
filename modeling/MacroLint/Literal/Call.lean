import MacroLint.Literal.Flag
import MacroLint.Literal.Lexeme

/-!
# Calls

A literal is a call of a macro. It carries flags and segments; the first segment names the macro and
the others are its parameters. A flag may be written anywhere outside the segments
(`[exists]<T>[t]`) or at the end of the first one (`[exists<T>]`), where it is taken out of the
name. Stray text is ignored.

Letters are collected in source order before any is looked at, so which letter is refused does not
depend on how the letters are spread over markers. A refused letter is reported even when there is
no segment at all.
-/

set_option autoImplicit false

namespace MacroLint.Literal

open Text

/-- A call of a macro. The first segment is the name without its flag marker, the others are the
parameters as written. That column aliases are to be generated is noted beside the flags, for those
who generate; no check asks for it. -/
structure Call where
  raw : Text
  normalized : Text
  flags : List Flag
  segments : List Text
  hasAlias : Bool := flags.contains .aliases
  deriving DecidableEq, Repr

namespace Call

/-- Whether a flag is set. -/
def has (call : Call) (flag : Flag) : Bool := call.flags.contains flag

/-- The trimmed first segment, empty when there is none. -/
def name (call : Call) : Text := trim (call.segments.headD [])

/-- The trimmed text of the parameter at a position, the name being at position 0. A blank
parameter is the same as a missing one. -/
def param? (call : Call) (position : Nat) : Option Text :=
  (call.segments[position]?.map trim).filter fun t => !t.isEmpty

end Call

/-- What keeps a literal from being a call. -/
inductive CallFault where
  /-- A marker holds a letter that stands for no flag. -/
  | unknownFlag (letter : Char)
  /-- There is no segment. -/
  | noSegment
  deriving DecidableEq, Repr

/-- The letters of the flag marker that ends a name segment, and the name before it. The marker is
the same as a free-standing one, and nothing but blanks may follow it. -/
def inlineMarker? (segment : Text) : Option (Text × Text) :=
  match cut '<' (trim segment) with
  | none => none
  | some (name, rest) =>
    match Lexeme.marker? rest with
    | some (letters, []) => some (letters, trimEnd name)
    | _ => none

/-- The name in a name segment: what stands before its marker, or else the segment as it is. -/
def nameOfSegment (segment : Text) : Text :=
  match inlineMarker? segment with
  | some (_, name) => name
  | none => segment

/-- The flag letters in a name segment. -/
def lettersOfSegment (segment : Text) : Text :=
  match inlineMarker? segment with
  | some (letters, _) => letters
  | none => []

namespace Lexeme

/-- The letters of the free-standing markers. -/
def markerLetters (ls : List Lexeme) : Text :=
  ls.flatMap fun
    | flag letters => letters
    | _ => []

/-- All flag letters in source order: those of the free-standing markers and, at its place, those
inside the first segment. -/
def flagLetters : List Lexeme → Text
  | [] => []
  | flag letters :: ls => letters ++ flagLetters ls
  | segment inner :: ls => lettersOfSegment inner ++ markerLetters ls
  | _ :: ls => flagLetters ls

/-- The inner texts of the segments. -/
def segments (ls : List Lexeme) : List Text :=
  ls.filterMap fun
    | segment inner => some inner
    | _ => none

end Lexeme

/-- The call in a normal form; `raw` is what it is the normal form of. -/
def Call.ofNormal (raw normalized : Text) : Except CallFault Call :=
  let ls := lexemes normalized
  match Flag.ofLetters (Lexeme.flagLetters ls) with
  | .error letter => .error (.unknownFlag letter)
  | .ok flags =>
    match Lexeme.segments ls with
    | [] => .error .noSegment
    | first :: params =>
      .ok { raw, normalized, flags, segments := nameOfSegment first :: params,
            hasAlias := flags.contains .aliases }

end MacroLint.Literal
