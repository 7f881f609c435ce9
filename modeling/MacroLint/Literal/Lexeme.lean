import MacroLint.Text.Blank

/-!
# Lexemes

A literal is a row of lexemes: bracketed segments, flag markers, stray text, and the separators
between them. Segments do not nest: a segment runs from `[` to the *first* `]` after it. A `[` that
no `]` follows takes the rest of the literal with it as stray text, and so does nothing else: other
stray text ends where a separator, a `[` or a `<` could start something new.

Separators are lexemes too, although no reader asks for them. With them a row of lexemes spells the
text it was read from, character by character (`flatMap_source_lexemes`), so positions need no
bookkeeping of their own: they are the lengths of what stands before.
-/

set_option autoImplicit false

namespace MacroLint.Literal

open Text

/-- An atom of a literal. -/
inductive Lexeme where
  /-- A separator. -/
  | gap (c : Char)
  /-- `[inner]`; the inner text holds no `]` and is not trimmed. -/
  | segment (inner : Text)
  /-- `<letters>`, with one or more ASCII letters. -/
  | flag (letters : Text)
  /-- Any other run of characters. -/
  | stray (text : Text)
  deriving DecidableEq, Repr

namespace Lexeme

/-- The characters a lexeme was read from. -/
def source : Lexeme → Text
  | gap c => [c]
  | segment inner => '[' :: (inner ++ [']'])
  | flag letters => '<' :: (letters ++ ['>'])
  | stray text => text

/-- A run of stray text stops before these characters. -/
def startsOther (c : Char) : Bool := c == '[' || c == '<' || isSeparator c

/-- The letters of a flag marker whose `<` has been read, and the text after its `>`. -/
def marker? (t : Text) : Option (Text × Text) :=
  match t.takeWhile Char.isAlpha, t.dropWhile Char.isAlpha with
  | c :: cs, '>' :: rest => some (c :: cs, rest)
  | _, _ => none

/-- The lexeme that starts with the character `c`, and the text after it. -/
def next (c : Char) (cs : Text) : Lexeme × Text :=
  if isSeparator c then (gap c, cs)
  else if c = '[' then
    match cut ']' cs with
    | some (inner, rest) => (segment inner, rest)
    | none => (stray (c :: cs), [])
  else
    match if c = '<' then marker? cs else none with
    | some (letters, rest) => (flag letters, rest)
    | none =>
      (stray (c :: cs.takeWhile fun d => !startsOther d), cs.dropWhile fun d => !startsOther d)

theorem marker?_eq {t letters rest : Text} (h : marker? t = some (letters, rest)) :
    t = letters ++ '>' :: rest := by
  unfold marker? at h
  split at h
  · rename_i c cs r htake hdrop
    simp only [Option.some.injEq, Prod.mk.injEq] at h
    obtain ⟨rfl, rfl⟩ := h
    rw [← htake, ← hdrop, List.takeWhile_append_dropWhile]
  · simp at h

/-- A lexeme and the text after it make up the text it was read from. -/
theorem source_append_next (c : Char) (cs : Text) :
    (next c cs).1.source ++ (next c cs).2 = c :: cs := by
  unfold next
  split
  · rfl
  · split
    · rename_i h
      subst h
      split
      · rename_i inner rest hcut
        simp [source, (cut_eq_some_iff.mp hcut).1]
      · simp [source]
    · split
      · rename_i letters rest hm
        split at hm
        · rename_i hlt
          simp [source, hlt, marker?_eq hm]
        · simp at hm
      · simp [source, List.takeWhile_append_dropWhile]

theorem source_ne_nil_next (c : Char) (cs : Text) : (next c cs).1.source ≠ [] := by
  unfold next
  split
  · simp [source]
  · split
    · split <;> simp [source]
    · split <;> simp [source]

/-- Reading a lexeme makes the text shorter. -/
theorem length_next_lt (c : Char) (cs : Text) : (next c cs).2.length < (c :: cs).length := by
  have h := congrArg List.length (source_append_next c cs)
  have := List.length_pos_iff.mpr (source_ne_nil_next c cs)
  simp at h ⊢
  omega

end Lexeme

/-- The lexemes of a text. -/
def lexemes : Text → List Lexeme
  | [] => []
  | c :: cs => (Lexeme.next c cs).1 :: lexemes (Lexeme.next c cs).2
termination_by t => t.length
decreasing_by exact Lexeme.length_next_lt c cs

/-- The lexemes of a text spell it. -/
theorem flatMap_source_lexemes (t : Text) : (lexemes t).flatMap Lexeme.source = t := by
  fun_induction lexemes t with
  | case1 => rfl
  | case2 c cs ih => rw [List.flatMap_cons, ih, Lexeme.source_append_next]

end MacroLint.Literal
