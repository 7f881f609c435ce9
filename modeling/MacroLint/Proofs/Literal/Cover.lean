import MacroLint.Proofs.Literal.Scan

/-!
# The tokens of a text cover it

Tokens have their places in bytes, while the text is a list of characters. A place is sound when it
is the length of some beginning of the text: then it lies between two characters, and what stands
between two such places is a piece of the text. So the piece a token stands for is stated with the
beginning before it (`IsSlice`), and bytes are spoken of only for what no token has.

The lexemes spell the text, so each byte of it is a byte of some lexeme
(`exists_mem_locate_of_getElem?`). The lexemes that get no token are the separators.
-/

set_option autoImplicit false

namespace MacroLint.Literal

open Text

/-! ## 1. Places -/

/-- The bytes of a text in UTF-8. -/
def utf8 (t : Text) : List UInt8 := t.flatMap String.utf8EncodeChar

/-- The bytes of the separators: space, tab, line feed, form feed and carriage return. -/
def separatorBytes : List UInt8 := [0x20, 0x09, 0x0A, 0x0C, 0x0D]

/-- The bytes from `start` up to `stop` are those of `piece`, and both places lie between
characters. -/
def IsSlice (t : Text) (start stop : Nat) (piece : Text) : Prop :=
  ∃ before behind, t = before ++ (piece ++ behind) ∧
    start = byteLength before ∧ stop = start + byteLength piece

/-- A token stands for the piece of the text that its lexeme is written as. -/
def Token.Fits (t : Text) (token : Token) : Prop :=
  match token.lexeme with
  | .gap _ => False
  | .segment inner =>
    IsSlice t token.start token.stop ('[' :: (inner ++ [']'])) ∧ ']' ∉ inner
  | .flag letters =>
    IsSlice t token.start token.stop ('<' :: (letters ++ ['>'])) ∧
      letters ≠ [] ∧ ∀ c ∈ letters, c.isAlpha = true
  | .stray text =>
    IsSlice t token.start token.stop text ∧
      ((∃ c ∈ text, isSeparator c = true) →
        (tokens t).getLast? = some token ∧ token.stop = byteLength t ∧
          text.head? = some '[' ∧ ']' ∉ text)

theorem byteLength_pos {t : Text} (h : t ≠ []) : 0 < byteLength t := by
  obtain ⟨c, cs, rfl⟩ := List.exists_cons_of_ne_nil h
  exact Nat.lt_of_lt_of_le c.utf8Size_pos (Nat.le_add_right _ _)

theorem length_utf8 (t : Text) : (utf8 t).length = byteLength t := by
  induction t with
  | nil => rfl
  | cons c t ih =>
    rw [utf8, List.flatMap_cons, List.length_append, String.length_utf8EncodeChar]
    exact congrArg (c.utf8Size + ·) ih

theorem utf8_append (s t : Text) : utf8 (s ++ t) = utf8 s ++ utf8 t :=
  List.flatMap_append

theorem mem_separatorBytes {c : Char} (h : isSeparator c = true) {byte : UInt8}
    (hbyte : byte ∈ utf8 [c]) : byte ∈ separatorBytes := by
  simp only [isSeparator, Bool.or_eq_true, beq_iff_eq] at h
  revert byte
  rcases h with (((rfl | rfl) | rfl) | rfl) | rfl <;> decide +kernel

/-! ## 2. Lexemes at their places -/

theorem le_start_of_mem_locate {start : Nat} {ls : List Lexeme} {token : Token}
    (h : token ∈ locate start ls) : start ≤ token.start := by
  obtain ⟨before, behind, -, hstart, -⟩ := mem_locate_iff.mp h
  rw [hstart]
  exact Nat.le_add_right start _

/-- Lexemes do not overlap. -/
theorem pairwise_locate (start : Nat) (ls : List Lexeme) :
    (locate start ls).Pairwise fun a b => a.stop ≤ b.start := by
  induction ls generalizing start with
  | nil => exact List.Pairwise.nil
  | cons l ls ih =>
    exact List.pairwise_cons.mpr ⟨fun token htoken => le_start_of_mem_locate htoken, ih _⟩

/-- Each byte of a text that lexemes spell is a byte of one of them, at its place. -/
theorem exists_mem_locate_of_getElem? (start : Nat) {i : Nat} {ls : List Lexeme} {byte : UInt8}
    (h : (utf8 (ls.flatMap Lexeme.source))[i]? = some byte) :
    ∃ token ∈ locate start ls, (token.start ≤ start + i ∧ start + i < token.stop) ∧
      byte ∈ utf8 token.lexeme.source := by
  induction ls generalizing start i with
  | nil => cases h
  | cons l ls ih =>
    rw [List.flatMap_cons, utf8_append] at h
    by_cases hi : i < (utf8 l.source).length
    · rw [List.getElem?_append_left hi] at h
      rw [length_utf8] at hi
      refine ⟨_, List.mem_cons_self, ⟨Nat.le_add_right start i, ?_⟩, List.mem_of_getElem? h⟩
      exact Nat.add_lt_add_left hi start
    · have hle : (utf8 l.source).length ≤ i := Nat.le_of_not_lt hi
      rw [List.getElem?_append_right hle] at h
      obtain ⟨token, htoken, hplace, hbyte⟩ := ih (start + byteLength l.source) h
      have hshift : start + byteLength l.source + (i - (utf8 l.source).length) = start + i := by
        rw [length_utf8] at hle ⊢
        omega
      rw [hshift] at hplace
      exact ⟨token, List.mem_cons_of_mem _ htoken, hplace, hbyte⟩

/-! ## 3. Tokens at their places -/

theorem start_lt_stop {t : Text} {token : Token} (h : token ∈ tokens t) :
    token.start < token.stop := by
  obtain ⟨before, behind, hlexemes, -, hstop⟩ := mem_locate_iff.mp (mem_tokens_iff.mp h).1
  obtain ⟨rest, hread, -⟩ := exists_rest_of_lexemes hlexemes
  have hlength : 0 < byteLength token.lexeme.source := byteLength_pos hread.source_ne_nil
  omega

/-- A token that nothing is left behind is the last one. -/
theorem getLast?_tokens {t : Text} {before : List Lexeme} {l : Lexeme}
    (h : lexemes t = before ++ [l]) (htoken : l.isToken = true) :
    (tokens t).getLast? = some
      ⟨l, byteLength (before.flatMap Lexeme.source),
        byteLength (before.flatMap Lexeme.source) + byteLength l.source⟩ := by
  rw [tokens, h, locate_append, List.filter_append, Nat.zero_add]
  simp [locate, htoken]

/-- Only an opening bracket that nothing closes takes separators into stray text. -/
theorem fits_of_mem_tokens {t : Text} {token : Token} (h : token ∈ tokens t) : token.Fits t := by
  obtain ⟨hlocated, htoken⟩ := mem_tokens_iff.mp h
  obtain ⟨before, behind, hlexemes, hstart, hstop⟩ := mem_locate_iff.mp hlocated
  obtain ⟨rest, hread, hscan, ht⟩ := exists_rest_of_lexemes hlexemes
  obtain ⟨lexeme, start, stop⟩ := token
  rw [Nat.zero_add] at hstart
  have hslice : IsSlice t start stop lexeme.source :=
    ⟨before.flatMap Lexeme.source, rest, ht, hstart, hstop⟩
  cases hread with
  | gap hsep => cases htoken
  | segment hclose => exact ⟨hslice, hclose⟩
  | flag hne halpha => exact ⟨hslice, hne, halpha⟩
  | @unclosed text hclose =>
    refine ⟨hslice, fun _ => ⟨?_, ?_, rfl, ?_⟩⟩
    · rw [lexemes_nil] at hscan
      subst hscan
      rw [getLast?_tokens hlexemes rfl, ← hstart, ← hstop]
    · rw [hstop, hstart, ht, List.append_nil, byteLength_append]
    · exact List.not_mem_cons_of_ne_of_not_mem (by decide) hclose
  | @stray c run _ hopen hsep hmarker hrun =>
    refine ⟨hslice, fun hseparator => ?_⟩
    obtain ⟨d, hd, hdsep⟩ := hseparator
    have hdsep' : isSeparator d = false := by
      rcases List.mem_cons.mp hd with rfl | hd
      · exact hsep
      · exact (startsOther_eq_false_iff.mp (hrun d hd)).2.2
    rw [hdsep'] at hdsep
    cases hdsep

/-- **The tokens of a text cover it without loss.** They stand one behind the other; none is empty,
and each begins and ends between characters and is the piece of the text that it stands for; what
is left between them is separators. Stray text has a separator in it only if nothing follows it and
it begins with an opening bracket that is never closed. -/
theorem tokens_cover (t : Text) :
    ((tokens t).Pairwise fun a b => a.stop ≤ b.start) ∧
    (∀ token ∈ tokens t, token.start < token.stop ∧ token.Fits t) ∧
    ∀ (i : Nat) (byte : UInt8), (utf8 t)[i]? = some byte →
      (∀ token ∈ tokens t, ¬(token.start ≤ i ∧ i < token.stop)) → byte ∈ separatorBytes := by
  refine ⟨(pairwise_locate 0 _).filter _, ?_, ?_⟩
  · exact fun token htoken => ⟨start_lt_stop htoken, fits_of_mem_tokens htoken⟩
  · intro i byte hbyte houtside
    rw [← flatMap_source_lexemes t] at hbyte
    obtain ⟨token, hlocated, hplace, hmem⟩ := exists_mem_locate_of_getElem? 0 hbyte
    rw [Nat.zero_add] at hplace
    obtain ⟨before, behind, hlexemes, -, -⟩ := mem_locate_iff.mp hlocated
    obtain ⟨rest, hread, -⟩ := exists_rest_of_lexemes hlexemes
    obtain ⟨lexeme, start, stop⟩ := token
    -- Every lexeme that is not a separator has a token.
    have hgap (htoken : lexeme.isToken = true) : byte ∈ separatorBytes :=
      absurd hplace (houtside _ (mem_tokens_iff.mpr ⟨hlocated, htoken⟩))
    cases hread with
    | gap hsep => exact mem_separatorBytes hsep hmem
    | segment | unclosed | flag | stray => exact hgap rfl

/-- A stray letter, a marker that the next bracket cuts off, and a bracket that nothing closes. -/
example : (tokens "é[a\n] <A[b c".toList).map (fun token => (token.start, token.stop))
    = [(0, 2), (2, 6), (7, 9), (9, 13)] := by
  decide +kernel

end MacroLint.Literal
