import MacroLint.Fragment.Statement
import MacroLint.Proofs.Sql.Conditions
import MacroLint.Proofs.Text.Trim
import MacroLint.Sql.Script

/-!
# Reading a statement that was put together

Statements are put together from fragments with blanks between them, and a blank separates tokens:
it continues none, except inside strings, quoted names and comments, and a text that can be read by
itself ends inside none of these. So a statement that is put together reads as the tokens of its
fragments one after another (`read_append_blank`).

A fragment may bring semicolons along. Empty statements are skipped, so what is accepted is one
statement with nothing but semicolons behind the first one (`scriptFault?_eq_none_iff`). A condition
that ends with a semicolon is accepted for this reason, but once anything is joined to it the
semicolon ends the statement too early.

Together with what the grammar says of conditions behind WHERE, this tells of two conditions that
are accepted apart from each other whether they are accepted together (`queryFault?_joined_iff`).
-/

set_option autoImplicit false

namespace MacroLint.Sql

open Fragment Keyword Text

variable {d : Dialect}

/-! ## 1. Blanks separate tokens -/

theorem grow_blank {p : Pending} {ts : List Token} (h : p.close = some ts) :
    p = .gap ∨ p.grow ' ' = none := by
  cases p with
  | gap => exact Or.inl rfl
  | word letters | number whole | bind | closedString | closedName => exact Or.inr rfl
  | sign s => exact Or.inr (by cases s <;> rfl)
  | colon | openString | openName | comment star => cases h

theorem start_blank : Pending.start d ' ' = some .gap := rfl

/-- What can be read by itself is read so in front of a blank. -/
theorem readFrom_append_blank {p : Pending} {s u : Text} {ts : List Token}
    (h : readFrom d p s = some ts) :
    readFrom d p (s ++ ' ' :: u) = (readFrom d .gap u).map (ts ++ ·) := by
  induction s generalizing p ts with
  | nil =>
    have hclose : p.close = some ts := h
    rw [List.nil_append, readFrom]
    rcases grow_blank hclose with rfl | hgrow
    · cases hclose
      exact Option.map_id'.symm
    · rw [hgrow, hclose, start_blank]
  | cons c s ih =>
    rw [List.cons_append, readFrom]
    rw [readFrom] at h
    cases hgrow : p.grow c with
    | some grown =>
      rw [hgrow] at h
      exact ih h
    | none =>
      rw [hgrow] at h
      cases hclose : p.close with
      | none =>
        rw [hclose] at h
        cases h
      | some tokens =>
        cases hstart : Pending.start d c with
        | none =>
          rw [hclose, hstart] at h
          cases h
        | some started =>
          rw [hclose, hstart] at h
          obtain ⟨ts, hread, rfl⟩ := Option.map_eq_some_iff.mp h
          dsimp only
          rw [ih hread, Option.map_map]
          exact congrArg (Option.map · _) (funext fun us => (List.append_assoc _ _ _).symm)

theorem read_append_blank {s u : Text} {ts : List Token} (h : read d s = some ts) :
    read d (s ++ ' ' :: u) = (read d u).map (ts ++ ·) :=
  readFrom_append_blank h

/-! ## 2. Names of tables -/

theorem start_of_isWordChar {c : Char} (h : isWordChar c = true) :
    Pending.start d c = if c.isDigit then some (.number true) else some (.word [c]) := by
  rw [Pending.start, not_isBlank_of_isWordChar h, h]
  rfl

theorem readFrom_word {w : Text} (h : ∀ c ∈ w, isWordChar c = true) (letters : Text) :
    readFrom d (.word letters) w = some [.ofWord (letters.reverse ++ w)] := by
  induction w generalizing letters with
  | nil => rw [List.append_nil, readFrom, Pending.close]
  | cons c w ih =>
    have hgrow : (Pending.word letters).grow c = some (.word (c :: letters)) := by
      rw [Pending.grow, h c List.mem_cons_self, if_pos rfl]
    rw [readFrom, hgrow]
    dsimp only
    rw [ih (fun e he => h e (List.mem_cons_of_mem c he)), List.reverse_cons, List.append_assoc,
      List.singleton_append]

/-- A number that has begun is a token, whatever follows it. -/
theorem exists_of_readFrom_number {whole : Bool} {s : Text} {ts : List Token}
    (h : readFrom d (.number whole) s = some ts) : ∃ rest, ts = .number :: rest := by
  induction s generalizing whole with
  | nil => exact ⟨[], (Option.some.inj h).symm⟩
  | cons c s ih =>
    rw [readFrom] at h
    cases hgrow : (Pending.number whole).grow c with
    | some grown =>
      rw [hgrow] at h
      rw [Pending.grow] at hgrow
      split at hgrow
      · cases hgrow
        exact ih h
      · split at hgrow
        · cases hgrow
          exact ih h
        · cases hgrow
    | none =>
      rw [hgrow, Pending.close] at h
      cases hstart : Pending.start d c with
      | none =>
        rw [hstart] at h
        cases h
      | some started =>
        rw [hstart] at h
        obtain ⟨rest, -, rfl⟩ := Option.map_eq_some_iff.mp h
        exact ⟨rest, rfl⟩

theorem readFrom_gap_cons {c : Char} (h : isWordChar c = true) (s : Text) :
    readFrom d .gap (c :: s)
      = readFrom d (if c.isDigit then .number true else .word [c]) s := by
  have hgrow : Pending.gap.grow c = none := by
    rw [Pending.grow, not_isBlank_of_isWordChar h]
    rfl
  rw [readFrom, hgrow, start_of_isWordChar h, ← apply_ite some]
  exact Option.map_id'

/-! ## 3. Rows of a script -/

/-- The tokens in front of the first semicolon. -/
def firstRow (ts : List Token) : List Token := ts.takeWhile (· != .sign .semicolon)

/-- The tokens from the first semicolon on. -/
def behindRow (ts : List Token) : List Token := ts.dropWhile (· != .sign .semicolon)

theorem firstRow_append {row : List Token} (h : .sign .semicolon ∉ row) (ts : List Token) :
    firstRow (row ++ ts) = row ++ firstRow ts :=
  List.takeWhile_append_of_pos fun _ ht => bne_iff_ne.mpr fun heq => h (heq ▸ ht)

theorem behindRow_append {row : List Token} (h : .sign .semicolon ∉ row) (ts : List Token) :
    behindRow (row ++ ts) = behindRow ts :=
  List.dropWhile_append_of_pos fun _ ht => bne_iff_ne.mpr fun heq => h (heq ▸ ht)

theorem firstRow_of_not_mem {ts : List Token} (h : .sign .semicolon ∉ ts) : firstRow ts = ts := by
  have hrow := firstRow_append h []
  rwa [List.append_nil, show firstRow [] = [] from rfl, List.append_nil] at hrow

theorem not_forall_behindRow {cs rs : List Token} (h : .sign .semicolon ∈ cs) :
    ¬∀ t ∈ behindRow (cs ++ .keyword AND :: rs), t = .sign .semicolon := by
  obtain ⟨front, back, rfl, hfront⟩ := List.eq_append_cons_of_mem h
  intro hall
  rw [List.append_assoc, behindRow_append hfront] at hall
  have hmem : .keyword AND ∈ behindRow (.sign .semicolon :: back ++ .keyword AND :: rs) :=
    List.mem_append_right (.sign .semicolon :: back) List.mem_cons_self
  exact absurd (hall _ hmem) nofun

theorem semicolon_not_mem_firstRow (ts : List Token) : .sign .semicolon ∉ firstRow ts := by
  intro h
  have hne := List.all_eq_true.mp (List.all_takeWhile (p := (· != Token.sign .semicolon))) _ h
  exact bne_iff_ne.mp hne rfl

theorem behindRow_eq_nil_or (ts : List Token) :
    behindRow ts = [] ∨ ∃ rest, behindRow ts = .sign .semicolon :: rest := by
  cases h : behindRow ts with
  | nil => exact Or.inl rfl
  | cons t rest =>
    have hhead := List.head?_dropWhile_not (fun t : Token => t != .sign .semicolon) ts
    rw [show ts.dropWhile (fun t : Token => t != .sign .semicolon) = t :: rest from h] at hhead
    exact Or.inr ⟨rest, by rw [bne_eq_false_iff_eq.mp hhead]⟩

theorem statements_semicolon (ts : List Token) :
    statements (.sign .semicolon :: ts) = statements ts := by
  have hsplit : (Token.sign .semicolon :: ts).splitOn (.sign .semicolon)
      = [] :: ts.splitOn (.sign .semicolon) :=
    List.splitOn_append_cons_self_of_not_mem List.not_mem_nil ts
  rw [statements, hsplit]
  rfl

/-- The first row is a statement of the script if it is not empty. -/
theorem statements_of_firstRow_ne_nil {ts : List Token} (hne : firstRow ts ≠ []) :
    statements ts = firstRow ts :: statements (behindRow ts) := by
  have hrow := semicolon_not_mem_firstRow ts
  have hts : ts = firstRow ts ++ behindRow ts := List.takeWhile_append_dropWhile.symm
  have hkept : (!(firstRow ts).isEmpty) = true := by
    rw [List.isEmpty_eq_false_iff.mpr hne]
    rfl
  rcases behindRow_eq_nil_or ts with hnil | ⟨rest, hrest⟩
  · rw [hnil, List.append_nil] at hts
    rw [← hts] at hrow hkept ⊢
    rw [statements, List.splitOn_eq_singleton hrow, hnil,
      List.filter_cons_of_pos (by exact hkept)]
    rfl
  · rw [hrest] at hts
    have hsplit := List.splitOn_append_cons_self_of_not_mem hrow rest
    rw [← hts] at hsplit
    rw [statements, hsplit, hrest, statements_semicolon,
      List.filter_cons_of_pos (by exact hkept)]
    rfl

theorem statements_eq_nil_iff {ts : List Token} :
    statements ts = [] ↔ ∀ t ∈ ts, t = .sign .semicolon := by
  induction ts with
  | nil => exact ⟨fun _ => nofun, fun _ => rfl⟩
  | cons t ts ih =>
    by_cases ht : t = .sign .semicolon
    · subst ht
      rw [statements_semicolon, ih, List.forall_mem_cons]
      exact (and_iff_right rfl).symm
    · have hrow : firstRow (t :: ts) ≠ [] := by
        rw [firstRow, List.takeWhile_cons_of_pos (by exact bne_iff_ne.mpr ht)]
        exact List.cons_ne_nil t _
      rw [statements_of_firstRow_ne_nil hrow]
      exact ⟨fun h => absurd h (List.cons_ne_nil _ _),
        fun h => absurd (h t List.mem_cons_self) ht⟩

/-- A text is accepted if it is one statement and nothing but semicolons follows the first one. -/
theorem scriptFault?_eq_none_iff {ts : List Token} (hne : firstRow ts ≠ []) :
    scriptFault? ts = none ↔
      isStatement (firstRow ts) = true ∧ ∀ t ∈ behindRow ts, t = .sign .semicolon := by
  rw [← statements_eq_nil_iff, scriptFault?, statements_of_firstRow_ne_nil hne]
  cases hstatement : isStatement (firstRow ts) with
  | false => simp [hstatement]
  | true =>
    cases hrest : statements (behindRow ts) with
    | nil => simp [hstatement]
    | cons row rows =>
      constructor
      · intro h
        split at h
        · cases h
        · simp at h
      · exact fun h => absurd h.2 (List.cons_ne_nil _ _)

/-! ## 4. Statements with a condition -/

theorem queryFault?_eq_none_iff {s : Text} :
    queryFault? d s = none ↔ ∃ ts, read d s = some ts ∧ scriptFault? ts = none := by
  rw [queryFault?]
  cases read d s with
  | none => simp
  | some ts => simp

/-- The tokens in front of a table. -/
def fromTokens : List Token := [.keyword SELECT, .sign .asterisk, .keyword FROM]

/-- The tokens in front of a condition. -/
def whereTokens : List Token := fromTokens ++ [.name, .keyword WHERE]

theorem read_from : read d "SELECT * FROM" = some fromTokens := by
  cases d <;> decide +kernel

theorem read_where : read d "WHERE" = some [.keyword WHERE] := by
  cases d <;> decide +kernel

theorem read_dual : read d dual = some [.name] := by
  cases d <;> decide +kernel

theorem read_and : read d "AND" = some [.keyword AND] := by
  cases d <;> decide +kernel

theorem whereStatement_eq (table condition : Text) :
    whereStatement table condition
      = "SELECT * FROM".toList
        ++ ' ' :: (table ++ ' ' :: ("WHERE".toList ++ ' ' :: condition)) := by
  have hfrom : "SELECT * FROM ".toList = "SELECT * FROM".toList ++ [' '] := by decide
  have hwhere : " WHERE ".toList = ' ' :: ("WHERE".toList ++ [' ']) := by decide
  unfold whereStatement
  rw [hfrom, hwhere]
  -- How the words are spelled plays no part.
  generalize "SELECT * FROM".toList = lead
  generalize "WHERE".toList = word
  simp only [List.append_assoc, List.cons_append, List.nil_append]

theorem read_whereStatement {table : Text} {ts : List Token} (h : read d table = some ts)
    (condition : Text) :
    read d (whereStatement table condition)
      = (read d condition).map fun cs => fromTokens ++ (ts ++ .keyword WHERE :: cs) := by
  rw [whereStatement_eq, read_append_blank read_from, read_append_blank h,
    read_append_blank read_where, Option.map_map, Option.map_map]
  rfl

theorem isStatement_whereTokens (ts : List Token) :
    isStatement (whereTokens ++ ts) = follows whereSymbols ts := by
  have hwhere : feedAll [.statement] whereTokens = some whereSymbols := by decide +kernel
  rw [isStatement, follows, feedAll_append, hwhere]
  rfl

/-- A condition is accepted if it may stand behind WHERE, with nothing but semicolons behind it. -/
theorem queryFault?_whereStatement_iff {table condition : Text}
    (h : read d table = some [.name]) :
    queryFault? d (whereStatement table condition) = none ↔
      ∃ cs, read d condition = some cs ∧ follows whereSymbols (firstRow cs) = true ∧
        ∀ t ∈ behindRow cs, t = .sign .semicolon := by
  have hsemicolon : .sign .semicolon ∉ whereTokens := by decide
  have hscript (cs : List Token) : scriptFault? (whereTokens ++ cs) = none ↔
      follows whereSymbols (firstRow cs) = true ∧ ∀ t ∈ behindRow cs, t = .sign .semicolon := by
    have hrow := firstRow_append hsemicolon cs
    rw [scriptFault?_eq_none_iff (by rw [hrow]; exact List.cons_ne_nil _ _), hrow,
      behindRow_append hsemicolon, isStatement_whereTokens]
  rw [queryFault?_eq_none_iff, read_whereStatement h]
  constructor
  · rintro ⟨ts, hread, hnone⟩
    obtain ⟨cs, hcs, rfl⟩ := Option.map_eq_some_iff.mp hread
    exact ⟨cs, hcs, (hscript cs).mp hnone⟩
  · rintro ⟨cs, hcs, haccepted⟩
    exact ⟨whereTokens ++ cs, by rw [hcs]; rfl, (hscript cs).mpr haccepted⟩

/-- What stands behind FROM in a statement that is accepted is a name, or a parenthesis opens. -/
theorem eq_name_of_scriptFault? {t : Token} {ts : List Token} (hparen : t ≠ .sign .lparen)
    (hsemicolon : t ≠ .sign .semicolon) (h : scriptFault? (fromTokens ++ t :: ts) = none) :
    t = .name := by
  have hmem : .sign .semicolon ∉ fromTokens ++ [t] := by
    intro hmem
    rcases List.mem_append.mp hmem with hmem | hmem
    · exact absurd hmem (by decide)
    · exact hsemicolon (List.mem_singleton.mp hmem).symm
  have hrow := firstRow_append hmem ts
  rw [List.append_assoc, List.singleton_append] at hrow
  have hstatement := ((scriptFault?_eq_none_iff (by rw [hrow]; exact List.cons_ne_nil _ _)).mp h).1
  have hfrom : feedAll [.statement] fromTokens
      = some [.table, .tables, .filter, .grouping, .ordering] := by decide +kernel
  rw [hrow, isStatement, follows, List.append_assoc, feedAll_append, hfrom, Option.bind_some,
    List.singleton_append, feedAll] at hstatement
  cases t with
  | name => rfl
  | sign s => cases s <;> first | exact absurd rfl hparen | cases hstatement
  | keyword k | number | string | bind => cases hstatement

/-- The word that names a table in a statement that is accepted is read as a name: it is no keyword,
and it does not begin with a number. -/
theorem read_table {table condition : Text} (hword : isWord table = true)
    (h : queryFault? d (whereStatement table condition) = none) :
    read d table = some [.name] := by
  obtain ⟨ts, hread, hscript⟩ := queryFault?_eq_none_iff.mp h
  obtain ⟨hne, hall⟩ := Bool.and_eq_true_iff.mp hword
  have hchars := List.all_eq_true.mp hall
  cases table with
  | nil => cases hne
  | cons c w =>
    have hc := hchars c List.mem_cons_self
    by_cases hdigit : c.isDigit = true
    · rw [whereStatement_eq, read_append_blank read_from, read, List.cons_append,
        readFrom_gap_cons hc, if_pos hdigit] at hread
      obtain ⟨us, hnumber, rfl⟩ := Option.map_eq_some_iff.mp hread
      obtain ⟨rest, rfl⟩ := exists_of_readFrom_number hnumber
      exact absurd (eq_name_of_scriptFault? nofun nofun hscript : Token.number = .name) nofun
    · have htable : read d (c :: w) = some [.ofWord (c :: w)] := by
        rw [read, readFrom_gap_cons hc, if_neg hdigit]
        exact readFrom_word (fun e he => hchars e (List.mem_cons_of_mem c he)) [c]
      rw [read_whereStatement htable] at hread
      obtain ⟨cs, -, rfl⟩ := Option.map_eq_some_iff.mp hread
      rw [htable]
      have hname : Token.ofWord (c :: w) = .name := by
        refine eq_name_of_scriptFault? ?_ ?_ hscript <;>
        · rw [Token.ofWord]
          split <;> exact nofun
      rw [hname]

/-! ## 5. Conditions that are joined -/

theorem outerClauses_of_semicolons {ts : List Token} (h : ∀ t ∈ ts, t = .sign .semicolon)
    (depth : Int) : outerClauses depth ts = [] := by
  induction ts generalizing depth with
  | nil => rfl
  | cons t ts ih =>
    obtain ⟨rfl, hrest⟩ := List.forall_mem_cons.mp h
    rw [outerClauses, ih hrest, List.append_nil]
    exact ite_self _

/-- Semicolons at the end bring no clauses along. -/
theorem outerClauses_append {us : List Token} (h : ∀ t ∈ us, t = .sign .semicolon) (depth : Int)
    (ts : List Token) : outerClauses depth (ts ++ us) = outerClauses depth ts := by
  induction ts generalizing depth with
  | nil => exact outerClauses_of_semicolons h depth
  | cons t ts ih => rw [List.cons_append, outerClauses, outerClauses, ih]

theorem firstRow_and (rs : List Token) :
    firstRow (.keyword AND :: rs) = .keyword AND :: firstRow rs := rfl

theorem behindRow_and (rs : List Token) :
    behindRow (.keyword AND :: rs) = behindRow rs := rfl

theorem read_joined {s t : Text} {cs rs : List Token} (hs : read d s = some cs)
    (ht : read d t = some rs) :
    read d (s ++ " AND " ++ t) = some (cs ++ .keyword AND :: rs) := by
  have hand : " AND ".toList = ' ' :: ("AND".toList ++ [' ']) := by decide
  rw [hand]
  generalize hword : "AND".toList = word
  have hread : read d word = some [.keyword AND] := hword ▸ read_and
  rw [List.append_assoc, List.cons_append, List.append_assoc, read_append_blank hs,
    List.singleton_append, read_append_blank hread, ht]
  rfl

/-- What is left behind WHERE when two conditions are joined there. -/
theorem queryFault?_joined {table s t : Text} {cs rs : List Token}
    (htable : read d table = some [.name]) (hs : read d s = some cs) (ht : read d t = some rs)
    (hbehind : ∀ u ∈ behindRow rs, u = .sign .semicolon) :
    queryFault? d (whereStatement table (s ++ " AND " ++ t)) = none ↔
      .sign .semicolon ∉ cs ∧ follows whereSymbols (cs ++ .keyword AND :: firstRow rs) = true := by
  rw [queryFault?_whereStatement_iff htable, read_joined hs ht]
  constructor
  · rintro ⟨ts, hts, hrow, hafter⟩
    cases hts
    have hsemicolon : .sign .semicolon ∉ cs := fun h => not_forall_behindRow h hafter
    rw [firstRow_append hsemicolon, firstRow_and] at hrow
    exact ⟨hsemicolon, hrow⟩
  · rintro ⟨hsemicolon, hrow⟩
    refine ⟨_, rfl, ?_, ?_⟩
    · rwa [firstRow_append hsemicolon, firstRow_and]
    · rwa [behindRow_append hsemicolon, behindRow_and]

/-- Two conditions that are accepted apart from each other are accepted together if the first has no
semicolon and does not end with a direction, and if their clauses are those of one statement. -/
theorem queryFault?_joined_iff {table s t : Text} (htable : read d table = some [.name])
    (hs : queryFault? d (whereStatement table s) = none)
    (ht : queryFault? d (whereStatement table t) = none) :
    ∃ cs rs, read d s = some cs ∧ read d t = some rs ∧
      (queryFault? d (whereStatement table (s ++ " AND " ++ t)) = none ↔
        .sign .semicolon ∉ cs ∧
        cs.getLast? ≠ some (.keyword ASC) ∧ cs.getLast? ≠ some (.keyword DESC) ∧
        (outerClauses 0 cs ++ outerClauses 0 rs).Sublist [GROUP, ORDER]) ∧
      (.sign .semicolon ∉ cs → outerClauses 0 cs = [] →
        queryFault? d (whereStatement table (s ++ " AND " ++ t)) = none) := by
  obtain ⟨cs, hcs, hcsRow, -⟩ := (queryFault?_whereStatement_iff htable).mp hs
  obtain ⟨rs, hrs, hrsRow, hrsBehind⟩ := (queryFault?_whereStatement_iff htable).mp ht
  have hrsClauses : outerClauses 0 rs = outerClauses 0 (firstRow rs) := by
    have happend := outerClauses_append hrsBehind 0 (firstRow rs)
    rwa [show firstRow rs ++ behindRow rs = rs from List.takeWhile_append_dropWhile] at happend
  have hjoined := queryFault?_joined htable hcs hrs hrsBehind
  refine ⟨cs, rs, hcs, hrs, ?_, fun hsemicolon hnone => ?_⟩
  · rw [hjoined, hrsClauses]
    refine and_congr_right fun hsemicolon => ?_
    rw [firstRow_of_not_mem hsemicolon] at hcsRow
    exact follows_and_iff hcsRow hrsRow
  · rw [firstRow_of_not_mem hsemicolon] at hcsRow
    exact hjoined.mpr ⟨hsemicolon, follows_and hcsRow hrsRow hnone⟩

end MacroLint.Sql
