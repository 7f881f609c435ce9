import MacroLint.Sql.Grammar

/-!
# Rows of symbols that are being read

A row of symbols works like a stack: what a token begins is put in front of what was there. So a row
that was put together from two reads in its front part for as long as it can (`feed_append`), and
what stands behind is found unchanged. Two facts about the front part are needed by whoever follows
a statement while it is read.

The first is where an operand may end. Behind an operator, every row that is left either has to be
closed by a symbol at its end that cannot be passed over, or is empty, or waits for the arguments or
qualification of a name (`Interior`). A row that may end is one of the last two, and neither can
begin with the word AND.

The second is how deep a row stands in parentheses. Each parenthesis that is open has left a symbol
for the closing one behind, so the depth of a row is the number of these symbols in it; one token
changes it by what the token opens or closes. The clauses that begin with GROUP BY and ORDER BY
belong to queries, and inside an expression a query stands in parentheses. `Enclosed` says so of a
row, every step keeps it (`feed_enclosed`), and so a word of a clause that is read inside an
expression is read inside parentheses.
-/

set_option autoImplicit false

namespace MacroLint.Sql

open Keyword Sign MacroLint.Sql.Symbol

/-! ## 1. Rows that were put together -/

theorem feed_append (t : Token) (u v : List Symbol) :
    feed t (u ++ v) =
      match feed t u with
      | some left => some (left ++ v)
      | none => if u.all Symbol.optional then feed t v else none := by
  induction u with
  | nil => rfl
  | cons s u ih =>
    rw [List.cons_append, feed, feed]
    cases htakes : s.takes t with
    | some begun => simp only [List.append_assoc]
    | none =>
      cases hoptional : s.optional with
      | false => simp [hoptional]
      | true =>
        simp only [if_true, List.all_cons, hoptional, Bool.true_and]
        exact ih

theorem feedAll_append (row : List Symbol) (ts us : List Token) :
    feedAll row (ts ++ us) = (feedAll row ts).bind fun left => feedAll left us := by
  induction ts generalizing row with
  | nil => rfl
  | cons t ts ih =>
    rw [List.cons_append, feedAll, feedAll]
    cases feed t row with
    | none => rfl
    | some left => exact ih left

/-! ## 2. Operators -/

/-- The symbols between an operator or test and the next one. -/
def operationTakes : Token → Option (List Symbol)
  | .sign s => if isArithmetic s || isComparison s then some [operand] else none
  | .keyword AND | .keyword OR => some [operand]
  | .keyword NOT => some [denied]
  | .keyword IS => some [nullTest]
  | .keyword k => testTakes k
  | _ => none

theorem operationsTakes_eq (t : Token) :
    operationsTakes t = (operationTakes t).map fun inner => inner ++ [operations] := by
  cases t with
  | keyword k => cases k <;> rfl
  | sign s => cases s <;> rfl
  | name | number | string | bind => rfl

/-! ## 3. Where an operand may end -/

/-- The symbols that an operand or test may still need at its end. -/
def Symbol.closes : Symbol → Bool
  | word _ | mark _ | operand | denied | nullTest | cases | branches => true
  | _ => false

theorem optional_of_closes {s : Symbol} (h : s.closes = true) : s.optional = false := by
  cases s <;> first | rfl | cases h

theorem feed_singleton {s : Symbol} (h : s.optional = false) (t : Token) :
    feed t [s] = s.takes t := by
  rw [feed]
  cases s.takes t with
  | some begun => exact congrArg some (List.append_nil begun)
  | none => rw [h]; rfl

/-- What may be left of an operand or test while it is read. -/
inductive Interior : List Symbol → Prop
  /-- Nothing: it is complete. -/
  | nil : Interior []
  /-- It is a name, which may go on. -/
  | call : Interior [call]
  /-- It is a name, which goes on behind a dot. -/
  | name : Interior [name, call]
  /-- Its end is outstanding. -/
  | ends {u : List Symbol} {s : Symbol} (hlast : u.getLast? = some s) (hs : s.closes = true) :
      Interior u

theorem interior_operandTakes {t : Token} {begun : List Symbol} (h : operandTakes t = some begun) :
    Interior begun := by
  unfold operandTakes at h
  split at h <;> cases h
  · exact .call
  all_goals first | exact .nil | exact .ends rfl rfl

theorem interior_testTakes {k : Keyword} {begun : List Symbol} (h : testTakes k = some begun) :
    Interior begun := by
  unfold testTakes at h
  split at h <;> cases h <;> exact .ends rfl rfl

theorem interior_takes {s : Symbol} {t : Token} {begun : List Symbol} (hs : s.closes = true)
    (h : s.takes t = some begun) : Interior begun := by
  cases s with
  | operand => exact interior_operandTakes h
  | word k =>
    cases t with
    | keyword l =>
      obtain ⟨-, hnil⟩ := Option.ite_none_right_eq_some.mp h
      cases hnil
      exact .nil
    | _ => cases h
  | mark r =>
    cases t with
    | sign r' =>
      obtain ⟨-, hnil⟩ := Option.ite_none_right_eq_some.mp h
      cases hnil
      exact .nil
    | _ => cases h
  | denied =>
    cases t with
    | keyword k => exact interior_testTakes h
    | _ => cases h
  | nullTest =>
    cases t with
    | keyword k =>
      cases k with
      | NOT => cases h; exact .ends rfl rfl
      | NULL => cases h; exact .nil
      | _ => cases h
    | _ => cases h
  | cases =>
    by_cases hwhen : t = .keyword WHEN
    · subst hwhen
      cases h
      exact .ends rfl rfl
    · have hmap : (expressionTakes t).map (fun rest =>
          rest ++ word WHEN :: expression ++ word THEN :: expression ++ [branches])
            = some begun := by
        rw [← h]
        cases t with
        | keyword k => cases k <;> first | rfl | exact absurd rfl hwhen
        | _ => rfl
      obtain ⟨rest, -, rfl⟩ := Option.map_eq_some_iff.mp hmap
      exact .ends List.getLast?_concat rfl
  | branches =>
    cases t with
    | keyword k =>
      cases k with
      | WHEN | ELSE => cases h; exact .ends rfl rfl
      | END => cases h; exact .nil
      | _ => cases h
    | _ => cases h
  | _ => cases hs

/-- What is left stays of this kind, whatever is read. -/
theorem Interior.feed {t : Token} {u left : List Symbol} (hu : Interior u)
    (h : feed t u = some left) : Interior left := by
  cases hu with
  | nil => cases h
  | call =>
    cases t with
    | sign r =>
      cases r with
      | lparen => cases h; exact .ends rfl rfl
      | dot => cases h; exact .name
      | _ => cases h
    | _ => cases h
  | name =>
    cases t with
    | name => cases h; exact .call
    | _ => cases h
  | @ends u s hlast hs =>
    obtain ⟨front, rfl⟩ := List.getLast?_eq_some_iff.mp hlast
    rw [feed_append] at h
    cases hfront : Sql.feed t front with
    | some front' =>
      rw [hfront] at h
      cases h
      exact .ends List.getLast?_concat hs
    | none =>
      rw [hfront] at h
      obtain ⟨-, htakes⟩ := Option.ite_none_right_eq_some.mp h
      rw [feed_singleton (optional_of_closes hs)] at htakes
      exact interior_takes hs htakes

theorem Interior.eq_of_optional {u : List Symbol} (hu : Interior u)
    (h : u.all Symbol.optional = true) : u = [] ∨ u = [Symbol.call] := by
  cases hu with
  | nil => exact Or.inl rfl
  | call => exact Or.inr rfl
  | name => cases h
  | ends hlast hs =>
    have hopt := List.all_eq_true.mp h _ (List.mem_of_getLast? hlast)
    rw [optional_of_closes hs] at hopt
    cases hopt

theorem interior_operationTakes {t : Token} {begun : List Symbol}
    (h : operationTakes t = some begun) : Interior begun := by
  unfold operationTakes at h
  split at h
  · obtain ⟨-, hbegun⟩ := Option.ite_none_right_eq_some.mp h
    cases hbegun
    exact .ends rfl rfl
  · cases h; exact .ends rfl rfl
  · cases h; exact .ends rfl rfl
  · cases h; exact .ends rfl rfl
  · cases h; exact .ends rfl rfl
  · exact interior_testTakes h
  · cases h

/-! ## 4. Depth -/

/-- The parentheses that a token opens, less those it closes. -/
def Token.depth : Token → Int
  | .sign lparen => 1
  | .sign rparen => -1
  | _ => 0

/-- The parentheses that a symbol closes, less those it opens. -/
def Symbol.depth : Symbol → Int
  | mark rparen => 1
  | mark lparen => -1
  | _ => 0

/-- The parentheses that are open while a row is outstanding. -/
def depth : List Symbol → Int
  | [] => 0
  | s :: row => s.depth + depth row

@[simp] theorem depth_nil : depth [] = 0 := rfl

@[simp] theorem depth_cons (s : Symbol) (row : List Symbol) :
    depth (s :: row) = s.depth + depth row := rfl

@[simp] theorem depth_append (u v : List Symbol) : depth (u ++ v) = depth u + depth v := by
  induction u with
  | nil => simp
  | cons s u ih => simp [ih, Int.add_assoc]

/-- Whether a token is a word that only clauses behind the condition have. -/
def Token.isClause : Token → Bool
  | .keyword GROUP | .keyword ORDER | .keyword ASC | .keyword DESC => true
  | _ => false

/-- Whether such a word may be read by a symbol, or by what it begins outside of parentheses. -/
def Symbol.holdsClause : Symbol → Bool
  | statement | rows | group | grouping | ordering | direction | sortKeys
  | word GROUP | word ORDER | word ASC | word DESC => true
  | _ => false

/-- While a row is read with `n` parentheses open behind it, the depth is never negative, and the
symbols that hold clauses stand in parentheses. -/
def Enclosed (n : Int) : List Symbol → Prop
  | [] => True
  | s :: rest =>
    0 ≤ n + depth (s :: rest) ∧ (s.holdsClause = true → 1 ≤ n + depth rest) ∧ Enclosed n rest

instance Enclosed.decidable (n : Int) : (row : List Symbol) → Decidable (Enclosed n row)
  | [] => inferInstanceAs (Decidable True)
  | s :: rest =>
    have := Enclosed.decidable n rest
    inferInstanceAs (Decidable (0 ≤ n + depth (s :: rest) ∧
      (s.holdsClause = true → 1 ≤ n + depth rest) ∧ Enclosed n rest))

theorem enclosed_append {n : Int} {u v : List Symbol} :
    Enclosed n (u ++ v) ↔ Enclosed (n + depth v) u ∧ Enclosed n v := by
  induction u with
  | nil => simp [Enclosed]
  | cons s u ih =>
    have hcomm (m : Int) : n + (m + depth v) = n + depth v + m := by omega
    simp only [List.cons_append, Enclosed, depth_cons, depth_append, ih, ← Int.add_assoc s.depth,
      hcomm, and_assoc]

/-- Further parentheses around a row do no harm. -/
theorem Enclosed.mono {m n : Int} {u : List Symbol} (h : Enclosed m u) (hmn : m ≤ n) :
    Enclosed n u := by
  induction u with
  | nil => trivial
  | cons s u ih =>
    obtain ⟨hdepth, hclause, hrest⟩ := h
    refine ⟨by omega, fun hs => ?_, ih hrest⟩
    have hone := hclause hs
    omega

theorem Enclosed.nonneg {n : Int} {u : List Symbol} (h : Enclosed n u) (hn : 0 ≤ n) :
    0 ≤ n + depth u := by
  cases u with
  | nil => simpa using hn
  | cons s u => exact h.1

/-- What begins with a token above `n` open parentheses, in the place of a symbol of depth `d`. -/
structure Opening (n d : Int) (t : Token) (begun : List Symbol) : Prop where
  enclosed : Enclosed n begun
  depth_eq : depth begun = d + t.depth

/-- A row that is written out is looked at with the fewest parentheses around it. -/
theorem opening_of_enclosed {m n d : Int} {t : Token} {begun : List Symbol} (hmn : m ≤ n)
    (h : Enclosed m begun) (hdepth : depth begun = d + t.depth) : Opening n d t begun :=
  ⟨h.mono hmn, hdepth⟩

theorem Opening.append {n d : Int} {t : Token} {begun tail : List Symbol}
    (h : Opening n d t begun) (hn : 0 ≤ n) (htail : Enclosed 0 tail) (hdepth : depth tail = 0) :
    Opening n d t (begun ++ tail) where
  enclosed := by
    rw [enclosed_append, hdepth, Int.add_zero]
    exact ⟨h.enclosed, htail.mono hn⟩
  depth_eq := by rw [depth_append, hdepth, Int.add_zero, h.depth_eq]

theorem depth_of_isArithmetic {s : Sign} (h : isArithmetic s = true) : (Token.sign s).depth = 0 := by
  cases s <;> first | rfl | cases h

theorem depth_of_isComparison {s : Sign} (h : isComparison s = true) : (Token.sign s).depth = 0 := by
  cases s <;> first | rfl | cases h

theorem opening_operandTakes {n : Int} {t : Token} {begun : List Symbol}
    (h : operandTakes t = some begun) (hn : 0 ≤ n) : Opening n 0 t begun := by
  unfold operandTakes at h
  split at h <;> cases h
  all_goals exact opening_of_enclosed hn (by decide) rfl

theorem opening_expressionTakes {n : Int} {t : Token} {begun tail : List Symbol}
    (h : (expressionTakes t).map (fun rest => rest ++ tail) = some begun) (hn : 0 ≤ n)
    (htail : Enclosed 0 tail) (hdepth : depth tail = 0) : Opening n 0 t begun := by
  obtain ⟨rest, hrest, rfl⟩ := Option.map_eq_some_iff.mp h
  obtain ⟨first, hfirst, rfl⟩ := Option.map_eq_some_iff.mp hrest
  have hexpression : Opening n 0 t (first ++ [operations]) :=
    (opening_operandTakes hfirst hn).append hn (by decide) rfl
  exact hexpression.append hn htail hdepth

theorem opening_testTakes {n : Int} {k : Keyword} {begun : List Symbol}
    (h : testTakes k = some begun) (hn : 0 ≤ n) : Opening n 0 (.keyword k) begun := by
  unfold testTakes at h
  split at h <;> cases h
  all_goals exact opening_of_enclosed hn (by decide) rfl

theorem opening_operationTakes {n : Int} {t : Token} {begun : List Symbol}
    (h : operationTakes t = some begun) (hn : 0 ≤ n) : Opening n 0 t begun := by
  unfold operationTakes at h
  split at h
  · obtain ⟨hs, hbegun⟩ := Option.ite_none_right_eq_some.mp h
    cases hbegun
    refine opening_of_enclosed hn (by decide) ?_
    rcases Bool.or_eq_true_iff.mp hs with harithmetic | hcomparison
    · rw [depth_of_isArithmetic harithmetic]
      rfl
    · rw [depth_of_isComparison hcomparison]
      rfl
  · cases h; exact opening_of_enclosed hn (by decide) rfl
  · cases h; exact opening_of_enclosed hn (by decide) rfl
  · cases h; exact opening_of_enclosed hn (by decide) rfl
  · cases h; exact opening_of_enclosed hn (by decide) rfl
  · exact opening_testTakes h hn
  · cases h

theorem opening_operationsTakes {n : Int} {t : Token} {begun : List Symbol}
    (h : operationsTakes t = some begun) (hn : 0 ≤ n) : Opening n 0 t begun := by
  rw [operationsTakes_eq] at h
  obtain ⟨inner, hinner, rfl⟩ := Option.map_eq_some_iff.mp h
  exact (opening_operationTakes hinner hn).append hn (by decide) rfl

theorem opening_statementTakes {n : Int} {k : Keyword} {begun : List Symbol}
    (h : statementTakes k = some begun) (hn : 1 ≤ n) : Opening n 0 (.keyword k) begun := by
  unfold statementTakes at h
  split at h <;> cases h
  all_goals exact opening_of_enclosed hn (by decide) rfl

theorem opening_word {n : Int} {k l : Keyword} {begun : List Symbol}
    (h : (if k = l then some [] else none) = some begun) :
    Opening n (word k).depth (.keyword l) begun := by
  obtain ⟨-, hnil⟩ := Option.ite_none_right_eq_some.mp h
  cases hnil
  exact ⟨trivial, rfl⟩

theorem opening_mark {n : Int} {s r : Sign} {begun : List Symbol}
    (h : (if s = r then some [] else none) = some begun) :
    Opening n (mark s).depth (.sign r) begun := by
  obtain ⟨rfl, hnil⟩ := Option.ite_none_right_eq_some.mp h
  cases hnil
  cases s <;> exact ⟨trivial, rfl⟩

theorem opening_arithmetic {n : Int} {s : Sign} {begun : List Symbol}
    (h : (if isArithmetic s then some [operand, arithmetic] else none) = some begun) (hn : 0 ≤ n) :
    Opening n 0 (.sign s) begun := by
  obtain ⟨hs, hbegun⟩ := Option.ite_none_right_eq_some.mp h
  cases hbegun
  refine opening_of_enclosed hn (by decide) ?_
  rw [depth_of_isArithmetic hs]
  rfl

/-- A symbol that begins keeps the depth, and keeps clauses in parentheses. -/
theorem opening_takes {n : Int} {s : Symbol} {t : Token} {begun : List Symbol}
    (h : s.takes t = some begun) (hn : 0 ≤ n) (hclause : s.holdsClause = true → 1 ≤ n) :
    Opening n s.depth t begun := by
  unfold Symbol.takes at h
  split at h
  all_goals first
    -- Rows that are given by a table of their own,
    | exact opening_operandTakes h hn
    | exact opening_operationsTakes h hn
    | exact opening_testTakes h hn
    | exact opening_statementTakes h (hclause rfl)
    | exact opening_word h
    | exact opening_mark h
    | exact opening_arithmetic h hn
    | exact opening_expressionTakes h hn (by decide) rfl
    | simp only [List.append_assoc] at h; exact opening_expressionTakes h hn (by decide) rfl
    -- rows that are written out, of symbols without and with clauses,
    | cases h; exact opening_of_enclosed hn (by decide) rfl
    | cases h; exact opening_of_enclosed (hclause rfl) (by decide) rfl
    -- and no rows.
    | cases h

theorem depth_of_optional {s : Symbol} (h : s.optional = true) : s.depth = 0 := by
  cases s <;> first | rfl | cases h

theorem depth_of_all_optional {u : List Symbol} (h : u.all Symbol.optional = true) :
    depth u = 0 := by
  induction u with
  | nil => rfl
  | cons s u ih =>
    obtain ⟨hs, hu⟩ := Bool.and_eq_true_iff.mp h
    rw [depth_cons, depth_of_optional hs, ih hu, Int.add_zero]

theorem depth_of_holdsClause {s : Symbol} (h : s.holdsClause = true) : s.depth = 0 := by
  cases s <;> first | rfl | cases h

/-- The words of clauses are read by symbols that hold clauses. -/
theorem holdsClause_of_takes {s : Symbol} {t : Token} {begun : List Symbol}
    (h : s.takes t = some begun) (ht : t.isClause = true) : s.holdsClause = true := by
  have hcases : t = .keyword GROUP ∨ t = .keyword ORDER ∨ t = .keyword ASC ∨ t = .keyword DESC := by
    unfold Token.isClause at ht
    split at ht <;> simp_all
  rcases hcases with rfl | rfl | rfl | rfl <;>
    cases s <;> first | rfl | cases h | skip
  all_goals
    obtain ⟨rfl, -⟩ := Option.ite_none_right_eq_some.mp h
    rfl

/-- One token changes the depth by its own, keeps clauses in parentheses, and if it is a word of a
clause it is read in parentheses. -/
theorem feed_enclosed {t : Token} {u left : List Symbol} (h : feed t u = some left)
    (hu : Enclosed 0 u) :
    Enclosed 0 left ∧ depth left = depth u + t.depth ∧ (t.isClause = true → 1 ≤ depth u) := by
  induction u with
  | nil => cases h
  | cons s rest ih =>
    obtain ⟨-, hclause, hrest⟩ := hu
    rw [Int.zero_add] at hclause
    have hnonneg : 0 ≤ depth rest := by simpa using hrest.nonneg (Int.le_refl 0)
    rw [feed] at h
    cases htakes : s.takes t with
    | some begun =>
      rw [htakes] at h
      cases h
      have hopening := opening_takes htakes hnonneg hclause
      refine ⟨?_, ?_, fun ht => ?_⟩
      · rw [enclosed_append, Int.zero_add]
        exact ⟨hopening.enclosed, hrest⟩
      · rw [depth_append, depth_cons, hopening.depth_eq]
        omega
      · have hholds := holdsClause_of_takes htakes ht
        rw [depth_cons, depth_of_holdsClause hholds, Int.zero_add]
        exact hclause hholds
    | none =>
      rw [htakes] at h
      obtain ⟨hoptional, hfeed⟩ := Option.ite_none_right_eq_some.mp h
      obtain ⟨hleft, heq, hone⟩ := ih hfeed hrest
      rw [depth_cons, depth_of_optional hoptional, Int.zero_add]
      exact ⟨hleft, heq, hone⟩

end MacroLint.Sql
