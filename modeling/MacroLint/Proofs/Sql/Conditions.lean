import MacroLint.Proofs.Sql.Rows

/-!
# Conditions behind WHERE

What may stand behind WHERE is more than a condition: the clauses GROUP BY and ORDER BY may follow
it. So a text that is accepted there need not be one condition, and the question is what can be
joined to it with AND.

Behind WHERE a statement is read in stages: the condition, the keys of GROUP BY, a key of ORDER BY,
and the place behind a direction. A `State` is a stage together with what is left of the operand in
front of it, and the symbols that are outstanding are always those of a state (`feedAll_symbols`).
An operator can follow at every stage but the last, and it leads back to the same stage. So the word
AND changes nothing about the stage, and what comes behind it is read as if it stood behind WHERE,
except that clauses that have come already cannot come again. Which clauses have come is seen on the
tokens: the words GROUP and ORDER outside of parentheses (`outerClauses`), since a word of a clause
that is read inside an operand stands in parentheses.

The main result says when two texts that are accepted behind WHERE are accepted there joined by AND:
the first must not end with a direction, and together they must have at most one GROUP BY and behind
it at most one ORDER BY (`follows_and_iff`). Texts without clauses always compose (`follows_and`).
-/

set_option autoImplicit false

namespace MacroLint.Sql

open Keyword Sign MacroLint.Sql.Symbol

/-! ## 1. Stages -/

/-- What stands behind an operand outside of parentheses, behind WHERE. -/
inductive Stage where
  /-- The operand belongs to the condition. -/
  | condition
  /-- It belongs to a key of GROUP BY. -/
  | grouping
  /-- It belongs to a key of ORDER BY. -/
  | sorting
  /-- A direction stands behind a key of ORDER BY. -/
  | sorted
  deriving DecidableEq, Repr

/-- A stage, and the symbols that are left of the operand in front of it. -/
structure State where
  inner : List Symbol
  stage : Stage
  deriving DecidableEq, Repr

/-- The symbols that are outstanding at a stage. -/
def Stage.symbols : Stage → List Symbol
  | condition => [operations, Symbol.grouping, ordering]
  | grouping => [operations, expressions, ordering]
  | sorting => [operations, direction, sortKeys]
  | sorted => [sortKeys]

/-- The tokens with which a stage ends or goes on, operators and tests apart. -/
def Stage.turn : Stage → Token → Option State
  | condition, .keyword GROUP => some ⟨[word BY, operand], grouping⟩
  | condition, .keyword ORDER | grouping, .keyword ORDER => some ⟨[word BY, operand], sorting⟩
  | grouping, .sign comma => some ⟨[operand], grouping⟩
  | sorting, .sign comma | sorted, .sign comma => some ⟨[operand], sorting⟩
  | sorting, .keyword ASC | sorting, .keyword DESC => some ⟨[], sorted⟩
  | _, _ => none

/-- One token at a stage, outside of every operand. -/
def Stage.next (stage : Stage) (t : Token) : Option State :=
  match operationTakes t with
  | some inner => if stage = sorted then none else some ⟨inner, stage⟩
  | none => stage.turn t

/-- The symbols that are outstanding in a state. -/
def State.symbols (st : State) : List Symbol := st.inner ++ st.stage.symbols

theorem feed_stage (stage : Stage) (t : Token) :
    feed t stage.symbols = (stage.next t).map State.symbols := by
  cases t with
  | keyword k => cases stage <;> cases k <;> rfl
  | sign s => cases stage <;> cases s <;> rfl
  | name | number | string | bind => cases stage <;> rfl

/-- One token: it is read inside the operand as long as it can be. -/
def State.next (st : State) (t : Token) : Option State :=
  match feed t st.inner with
  | some inner => some ⟨inner, st.stage⟩
  | none => if st.inner.all Symbol.optional then st.stage.next t else none

/-- The state behind some tokens, `none` where they cannot be read. -/
def State.run (st : State) : List Token → Option State
  | [] => some st
  | t :: ts =>
    match st.next t with
    | some left => left.run ts
    | none => none

theorem feed_symbols (st : State) (t : Token) :
    feed t st.symbols = (st.next t).map State.symbols := by
  rw [State.symbols, feed_append, State.next]
  cases feed t st.inner with
  | some inner => rfl
  | none =>
    dsimp only
    split
    · exact feed_stage st.stage t
    · rfl

/-- Rows that are outstanding behind WHERE are those of states. -/
theorem feedAll_symbols (st : State) (ts : List Token) :
    feedAll st.symbols ts = (st.run ts).map State.symbols := by
  induction ts generalizing st with
  | nil => rfl
  | cons t ts ih =>
    rw [feedAll, feed_symbols, State.run]
    cases st.next t with
    | none => rfl
    | some left => exact ih left

theorem State.run_append (st : State) (ts us : List Token) :
    st.run (ts ++ us) = (st.run ts).bind fun left => left.run us := by
  induction ts generalizing st with
  | nil => rfl
  | cons t ts ih =>
    rw [List.cons_append, State.run, State.run]
    cases st.next t with
    | none => rfl
    | some left => exact ih left

theorem follows_symbols_iff (st : State) {ts : List Token} :
    follows st.symbols ts = true ↔
      ∃ left, st.run ts = some left ∧ left.inner.all Symbol.optional = true := by
  have hstage (stage : Stage) : stage.symbols.all Symbol.optional = true := by
    cases stage <;> rfl
  rw [follows, feedAll_symbols]
  cases st.run ts with
  | none => simp
  | some left => simp [State.symbols, List.all_append, hstage]

/-! ## 2. Clauses outside of parentheses -/

/-- The word that begins a clause. -/
def Token.clauseWord? : Token → Option Keyword
  | .keyword GROUP => some GROUP
  | .keyword ORDER => some ORDER
  | _ => none

/-- The words GROUP and ORDER that stand outside of parentheses, `depth` of which are open. -/
def outerClauses (depth : Int) : List Token → List Keyword
  | [] => []
  | t :: ts =>
    (if depth = 0 then t.clauseWord?.toList else []) ++ outerClauses (depth + t.depth) ts

/-- The clauses that may still come, in their order. -/
def Stage.pending : Stage → List Keyword
  | condition => [GROUP, ORDER]
  | grouping => [ORDER]
  | sorting | sorted => []

/-- What holds of the states that are reached. -/
structure State.Sound (st : State) : Prop where
  interior : Interior st.inner
  enclosed : Enclosed 0 st.inner
  sorted : st.stage = .sorted → st.inner = []

/-- One token is read inside, or it is read by the stage. -/
inductive State.Step (st left : State) (t : Token) : Prop
  | inside (hfeed : feed t st.inner = some left.inner) (hstage : left.stage = st.stage)
  | outside (hnone : feed t st.inner = none) (hoptional : st.inner.all Symbol.optional = true)
      (hnext : st.stage.next t = some left)

theorem State.step_of_next {st left : State} {t : Token} (h : st.next t = some left) :
    st.Step left t := by
  rw [State.next] at h
  cases hfeed : feed t st.inner with
  | some inner =>
    rw [hfeed] at h
    cases h
    exact .inside hfeed rfl
  | none =>
    rw [hfeed] at h
    obtain ⟨hoptional, hnext⟩ := Option.ite_none_right_eq_some.mp h
    exact .outside hfeed hoptional hnext

theorem Stage.cases_next {stage : Stage} {t : Token} {left : State}
    (h : stage.next t = some left) :
    (∃ inner, operationTakes t = some inner ∧ stage ≠ .sorted ∧ left = ⟨inner, stage⟩) ∨
      stage.turn t = some left := by
  rw [Stage.next] at h
  cases hop : operationTakes t with
  | some inner =>
    rw [hop] at h
    obtain ⟨hne, heq⟩ := Option.ite_none_left_eq_some.mp h
    exact Or.inl ⟨inner, rfl, hne, (Option.some.inj heq).symm⟩
  | none =>
    rw [hop] at h
    exact Or.inr h

theorem clauseWord?_of_operationTakes {t : Token} {inner : List Symbol}
    (h : operationTakes t = some inner) : t.clauseWord? = none := by
  cases t with
  | keyword k => cases k <;> first | rfl | cases h
  | name | number | string | bind | sign s => rfl

theorem clauseWord?_of_not_isClause {t : Token} (h : t.isClause ≠ true) : t.clauseWord? = none := by
  cases t with
  | keyword k => cases k <;> first | rfl | exact absurd rfl h
  | name | number | string | bind | sign s => rfl

/-- What a stage begins is sound, at depth 0. -/
theorem Stage.sound_next {stage : Stage} {t : Token} {left : State}
    (h : stage.next t = some left) : left.Sound ∧ depth left.inner = t.depth := by
  rcases Stage.cases_next h with ⟨inner, hop, hne, rfl⟩ | hturn
  · have hopening := opening_operationTakes hop (Int.le_refl 0)
    refine ⟨⟨interior_operationTakes hop, hopening.enclosed, fun hsorted => absurd hsorted hne⟩, ?_⟩
    rw [hopening.depth_eq, Int.zero_add]
  · unfold Stage.turn at hturn
    split at hturn <;> cases hturn
    all_goals first
      | exact ⟨⟨.nil, trivial, fun _ => rfl⟩, rfl⟩
      | exact ⟨⟨.ends rfl rfl, by dsimp only; decide, nofun⟩, rfl⟩

theorem Stage.pending_next {stage : Stage} {t : Token} {left : State}
    (h : stage.next t = some left) (ws : List Keyword) :
    (t.clauseWord?.toList ++ ws).Sublist stage.pending ↔ ws.Sublist left.stage.pending := by
  rcases Stage.cases_next h with ⟨inner, hop, -, rfl⟩ | hturn
  · rw [clauseWord?_of_operationTakes hop]
    rfl
  · unfold Stage.turn at hturn
    split at hturn <;> cases hturn
    all_goals first
      | exact Iff.rfl
      | exact List.cons_sublist_cons
      | simp [Token.clauseWord?, Stage.pending, List.sublist_cons_iff]

/-- What one token does to a sound state. -/
theorem State.Sound.next {st left : State} {t : Token} (hst : st.Sound)
    (h : st.next t = some left) :
    left.Sound ∧ depth left.inner = depth st.inner + t.depth ∧
      ∀ ws : List Keyword,
        ((if depth st.inner = 0 then t.clauseWord?.toList else []) ++ ws).Sublist st.stage.pending ↔
          ws.Sublist left.stage.pending := by
  cases step_of_next h with
  | inside hfeed hstage =>
    obtain ⟨henclosed, hdepth, hclause⟩ := feed_enclosed hfeed hst.enclosed
    refine ⟨⟨hst.interior.feed hfeed, henclosed, fun hsorted => ?_⟩, hdepth, fun ws => ?_⟩
    · rw [hst.sorted (hstage ▸ hsorted)] at hfeed
      cases hfeed
    · have hword : (if depth st.inner = 0 then t.clauseWord?.toList else []) = [] := by
        split
        · rename_i hzero
          -- A word that is read inside stands in parentheses.
          have hnot : t.isClause ≠ true := fun ht => by
            have hone := hclause ht
            omega
          rw [clauseWord?_of_not_isClause hnot]
          rfl
        · rfl
      rw [hword, hstage]
      rfl
  | outside hnone hoptional hnext =>
    have hzero := depth_of_all_optional hoptional
    obtain ⟨hsound, hdepth⟩ := Stage.sound_next hnext
    refine ⟨hsound, by rw [hdepth, hzero, Int.zero_add], fun ws => ?_⟩
    rw [if_pos hzero]
    exact Stage.pending_next hnext ws

/-- Reading uses up the clauses that stand outside of parentheses. -/
theorem State.Sound.run {st left : State} {ts : List Token} (hst : st.Sound)
    (h : st.run ts = some left) :
    left.Sound ∧ ∀ ws : List Keyword,
      (outerClauses (depth st.inner) ts ++ ws).Sublist st.stage.pending ↔
        ws.Sublist left.stage.pending := by
  induction ts generalizing st with
  | nil =>
    cases h
    exact ⟨hst, fun ws => Iff.rfl⟩
  | cons t ts ih =>
    rw [State.run] at h
    cases hnext : st.next t with
    | none =>
      rw [hnext] at h
      cases h
    | some mid =>
      rw [hnext] at h
      obtain ⟨hmid, hdepth, hpending⟩ := hst.next hnext
      obtain ⟨hleft, hrun⟩ := ih hmid h
      refine ⟨hleft, fun ws => ?_⟩
      rw [outerClauses, ← hdepth, List.append_assoc, hpending, hrun]

theorem Stage.turn_condition {t : Token} {left : State} (h : condition.turn t = some left) :
    t = .keyword GROUP ∧ left = ⟨[word BY, operand], grouping⟩ ∨
      t = .keyword ORDER ∧ left = ⟨[word BY, operand], sorting⟩ := by
  cases t with
  | keyword k =>
    cases k with
    | GROUP => cases h; exact Or.inl ⟨rfl, rfl⟩
    | ORDER => cases h; exact Or.inr ⟨rfl, rfl⟩
    | _ => cases h
  | sign s => cases s <;> cases h
  | name | number | string | bind => cases h

/-- A clause leads to the same stage from each stage at which it may come. -/
theorem Stage.next_of_turn {stage : Stage} {t : Token} {left : State} {ws : List Keyword}
    (h : condition.turn t = some left)
    (hclauses : (t.clauseWord?.toList ++ ws).Sublist stage.pending) :
    stage.next t = some left := by
  rcases Stage.turn_condition h with ⟨rfl, rfl⟩ | ⟨rfl, rfl⟩
  · have hmem : GROUP ∈ stage.pending := hclauses.subset List.mem_cons_self
    cases stage with
    | condition => rfl
    | grouping | sorting | sorted => exact absurd hmem (by decide)
  · have hmem : ORDER ∈ stage.pending := hclauses.subset List.mem_cons_self
    cases stage with
    | condition | grouping => rfl
    | sorting | sorted => exact absurd hmem (by decide)

/-- What is accepted behind WHERE is accepted at a later stage if its clauses may still come. -/
theorem accepts_of_pending {inner : List Symbol} {stage : Stage} {ts : List Token} {left : State}
    (hinner : State.Sound ⟨inner, .condition⟩) (hstage : stage ≠ .sorted)
    (hrun : State.run ⟨inner, .condition⟩ ts = some left)
    (hleft : left.inner.all Symbol.optional = true)
    (hclauses : (outerClauses (depth inner) ts).Sublist stage.pending) :
    ∃ left, State.run ⟨inner, stage⟩ ts = some left ∧ left.inner.all Symbol.optional = true := by
  induction ts generalizing inner with
  | nil =>
    cases hrun
    exact ⟨⟨inner, stage⟩, rfl, hleft⟩
  | cons t ts ih =>
    rw [State.run] at hrun
    cases hnext : State.next ⟨inner, .condition⟩ t with
    | none =>
      rw [hnext] at hrun
      cases hrun
    | some mid =>
      rw [hnext] at hrun
      obtain ⟨hmid, hdepth, -⟩ := hinner.next hnext
      have htail : (outerClauses (depth mid.inner) ts).Sublist stage.pending := by
        rw [outerClauses, ← hdepth] at hclauses
        exact (List.sublist_append_right _ _).trans hclauses
      cases State.step_of_next hnext with
      | inside hfeed hsame =>
        obtain ⟨inner', stage'⟩ := mid
        cases hsame
        obtain ⟨left, hleft⟩ := ih hmid hrun htail
        refine ⟨left, ?_, hleft.2⟩
        rw [State.run, State.next, hfeed]
        exact hleft.1
      | outside hnone hoptional hturn =>
        rcases Stage.cases_next hturn with ⟨inner', hop, -, rfl⟩ | hturn
        · obtain ⟨left, hleft⟩ := ih hmid hrun htail
          refine ⟨left, ?_, hleft.2⟩
          have hnext' : State.next ⟨inner, stage⟩ t = some ⟨inner', stage⟩ := by
            rw [State.next, hnone, Stage.next, hop]
            simp [hoptional, hstage]
          rw [State.run, hnext']
          exact hleft.1
        · rw [outerClauses, if_pos (depth_of_all_optional hoptional)] at hclauses
          have hnext' : State.next ⟨inner, stage⟩ t = some mid := by
            rw [State.next, hnone, if_pos hoptional]
            exact Stage.next_of_turn hturn hclauses
          refine ⟨left, ?_, hleft⟩
          rw [State.run, hnext']
          exact hrun

/-! ## 3. Conditions in a row -/

/-- What may come behind WHERE. -/
def whereSymbols : List Symbol := [operand, operations, grouping, ordering]

theorem State.sound_start {stage : Stage} (h : stage ≠ .sorted) :
    State.Sound ⟨[operand], stage⟩ where
  interior := .ends rfl rfl
  enclosed := (by decide : Enclosed 0 [operand])
  sorted := fun hsorted => absurd hsorted h

/-- Directions are all that an operator cannot follow. -/
theorem sorted_iff_of_run {st left : State} {ts : List Token} {t : Token} (hst : st.Sound)
    (h : st.run (ts ++ [t]) = some left) (hleft : left.inner.all Symbol.optional = true) :
    left.stage = .sorted ↔ t = .keyword ASC ∨ t = .keyword DESC := by
  rw [State.run_append] at h
  obtain ⟨mid, hmid, hlast⟩ := Option.bind_eq_some_iff.mp h
  have hsound := (hst.run hmid).1
  have hnext : mid.next t = some left := by
    rw [State.run] at hlast
    cases hn : mid.next t with
    | none =>
      rw [hn] at hlast
      cases hlast
    | some last =>
      rw [hn] at hlast
      exact hlast
  cases State.step_of_next hnext with
  | inside hfeed hstage =>
    obtain ⟨-, hdepth, hclause⟩ := feed_enclosed hfeed hsound.enclosed
    constructor
    · intro hsorted
      rw [hsound.sorted (hstage ▸ hsorted)] at hfeed
      cases hfeed
    · intro ht
      have hone : 1 ≤ depth mid.inner := hclause (by rcases ht with rfl | rfl <;> rfl)
      rw [depth_of_all_optional hleft] at hdepth
      have hzero : t.depth = 0 := by rcases ht with rfl | rfl <;> rfl
      omega
  | outside hnone hoptional hturn =>
    rcases Stage.cases_next hturn with ⟨inner, hop, hne, rfl⟩ | hturn
    · refine iff_of_false hne fun ht => ?_
      rcases ht with rfl | rfl <;> cases hop
    · unfold Stage.turn at hturn
      split at hturn <;> cases hturn
      all_goals simp

theorem next_and {st : State} (hst : st.Sound) (hoptional : st.inner.all Symbol.optional = true) :
    st.next (.keyword AND) = if st.stage = .sorted then none else some ⟨[operand], st.stage⟩ := by
  have hnone : feed (.keyword AND) st.inner = none := by
    rcases hst.interior.eq_of_optional hoptional with h | h <;> rw [h] <;> rfl
  rw [State.next, hnone, if_pos hoptional]
  rfl

/-- What a stage makes of tokens that are accepted behind WHERE. -/
theorem accepts_iff {stage : Stage} (hstage : stage ≠ .sorted) {ts : List Token}
    (h : follows whereSymbols ts = true) :
    (∃ left, State.run ⟨[operand], stage⟩ ts = some left ∧
        left.inner.all Symbol.optional = true) ↔
      (outerClauses 0 ts).Sublist stage.pending := by
  constructor
  · rintro ⟨left, hrun, -⟩
    have hsub := ((State.sound_start hstage).run hrun).2 []
    rw [List.append_nil] at hsub
    exact hsub.mpr (List.nil_sublist _)
  · intro hclauses
    obtain ⟨left, hrun, hoptional⟩ := (follows_symbols_iff ⟨[operand], .condition⟩).mp h
    exact accepts_of_pending (State.sound_start nofun) hstage hrun hoptional hclauses

/-- A condition leaves the statement at some stage, which tells what may be joined to it. -/
theorem exists_stage {cs : List Token} (hcs : follows whereSymbols cs = true) :
    ∃ stage : Stage,
      (stage = .sorted ↔
        cs.getLast? = some (.keyword ASC) ∨ cs.getLast? = some (.keyword DESC)) ∧
      (∀ ws, (outerClauses 0 cs ++ ws).Sublist [GROUP, ORDER] ↔ ws.Sublist stage.pending) ∧
      ∀ rs, follows whereSymbols rs = true →
        (follows whereSymbols (cs ++ .keyword AND :: rs) = true ↔
          stage ≠ .sorted ∧ (outerClauses 0 rs).Sublist stage.pending) := by
  have hstart : State.Sound ⟨[operand], .condition⟩ := State.sound_start nofun
  obtain ⟨mid, hmid, hoptional⟩ := (follows_symbols_iff ⟨[operand], .condition⟩).mp hcs
  obtain ⟨hsound, hclauses⟩ := hstart.run hmid
  refine ⟨mid.stage, ?_, hclauses, fun rs hrs => ?_⟩
  · rcases List.eq_nil_or_concat cs with rfl | ⟨init, t, rfl⟩
    · cases hcs
    · rw [List.concat_eq_append] at hmid ⊢
      rw [sorted_iff_of_run hstart hmid hoptional, List.getLast?_concat, Option.some_inj,
        Option.some_inj]
  · have hrun : State.run ⟨[operand], .condition⟩ (cs ++ .keyword AND :: rs)
        = mid.run (.keyword AND :: rs) := by
      rw [State.run_append, hmid]
      rfl
    rw [show whereSymbols = State.symbols ⟨[operand], .condition⟩ from rfl, follows_symbols_iff,
      hrun, State.run, next_and hsound hoptional]
    by_cases hsorted : mid.stage = .sorted
    · rw [if_pos hsorted]
      exact iff_of_false (fun ⟨_, hleft, _⟩ => nomatch hleft) fun h => h.1 hsorted
    · rw [if_neg hsorted]
      exact (accepts_iff hsorted hrs).trans (and_iff_right hsorted).symm

/-- **Conditions compose if their clauses do.** Two texts, each of which may stand behind WHERE, may
stand there joined by AND if the first does not end with a direction and the clauses outside of
parentheses that come along with them are those of one statement, in their order. -/
theorem follows_and_iff {cs rs : List Token} (hcs : follows whereSymbols cs = true)
    (hrs : follows whereSymbols rs = true) :
    follows whereSymbols (cs ++ .keyword AND :: rs) = true ↔
      cs.getLast? ≠ some (.keyword ASC) ∧ cs.getLast? ≠ some (.keyword DESC) ∧
        (outerClauses 0 cs ++ outerClauses 0 rs).Sublist [GROUP, ORDER] := by
  obtain ⟨stage, hsorted, hclauses, hand⟩ := exists_stage hcs
  rw [hand rs hrs, hclauses, ne_eq, hsorted, not_or, and_assoc]

/-- The clauses of a condition that is accepted are those of one statement. -/
theorem outerClauses_sublist {ts : List Token} (h : follows whereSymbols ts = true) :
    (outerClauses 0 ts).Sublist [GROUP, ORDER] := by
  obtain ⟨stage, -, hclauses, -⟩ := exists_stage h
  have hsub := (hclauses []).mpr (List.nil_sublist _)
  rwa [List.append_nil] at hsub

/-- A condition without clauses composes with every other. -/
theorem follows_and {cs rs : List Token} (hcs : follows whereSymbols cs = true)
    (hrs : follows whereSymbols rs = true) (hnone : outerClauses 0 cs = []) :
    follows whereSymbols (cs ++ .keyword AND :: rs) = true := by
  obtain ⟨stage, -, hclauses, hand⟩ := exists_stage hcs
  rw [hnone] at hclauses
  -- Both clauses may still come, so the stage is the first one.
  have hboth : [GROUP, ORDER].Sublist stage.pending := (hclauses _).mp (List.Sublist.refl _)
  cases stage with
  | condition => exact (hand rs hrs).mpr ⟨nofun, outerClauses_sublist hrs⟩
  | grouping | sorting | sorted => exact absurd hboth (by decide)

end MacroLint.Sql
