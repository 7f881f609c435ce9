import MacroLint.Proofs.Plan.FieldOrder
import MacroLint.Proofs.Plan.Contract
import MacroLint.Validation

/-!
# Columns and values of an insert statement

An insert statement lists columns, and in its body the values for them. A body has no columns, so
the two are aligned only as far as the body splits into the values it was made of.

A value is a piece of the field list without its key, and without it the piece does to the nesting
what it did before (`standsFor_valueOrBind`). So values that stay in the order of the list are the
pieces of the body, whatever they are made of. Where the order changes, a value may come to stand
behind another one than in the list, and what that one opens or closes too many moves a comma in or
out of parentheses. Balanced values do not, and can be put in any order.
-/

set_option autoImplicit false

namespace MacroLint

namespace Fragment

open Text

/-! ## 1. Texts that stand for others in a list -/

/-- One text may stand for another in a list: behind it the nesting is the same, and a comma of it
is at the top level only if the other has one there as well. -/
structure StandsFor (t t' : Text) : Prop where
  after : ∀ n : Nesting, n.after t = n.after t'
  commas : ∀ n, NoTopComma n t' → NoTopComma n t

theorem StandsFor.trans {t t' t'' : Text} (h : StandsFor t t') (h' : StandsFor t' t'') :
    StandsFor t t'' where
  after n := (h.after n).trans (h'.after n)
  commas n hn := h.commas n (h'.commas n hn)

theorem ArePieces.map {n : Nesting} {pieces : List Text} {f : Text → Text} (h : ArePieces n pieces)
    (hf : ∀ piece ∈ pieces, StandsFor (f piece) piece) : ArePieces n (pieces.map f) := by
  induction pieces generalizing n with
  | nil => trivial
  | cons piece rest ih =>
    obtain ⟨hpiece, htop, hrest⟩ := h
    have hstands := hf piece List.mem_cons_self
    refine ⟨hstands.commas n hpiece, ?_, ?_⟩
    · intro hne
      rw [hstands.after n]
      exact htop fun hnil => hne (by rw [hnil, List.map_nil])
    · rw [hstands.after n]
      exact ih hrest fun other hother => hf other (List.mem_cons_of_mem piece hother)

theorem standsFor_cons {c : Char} (h : isPlain c = true) (hcomma : c ≠ ',') (t : Text) :
    StandsFor (c :: t) t where
  after n := by rw [Nesting.after_cons, n.step_of_isPlain h]
  commas n hn := by
    rw [noTopComma_cons, n.step_of_isPlain h]
    exact ⟨by simp [hcomma], hn⟩

theorem standsFor_of_append {s : Text} (h : ∀ c ∈ s, isPlain c = true) (t : Text) :
    StandsFor t (s ++ t) where
  after n := by rw [Nesting.after_append, n.after_of_isPlain h]
  commas n hn := by
    have ht := (noTopComma_append.mp hn).2
    rwa [n.after_of_isPlain h] at ht

theorem standsFor_trim (t : Text) : StandsFor (trim t) t where
  after n := by
    refine apply_trim ?_ ?_ t
    · intro c s hc
      rw [Nesting.after_cons, n.step_of_isPlain (isPlain_of_isBlank hc)]
    · intro c s hc
      rw [Nesting.after_append]
      exact (n.after s).step_of_isPlain (isPlain_of_isBlank hc)
  commas n hn := by
    have hblank {c : Char} (hc : isBlank c = true) : c ≠ ',' := by
      rintro rfl
      cases hc
    have htrim : NoTopComma n (trim t) = NoTopComma n t := by
      refine apply_trim ?_ ?_ t
      · intro c s hc
        simp [noTopComma_cons, hblank hc, n.step_of_isPlain (isPlain_of_isBlank hc)]
      · intro c s hc
        simp [noTopComma_append, noTopComma_cons, noTopComma_nil, hblank hc]
    rwa [htrim]

/-! ## 2. Values -/

/-- A value stands for the piece that it is read from: a word, an equals sign and blanks do nothing
to the nesting. -/
theorem standsFor_valueOrBind {piece : Text} (h : isWord (Entry.ofPiece piece).key = true) :
    StandsFor (Entry.ofPiece piece).valueOrBind piece := by
  unfold Entry.ofPiece at h ⊢
  cases hcut : cut '=' piece with
  | none => exact (standsFor_cons rfl (by decide) (trim piece)).trans (standsFor_trim piece)
  | some parts =>
    obtain ⟨key, value⟩ := parts
    rw [hcut] at h
    obtain ⟨rfl, -⟩ := cut_eq_some_iff.mp hcut
    have hkey : ∀ c ∈ key ++ ['='], isPlain c = true := by
      rw [List.forall_mem_append, List.forall_mem_singleton]
      exact ⟨isPlain_of_isWord_trim h, rfl⟩
    have hstands := (standsFor_trim value).trans (standsFor_of_append hkey value)
    rwa [List.append_assoc] at hstands

theorem arePieces_values {list : Text} (h : ∀ e ∈ entries list, isWord e.key = true) :
    ArePieces .start ((entries list).map Entry.valueOrBind) := by
  rw [entries, List.map_map]
  refine (arePieces_splitFrom .start list).map fun piece hpiece => ?_
  exact standsFor_valueOrBind (h _ (List.mem_map_of_mem hpiece))

/-- The blank behind a comma belongs to the next piece. -/
theorem joined_comma_blank (value : Text) (rest : List Text) :
    joined ", " (value :: rest) = joined [','] (value :: rest.map (' ' :: ·)) := by
  induction rest generalizing value with
  | nil => rfl
  | cons second rest ih =>
    rw [joined_cons, ih, List.map_cons, joined_cons, joined_cons_cons]
    simp

/-- Values that are the pieces of a list are the pieces of a body. -/
theorem ArePieces.split_body {values : List Text} (h : ArePieces .start values)
    (hne : values ≠ []) (htrim : ∀ t ∈ values, trim t = t) :
    (split (joined ", " values)).map trim = values := by
  obtain ⟨value, rest, rfl⟩ := List.exists_cons_of_ne_nil hne
  obtain ⟨hvalue, htop, hrest⟩ := h
  -- The blanks of the body are in front of the values, and do not count.
  have hpieces : ArePieces .start (value :: rest.map (' ' :: ·)) := by
    refine ⟨hvalue, fun hne => htop fun hnil => hne (by rw [hnil, List.map_nil]), ?_⟩
    exact hrest.map fun t _ => standsFor_cons rfl (by decide) t
  rw [joined_comma_blank, split, hpieces.splitFrom_joined (List.cons_ne_nil _ _), List.map_cons,
    List.map_map, htrim value List.mem_cons_self]
  congr 1
  conv_rhs => rw [← List.map_id rest]
  refine List.map_congr_left fun t ht => ?_
  rw [Function.comp_apply, trim_cons rfl, htrim t (List.mem_cons_of_mem value ht), id]

theorem trim_valueOrBind {e : Entry} {list : Text} (h : e ∈ entries list)
    (hkey : isWord e.key = true) : trim e.valueOrBind = e.valueOrBind := by
  obtain ⟨piece, -, rfl⟩ := List.mem_map.mp h
  unfold Entry.ofPiece at hkey ⊢
  cases hcut : cut '=' piece with
  | some parts => exact trim_trim parts.2
  | none =>
    rw [hcut] at hkey
    exact trim_of_forall_not (List.forall_mem_cons.mpr ⟨rfl, not_isBlank_of_isWord hkey⟩)

theorem entries_ne_nil (list : Text) : entries list ≠ [] :=
  fun h => splitFrom_ne_nil .start list (List.map_eq_nil_iff.mp h)

theorem split_body_of_perm {list : Text} {columns : List Entry}
    (hkeys : ∀ e ∈ entries list, isWord e.key = true) (hperm : columns.Perm (entries list))
    (h : ArePieces .start (columns.map Entry.valueOrBind)) :
    (split (joined ", " (columns.map Entry.valueOrBind))).map trim
      = columns.map Entry.valueOrBind := by
  refine h.split_body ?_ ?_
  · intro hnil
    rw [List.map_eq_nil_iff.mp hnil] at hperm
    exact entries_ne_nil list hperm.nil_eq.symm
  · refine List.forall_mem_map.mpr fun e he => ?_
    have hmem := hperm.mem_iff.mp he
    exact trim_valueOrBind hmem (hkeys e hmem)

/-! ## 3. Balanced values -/

/-- A text whose quotes pair up and in which as many unquoted parentheses open as close. -/
structure IsBalanced (t : Text) : Prop where
  quotes : t.count '\'' % 2 = 0
  closed : openings false t = 0

instance (t : Text) : Decidable (IsBalanced t) :=
  decidable_of_iff (t.count '\'' % 2 = 0 ∧ openings false t = 0)
    ⟨fun ⟨hquotes, hclosed⟩ => ⟨hquotes, hclosed⟩, fun h => ⟨h.quotes, h.closed⟩⟩

theorem isBalanced_of_isPlain {t : Text} (h : ∀ c ∈ t, isPlain c = true) : IsBalanced t where
  quotes := by
    have hquoted := Nesting.quoted_after_start t
    rw [Nesting.after_of_isPlain .start h] at hquoted
    have hne := of_decide_eq_false hquoted.symm
    omega
  closed := by
    rw [← Nesting.depth_after_start, Nesting.after_of_isPlain .start h]
    rfl

theorem isPiece_of_isBalanced {t : Text} (h : IsBalanced t) (hcommas : NoTopComma .start t) :
    IsPiece t where
  quotes := h.quotes
  closed := h.closed
  commas := noTopComma_start_iff.mp hcommas

theorem isPiece_of_arePieces {pieces : List Text} (h : ArePieces .start pieces)
    (hbalanced : ∀ t ∈ pieces, IsBalanced t) : ∀ t ∈ pieces, IsPiece t := by
  induction pieces with
  | nil => exact nofun
  | cons first rest ih =>
    have hfirst := isPiece_of_isBalanced (hbalanced first List.mem_cons_self) h.1
    have hrest := h.2.2
    rw [hfirst.after_start] at hrest
    refine List.forall_mem_cons.mpr ⟨hfirst, ih hrest ?_⟩
    exact fun t ht => hbalanced t (List.mem_cons_of_mem first ht)

theorem isBalanced_valueOrBind {e : Entry} (hkey : isWord e.key = true)
    (h : ∀ value ∈ e.value, IsBalanced value) : IsBalanced e.valueOrBind := by
  unfold Entry.valueOrBind
  cases hvalue : e.value with
  | some value => exact h value hvalue
  | none =>
    exact isBalanced_of_isPlain (List.forall_mem_cons.mpr ⟨rfl, isPlain_of_isWord hkey⟩)

theorem arePieces_of_isBalanced {list : Text} {columns : List Entry}
    (hkeys : ∀ e ∈ entries list, isWord e.key = true)
    (hbalanced : ∀ e ∈ entries list, ∀ value ∈ e.value, IsBalanced value)
    (hperm : columns.Perm (entries list)) :
    ArePieces .start (columns.map Entry.valueOrBind) := by
  have hpieces : ∀ t ∈ (entries list).map Entry.valueOrBind, IsPiece t := by
    refine isPiece_of_arePieces (arePieces_values hkeys) (List.forall_mem_map.mpr fun e he => ?_)
    exact isBalanced_valueOrBind (hkeys e he) (hbalanced e he)
  have hvalues := hperm.map Entry.valueOrBind
  exact arePieces_of_isPiece fun t ht => hpieces t (hvalues.mem_iff.mp ht)

/-! ## 4. The statement -/

/-- The insert statement with a body. -/
def insertInto (table : Text) (columns : List Entry) (body : Text) : Text :=
  "INSERT INTO " ++ table ++ " (" ++ joined ", " (columns.map Entry.key) ++ ") VALUES (" ++ body
    ++ ")"

theorem insertInto_inj {table : Text} {columns columns' : List Entry} {body body' : Text}
    (hlength : (joined ", " (columns.map Entry.key)).length
      = (joined ", " (columns'.map Entry.key)).length)
    (h : insertInto table columns body = insertInto table columns' body') : body = body' := by
  have hprefix := List.append_cancel_right h
  refine (List.append_inj hprefix ?_).2
  simp only [List.length_append, hlength]

end Fragment

open Fragment

/-- The probe of an insert statement inserts the fields of the list of a call. -/
def Probe.Inserts (call : Literal.Call) (probe : Probe) : Prop :=
  ∃ table list, call.param? 1 = some table ∧ call.param? 2 = some list ∧
    Plan.fieldsFault? .fieldList [] (entries list) = none ∧
    probe.statement = insertStatement table (Plan.inKeyOrder (entries list))

namespace Plan

theorem meets_insertFields (name : MacroName) (call : Literal.Call) :
    (insertFields name call).Meets (fun _ _ => True) (Probe.Inserts call) fun _ => True := by
  refine (meets_require fun _ => trivial).bind fun _ _ => ?_
  refine (meets_tableAt trivial fun _ _ => trivial).bind fun table htable => ?_
  refine (meets_required trivial).bind fun list hlist => ?_
  have hfields : (fields list .fieldList).Meets (fun _ _ => True) (Probe.Inserts call)
      fun read => read = entries list ∧ fieldsFault? .fieldList [] (entries list) = none := by
    unfold fields
    split
    · exact meets_fail trivial
    · rename_i hnone
      exact meets_done ⟨rfl, hnone⟩
  refine hfields.bind fun read hread => ?_
  obtain ⟨rfl, hnone⟩ := hread
  exact meets_ask ⟨table, list, htable, hlist, hnone, rfl⟩

theorem statements_ask (oracle : Oracle) (probe : Probe) (usage : Option Usage) :
    (((ask probe).run oracle).explain usage).statements = [probe.statement] := by
  simp only [ask, run, trace]
  cases oracle [] probe.statement with
  | none => rfl
  | some failure => rfl

theorem inKeyOrder_eq {fields ordered : List Entry} (hperm : fields.Perm ordered)
    (hkeys : (fields.map Entry.key).Nodup)
    (hordered : ordered.Pairwise fun a b => Text.isUpTo a.key b.key = true) :
    inKeyOrder fields = ordered := by
  rw [inKeyOrder_eq_of_perm hperm hkeys, inKeyOrder, List.mergeSort_of_pairwise hordered]

end Plan

/-- What a field list that has no fault leads to is one statement, whatever the oracle says to
it. -/
theorem Family.statements_check_insertFields (name : MacroName) (oracle : Oracle)
    {call : Literal.Call} {table list : Text} (hcount : call.segments.length ≤ 3)
    (htable : call.param? 1 = some table) (hword : Text.isWord table = true)
    (hlist : call.param? 2 = some list)
    (hfields : Plan.fieldsFault? .fieldList [] (entries list) = none) :
    (Family.insertFields.check name call oracle).statements
      = [insertStatement table (Plan.inKeyOrder (entries list))] := by
  have hplan : Plan.insertFields name call
      = Plan.ask ⟨insertStatement table (Plan.inKeyOrder (entries list)), .fieldList, list⟩ := by
    simp [Plan.insertFields, Plan.atMost, Plan.require, Plan.tableAt, Plan.required, Plan.fields,
      hcount, htable, hword, hlist, hfields]
  show (((Plan.insertFields name call).run oracle).explain name.usage?).statements = _
  rw [hplan]
  exact Plan.statements_ask oracle _ name.usage?

/-- **Columns and values stay aligned.** An insert statement lists the columns of the field list and
has a body. If the body may be taken apart, which is to say that all values are balanced, or that
the fields are listed in the order of the statement, it splits into the values of the columns. -/
theorem Family.check_insertFields_aligned (name : MacroName) (call : Literal.Call)
    (oracle : Oracle) {statement : Text}
    (h : statement ∈ (Family.insertFields.check name call oracle).statements) :
    ∃ (table list : Text) (columns : List Entry) (body : Text),
      call.param? 1 = some table ∧ call.param? 2 = some list ∧
      columns.Perm (entries list) ∧ (columns.map Entry.key).Nodup ∧
      statement = insertInto table columns body ∧
      ((∀ e ∈ entries list, ∀ value ∈ e.value, IsBalanced value) ∨
          ((entries list).Pairwise fun a b => Text.isUpTo a.key b.key = true) →
        (split body).map Text.trim = columns.map Entry.valueOrBind) := by
  have hprobe := ((Plan.meets_insertFields name call).of_mem_statements oracle [] h).resolve_left
    nofun
  obtain ⟨probe, ⟨table, list, htable, hlist, hnone, hstatement⟩, rfl⟩ := hprobe
  obtain ⟨hfields, hnodup, -⟩ := Plan.fieldsFault?_eq_none_iff.mp hnone
  have hkeys : ∀ e ∈ entries list, Text.isWord e.key = true :=
    fun e he => (Plan.fieldFault?_eq_none_iff.mp (hfields e he)).1
  have hperm : (Plan.inKeyOrder (entries list)).Perm (entries list) := List.mergeSort_perm _ _
  refine ⟨table, list, Plan.inKeyOrder (entries list), _, htable, hlist, hperm, ?_, hstatement, ?_⟩
  · rw [(hperm.map Entry.key).nodup_iff]
    refine List.Nodup.of_map Text.lower ?_
    rw [List.map_map]
    exact hnodup
  · intro hlist
    refine split_body_of_perm hkeys hperm ?_
    rcases hlist with hbalanced | hsorted
    · exact arePieces_of_isBalanced hkeys hbalanced hperm
    · rw [Plan.inKeyOrder, List.mergeSort_of_pairwise hsorted]
      exact arePieces_values hkeys

/-- Three fields change their order, one with a comma between parentheses and one with a comma in a
string. -/
theorem Family.check_insertFields_aligned_of_reordered :
    let list : Text := "b = f(1, 2), c = 'x,y', a"
    let statement : Text := "INSERT INTO t (a, b, c) VALUES (:a, f(1, 2), 'x,y')"
    ∃ (columns : List Entry) (body : Text), columns.Perm (entries list) ∧
      statement = insertInto "t" columns body ∧
      (split body).map Text.trim = columns.map Entry.valueOrBind := by
  intro list statement
  let call : Literal.Call := ⟨[], [], [], ["insert", "t", list], false⟩
  have horder : Plan.inKeyOrder (entries list)
      = [⟨"a", none⟩, ⟨"b", some "f(1, 2)".toList⟩, ⟨"c", some "'x,y'".toList⟩] :=
    Plan.inKeyOrder_eq (by decide +kernel) (by decide +kernel) (by decide +kernel)
  have hmem : statement ∈ (Family.insertFields.check .insert call .lenient).statements := by
    rw [@Family.statements_check_insertFields .insert .lenient call "t" list (by decide) (by decide)
      (by decide) (by decide) (by decide +kernel), horder]
    decide
  obtain ⟨table, list', columns, body, htable, hlist, hperm, -, hstatement, haligned⟩ :=
    Family.check_insertFields_aligned .insert call .lenient hmem
  obtain rfl : "t".toList = table := Option.some.inj htable
  obtain rfl : list = list' := Option.some.inj hlist
  exact ⟨columns, body, hperm, hstatement, haligned (Or.inl (by decide +kernel))⟩

/-- Two values which balance each other and not themselves change their order. The statement is
asked, and no reading of it has two values. -/
theorem Family.check_insertFields_of_unbalanced :
    let list : Text := "b=1),a=(2"
    let statement : Text := "INSERT INTO t (a, b) VALUES ((2, 1))"
    let call : Literal.Call := ⟨[], [], [], ["insert", "t", list], false⟩
    statement ∈ (Family.insertFields.check .insert call .lenient).statements ∧
    ∀ (columns : List Entry) (body : Text), columns.Perm (entries list) →
      statement = insertInto "t" columns body →
        (split body).map Text.trim ≠ columns.map Entry.valueOrBind := by
  intro list statement call
  let a : Entry := ⟨"a", some "(2".toList⟩
  let b : Entry := ⟨"b", some "1)".toList⟩
  constructor
  · have horder : Plan.inKeyOrder (entries list) = [a, b] :=
      Plan.inKeyOrder_eq (by decide +kernel) (by decide +kernel) (by decide +kernel)
    rw [@Family.statements_check_insertFields .insert .lenient call "t" list (by decide) (by decide)
      (by decide) (by decide) (by decide +kernel), horder]
    decide
  · intro columns body hperm hstatement haligned
    have hentries : entries list = [b, a] := by decide
    rw [hentries] at hperm
    obtain ⟨x, y, rfl⟩ := List.length_eq_two.mp hperm.length_eq
    have hx := hperm.mem_iff.mp List.mem_cons_self
    have hy := hperm.mem_iff.mp (List.mem_cons_of_mem x List.mem_cons_self)
    -- Whichever columns are named, the body is the same.
    have hlength : (Text.joined ", " ([a, b].map Entry.key)).length
        = (Text.joined ", " ([x, y].map Entry.key)).length := by
      simp only [List.mem_cons, List.not_mem_nil, or_false] at hx hy
      rcases hx with rfl | rfl <;> rcases hy with rfl | rfl <;> rfl
    have hbody : insertInto "t" [a, b] "(2, 1)" = insertInto "t" [x, y] body := hstatement
    obtain rfl := insertInto_inj hlength hbody
    have hone : (split "(2, 1)").length = 1 := by decide
    have hcount := congrArg List.length haligned
    rw [List.length_map, hone] at hcount
    cases hcount

end MacroLint
