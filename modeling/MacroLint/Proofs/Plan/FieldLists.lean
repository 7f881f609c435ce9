import MacroLint.Proofs.Literal.Cover
import MacroLint.Proofs.Plan.FieldOrder
import MacroLint.Proofs.Plan.Undisturbed

/-!
# The field lists that are admitted

A field list is admitted if its fields are well-formed and their keys differ in more than case
(`ValidFields`). The fields are looked at one by one in the order of the list, so of a list that is
refused the first field at fault is reported: the fields before it are a valid list, and it is
malformed itself or repeats a key of theirs (`exists_offender`).

An insert asks one statement, which lists the fields in the order of the bytes of their keys. Keys
are told apart without their case and sorted with it. Both are about the same fields: keys that are
different without their case are different, so the order is strict.
-/

set_option autoImplicit false

namespace MacroLint

open Fragment Literal

/-! ## 1. Valid lists -/

namespace Fragment

/-- A field by itself is as it should be: its key is a word, and an explicit value is not blank. -/
structure Entry.IsWellFormed (field : Entry) : Prop where
  word : Text.isWord field.key = true
  value : field.value ≠ some []

instance (field : Entry) : Decidable field.IsWellFormed :=
  decidable_of_iff (Text.isWord field.key = true ∧ field.value ≠ some [])
    ⟨fun ⟨hword, hvalue⟩ => ⟨hword, hvalue⟩, fun h => ⟨h.word, h.value⟩⟩

/-- What is wrong with a field by itself. The key is looked at before the value. -/
inductive Entry.Malformed (part : Part) (field : Entry) : Fault → Prop where
  | noKey (hkey : field.key = []) : field.Malformed part (.emptyEntry part)
  | noWord (hkey : field.key ≠ []) (hword : Text.isWord field.key = false) :
    field.Malformed part (.fieldName field.key)
  | noValue (hword : Text.isWord field.key = true) (hvalue : field.value = some []) :
    field.Malformed part (.noValue field.key)

/-- The fields can be set together: each is well-formed, and no two keys are the same but for the
case of their letters. -/
structure ValidFields (fields : List Entry) : Prop where
  wellFormed : ∀ field ∈ fields, field.IsWellFormed
  distinct : (fields.map fun field => Text.lower field.key).Nodup

instance (fields : List Entry) : Decidable (ValidFields fields) :=
  decidable_of_iff ((∀ field ∈ fields, field.IsWellFormed) ∧
      (fields.map fun field => Text.lower field.key).Nodup)
    ⟨fun ⟨hfields, hdistinct⟩ => ⟨hfields, hdistinct⟩, fun h => ⟨h.wellFormed, h.distinct⟩⟩

/-- A field is at fault behind some others: it is malformed, or else the key of one of the others is
its own but for the case. -/
inductive Offends (part : Part) (before : List Entry) (field : Entry) : Fault → Prop where
  | malformed {fault : Fault} (h : field.Malformed part fault) : Offends part before field fault
  | repeated (hfield : field.IsWellFormed)
    (hearlier : ∃ earlier ∈ before, Text.lower earlier.key = Text.lower field.key) :
    Offends part before field (.repeatedField field.key)

theorem Entry.Malformed.kind {part : Part} {field : Entry} {fault : Fault}
    (h : field.Malformed part fault) : fault.kind = .pattern := by
  cases h <;> rfl

end Fragment

/-! ## 2. The reader -/

namespace Plan

variable {part : Part}

theorem fieldFault?_eq_none_iff_isWellFormed {field : Entry} :
    fieldFault? part field = none ↔ field.IsWellFormed := by
  rw [fieldFault?_eq_none_iff]
  exact ⟨fun ⟨hword, hvalue⟩ => ⟨hword, hvalue⟩, fun h => ⟨h.word, h.value⟩⟩

theorem malformed_of_fieldFault? {field : Entry} {fault : Fault}
    (h : fieldFault? part field = some fault) : field.Malformed part fault := by
  unfold fieldFault? at h
  split at h
  · rename_i hkey
    cases h
    exact .noKey (List.isEmpty_iff.mp hkey)
  · rename_i hkey
    split at h
    · rename_i hword
      cases h
      exact .noWord (fun hnil => hkey (List.isEmpty_iff.mpr hnil)) (by simpa using hword)
    · rename_i hword
      split at h
      · rename_i hvalue
        cases h
        exact .noValue (by simpa using hword) (beq_iff_eq.mp hvalue)
      · cases h

theorem fieldsFault?_eq_none_iff_validFields {fields : List Entry} :
    fieldsFault? part [] fields = none ↔ ValidFields fields := by
  rw [fieldsFault?_eq_none_iff]
  simp only [fieldFault?_eq_none_iff_isWellFormed]
  constructor
  · rintro ⟨hfields, hdistinct, -⟩
    exact ⟨hfields, hdistinct⟩
  · intro h
    exact ⟨h.wellFormed, h.distinct, fun _ _ => List.not_mem_nil⟩

/-- **The first field at fault is reported.** -/
theorem exists_offender (part : Part) {list : Text} (h : ¬ValidFields (entries list)) :
    ∃ before field rest fault, entries list = before ++ field :: rest ∧ ValidFields before ∧
      Offends part before field fault ∧ fields list part = fail fault list := by
  cases hfault : fieldsFault? part [] (entries list) with
  | none => exact absurd (fieldsFault?_eq_none_iff_validFields.mp hfault) h
  | some fault =>
    obtain ⟨before, field, rest, hlist, hbefore, hcause⟩ := exists_of_fieldsFault?_eq_some hfault
    refine ⟨before, field, rest, fault, hlist, fieldsFault?_eq_none_iff_validFields.mp hbefore, ?_,
      by rw [fields, hfault]⟩
    rcases hcause with hmalformed | ⟨hnone, rfl, hearlier⟩
    · exact .malformed (malformed_of_fieldFault? hmalformed)
    · exact .repeated (fieldFault?_eq_none_iff_isWellFormed.mp hnone)
        (hearlier.resolve_left List.not_mem_nil)

theorem yields_fields_iff {list : Text} {statements : List Text} {read : List Entry} :
    (fields list part).Yields statements read ↔
      (ValidFields (entries list) ∧ read = entries list) ∧ statements = [] := by
  by_cases hvalid : ValidFields (entries list)
  · have hnone := (@fieldsFault?_eq_none_iff_validFields part _).mpr hvalid
    simp [fields, hnone, yields_done_iff, hvalid, eq_comm]
  · obtain ⟨_, _, _, fault, -, -, -, hfail⟩ := exists_offender part hvalid
    rw [hfail]
    exact iff_of_false not_yields_fail fun h => hvalid h.1.1

end Plan

/-! ## 3. The order of the bytes -/

theorem Literal.utf8_cons_of_isWordChar {c : Char} (h : Text.isWordChar c = true) (t : Text) :
    utf8 (c :: t) = UInt8.ofNat c.toNat :: utf8 t := by
  have hrange := Text.toNat_of_isWordChar h
  have hascii : c.toNat ≤ 0x7f := Nat.le_trans hrange.2 (by decide)
  have hchar : String.utf8EncodeChar c = [UInt8.ofNat c.toNat] := by
    simp [String.utf8EncodeChar, hascii]
  rw [utf8, List.flatMap_cons, hchar]
  rfl

/-- Of two words the one that comes before the other has the lesser bytes. -/
theorem Text.utf8_lt_of_isUpTo {s t : Text} (hs : ∀ c ∈ s, isWordChar c = true)
    (ht : ∀ c ∈ t, isWordChar c = true) (h : isUpTo s t = true) (hne : s ≠ t) :
    utf8 s < utf8 t := by
  induction s generalizing t with
  | nil =>
    obtain ⟨d, t, rfl⟩ := List.exists_cons_of_ne_nil hne.symm
    rw [utf8_cons_of_isWordChar (ht d List.mem_cons_self)]
    exact List.nil_lt_cons _ _
  | cons c s ih =>
    cases t with
    | nil => cases h
    | cons d t =>
      obtain ⟨hc, hs'⟩ := List.forall_mem_cons.mp hs
      obtain ⟨hd, ht'⟩ := List.forall_mem_cons.mp ht
      rw [utf8_cons_of_isWordChar hc, utf8_cons_of_isWordChar hd, List.cons_lt_cons_iff]
      rcases isUpTo_cons_iff.mp h with hlt | ⟨rfl, hrest⟩
      · left
        have hcrange := toNat_of_isWordChar hc
        have hdrange := toNat_of_isWordChar hd
        have hcbyte : c.toNat < UInt8.size := Nat.lt_of_le_of_lt hcrange.2 (by decide)
        have hdbyte : d.toNat < UInt8.size := Nat.lt_of_le_of_lt hdrange.2 (by decide)
        rwa [UInt8.lt_iff_toNat_lt, UInt8.toNat_ofNat_of_lt' hcbyte,
          UInt8.toNat_ofNat_of_lt' hdbyte]
      · right
        exact ⟨rfl, ih hs' ht' hrest fun heq => hne (by rw [heq])⟩

theorem Fragment.ValidFields.nodup_keys {fields : List Entry} (h : ValidFields fields) :
    (fields.map Entry.key).Nodup := by
  refine List.Nodup.of_map Text.lower ?_
  rw [List.map_map]
  exact h.distinct

/-- The keys of valid fields are different words, so sorting them leaves no two of them equal. -/
theorem Plan.pairwise_inKeyOrder {fields : List Entry} (h : ValidFields fields) :
    (inKeyOrder fields).Pairwise fun a b => utf8 a.key < utf8 b.key := by
  have hword {field : Entry} (hfield : field ∈ inKeyOrder fields) :
      ∀ c ∈ field.key, Text.isWordChar c = true := by
    have hmem := (perm_inKeyOrder fields).mem_iff.mp hfield
    exact (Text.isWord_iff.mp (h.wellFormed field hmem).word).2
  have hkeys := ((perm_inKeyOrder fields).map Entry.key).nodup_iff.mpr h.nodup_keys
  have hdistinct := List.pairwise_map.mp hkeys
  refine ((sorted_inKeyOrder fields).and hdistinct).imp_of_mem ?_
  intro a b ha hb ⟨hupTo, hne⟩
  exact Text.utf8_lt_of_isUpTo (hword ha) (hword hb) hupTo hne

/-! ## 4. Inserting fields -/

/-- The call names a table and lists fields. -/
structure Literal.Call.ListsFields (call : Call) (table list : Text) : Prop where
  count : call.segments.length ≤ 3
  named : call.param? 1 = some table
  word : Text.isWord table = true
  listed : call.param? 2 = some list

instance (call : Call) (table list : Text) : Decidable (call.ListsFields table list) :=
  decidable_of_iff (call.segments.length ≤ 3 ∧ call.param? 1 = some table ∧
      Text.isWord table = true ∧ call.param? 2 = some list)
    ⟨fun ⟨hcount, hnamed, hword, hlisted⟩ => ⟨hcount, hnamed, hword, hlisted⟩,
      fun h => ⟨h.count, h.named, h.word, h.listed⟩⟩

namespace Plan

variable {call : Call} {table list : Text}

theorem insertFields_eq (name : MacroName) (h : call.ListsFields table list) :
    insertFields name call = fields list .fieldList >>= fun fields =>
      ask ⟨insertStatement table (inKeyOrder fields), .fieldList, list⟩ := by
  simp [insertFields, atMost, tableAt, required, require, h.count, h.named, h.word, h.listed]

theorem yields_insertFields_iff (name : MacroName) {statements : List Text} {u : Unit} :
    (insertFields name call).Yields statements u ↔
      ∃ i : Text × Text, (call.ListsFields i.1 i.2 ∧ ValidFields (entries i.2)) ∧
        statements = [insertStatement i.1 (inKeyOrder (entries i.2))] := by
  rw [insertFields, yields_atMost_bind_iff, yields_tableAt_bind_iff]
  simp only [yields_required_bind_iff, yields_bind_iff_of_silent fun _ _ => yields_fields_iff,
    yields_ask_iff]
  constructor
  · rintro ⟨hcount, table, ⟨hnamed, hword⟩, list, hlisted, _, ⟨hvalid, rfl⟩, hasked⟩
    exact ⟨(table, list), ⟨⟨hcount, hnamed, hword, hlisted⟩, hvalid⟩, hasked⟩
  · rintro ⟨⟨table, list⟩, ⟨h, hvalid⟩, hasked⟩
    exact ⟨h.count, table, ⟨h.named, h.word⟩, list, h.listed, _, ⟨hvalid, rfl⟩, hasked⟩

end Plan

/-- **What can be inserted, exactly.** The calls that are admitted by an oracle that accepts
everything are those that name a table and list valid fields; one statement is asked for them, with
all the fields and no others, in the strict order of the bytes of their keys. If the list is not
valid nothing is asked, and the first field at fault is reported: as malformed if it is, and
otherwise as a repetition of a field before it. -/
theorem Family.check_insertFields_language (name : MacroName) (call : Call) :
    let run := Family.insertFields.check name call .lenient
    (run.diagnostic = none ↔
      ∃ table list, call.ListsFields table list ∧ ValidFields (entries list)) ∧
    ∀ table list, call.ListsFields table list →
      (ValidFields (entries list) → ∃ columns : List Entry, columns.Perm (entries list) ∧
        (columns.Pairwise fun a b => utf8 a.key < utf8 b.key) ∧
        run.statements = [insertStatement table columns]) ∧
      (¬ValidFields (entries list) → ∃ before field rest fault,
        entries list = before ++ field :: rest ∧ ValidFields before ∧
        run = ⟨[], some ((fault.report list).orUsage name.usage?)⟩ ∧
        (field.Malformed .fieldList fault ∧ fault.kind = .pattern ∨
          field.IsWellFormed ∧ (∃ earlier ∈ before,
            Text.lower earlier.key = Text.lower field.key) ∧
            fault = .repeatedField field.key ∧ fault.kind = .rule)) := by
  intro run
  obtain ⟨haccepted, hasked⟩ := @check_lenient .insertFields name call _ _ _
    fun _ => Plan.yields_insertFields_iff name
  refine ⟨?_, ?_⟩
  · rw [haccepted, Prod.exists]
  · intro table list hlists
    refine ⟨?_, ?_⟩
    · intro hvalid
      exact ⟨_, Plan.perm_inKeyOrder (entries list), Plan.pairwise_inKeyOrder hvalid,
        hasked (table, list) ⟨hlists, hvalid⟩⟩
    · intro hinvalid
      obtain ⟨before, field, rest, fault, hlist, hbefore, hoffends, hfail⟩ :=
        Plan.exists_offender .fieldList hinvalid
      have hstops : (Family.insertFields.plan name call).Stops [] (fault.report list) := by
        show (Plan.insertFields name call).Stops _ _
        rw [Plan.insertFields_eq name hlists, hfail]
        exact (Plan.stops_fail fault list).bind _
      refine ⟨before, field, rest, fault, hlist, hbefore, check_of_stops hstops, ?_⟩
      cases hoffends with
      | malformed hmalformed => exact Or.inl ⟨hmalformed, hmalformed.kind⟩
      | repeated hfield hearlier => exact Or.inr ⟨hfield, hearlier, rfl, rfl⟩

/-- Three fields are inserted, and the case of a key counts where they are sorted. A list with a
blank value and a repetition behind it is refused. -/
theorem Family.check_insertFields_language_of_mixed_case :
    let list : Text := "b = :b, A, a_ = f(1, 2)"
    let wrong : Text := "b, c = , B"
    let call : Call := ⟨[], [], [], ["insert", "t", list], false⟩
    let refused : Call := ⟨[], [], [], ["insert", "t", wrong], false⟩
    (∃ columns : List Entry, columns.Perm (entries list) ∧
      (columns.Pairwise fun a b => utf8 a.key < utf8 b.key) ∧
      (Family.insertFields.check .insert call .lenient).statements
        = [insertStatement "t" columns]) ∧
    ∃ fault : Fault, Family.insertFields.check .insert refused .lenient
      = ⟨[], some ((fault.report wrong).orUsage MacroName.insert.usage?)⟩ := by
  intro list wrong call refused
  refine ⟨?_, ?_⟩
  · have hlists : call.ListsFields "t" list := by decide
    exact ((check_insertFields_language .insert call).2 "t" list hlists).1 (by decide +kernel)
  · have hlists : refused.ListsFields "t" wrong := by decide
    obtain ⟨_, _, _, fault, -, -, hrun, -⟩ :=
      ((check_insertFields_language .insert refused).2 "t" wrong hlists).2 (by decide +kernel)
    exact ⟨fault, hrun⟩

end MacroLint
