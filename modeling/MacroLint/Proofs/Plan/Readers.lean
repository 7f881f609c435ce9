import Mathlib.Data.List.Forall2
import MacroLint.Plan.Fields
import MacroLint.Plan.Query
import MacroLint.Plan.Transfer

/-!
# Readers of lists

Three lists are read entry by entry: the fields of a field list, the columns of a mapping, and the
keys of a paging block. The readers are of one build. An entry is looked at by itself, then against
the keys that were seen before it, and the first entry that fails ends the reading.

For each reader it is said once what a fault is about, which is always an entry of the list, and
where it matters, when there is no fault. Nothing else about these recursions is needed: each lemma
is an induction on the list for every state of what was seen, and no other proof opens a reader.
-/

set_option autoImplicit false

namespace MacroLint.Plan

open Fragment

/-! ## Field lists -/

theorem fieldFault?_eq_none_iff {part : Part} {field : Entry} :
    fieldFault? part field = none ↔ Text.isWord field.key = true ∧ field.value ≠ some [] := by
  unfold fieldFault?
  by_cases hword : Text.isWord field.key = true
  · -- A word is not empty, so the first test passes.
    have hne : field.key.isEmpty = false := by
      simp only [Text.isWord, Bool.and_eq_true, Bool.not_eq_true'] at hword
      exact hword.1
    by_cases hvalue : field.value = some [] <;> simp [hword, hne, hvalue]
  · refine iff_of_false ?_ fun h => hword h.1
    split <;> simp [hword]

theorem fieldsFault?_eq_none_iff {part : Part} {fields : List Entry} :
    ∀ {seen : List Text}, fieldsFault? part seen fields = none ↔
      (∀ field ∈ fields, fieldFault? part field = none) ∧
      (fields.map fun field => Text.lower field.key).Nodup ∧
      ∀ field ∈ fields, Text.lower field.key ∉ seen := by
  induction fields with
  | nil =>
    intro seen
    simp [fieldsFault?]
  | cons field rest ih =>
    intro seen
    unfold fieldsFault?
    cases hf : fieldFault? part field with
    | some fault => simp [hf]
    | none =>
      by_cases hseen : Text.lower field.key ∈ seen
      · simp [hseen]
      · simp only [if_neg hseen, ih, List.forall_mem_cons, hf, true_and, List.map_cons,
          List.nodup_cons, List.mem_map, not_exists, not_and]
        constructor
        · rintro ⟨hrest, hnodup, hnew⟩
          exact ⟨hrest, ⟨fun other hother => List.ne_of_not_mem_cons (hnew other hother), hnodup⟩,
            hseen, fun other hother => List.not_mem_of_not_mem_cons (hnew other hother)⟩
        · rintro ⟨hrest, ⟨hnew, hnodup⟩, -, hold⟩
          exact ⟨hrest, hnodup, fun other hother =>
            List.not_mem_cons_of_ne_of_not_mem (hnew other hother) (hold other hother)⟩

/-- The reading of a list ends at a field that is at fault, and has gone through the fields before
it without a fault. -/
theorem exists_of_fieldsFault?_eq_some {part : Part} {fields : List Entry} {fault : Fault} :
    ∀ {seen : List Text}, fieldsFault? part seen fields = some fault →
      ∃ before field rest, fields = before ++ field :: rest ∧
        fieldsFault? part seen before = none ∧
        (fieldFault? part field = some fault ∨
          fieldFault? part field = none ∧ fault = .repeatedField field.key ∧
            (Text.lower field.key ∈ seen ∨
              ∃ earlier ∈ before, Text.lower earlier.key = Text.lower field.key)) := by
  induction fields with
  | nil =>
    intro seen h
    cases h
  | cons field rest ih =>
    intro seen h
    unfold fieldsFault? at h
    cases hfield : fieldFault? part field with
    | some found =>
      rw [hfield] at h
      cases h
      exact ⟨[], field, rest, rfl, rfl, Or.inl hfield⟩
    | none =>
      rw [hfield] at h
      by_cases hseen : Text.lower field.key ∈ seen
      · rw [if_pos hseen] at h
        cases h
        exact ⟨[], field, rest, rfl, rfl, Or.inr ⟨hfield, rfl, Or.inl hseen⟩⟩
      · rw [if_neg hseen] at h
        obtain ⟨before, offender, behind, rfl, hbefore, hfault⟩ := ih h
        refine ⟨field :: before, offender, behind, rfl, ?_, ?_⟩
        · simp only [fieldsFault?, hfield, if_neg hseen, hbefore]
        · rcases hfault with hmalformed | ⟨hnone, hrepeated, hearlier⟩
          · exact Or.inl hmalformed
          · refine Or.inr ⟨hnone, hrepeated, ?_⟩
            -- What was seen is `field` or was seen before it.
            rcases hearlier with hearlier | ⟨earlier, hmem, hkey⟩
            · rcases List.mem_cons.mp hearlier with hkey | hearlier
              · exact Or.inr ⟨field, List.mem_cons_self, hkey.symm⟩
              · exact Or.inl hearlier
            · exact Or.inr ⟨earlier, List.mem_cons_of_mem field hmem, hkey⟩

theorem exists_of_fieldsFault? {part : Part} {fields : List Entry} {fault : Fault}
    {seen : List Text} (h : fieldsFault? part seen fields = some fault) :
    ∃ field ∈ fields, fieldFault? part field = some fault ∨ fault = .repeatedField field.key := by
  obtain ⟨before, field, rest, rfl, -, hfault⟩ := exists_of_fieldsFault?_eq_some h
  refine ⟨field, List.mem_append_right before List.mem_cons_self, ?_⟩
  exact hfault.imp_right fun h => h.2.1

/-! ## Column mappings -/

theorem exists_of_mappings_error {entries : List Text} {fault : Fault} :
    ∀ {seen : List Text}, mappings seen entries = .error fault →
      ∃ entry ∈ entries, fault = .mappingShape entry ∨
        ∃ target source, mapping? entry = some (target, source) ∧
          fault = .repeatedTarget target := by
  induction entries with
  | nil =>
    intro seen h
    cases h
  | cons entry rest ih =>
    intro seen h
    simp only [mappings] at h
    cases hm : mapping? entry with
    | none =>
      rw [hm] at h
      cases h
      exact ⟨entry, List.mem_cons_self, Or.inl rfl⟩
    | some columns =>
      obtain ⟨target, source⟩ := columns
      simp only [hm] at h
      by_cases hseen : Text.lower target ∈ seen
      · rw [if_pos hseen] at h
        cases h
        exact ⟨entry, List.mem_cons_self, Or.inr ⟨target, source, hm, rfl⟩⟩
      · rw [if_neg hseen] at h
        cases hrest : mappings (Text.lower target :: seen) rest with
        | error found =>
          rw [hrest] at h
          cases h
          obtain ⟨other, hother, hfault⟩ := ih hrest
          exact ⟨other, List.mem_cons_of_mem entry hother, hfault⟩
        | ok columns =>
          rw [hrest] at h
          cases h

theorem mappings_cons_eq_ok_iff {seen rest : List Text} {entry : Text}
    {columns : List (Text × Text)} :
    mappings seen (entry :: rest) = .ok columns ↔
      ∃ column others, mapping? entry = some column ∧ Text.lower column.1 ∉ seen ∧
        mappings (Text.lower column.1 :: seen) rest = .ok others ∧ columns = column :: others := by
  rw [mappings]
  cases hentry : mapping? entry with
  | none => simp
  | some column =>
    obtain ⟨target, source⟩ := column
    by_cases hseen : Text.lower target ∈ seen
    · simp [hseen]
    · cases hrest : mappings (Text.lower target :: seen) rest with
      | error fault => simp [hseen, hrest, Except.map]
      | ok others => simp [hseen, hrest, Except.map, eq_comm]

/-- Reading is told by its result alone: a column is a target twice if its pairs are, at whatever
distance. -/
theorem mappings_eq_ok_iff {entries : List Text} :
    ∀ {seen : List Text} {columns : List (Text × Text)}, mappings seen entries = .ok columns ↔
      List.Forall₂ (fun entry column => mapping? entry = some column) entries columns ∧
        (columns.map fun column => Text.lower column.1).Nodup ∧
        ∀ column ∈ columns, Text.lower column.1 ∉ seen := by
  induction entries with
  | nil =>
    intro seen columns
    rw [mappings, List.forall₂_nil_left_iff, Except.ok.injEq]
    constructor
    · rintro rfl
      exact ⟨rfl, List.nodup_nil, fun _ hmem => nomatch hmem⟩
    · rintro ⟨rfl, -⟩
      rfl
  | cons entry rest ih =>
    intro seen columns
    rw [mappings_cons_eq_ok_iff, List.forall₂_cons_left_iff]
    -- The targets behind the first one are not the first one, and not among those before it.
    have hnew {target : Text} {others : List (Text × Text)} :
        (∀ column ∈ others, Text.lower column.1 ∉ target :: seen) ↔
          target ∉ others.map (fun column => Text.lower column.1) ∧
            ∀ column ∈ others, Text.lower column.1 ∉ seen := by
      simp only [List.mem_cons, not_or, List.mem_map, not_exists, not_and]
      exact forall₂_and
    constructor
    · rintro ⟨column, others, hentry, hfirst, hrest, rfl⟩
      obtain ⟨hentries, hnodup, hothers⟩ := ih.mp hrest
      obtain ⟨hother, hseen⟩ := hnew.mp hothers
      exact ⟨⟨column, others, hentry, hentries, rfl⟩, List.nodup_cons.mpr ⟨hother, hnodup⟩,
        List.forall_mem_cons.mpr ⟨hfirst, hseen⟩⟩
    · rintro ⟨⟨column, others, hentry, hentries, rfl⟩, hdistinct, hall⟩
      obtain ⟨hother, hnodup⟩ := List.nodup_cons.mp hdistinct
      obtain ⟨hfirst, hseen⟩ := List.forall_mem_cons.mp hall
      exact ⟨column, others, hentry, hfirst,
        ih.mpr ⟨hentries, hnodup, hnew.mpr ⟨hother, hseen⟩⟩, rfl⟩

theorem exists_of_mem_mappings {entries : List Text} {columns : List (Text × Text)}
    {column : Text × Text} (hmem : column ∈ columns) :
    ∀ {seen : List Text}, mappings seen entries = .ok columns →
      ∃ entry ∈ entries, mapping? entry = some column := by
  induction entries generalizing columns with
  | nil =>
    intro seen h
    cases h
    cases hmem
  | cons entry rest ih =>
    intro seen h
    obtain ⟨first, others, hfirst, -, hothers, rfl⟩ := mappings_cons_eq_ok_iff.mp h
    rcases List.mem_cons.mp hmem with rfl | hmem
    · exact ⟨entry, List.mem_cons_self, hfirst⟩
    · obtain ⟨other, hother, hcolumn⟩ := ih hmem hothers
      exact ⟨other, List.mem_cons_of_mem entry hother, hcolumn⟩

/-! ## Paging blocks -/

namespace Paging

theorem mem_keys_of_key? {paging : Paging} {written key : Text}
    (h : paging.key? written = some key) : key ∈ paging.keys := List.mem_of_find?_eq_some h

theorem lower_of_key? {paging : Paging} {written key : Text} (h : paging.key? written = some key) :
    Text.lower key = Text.lower written := by
  simpa using List.find?_some h

/-- The keys that some entries set, in canonical spelling; entries of unknown keys set none. -/
def canonicalKeys (paging : Paging) (entries : List Entry) : List Text :=
  entries.filterMap fun entry => paging.key? entry.key

theorem canonicalKeys_cons {paging : Paging} {entry : Entry} {key : Text}
    (h : paging.key? entry.key = some key) (rest : List Entry) :
    paging.canonicalKeys (entry :: rest) = key :: paging.canonicalKeys rest :=
  List.filterMap_cons_some h

theorem keysSet_eq_ok_iff {paging : Paging} {entries : List Entry} {keys : List Text} :
    ∀ {seen : List Text}, paging.keysSet seen entries = .ok keys ↔
      (∀ entry ∈ entries, (paging.key? entry.key).isSome ∧
        isPageValue (entry.value.getD []) = true) ∧
      (paging.canonicalKeys entries).Nodup ∧
      (∀ key ∈ paging.canonicalKeys entries, key ∉ seen) ∧
      keys = (paging.canonicalKeys entries).reverse ++ seen := by
  induction entries with
  | nil =>
    intro seen
    simp only [keysSet, canonicalKeys, List.filterMap_nil, List.reverse_nil, List.nil_append,
      Except.ok.injEq]
    exact ⟨fun h => ⟨by simp, List.nodup_nil, by simp, h.symm⟩, fun h => h.2.2.2.symm⟩
  | cons entry rest ih =>
    intro seen
    rw [keysSet, List.forall_mem_cons]
    cases hk : paging.key? entry.key with
    | none => simp
    | some key =>
      have hcons := canonicalKeys_cons hk rest
      by_cases hvalue : isPageValue (entry.value.getD []) = true
      · by_cases hseen : key ∈ seen
        · simp [hvalue, hcons, hseen]
        · simp only [hvalue, Bool.not_true, Bool.false_eq_true, if_false, if_neg hseen, ih, hcons,
            List.nodup_cons, List.forall_mem_cons, List.reverse_cons, List.append_assoc,
            List.singleton_append, Option.isSome_some, true_and]
          constructor
          · rintro ⟨hrest, hnodup, hnew, hkeys⟩
            exact ⟨hrest, ⟨fun hmem => List.ne_of_not_mem_cons (hnew key hmem) rfl, hnodup⟩,
              ⟨hseen, fun other hother => List.not_mem_of_not_mem_cons (hnew other hother)⟩, hkeys⟩
          · rintro ⟨hrest, ⟨hnew, hnodup⟩, ⟨-, hold⟩, hkeys⟩
            refine ⟨hrest, hnodup, fun other hother => ?_, hkeys⟩
            refine List.not_mem_cons_of_ne_of_not_mem ?_ (hold other hother)
            rintro rfl
            exact hnew hother
      · simp [hvalue]

theorem exists_of_keysSet_error {paging : Paging} {entries : List Entry} {fault : Fault} :
    ∀ {seen : List Text}, paging.keysSet seen entries = .error fault →
      ∃ entry ∈ entries, fault = .pagingKey paging.part entry.key ∨
        ∃ key, paging.key? entry.key = some key ∧
          (fault = .pagingValue key (entry.value.getD []) ∨
            fault = .repeatedPagingKey paging.part key) := by
  induction entries with
  | nil =>
    intro seen h
    cases h
  | cons entry rest ih =>
    intro seen h
    simp only [keysSet] at h
    cases hk : paging.key? entry.key with
    | none =>
      rw [hk] at h
      cases h
      exact ⟨entry, List.mem_cons_self, Or.inl rfl⟩
    | some key =>
      simp only [hk] at h
      split at h
      · cases h
        exact ⟨entry, List.mem_cons_self, Or.inr ⟨key, hk, Or.inl rfl⟩⟩
      · split at h
        · cases h
          exact ⟨entry, List.mem_cons_self, Or.inr ⟨key, hk, Or.inr rfl⟩⟩
        · obtain ⟨other, hother, hfault⟩ := ih h
          exact ⟨other, List.mem_cons_of_mem entry hother, hfault⟩

end Paging
end MacroLint.Plan
