import Mathlib.Data.List.Nodup
import MacroLint.Proofs.Fragment.Pieces
import MacroLint.Proofs.Plan.Agreement
import MacroLint.Proofs.Plan.Readers

/-!
# The order of a field list

The insert statement lists its columns in the order of their characters. Fields have different keys,
so there is one such order, and the statement is the same however the fields are listed
(`inKeyOrder_eq_of_perm`). What is left of the order of a list is the list itself where it is
echoed.
-/

set_option autoImplicit false

namespace MacroLint

/-! ## 1. Sorting by key -/

namespace Text

theorem isUpTo_cons_iff {c d : Char} {s t : Text} :
    isUpTo (c :: s) (d :: t) = true ↔ c.toNat < d.toNat ∨ c = d ∧ isUpTo s t = true := by
  simp [isUpTo]

theorem isUpTo_total (s t : Text) : (isUpTo s t || isUpTo t s) = true := by
  induction s generalizing t with
  | nil => rfl
  | cons c s ih =>
    cases t with
    | nil => rfl
    | cons d t =>
      rw [Bool.or_eq_true, isUpTo_cons_iff, isUpTo_cons_iff]
      rcases Nat.lt_trichotomy c.toNat d.toNat with hlt | heq | hlt
      · exact Or.inl (Or.inl hlt)
      · have hcd : c = d := Char.toNat_inj.mp heq
        rcases Bool.or_eq_true_iff.mp (ih t) with hst | hts
        · exact Or.inl (Or.inr ⟨hcd, hst⟩)
        · exact Or.inr (Or.inr ⟨hcd.symm, hts⟩)
      · exact Or.inr (Or.inl hlt)

theorem isUpTo_trans {s t u : Text} (hst : isUpTo s t = true) (htu : isUpTo t u = true) :
    isUpTo s u = true := by
  induction s generalizing t u with
  | nil => rfl
  | cons c s ih =>
    cases t with
    | nil => cases hst
    | cons d t =>
      cases u with
      | nil => cases htu
      | cons e u =>
        rw [isUpTo_cons_iff] at hst htu ⊢
        rcases hst with hlt | ⟨rfl, hst⟩
        · rcases htu with hlt' | ⟨rfl, -⟩
          · exact Or.inl (Nat.lt_trans hlt hlt')
          · exact Or.inl hlt
        · rcases htu with hlt | ⟨rfl, htu⟩
          · exact Or.inl hlt
          · exact Or.inr ⟨rfl, ih hst htu⟩

theorem isUpTo_antisymm {s t : Text} (hst : isUpTo s t = true) (hts : isUpTo t s = true) :
    s = t := by
  induction s generalizing t with
  | nil =>
    cases t with
    | nil => rfl
    | cons d t => cases hts
  | cons c s ih =>
    cases t with
    | nil => cases hst
    | cons d t =>
      rw [isUpTo_cons_iff] at hst hts
      rcases hst with hlt | ⟨rfl, hst⟩
      · rcases hts with hlt' | ⟨rfl, -⟩
        · exact absurd hlt' (Nat.lt_asymm hlt)
        · exact absurd hlt (Nat.lt_irrefl _)
      · rcases hts with hlt | ⟨-, hts⟩
        · exact absurd hlt (Nat.lt_irrefl _)
        · rw [ih hst hts]

end Text

namespace Plan

open Fragment Literal

theorem perm_inKeyOrder (fields : List Entry) : (inKeyOrder fields).Perm fields :=
  List.mergeSort_perm _ _

theorem sorted_inKeyOrder (fields : List Entry) :
    (inKeyOrder fields).Pairwise fun a b => Text.isUpTo a.key b.key = true := by
  refine List.pairwise_mergeSort ?_ ?_ fields
  · intro a b c hab hbc
    exact Text.isUpTo_trans hab hbc
  · intro a b
    exact Text.isUpTo_total a.key b.key

/-- Fields of different keys have one order, in whatever order they are listed. -/
theorem inKeyOrder_eq_of_perm {fields fields' : List Entry} (h : fields.Perm fields')
    (hkeys : (fields.map Entry.key).Nodup) : inKeyOrder fields = inKeyOrder fields' := by
  have hperm : (inKeyOrder fields).Perm (inKeyOrder fields') :=
    (perm_inKeyOrder fields).trans (h.trans (perm_inKeyOrder fields').symm)
  refine hperm.eq_of_pairwise ?_ (sorted_inKeyOrder fields) (sorted_inKeyOrder fields')
  intro a b ha hb hab hba
  have ha := (perm_inKeyOrder fields).mem_iff.mp ha
  have hb := h.mem_iff.mpr ((perm_inKeyOrder fields').mem_iff.mp hb)
  exact List.inj_on_of_nodup_map hkeys ha hb (Text.isUpTo_antisymm hab hba)

/-! ## 2. Lists of fields -/

/-- An entry of a field list as it is written: its key is a word in whatever padding, its value is
not blank where there is one, and it holds no comma that would end it. -/
structure IsField (written : Entry) : Prop where
  key : Text.isWord (Text.trim written.key) = true
  value : written.value.map Text.trim ≠ some []
  piece : IsPiece written.source

instance (written : Entry) : Decidable (IsField written) :=
  decidable_of_iff (Text.isWord (Text.trim written.key) = true ∧
      written.value.map Text.trim ≠ some [] ∧ IsPiece written.source)
    ⟨fun ⟨hkey, hvalue, hpiece⟩ => ⟨hkey, hvalue, hpiece⟩, fun h => ⟨h.key, h.value, h.piece⟩⟩

/-- Neither a word nor the padding around it has an equals sign. -/
theorem IsField.not_mem_key {written : Entry} (h : IsField written) : '=' ∉ written.key := by
  intro hmem
  rcases Text.mem_trim_or_isBlank hmem with hword | hblank
  · have hchar := (Text.isWord_iff.mp h.key).2 '=' hword
    cases hchar
  · cases hblank

theorem IsField.fieldFault? {written : Entry} (h : IsField written) (part : Part) :
    fieldFault? part written.trimmed = none :=
  fieldFault?_eq_none_iff.mpr ⟨h.key, h.value⟩

/-- The list of some fields, as it is written. -/
def fieldList (written : List Entry) : Text := Text.joined [','] (written.map Entry.source)

theorem entries_fieldList {written : List Entry} (hne : written ≠ [])
    (h : ∀ field ∈ written, IsField field) :
    entries (Text.trim (fieldList written)) = written.map Entry.trimmed := by
  rw [entries_trim]
  exact entries_joined_source hne (fun field hfield => (h field hfield).piece)
    fun field hfield => (h field hfield).not_mem_key

/-- A list of fields is not blank: it would have one entry, whose key is empty. -/
theorem trim_fieldList_ne_nil {written : List Entry} (hne : written ≠ [])
    (h : ∀ field ∈ written, IsField field) : Text.trim (fieldList written) ≠ [] := by
  intro hblank
  have hentries := entries_fieldList hne h
  rw [hblank] at hentries
  obtain ⟨first, rest, rfl⟩ := List.exists_cons_of_ne_nil hne
  have hkey := (h first List.mem_cons_self).key
  have hempty : Text.trim first.key = [] := by
    have hfirst := congrArg (fun es => es.map Entry.key) hentries
    rw [List.map_cons, List.map_cons] at hfirst
    exact (List.cons.inj hfirst).1.symm
  rw [hempty] at hkey
  cases hkey

theorem fields_fieldList {written : List Entry} (hne : written ≠ [])
    (h : ∀ field ∈ written, IsField field)
    (hkeys : (written.map fun field => Text.lower (Text.trim field.key)).Nodup) (part : Part) :
    fields (Text.trim (fieldList written)) part = done (written.map Entry.trimmed) := by
  have hfaults : fieldsFault? part [] (written.map Entry.trimmed) = none := by
    refine fieldsFault?_eq_none_iff.mpr ⟨?_, ?_, fun _ _ => List.not_mem_nil⟩
    · intro field hfield
      obtain ⟨entry, hentry, rfl⟩ := List.mem_map.mp hfield
      exact (h entry hentry).fieldFault? part
    · rw [List.map_map]
      exact hkeys
  unfold fields
  rw [entries_fieldList hne h, hfaults]

/-- The texts that show how a field list is written: the list, and the literal around it. -/
def ListEcho (call call' : Call) (list list' context context' : Text) : Prop :=
  (context = call.normalized ∧ context' = call'.normalized) ∨
  (context = Text.trim list ∧ context' = Text.trim list')

section

variable {call call' : Call} {head head' table : Text} {rest : List Text}
  {written written' : List Entry}

theorem agree_insertFields (name : MacroName) (hne : written ≠ [])
    (hfields : ∀ field ∈ written, IsField field)
    (hkeys : (written.map fun field => Text.lower (Text.trim field.key)).Nodup)
    (hperm : written.Perm written')
    (hcall : call.segments = head :: table :: fieldList written :: rest)
    (hcall' : call'.segments = head' :: table :: fieldList written' :: rest) :
    Agree (ListEcho call call' (fieldList written) (fieldList written')) Eq
      (insertFields name call) (insertFields name call') := by
  have hne' : written' ≠ [] := fun h => hne (h ▸ hperm).eq_nil
  have hfields' : ∀ field ∈ written', IsField field :=
    fun field hfield => hfields field (hperm.mem_iff.mpr hfield)
  have hkeys' := (hperm.map fun field => Text.lower (Text.trim field.key)).nodup_iff.mp hkeys
  have hecho : ListEcho call call' (fieldList written) (fieldList written') call.normalized
      call'.normalized := Or.inl ⟨rfl, rfl⟩
  have hlist : call.param? 2 = some (Text.trim (fieldList written)) := by
    simp [Call.param?, hcall, trim_fieldList_ne_nil hne hfields]
  have hlist' : call'.param? 2 = some (Text.trim (fieldList written')) := by
    simp [Call.param?, hcall', trim_fieldList_ne_nil hne' hfields']
  apply (agree_atMost name 3 (by simp [hcall, hcall']) hecho).bind_eq
  intro _
  apply (agree_tableAt .table (by simp [Call.param?, hcall, hcall']) hecho).bind_eq
  intro table
  -- Both lists are read, and what is read is the same up to its order.
  simp only [required, hlist, hlist', done_bind, fields_fieldList hne hfields hkeys,
    fields_fieldList hne' hfields' hkeys']
  have horder : inKeyOrder (written.map Entry.trimmed)
      = inKeyOrder (written'.map Entry.trimmed) := by
    refine inKeyOrder_eq_of_perm (hperm.map _) ?_
    rw [List.map_map]
    refine List.Nodup.of_map Text.lower ?_
    rw [List.map_map]
    exact hkeys
  rw [horder]
  exact agree_ask rfl rfl (Or.inr (Or.inr ⟨rfl, rfl⟩))

end
end Plan

open Fragment Plan in
/-- **The order in which fields are listed does not matter**: however a list of fields is permuted,
the same statements are asked, and the reports differ at most in a context that echoes the list or
the literal. -/
theorem Family.check_insertFields_perm (name : MacroName) (oracle : Oracle)
    {call call' : Literal.Call} {head head' table : Text} {rest : List Text}
    {written written' : List Entry} (hne : written ≠ [])
    (hfields : ∀ field ∈ written, IsField field)
    (hkeys : (written.map fun field => Text.lower (Text.trim field.key)).Nodup)
    (hperm : written.Perm written')
    (hcall : call.segments = head :: table :: fieldList written :: rest)
    (hcall' : call'.segments = head' :: table :: fieldList written' :: rest) :
    (Family.insertFields.check name call oracle).Agree
      (ListEcho call call' (fieldList written) (fieldList written'))
      (Family.insertFields.check name call' oracle) :=
  (agree_insertFields name hne hfields hkeys hperm hcall hcall').run oracle name.usage?

open Fragment Plan in
/-- Three fields, one with a comma in a string and one with a comma between parentheses, are listed
in another order, and the insert statement is rejected. -/
theorem Family.check_insertFields_perm_of_inner_commas :
    let quoted : Entry := ⟨"b", some "'x,y'".toList⟩
    let nested : Entry := ⟨" A ", some "f(1, 2)".toList⟩
    let bare : Entry := ⟨"c", none⟩
    let list := fieldList [quoted, nested, bare]
    let list' := fieldList [bare, quoted, nested]
    let call : Literal.Call := ⟨[], "one", [], ["insert", "t", list], false⟩
    let call' : Literal.Call := ⟨[], "two", [], ["insert", "t", list'], false⟩
    let oracle := Oracle.scripted [some (.query (.grammar "no".toList))]
    (Family.insertFields.check .insert call oracle).Agree (ListEcho call call' list list')
      (Family.insertFields.check .insert call' oracle) := by
  intro quoted nested bare list list' call call' oracle
  refine Family.check_insertFields_perm .insert oracle (List.cons_ne_nil quoted [nested, bare])
    (by decide +kernel) (by decide +kernel) ?_ rfl rfl
  show ([quoted, nested] ++ [bare]).Perm ([bare] ++ [quoted, nested])
  exact List.perm_append_comm

end MacroLint
