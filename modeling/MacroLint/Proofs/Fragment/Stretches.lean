import MacroLint.Fragment.Clause
import MacroLint.Fragment.Entry
import MacroLint.Fragment.Shape
import MacroLint.Proofs.Text.Trim

/-!
# What the readers of a fragment give back

Every reader of a fragment cuts: it gives back contiguous stretches of what it was given and never
text of its own. There is one lemma for each reader, and together they let a text that is reported
or put into a statement be followed back to the parameter it came from.

The separators of a list are not stretches of their own accord: a piece is one because the pieces
joined with commas are the list (`joined_split`).
-/

set_option autoImplicit false

namespace MacroLint

namespace Text

theorem isInfix_of_cut {separator : Char} {t before after : Text}
    (h : cut separator t = some (before, after)) : before <:+: t ∧ after <:+: t := by
  obtain ⟨rfl, -⟩ := cut_eq_some_iff.mp h
  constructor
  · exact (List.prefix_append before _).isInfix
  · exact (List.suffix_append_of_suffix (List.suffix_cons separator after)).isInfix

theorem isInfix_joined {separator part : Text} {parts : List Text} (h : part ∈ parts) :
    part <:+: joined separator parts := by
  induction parts with
  | nil => cases h
  | cons first rest ih =>
    cases rest with
    | nil =>
      have hpart : part = joined separator [first] := by
        rw [List.mem_singleton.mp h, joined, List.intercalate_singleton]
      exact ⟨[], [], by rw [List.nil_append, List.append_nil, hpart]⟩
    | cons second rest =>
      rw [joined, List.intercalate_cons_cons]
      rcases List.mem_cons.mp h with rfl | hrest
      · exact (List.prefix_append part separator).isInfix.trans (List.prefix_append _ _).isInfix
      · exact (ih hrest).trans (List.suffix_append _ _).isInfix

end Text

namespace Fragment

open Text

theorem isInfix_of_mem_split {t piece : Text} (h : piece ∈ split t) : piece <:+: t := by
  have hjoined : piece <:+: joined [','] (split t) := isInfix_joined h
  rwa [joined_split] at hjoined

theorem isInfix_of_mem_trimmed {t entry : Text} (h : entry ∈ (split t).map trim) :
    entry <:+: t := by
  obtain ⟨piece, hpiece, rfl⟩ := List.mem_map.mp h
  exact (trim_isInfix piece).trans (isInfix_of_mem_split hpiece)

theorem Clause.isInfix_ofPiece (piece : Text) : (Clause.ofPiece piece).text <:+: piece := by
  unfold Clause.ofPiece
  split
  · have hdrop := (List.drop_suffix orMarker.length (trim piece)).isInfix
    exact (trim_isInfix _).trans (hdrop.trans (trim_isInfix piece))
  · exact trim_isInfix piece

theorem isInfix_of_mem_clauses {condition : Text} {clause : Clause}
    (h : clause ∈ clauses condition) :
    clause.text <:+: condition := by
  obtain ⟨piece, hpiece, rfl⟩ := List.mem_map.mp h
  exact (Clause.isInfix_ofPiece piece).trans (isInfix_of_mem_split hpiece)

theorem Entry.isInfix_ofPiece (piece : Text) :
    (Entry.ofPiece piece).key <:+: piece ∧
      ∀ value, (Entry.ofPiece piece).value = some value → value <:+: piece := by
  unfold Entry.ofPiece
  split
  · rename_i key value hcut
    obtain ⟨hkey, hvalue⟩ := isInfix_of_cut hcut
    refine ⟨(trim_isInfix key).trans hkey, ?_⟩
    intro v hv
    cases hv
    exact (trim_isInfix value).trans hvalue
  · refine ⟨trim_isInfix piece, ?_⟩
    intro v hv
    cases hv

theorem isInfix_of_mem_entries {list : Text} {entry : Entry} (h : entry ∈ entries list) :
    entry.key <:+: list ∧ ∀ value, entry.value = some value → value <:+: list := by
  obtain ⟨piece, hpiece, rfl⟩ := List.mem_map.mp h
  obtain ⟨hkey, hvalue⟩ := Entry.isInfix_ofPiece piece
  exact ⟨hkey.trans (isInfix_of_mem_split hpiece),
    fun value hv => (hvalue value hv).trans (isInfix_of_mem_split hpiece)⟩

theorem isInfix_of_mapping? {entry target source : Text}
    (h : mapping? entry = some (target, source)) :
    target <:+: entry ∧ source <:+: entry := by
  unfold mapping? at h
  split at h
  · cases h
  · rename_i before after hcut
    obtain ⟨hbefore, hafter⟩ := isInfix_of_cut hcut
    split at h
    · cases h
      exact ⟨(trimEnd_isInfix before).trans hbefore, (trimStart_isInfix after).trans hafter⟩
    · cases h

end Fragment
end MacroLint
