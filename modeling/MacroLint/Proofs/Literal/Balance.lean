import Mathlib.Data.List.Infix
import MacroLint.Validation

/-!
# Which bracket is missing

The check of the brackets keeps one number, how many are open, and stops at the first `]` that finds
none. What it answers is a matter of counting all the same. A `]` finds none open exactly when some
beginning of the text has more `]` than `[` (`NeverShort` says that there is no such beginning), and
what is open at the end is the difference of the two numbers. `pairBrackets_eq` is the answer in
these terms, from any number of open brackets on.

The answers exclude each other and leave nothing out (`bracketFault_eq_iff`). A stray `]` wins over
whatever follows it, since the beginning up to it is enough to see it.
-/

set_option autoImplicit false

namespace MacroLint.Literal

/-! ## 1. Counting -/

/-- With `opened` brackets open before the text, no beginning of it closes more than there are. -/
def NeverShort (opened : Nat) (t : Text) : Prop :=
  ∀ p, p <+: t → p.count ']' ≤ opened + p.count '['

instance (opened : Nat) (t : Text) : Decidable (NeverShort opened t) :=
  decidable_of_iff (∀ p ∈ t.inits, p.count ']' ≤ opened + p.count '[')
    (by simp only [List.mem_inits]; rfl)

theorem neverShort_zero_iff {t : Text} :
    NeverShort 0 t ↔ ∀ p, p <+: t → p.count ']' ≤ p.count '[' := by
  simp [NeverShort]

/-- The text is one of its beginnings. -/
theorem NeverShort.count_le {opened : Nat} {t : Text} (h : NeverShort opened t) :
    t.count ']' ≤ opened + t.count '[' :=
  h t (List.prefix_refl t)

/-- A beginning of a text is empty, or it has the first character and a beginning of the rest. -/
theorem forall_prefix_cons_iff {P : Text → Prop} {c : Char} {t : Text} :
    (∀ p, p <+: c :: t → P p) ↔ P [] ∧ ∀ p, p <+: t → P (c :: p) := by
  constructor
  · intro h
    refine ⟨h [] List.nil_prefix, ?_⟩
    intro p hp
    exact h (c :: p) ((List.prefix_cons_inj c).mpr hp)
  · intro h p hp
    cases p with
    | nil => exact h.1
    | cons d p =>
      obtain ⟨hd, hp⟩ := List.cons_prefix_cons.mp hp
      rw [hd]
      exact h.2 p hp

theorem neverShort_nil (opened : Nat) : NeverShort opened [] := by
  intro p hp
  simp [List.prefix_nil.mp hp]

theorem neverShort_open (opened : Nat) (t : Text) :
    NeverShort opened ('[' :: t) ↔ NeverShort (opened + 1) t := by
  unfold NeverShort
  rw [forall_prefix_cons_iff]
  simp [Nat.add_assoc, Nat.add_comm 1]

theorem neverShort_close (opened : Nat) (t : Text) :
    NeverShort (opened + 1) (']' :: t) ↔ NeverShort opened t := by
  unfold NeverShort
  rw [forall_prefix_cons_iff]
  simp [Nat.add_right_comm]

/-- With none open, a `]` is short at once. -/
theorem not_neverShort_close (t : Text) : ¬NeverShort 0 (']' :: t) := by
  intro h
  have hfirst := h [']'] (List.prefix_append [']'] t)
  simp at hfirst

theorem neverShort_cons_of_ne {c : Char} (hopen : c ≠ '[') (hclose : c ≠ ']') (opened : Nat)
    (t : Text) : NeverShort opened (c :: t) ↔ NeverShort opened t := by
  unfold NeverShort
  rw [forall_prefix_cons_iff]
  simp [hopen, hclose]

/-- The answer of the check, in terms of counts. -/
theorem pairBrackets_eq (opened : Nat) (t : Text) :
    pairBrackets opened t =
      if NeverShort opened t then
        if t.count ']' = opened + t.count '[' then none else some .unclosed
      else some .unopened := by
  induction t generalizing opened with
  | nil =>
    rw [if_pos (neverShort_nil opened)]
    simp [pairBrackets, eq_comm]
  | cons c t ih =>
    by_cases hopen : c = '['
    · subst hopen
      rw [pairBrackets_open, ih]
      simp [neverShort_open, Nat.add_assoc, Nat.add_comm 1]
    · by_cases hclose : c = ']'
      · subst hclose
        cases opened with
        | zero =>
          rw [if_neg (not_neverShort_close t)]
          rfl
        | succ n =>
          rw [pairBrackets_close, ih]
          simp [neverShort_close, Nat.add_right_comm]
      · rw [pairBrackets_cons_of_ne hopen hclose, ih]
        simp [neverShort_cons_of_ne hopen hclose, hopen, hclose]

/-! ## 2. The fault -/

/-- What each answer of the check says about the brackets of a text. -/
def Balance (t : Text) : Option BracketFault → Prop
  | none => ('[' ∈ t ∨ ']' ∈ t) ∧ NeverShort 0 t ∧ t.count '[' = t.count ']'
  | some .absent => '[' ∉ t ∧ ']' ∉ t
  | some .unopened => ¬NeverShort 0 t
  | some .unclosed => NeverShort 0 t ∧ t.count ']' < t.count '['

theorem bracketFault_eq (t : Text) :
    bracketFault t =
      if '[' ∈ t ∨ ']' ∈ t then
        if NeverShort 0 t then
          if t.count ']' = t.count '[' then none else some .unclosed
        else some .unopened
      else some .absent := by
  have hany : (t.any fun c => c == '[' || c == ']') = true ↔ '[' ∈ t ∨ ']' ∈ t := by
    simp only [List.any_eq_true, Bool.or_eq_true, beq_iff_eq]
    constructor
    · intro h
      obtain ⟨c, hc, rfl | rfl⟩ := h
      · exact Or.inl hc
      · exact Or.inr hc
    · intro h
      rcases h with h | h
      · exact ⟨'[', h, Or.inl rfl⟩
      · exact ⟨']', h, Or.inr rfl⟩
  unfold bracketFault
  simp only [hany, pairBrackets_eq, Nat.zero_add]

/-- Text without brackets is never short, and nothing is left open in it. -/
theorem neverShort_of_absent {t : Text} (hopen : '[' ∉ t) (hclose : ']' ∉ t) :
    NeverShort 0 t ∧ t.count ']' = t.count '[' := by
  constructor
  · intro p hp
    have hnone : ']' ∉ p := fun hmem => hclose (hp.subset hmem)
    simp [List.count_eq_zero_of_not_mem hnone]
  · rw [List.count_eq_zero_of_not_mem hopen, List.count_eq_zero_of_not_mem hclose]

/-- The answers exclude each other, and one of them is given. -/
theorem bracketFault_eq_iff {t : Text} {answer : Option BracketFault} :
    bracketFault t = answer ↔ Balance t answer := by
  rw [bracketFault_eq]
  by_cases hbracket : '[' ∈ t ∨ ']' ∈ t
  · by_cases hshort : NeverShort 0 t
    · by_cases hcount : t.count ']' = t.count '['
      · rcases answer with _ | _ | _ | _ <;> simp [Balance, hbracket, hshort, hcount, ← not_or]
      · -- Nothing was closed too often, so too little was closed.
        have hle := hshort.count_le
        have hlt : t.count ']' < t.count '[' := by omega
        rcases answer with _ | _ | _ | _ <;>
          simp [Balance, hbracket, hshort, hlt, hlt.ne, hlt.ne', ← not_or]
    · rcases answer with _ | _ | _ | _ <;> simp [Balance, hbracket, hshort, ← not_or]
  · obtain ⟨hopen, hclose⟩ := not_or.mp hbracket
    obtain ⟨hshort, hcount⟩ := neverShort_of_absent hopen hclose
    rcases answer with _ | _ | _ | _ <;> simp [Balance, hopen, hclose, hshort, hcount]

/-! ## 3. The report -/

/-- What is reported about the brackets of a text. -/
def bracketReport? (t : Text) : Option Diagnostic :=
  (bracketFault t).map fun fault => (Fault.brackets fault).report t

/-- It is the first thing that a literal is refused for. -/
theorem resolve_of_bracketReport? {raw : Text} {d : Diagnostic}
    (h : bracketReport? (normal raw) = some d) : resolve raw = .error d := by
  obtain ⟨fault, hfault, rfl⟩ := Option.map_eq_some_iff.mp h
  simp [resolve, hfault]

/-- The wordings tell the faults apart. -/
theorem message_brackets_inj {f g : BracketFault}
    (h : (Fault.brackets f).message = (Fault.brackets g).message) : f = g := by
  revert h
  cases f <;> cases g <;> decide

theorem message_bracketReport?_iff {t : Text} (fault : BracketFault) :
    (bracketReport? t).map Diagnostic.message = some (Fault.brackets fault).message ↔
      Balance t (some fault) := by
  rw [bracketReport?, Option.map_map, ← bracketFault_eq_iff]
  constructor
  · intro h
    obtain ⟨found, hfound, hmessage⟩ := Option.map_eq_some_iff.mp h
    rw [hfound, message_brackets_inj hmessage]
  · intro h
    rw [h]
    rfl

/-- **What is reported about brackets is what their numbers say.** Nothing is reported if there are
some, as many of both kinds, and no beginning of the text has more closing ones than opening ones.
Otherwise there are none, or some beginning has, or none has and more of them open than close; each
of the three has a wording of its own, and all are format errors about the text. -/
theorem bracketReport?_classifies (t : Text) :
    (bracketReport? t = none ↔ ('[' ∈ t ∨ ']' ∈ t) ∧
      (∀ p, p <+: t → p.count ']' ≤ p.count '[') ∧ t.count '[' = t.count ']') ∧
    ((bracketReport? t).map Diagnostic.message = some "syntax invalid, see documentation".toList ↔
      '[' ∉ t ∧ ']' ∉ t) ∧
    ((bracketReport? t).map Diagnostic.message = some "missing left bracket [".toList ↔
      ∃ p, p <+: t ∧ p.count '[' < p.count ']') ∧
    ((bracketReport? t).map Diagnostic.message = some "missing right bracket ]".toList ↔
      (∀ p, p <+: t → p.count ']' ≤ p.count '[') ∧ t.count ']' < t.count '[') ∧
    ∀ d, bracketReport? t = some d → d.kind = .format ∧ d.context = some t := by
  have hshort : (∃ p, p <+: t ∧ p.count '[' < p.count ']') ↔ ¬NeverShort 0 t := by
    simp [neverShort_zero_iff]
  rw [← neverShort_zero_iff, hshort]
  refine ⟨?_, ?_, ?_, ?_, ?_⟩
  · rw [bracketReport?, Option.map_eq_none_iff]
    exact bracketFault_eq_iff
  · exact message_bracketReport?_iff .absent
  · exact message_bracketReport?_iff .unopened
  · exact message_bracketReport?_iff .unclosed
  · intro d hd
    obtain ⟨fault, -, rfl⟩ := Option.map_eq_some_iff.mp hd
    exact ⟨rfl, rfl⟩

/-- One bracket is closed too early and another is never closed: the first is reported. -/
theorem bracketReport?_classifies_of_stray :
    let t := "a]b[[c]".toList
    (∃ p, p <+: t ∧ p.count '[' < p.count ']') ∧
      ∃ d, bracketReport? t = some d ∧ d.message = "missing left bracket [".toList ∧
        d.kind = .format ∧ d.context = some t := by
  intro t
  have hshort : ∃ p, p <+: t ∧ p.count '[' < p.count ']' :=
    ⟨"a]".toList, ⟨"b[[c]".toList, rfl⟩, by decide⟩
  obtain ⟨-, -, hunopened, -, hreport⟩ := bracketReport?_classifies t
  obtain ⟨d, hd, hmessage⟩ := Option.map_eq_some_iff.mp (hunopened.mpr hshort)
  exact ⟨hshort, d, hd, hmessage, hreport d hd⟩

end MacroLint.Literal
