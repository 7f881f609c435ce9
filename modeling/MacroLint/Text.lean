/-!
# Text

A literal is cut into segments, a segment into entries, an entry into a key and a value, and the
pieces come back in the statements and in the report. All of it is done on lists of characters:
a scan is a recursion on the list, and a fragment cut out of a literal is a sublist of that
literal by construction. `String` appears only where text enters or leaves the program.

Main statements: a cut loses nothing but its separator (`cut_eq_some_iff`), and it is made at the
first one.
-/

set_option autoImplicit false

namespace MacroLint

/-- Text is the list of its characters. -/
abbrev Text := List Char

/-- A quoted constant stands for its characters. -/
instance : Coe String Text := ⟨String.toList⟩

/-- Membership in a list of texts is decided through this instance, so that it has one name in all
the definitions that test for it. -/
instance instLawfulBEqText : LawfulBEq Text := List.instLawfulBEq

namespace Text

/-- The text with the letters `A` to `Z` lowered and every other character kept. Names of macros,
fields and dialects are compared in this form, so case is ignored for ASCII letters only. -/
def lower (t : Text) : Text := t.map Char.toLower

/-- The parts with a separator between neighbours. -/
def joined (separator : Text) (parts : List Text) : Text := separator.intercalate parts

/-- The number of bytes of the text in UTF-8, the unit in which positions are reported. -/
def byteLength : Text → Nat
  | [] => 0
  | c :: cs => c.utf8Size + byteLength cs

/-- Whether a text is not behind another in the order of characters, which is also the order of
their bytes in UTF-8: the first place where they differ decides, and a beginning of a text comes
before it. -/
def isUpTo : Text → Text → Bool
  | [], _ => true
  | _ :: _, [] => false
  | c :: cs, d :: ds => c.toNat < d.toNat || (c == d && isUpTo cs ds)

/-- The text before the first `separator` and the text after it, `none` where there is none. -/
def cut (separator : Char) : Text → Option (Text × Text)
  | [] => none
  | c :: cs =>
    if c = separator then some ([], cs)
    else (cut separator cs).map fun (before, after) => (c :: before, after)

/-! ## What a cut gives -/

theorem cut_eq_some_iff {separator : Char} {t before after : Text} :
    cut separator t = some (before, after) ↔
      t = before ++ separator :: after ∧ separator ∉ before := by
  induction t generalizing before with
  | nil => simp [cut]
  | cons c cs ih =>
    by_cases h : c = separator
    · subst h
      cases before with
      | nil => simp [cut]
      | cons b bs =>
        simp only [cut, if_true, Option.some.injEq, Prod.mk.injEq, List.nil_eq, reduceCtorEq,
          false_and, List.cons_append, List.cons.injEq, List.mem_cons, false_iff]
        rintro ⟨⟨rfl, -⟩, hmem⟩
        exact hmem (Or.inl rfl)
    · cases before with
      | nil =>
        simp only [cut, if_neg h, Option.map_eq_some_iff]
        constructor
        · rintro ⟨p, -, hp⟩; simp at hp
        · rintro ⟨hp, -⟩; simp at hp; exact absurd hp.1 h
      | cons b bs =>
        simp only [cut, if_neg h, Option.map_eq_some_iff]
        constructor
        · rintro ⟨⟨x, y⟩, hxy, hp⟩
          simp only [Prod.mk.injEq, List.cons.injEq] at hp
          obtain ⟨⟨rfl, rfl⟩, rfl⟩ := hp
          have := ih.mp hxy
          exact ⟨by simp [this.1], by simpa [this.2] using fun e => h e.symm⟩
        · rintro ⟨hp, hmem⟩
          simp only [List.cons_append, List.cons.injEq] at hp
          obtain ⟨rfl, rfl⟩ := hp
          exact ⟨(bs, after), ih.mpr ⟨rfl, fun hb => hmem (List.mem_cons_of_mem _ hb)⟩, rfl⟩

theorem cut_eq_none_iff {separator : Char} {t : Text} :
    cut separator t = none ↔ separator ∉ t := by
  constructor
  · intro hcut hmem
    obtain ⟨before, after, rfl, hbefore⟩ := List.eq_append_cons_of_mem hmem
    rw [cut_eq_some_iff.mpr ⟨rfl, hbefore⟩] at hcut
    cases hcut
  · intro hmem
    cases hcut : cut separator t with
    | none => rfl
    | some parts =>
      obtain ⟨rfl, -⟩ := cut_eq_some_iff.mp hcut
      exact absurd (by simp) hmem

/-- What lies after a cut is shorter than the text that was cut. -/
theorem length_lt_of_cut {separator : Char} {t before after : Text}
    (h : cut separator t = some (before, after)) : after.length < t.length := by
  have := (cut_eq_some_iff.mp h).1
  subst this
  simp
  omega

@[simp] theorem byteLength_nil : byteLength [] = 0 := rfl

@[simp] theorem byteLength_cons (c : Char) (t : Text) :
    byteLength (c :: t) = c.utf8Size + byteLength t := rfl

@[simp] theorem byteLength_append (s t : Text) :
    byteLength (s ++ t) = byteLength s + byteLength t := by
  induction s with
  | nil => simp
  | cons c cs ih => simp [ih, Nat.add_assoc]

end Text
end MacroLint
