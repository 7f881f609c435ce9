import Mathlib.Data.List.Induction
import Mathlib.Data.List.Perm.Subperm
import MacroLint.Proofs.Fragment.Shapes
import MacroLint.Proofs.Plan.Paging

/-!
# The grammar of paging blocks

A paging block is settings with commas between them, `key = value` with blanks around each key and
each value (`Paging.IsBlock`). A value is the numeral of a positive number, of any length, or one
bind variable; keys are known in any case, and none is set twice. This is the whole grammar: quotes,
parentheses and further equals signs fit into no setting, so that a block is read with quotes and
parentheses in mind makes no difference (`Paging.valid_iff_isBlock`).

A block is a list of settings for the reader and a set of them for what it means. The order of the
settings is not looked at, and as the keys are few and set once, so are the settings.
-/

set_option autoImplicit false

namespace MacroLint

open Fragment Literal

/-! ## 1. Values -/

namespace Fragment

open Text

/-- The value of a paging key: the numeral of a positive number, or one bind variable. -/
inductive IsPageValue : Text → Prop where
  | number {n : Nat} (hpos : 0 < n) : IsPageValue (Nat.toDigits 10 n)
  | bind {name : Text} (hname : isWord name = true) : IsPageValue (':' :: name)

/-- A digit is the numeral of its value. -/
theorem exists_digitChar {c : Char} (h : c.isDigit = true) :
    ∃ d, d < 10 ∧ Nat.digitChar d = c ∧ (c ≠ '0' → 0 < d) := by
  obtain ⟨hlow, hhigh⟩ := Bool.and_eq_true_iff.mp h
  have hlow : 48 ≤ c.toNat := of_decide_eq_true hlow
  have hhigh : c.toNat ≤ 57 := of_decide_eq_true hhigh
  have hchar : Nat.digitChar (c.toNat - 48) = c := by
    rw [← Char.toNat_inj, Nat.toNat_digitChar_of_lt_ten (by omega)]
    omega
  refine ⟨c.toNat - 48, by omega, hchar, fun hne => ?_⟩
  have hzero : c.toNat ≠ 48 := fun heq => hne (Char.toNat_inj.mp heq)
  omega

theorem isPositive_concat {t : Text} (hne : t ≠ []) (c : Char) :
    isPositive (t ++ [c]) = (isPositive t && c.isDigit) := by
  obtain ⟨first, rest, rfl⟩ := List.exists_cons_of_ne_nil hne
  simp [isPositive, Bool.and_assoc]

/-- Digits of which the first is not zero are the numeral of a positive number: the last digit is
the last of the numeral, and what stands before it is a numeral again. -/
theorem exists_of_isPositive {t : Text} (h : isPositive t = true) :
    ∃ n, 0 < n ∧ t = Nat.toDigits 10 n := by
  induction t using List.reverseRecOn with
  | nil => cases h
  | append_singleton t c ih =>
    by_cases hne : t = []
    · subst hne
      simp only [List.nil_append, isPositive, List.all_nil, Bool.and_true, Bool.and_eq_true,
        bne_iff_ne] at h
      obtain ⟨d, hd, rfl, hpos⟩ := exists_digitChar h.1
      exact ⟨d, hpos h.2, (Nat.toDigits_of_lt_base hd).symm⟩
    · rw [isPositive_concat hne, Bool.and_eq_true] at h
      obtain ⟨n, hn, rfl⟩ := ih h.1
      obtain ⟨d, hd, rfl, -⟩ := exists_digitChar h.2
      refine ⟨10 * n + d, by omega, ?_⟩
      rw [← Nat.toDigits_append_toDigits (by decide) hn hd, Nat.toDigits_of_lt_base hd]

theorem isPositive_toDigits {n : Nat} (h : 0 < n) : isPositive (Nat.toDigits 10 n) = true := by
  induction n using Nat.strongRecOn with
  | ind n ih =>
    by_cases hlt : n < 10
    · rw [Nat.toDigits_of_lt_base hlt]
      have hdigits : ∀ d < 10, 0 < d → isPositive [Nat.digitChar d] = true := by decide
      exact hdigits n hlt h
    · have hdigits : ∀ d < 10, (Nat.digitChar d).isDigit = true := by decide
      have hlast := hdigits (n % 10) (Nat.mod_lt n (by decide))
      rw [Nat.toDigits_of_base_le (by decide) (Nat.not_lt.mp hlt),
        isPositive_concat Nat.toDigits_ne_nil, ih (n / 10) (by omega) (by omega), hlast]
      rfl

theorem isPageValue_of_head? {t : Text} (h : t.head? ≠ some ':') :
    isPageValue t = isPositive t := by
  unfold isPageValue
  split
  · exact absurd rfl h
  · rfl

theorem isPageValue_iff {t : Text} : isPageValue t = true ↔ IsPageValue t := by
  constructor
  · intro h
    unfold isPageValue at h
    split at h
    · exact .bind h
    · obtain ⟨n, hpos, rfl⟩ := exists_of_isPositive h
      exact .number hpos
  · rintro (⟨hpos⟩ | ⟨hname⟩)
    · rw [isPageValue_of_head?, isPositive_toDigits hpos]
      intro hhead
      have hdigit := Nat.isDigit_of_mem_toDigits (by decide) (by decide)
        (List.mem_of_head? hhead)
      cases hdigit
    · exact hname

/-- A value is made of word characters, but for the colon of a bind variable. -/
theorem IsPageValue.eq_colon_or_isWordChar {t : Text} (h : IsPageValue t) :
    ∀ c ∈ t, c = ':' ∨ isWordChar c = true := by
  intro c hc
  rcases h with ⟨hpos⟩ | ⟨hname⟩
  · have hdigit := Nat.isDigit_of_mem_toDigits (by decide) (by decide) hc
    right
    simp [isWordChar, Char.isAlphanum, hdigit]
  · exact (List.mem_cons.mp hc).imp_right fun hc => (isWord_iff.mp hname).2 c hc

theorem IsPageValue.trim {t : Text} (h : IsPageValue t) : Text.trim t = t := by
  refine trim_of_forall_not fun c hc => ?_
  rcases h.eq_colon_or_isWordChar c hc with rfl | hword
  · rfl
  · exact not_isBlank_of_isWordChar hword

theorem IsPageValue.isPlain {t : Text} (h : IsPageValue t) :
    ∀ c ∈ t, Fragment.isPlain c = true := by
  intro c hc
  rcases h.eq_colon_or_isWordChar c hc with rfl | hword
  · rfl
  · exact isPlain_of_class rfl rfl rfl hword

theorem isPlain_of_pads {core t : Text} (h : Pads core t) (hcore : ∀ c ∈ core, isPlain c = true) :
    ∀ c ∈ t, isPlain c = true := by
  obtain ⟨lead, tail, hlead, htail, rfl⟩ := h
  rw [List.forall_mem_append, List.forall_mem_append]
  exact ⟨⟨fun c hc => isPlain_of_isBlank (hlead c hc), hcore⟩,
    fun c hc => isPlain_of_isBlank (htail c hc)⟩

end Fragment

/-! ## 2. Keys in any case -/

namespace Text

/-- What is lowered to a word character was one: only letters are lowered, and to letters. -/
theorem isWordChar_of_toLower {c : Char} (h : isWordChar c.toLower = true) :
    isWordChar c = true := by
  unfold Char.toLower at h
  split at h
  · rename_i hrange
    have hupper : c.isUpper = true := decide_eq_true hrange
    have halpha : c.isAlpha = true := Bool.or_eq_true_iff.mpr (Or.inl hupper)
    exact Bool.or_eq_true_iff.mpr (Or.inl (Bool.or_eq_true_iff.mpr (Or.inl halpha)))
  · exact h

theorem isWord_of_lower {t : Text} (h : isWord (lower t) = true) : isWord t = true := by
  obtain ⟨hne, hchars⟩ := isWord_iff.mp h
  refine isWord_iff.mpr ⟨?_, fun c hc => isWordChar_of_toLower (hchars _ (List.mem_map_of_mem hc))⟩
  rintro rfl
  exact hne rfl

end Text

namespace Plan.Paging

variable {paging : Paging}

/-- A key with the value that is set for it. -/
structure Setting where
  key : Text
  value : Text
  deriving DecidableEq, Repr

/-- A key of the block, in any case, with a value that it may have. -/
structure Setting.IsAdmissible (paging : Paging) (s : Setting) : Prop where
  known : ∃ key ∈ paging.keys, Text.lower key = Text.lower s.key
  value : IsPageValue s.value

/-- The text writes a setting of the block: an equals sign stands between key and value, and blanks
around each of the two. -/
structure IsSetting (paging : Paging) (t : Text) (s : Setting) : Prop where
  admissible : s.IsAdmissible paging
  written : ∃ before after, Text.Pads s.key before ∧ Text.Pads s.value after ∧
    t = before ++ '=' :: after

/-- The block sets these keys: one setting is written between every two commas, no key is set twice
in whatever case, and the number of rows is set. -/
structure IsBlock (paging : Paging) (block : Text) (settings : List Setting) : Prop where
  entries : List.Forall₂ paging.IsSetting (block.splitOn ',') settings
  once : (settings.map fun s => Text.lower s.key).Nodup
  rowLimit : ∃ s ∈ settings, Text.lower s.key = Text.lower rowLimitKey

theorem Setting.IsAdmissible.isWord_key {s : Setting} (h : s.IsAdmissible paging) :
    Text.isWord s.key = true := by
  obtain ⟨key, hkey, hlower⟩ := h.known
  have hwords : ∀ key ∈ paging.keys, Text.isWord (Text.lower key) = true := by
    cases paging <;> decide
  exact Text.isWord_of_lower (hlower ▸ hwords key hkey)

/-! ## 3. The grammar -/

/-- The entry that a setting is read as. -/
def Setting.entry (s : Setting) : Entry := ⟨s.key, some s.value⟩

theorem IsSetting.ofPiece {t : Text} {s : Setting} (h : paging.IsSetting t s) :
    Entry.ofPiece t = s.entry := by
  obtain ⟨hadmissible, before, after, hkey, hvalue, rfl⟩ := h
  have hword := hadmissible.isWord_key
  have hcut : Text.cut '=' (before ++ '=' :: after) = some (before, after) := by
    refine Text.cut_eq_some_iff.mpr ⟨rfl, fun hmem => ?_⟩
    -- Neither a key nor the blanks around it have an equals sign.
    rcases Text.mem_trim_or_isBlank hmem with hmem | hblank
    · rw [Text.trim_of_pads hkey, Text.trim_of_isWord hword] at hmem
      have hchar := (Text.isWord_iff.mp hword).2 '=' hmem
      cases hchar
    · cases hblank
  rw [Entry.ofPiece, hcut]
  simp only [Setting.entry, Text.trim_of_pads hkey, Text.trim_of_pads hvalue,
    Text.trim_of_isWord hword, hadmissible.value.trim]

theorem isSetting_iff {t : Text} {s : Setting} :
    paging.IsSetting t s ↔ Entry.ofPiece t = s.entry ∧ s.IsAdmissible paging := by
  refine ⟨fun h => ⟨h.ofPiece, h.admissible⟩, fun ⟨hread, hadmissible⟩ => ⟨hadmissible, ?_⟩⟩
  unfold Entry.ofPiece at hread
  cases hcut : Text.cut '=' t with
  | none => simp [hcut, Setting.entry] at hread
  | some parts =>
    obtain ⟨before, after⟩ := parts
    simp only [hcut, Setting.entry, Entry.mk.injEq, Option.some.injEq] at hread
    refine ⟨before, after, ?_, ?_, (Text.cut_eq_some_iff.mp hcut).1⟩
    · exact hread.1 ▸ Text.pads_trim before
    · exact hread.2 ▸ Text.pads_trim after

/-- A setting has no room for quotes and parentheses. -/
theorem IsSetting.isPlain {t : Text} {s : Setting} (h : paging.IsSetting t s) :
    ∀ c ∈ t, Fragment.isPlain c = true := by
  obtain ⟨hadmissible, before, after, hkey, hvalue, rfl⟩ := h
  rw [List.forall_mem_append, List.forall_mem_cons]
  exact ⟨isPlain_of_pads hkey (isPlain_of_isWord hadmissible.isWord_key), rfl,
    isPlain_of_pads hvalue hadmissible.value.isPlain⟩

theorem forall₂_isSetting_iff {pieces : List Text} {settings : List Setting} :
    List.Forall₂ paging.IsSetting pieces settings ↔
      pieces.map Entry.ofPiece = settings.map Setting.entry ∧
        ∀ s ∈ settings, s.IsAdmissible paging := by
  induction pieces generalizing settings with
  | nil => cases settings <;> simp
  | cons piece pieces ih =>
    cases settings with
    | nil => simp
    | cons s settings =>
      rw [List.forall₂_cons, isSetting_iff, ih, List.map_cons, List.map_cons, List.cons.injEq,
        List.forall_mem_cons]
      exact and_and_and_comm

/-- Entries with values are settings. -/
theorem exists_eq_map_entry {entries : List Entry}
    (h : ∀ entry ∈ entries, entry.value.any isPageValue = true) :
    ∃ settings : List Setting, entries = settings.map Setting.entry := by
  refine ⟨entries.map fun entry => ⟨entry.key, entry.value.getD []⟩, ?_⟩
  rw [List.map_map]
  refine (List.map_id entries).symm.trans (List.map_congr_left fun entry hentry => ?_)
  obtain ⟨key, value⟩ := entry
  cases value with
  | none => cases h _ hentry
  | some value => rfl

theorem valid_iff_of_entries {block : Text} {settings : List Setting}
    (h : entries block = settings.map Setting.entry) :
    paging.Valid block ↔ (∀ s ∈ settings, s.IsAdmissible paging) ∧
      (settings.map fun s => Text.lower s.key).Nodup ∧
      ∃ s ∈ settings, Text.lower s.key = Text.lower rowLimitKey := by
  have honce : ((entries block).map fun entry => Text.lower entry.key)
      = settings.map fun s => Text.lower s.key := by
    rw [h, List.map_map]
    rfl
  have hlimit : (∃ entry ∈ entries block, Text.lower entry.key = Text.lower rowLimitKey) ↔
      ∃ s ∈ settings, Text.lower s.key = Text.lower rowLimitKey := by
    simp [h, Setting.entry]
  constructor
  · intro hvalid
    refine ⟨fun s hs => ?_, honce ▸ hvalid.once, hlimit.mp hvalid.rowLimit⟩
    have hentry : s.entry ∈ entries block := h ▸ List.mem_map_of_mem hs
    exact ⟨hvalid.known s.entry hentry, isPageValue_iff.mp (hvalid.values s.entry hentry)⟩
  · intro ⟨hadmissible, hnodup, hset⟩
    have hentries {P : Entry → Prop} (hP : ∀ s ∈ settings, P s.entry) :
        ∀ entry ∈ entries block, P entry := h ▸ List.forall_mem_map.mpr hP
    refine ⟨?_, ?_, honce ▸ hnodup, hlimit.mpr hset⟩
    · exact hentries fun s hs => (hadmissible s hs).known
    · exact hentries fun s hs => isPageValue_iff.mpr (hadmissible s hs).value

/-- **A block is read by its commas.** The entries that the splitter finds are valid exactly if a
setting is written between every two commas, and they are these settings. -/
theorem valid_iff_isBlock {block : Text} :
    paging.Valid block ↔ ∃ settings, paging.IsBlock block settings := by
  have hread {settings : List Setting} :
      List.Forall₂ paging.IsSetting (block.splitOn ',') settings ↔
        entries block = settings.map Setting.entry ∧ ∀ s ∈ settings, s.IsAdmissible paging := by
    rw [← forall₂_split_iff fun _ _ => IsSetting.isPlain, forall₂_isSetting_iff]
    rfl
  constructor
  · intro hvalid
    obtain ⟨settings, hentries⟩ := exists_eq_map_entry hvalid.values
    obtain ⟨hadmissible, honce, hlimit⟩ := (valid_iff_of_entries hentries).mp hvalid
    exact ⟨settings, hread.mpr ⟨hentries, hadmissible⟩, honce, hlimit⟩
  · rintro ⟨settings, hsettings, honce, hlimit⟩
    obtain ⟨hentries, hadmissible⟩ := hread.mp hsettings
    exact (valid_iff_of_entries hentries).mpr ⟨hadmissible, honce, hlimit⟩

/-! ## 4. Settings are few and in no order -/

/-- The settings of a block may be written in any order. -/
theorem IsBlock.of_perm {block block' : Text} {settings : List Setting}
    (h : paging.IsBlock block settings) (hperm : (block.splitOn ',').Perm (block'.splitOn ',')) :
    ∃ settings', paging.IsBlock block' settings' := by
  obtain ⟨settings', hsettings', hperm'⟩ := List.perm_comp_forall₂ hperm.symm h.entries
  refine ⟨settings', hsettings', ?_, ?_⟩
  · exact (hperm'.map fun s => Text.lower s.key).nodup_iff.mpr h.once
  · obtain ⟨s, hs, hlimit⟩ := h.rowLimit
    exact ⟨s, hperm'.mem_iff.mpr hs, hlimit⟩

/-- Every key of a block is set once at most. -/
theorem IsBlock.length_le {block : Text} {settings : List Setting}
    (h : paging.IsBlock block settings) : (block.splitOn ',').length ≤ paging.keys.length := by
  have hkeys : (settings.map fun s => Text.lower s.key) ⊆ paging.keys.map Text.lower := by
    intro lowered hmem
    obtain ⟨s, hs, rfl⟩ := List.mem_map.mp hmem
    obtain ⟨key, hkey, hlower⟩ := ((forall₂_isSetting_iff.mp h.entries).2 s hs).known
    exact hlower ▸ List.mem_map_of_mem hkey
  have hlength := (h.once.subperm hkeys).length_le
  rwa [List.length_map, List.length_map, ← h.entries.length_eq] at hlength

end Plan.Paging

/-! ## 5. The check -/

namespace Plan

variable {paging : Paging} {call : Call} {head sql block : Text} {rest : List Text}

/-- Without clauses a paged query is the query, if its block is valid. -/
theorem pagedQuery_of_blank (name : MacroName) (hcall : call.segments = head :: sql :: block :: rest)
    (hlength : rest.length ≤ 4) (hblank : ∀ t ∈ rest, Text.trim t = [])
    (hsql : Text.trim sql ≠ []) (hvalid : paging.Valid block) :
    pagedQuery paging name call = askWhole (Text.trim sql) .query := by
  have hnone (position : Nat) : call.param? (position + 3) = none := by
    rw [Call.param?, hcall]
    show ((rest[position]?).map Text.trim).filter _ = none
    cases hrest : rest[position]? with
    | none => rfl
    | some t => simp [hblank t (List.mem_of_getElem? hrest)]
  have hclauses : queryClauses call 3 = done () := by
    rw [queryClauses, hnone 0, hnone 1, hnone 2, hnone 3]
    rfl
  have hblock : call.param? 2 = some (Text.trim block) := by
    simp [Call.param?, hcall, hvalid.trim_ne_nil]
  have haccept := Paging.accept_of_valid (Paging.valid_trim.mpr hvalid)
  unfold pagedQuery
  rw [atMost_of_le name (length_segments_paged hcall hlength),
    query_of_ne_nil (by simp [hcall]) hsql, hclauses]
  simp only [required, hblock, done_bind, haccept]
  exact bind_pure_unit

theorem diagnostic_of_pagedQuery_iff (name : MacroName) {oracle : Oracle}
    (hcall : call.segments = head :: sql :: block :: rest) (hlength : rest.length ≤ 4)
    (hblank : ∀ t ∈ rest, Text.trim t = []) (hsql : Text.trim sql ≠ [])
    (haccepts : oracle [] (Text.trim sql) = none) :
    (paging.family.check name call oracle).diagnostic = none ↔ paging.Valid block := by
  have hrun : paging.family.check name call oracle
      = ((pagedQuery paging name call).run oracle).explain name.usage? := by
    rw [Family.check, paging.plan_family]
  rw [hrun]
  by_cases hvalid : paging.Valid block
  · rw [pagedQuery_of_blank name hcall hlength hblank hsql hvalid]
    refine iff_of_true ?_ hvalid
    simp [Plan.run, Run.explain, askWhole, ask, trace, Trace.run, haccepts]
  · obtain ⟨fault, context, hplan⟩ := pagedQuery_of_not_valid hcall name hlength hsql hvalid
    rw [hplan]
    refine iff_of_false ?_ hvalid
    have hfails := run_askWhole_fail (Text.trim sql) .query fault context oracle name.usage?
    exact Option.isSome_iff_ne_none.mp hfails.1

end Plan

/-- **The paging blocks that are admitted, exactly.** With a query that is accepted and nothing
behind the block, a call is admitted if and only if its block, cut at every comma, consists of
settings, each key set once at most and the number of rows set. So the order of the settings does
not matter, and there are no more of them than keys. -/
theorem Family.check_paging_block (paging : Plan.Paging) (name : MacroName) (oracle : Oracle)
    (call : Call) (head sql : Text) (rest : List Text) (hlength : rest.length ≤ 4)
    (hblank : ∀ t ∈ rest, Text.trim t = []) (hsql : Text.trim sql ≠ [])
    (haccepts : oracle [] (Text.trim sql) = none) :
    let paged (block : Text) : Call := { call with segments := head :: sql :: block :: rest }
    let admits (block : Text) : Prop :=
      (paging.family.check name (paged block) oracle).diagnostic = none
    (∀ block, admits block ↔ ∃ settings, paging.IsBlock block settings) ∧
    (∀ block block', (block.splitOn ',').Perm (block'.splitOn ',') →
      (admits block ↔ admits block')) ∧
    ∀ block, admits block →
      match paging with
      | .page => (block.splitOn ',').length ≤ 3
      | .limit => (block.splitOn ',').length = 1 := by
  intro paged admits
  have hadmits (block : Text) : admits block ↔ ∃ settings, paging.IsBlock block settings := by
    rw [← Plan.Paging.valid_iff_isBlock]
    exact Plan.diagnostic_of_pagedQuery_iff name rfl hlength hblank hsql haccepts
  refine ⟨hadmits, ?_, ?_⟩
  · intro block block' hperm
    rw [hadmits, hadmits]
    constructor
    · intro ⟨_, hblock⟩
      exact hblock.of_perm hperm
    · intro ⟨_, hblock'⟩
      exact hblock'.of_perm hperm.symm
  · intro block hblock
    obtain ⟨settings, hsettings⟩ := (hadmits block).mp hblock
    have hle := hsettings.length_le
    cases paging with
    | page => exact hle
    | limit =>
      have hpos := List.length_pos_of_ne_nil (List.splitOn_ne_nil ',' block)
      exact Nat.le_antisymm hle hpos

/-- Two settings are admitted in both orders, whatever blanks and case they are written with. A comma
in quotes ends a setting as well, and neither piece is one. -/
theorem Family.check_paging_block_of_swapped_settings :
    let oracle := Oracle.scripted [none, some (.query (.grammar "no".toList))]
    let paged (block : Text) : Call :=
      ⟨[], [], [], ["selectPage", " select 1", block, " ", ""], false⟩
    let admits (block : Text) : Prop :=
      (Plan.Paging.page.family.check .selectPage (paged block) oracle).diagnostic = none
    admits " RowNum =\t10,pageNo=:p" ∧ admits "pageNo=:p, RowNum =\t10" ∧
      ¬admits "rownum='1,2'" := by
  intro oracle paged admits
  have hlanguage := check_paging_block .page .selectPage oracle ⟨[], [], [], [], false⟩ "selectPage"
    " select 1" [" ", ""] (by decide) (by decide) (by decide) rfl
  have hadmits : admits " RowNum =\t10,pageNo=:p" := by
    refine (hlanguage.1 _).mpr ⟨[⟨"RowNum", "10"⟩, ⟨"pageNo", ":p"⟩], ?_, by decide, ?_⟩
    · refine .cons (Plan.Paging.isSetting_iff.mpr ⟨by decide, ⟨by decide, ?_⟩⟩)
        (.cons (Plan.Paging.isSetting_iff.mpr ⟨by decide, ⟨by decide, ?_⟩⟩) .nil)
      · exact isPageValue_iff.mp rfl
      · exact isPageValue_iff.mp rfl
    · exact ⟨_, List.mem_cons_self, by decide⟩
  refine ⟨hadmits, (hlanguage.2.1 _ _ ?_).mp hadmits, fun hquoted => ?_⟩
  · exact List.Perm.swap _ _ _
  · obtain ⟨settings, hblock⟩ := (hlanguage.1 _).mp hquoted
    have hcut : List.splitOn ',' ("rownum='1,2'" : Text) = ["rownum='1", "2'"] := by decide
    obtain ⟨s, _, hfirst, -⟩ := List.forall₂_cons_left_iff.mp (hcut ▸ hblock.entries)
    have hread : Entry.ofPiece "rownum='1" = ⟨"rownum", some "'1"⟩ := by decide
    have hvalue : s.value = "'1" := by
      have hentry := hread.symm.trans hfirst.ofPiece
      exact (Option.some.inj (Entry.mk.inj hentry).2).symm
    have hpage := isPageValue_iff.mpr hfirst.admissible.value
    rw [hvalue] at hpage
    cases hpage

end MacroLint
