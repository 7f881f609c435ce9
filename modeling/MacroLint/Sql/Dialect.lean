import MacroLint.Failure
import MacroLint.Text.Blank

/-!
# Dialects

The dialects of SQL that statements can be parsed in. For the statements that come up here they
differ in one point: whether a name may be written between back quotes.
-/

set_option autoImplicit false

namespace MacroLint.Sql

/-- A dialect of SQL. -/
inductive Dialect where
  | generic
  | ansi
  | postgres
  | mysql
  | mssql
  | sqlite
  deriving DecidableEq, Repr

namespace Dialect

/-- The name of a dialect. -/
def name : Dialect → Text
  | generic => "generic"
  | ansi => "ansi"
  | postgres => "postgres"
  | mysql => "mysql"
  | mssql => "mssql"
  | sqlite => "sqlite"

/-- The names that a dialect may be set by, with the dialects they name. -/
def settings : List (Text × Dialect) :=
  [("generic", generic), ("ansi", ansi), ("postgres", postgres), ("postgresql", postgres),
    ("mysql", mysql), ("mssql", mssql), ("sqlite", sqlite)]

/-- The dialect that a setting names, blanks around it and ASCII case aside. An unknown name is
reported as it was compared, not as it was written. -/
def ofSetting (setting : Text) : Except Failure Dialect :=
  let wanted := Text.lower (Text.trim setting)
  match settings.find? fun entry => entry.1 == wanted with
  | some (_, dialect) => .ok dialect
  | none => .error (.config ("unknown SQL dialect '" ++ wanted ++ ['\'']))

/-- The dialect of a setting that may be missing or wrong, which then is the generic one. -/
def ofSettingOrGeneric (setting : Option Text) : Dialect :=
  match setting.map ofSetting with
  | some (.ok dialect) => dialect
  | _ => generic

/-- Whether a name may be written between back quotes. -/
def backQuotes : Dialect → Bool
  | postgres | mssql => false
  | _ => true

/-- Each dialect is set by its own name. -/
theorem ofSetting_name (d : Dialect) : (ofSetting d.name).toOption = some d := by
  cases d <;> decide +kernel

/-- The dialects that settings name are those of the list. -/
theorem ofSetting_eq_ok_iff {setting : Text} {d : Dialect} :
    ofSetting setting = .ok d ↔ (Text.lower (Text.trim setting), d) ∈ settings := by
  unfold ofSetting
  generalize Text.lower (Text.trim setting) = wanted
  constructor
  · intro h
    cases hfind : settings.find? fun entry => entry.1 == wanted with
    | none =>
      simp only [hfind] at h
      cases h
    | some entry =>
      obtain ⟨name, found⟩ := entry
      have hname : name = wanted := by simpa using List.find?_some hfind
      simp only [hfind] at h
      cases h
      exact hname ▸ List.mem_of_find?_eq_some hfind
  · intro h
    simp only [settings, List.mem_cons, Prod.mk.injEq, List.not_mem_nil, or_false] at h
    -- No name is listed twice, so each entry is the one that is found.
    rcases h with h | h | h | h | h | h | h <;> obtain ⟨rfl, rfl⟩ := h <;> rfl

end Dialect
end MacroLint.Sql
