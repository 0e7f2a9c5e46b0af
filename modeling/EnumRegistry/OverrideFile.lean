import EnumRegistry.Files.Failure
import EnumRegistry.Overrides
import EnumRegistry.Text.Quoted
import EnumRegistry.Toml.Document

/-!
Override tables in a TOML file. Every table and key of the file must be known, and every name a
string.
-/

namespace EnumRegistry

/-- Why there are no override tables; `origin` names the file. -/
inductive OverridesError
  | unreadable (path : String) (cause : FileFailure)
  | malformed (origin : String)
  | badAliasKey (origin key : String)
  deriving DecidableEq, Repr

namespace OverridesError

def message : OverridesError → String
  | unreadable path cause => "override table " ++ path ++ " is not readable: " ++ cause.message
  | malformed origin => "invalid override table " ++ origin ++ ": no tables of names"
  | badAliasKey origin key =>
    "invalid override table " ++ origin ++ ": value alias key " ++ Text.quoted key ++
      " is not an integer"

/-- The error and what lies behind it. -/
def causes (e : OverridesError) : List String :=
  e.message :: match e with
    | unreadable _ cause => [cause.message]
    | malformed _ | badAliasKey _ _ => []

end OverridesError

namespace Toml.Value

def text? : Value → Option String
  | text s => some s
  | _ => none

/-- The key of a date that stands for a table. -/
def momentKey : String := "$__toml_private_datetime"

/-- A table's entries; a date or time is the table of its text alone. -/
def entries? : Value → Option Entries
  | table _ entries => some entries
  | moment when => some [(momentKey, text when)]
  | text _ | scalar | array _ => none

/-- A table with one kind of value. -/
def tableOf? {α : Type} (read : Value → Option α) (v : Value) : Option (Std.TreeMap String α) := do
  (← v.entries?).foldlM (fun m (key, v) => do return m.insert key (← read v)) Std.TreeMap.empty

/-- Aliases as a table, or as a list of the UID and the table of values. -/
def valueAliases? : Value → Option ValueAliases
  | table _ entries => do
    guard (entries.all fun (key, _) => key == "uid" || key == "values")
    let uid ← (← entries.lookup "uid").text?
    match entries.lookup "values" with
    | none => return { uid }
    | some values => return { uid, values := ← values.tableOf? text? }
  | array (uid :: rest) => do
    let uid ← uid.text?
    match rest with
    | [] => return { uid }
    | values :: _ => return { uid, values := ← values.tableOf? text? }
  | _ => none

end Toml.Value

namespace Overrides

/-- Adds one top-level table. -/
def read? (o : Overrides) : String × Toml.Value → Option Overrides
  | ("uid_names", v) => do return { o with uidNames := ← v.tableOf? (·.text?) }
  | ("value_aliases", v) => do return { o with valueAliases := some (← v.valueAliases?) }
  | ("special_cases", v) => do
    return { o with specialCases := ← v.tableOf? (·.tableOf? (·.text?)) }
  | _ => none

def ofToml? (text : String) : Option Overrides := do (← Toml.read? text).foldlM read? {}

/-- The tables of a TOML text. -/
def ofToml (text origin : String) : Except OverridesError Overrides :=
  match ofToml? text with
  | none => .error (.malformed origin)
  | some o =>
    match o.badAliasKey? with
    | some key => .error (.badAliasKey origin key)
    | none => .ok o

end Overrides

end EnumRegistry
