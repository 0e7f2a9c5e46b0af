/-!
Values of a TOML document, and the rules by which lines add to its tables: no key twice, and no
table opened twice or extended after it was closed.
-/

namespace EnumRegistry.Toml

/-- How a table came to be, which says how it may grow. -/
inductive Form
  /-- Opened by a header. -/
  | header
  /-- Named on the way to a longer header. -/
  | implied
  /-- Named on the way to the last part of a dotted key. -/
  | dotted
  /-- Written between braces. -/
  | inline
  deriving DecidableEq, Repr

inductive Value
  | text (s : String)
  /-- A date, a time of day or both. -/
  | moment (text : String)
  /-- A number or a truth value, of which only the presence matters. -/
  | scalar
  | array (items : List Value)
  | table (form : Form) (entries : List (String × Value))

abbrev Entries := List (String × Value)

def replace (key : String) (value : Value) (entries : Entries) : Entries :=
  entries.map fun entry => if entry.1 == key then (key, value) else entry

/-- Adds a value under a dotted key, all parts but the last in `path`. -/
def put (key : String) (value : Value) : List String → Entries → Option Entries
  | [], entries =>
    match entries.lookup key with
    | none => some (entries ++ [(key, value)])
    | some _ => none
  | part :: path, entries =>
    match entries.lookup part with
    | none => do return entries ++ [(part, .table .dotted (← put key value path []))]
    | some (.table .dotted sub) => do
      return replace part (.table .dotted (← put key value path sub)) entries
    | some (.table .implied sub) =>
      if path.isEmpty then none
      else do return replace part (.table .implied (← put key value path sub)) entries
    | some _ => none

/-- Changes the table at a path, implying those on the way. -/
def editAt (edit : Entries → Option Entries) : List String → Entries → Option Entries
  | [], entries => edit entries
  | part :: path, entries =>
    match entries.lookup part with
    | none => do return entries ++ [(part, .table .implied (← editAt edit path []))]
    | some (.table .inline _) => none
    | some (.table form sub) => do
      return replace part (.table form (← editAt edit path sub)) entries
    | some _ => none

/-- Opens the table of a header; one already implied keeps what it holds. -/
def openTable (key : String) (entries : Entries) : Option Entries :=
  match entries.lookup key with
  | none => some (entries ++ [(key, .table .header [])])
  | some (.table .implied sub) => some (replace key (.table .header sub) entries)
  | some _ => none

end EnumRegistry.Toml
