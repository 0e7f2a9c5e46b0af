import EnumRegistry.Classification.LookupTable
import EnumRegistry.Declaration
import EnumRegistry.GenerationError
import EnumRegistry.Name.Naming
import EnumRegistry.Registry.Walk

/-!
The names of all declared types, found before any row is read, so that a row can refer to a type
declared after it. The rows of lookup enumerations are named here as well.
-/

namespace EnumRegistry

structure TypeTable where
  names : Std.TreeMap String String := {}
  /-- UIDs declared without a usable name. -/
  missing : Std.TreeSet String := {}
  /-- Row names of lookup enumerations by value. -/
  labels : List (LookupTable × Std.TreeMap Int String) := []
  types : NameScope := {}
  /-- The first revision the registry states. -/
  revision : Option Revision := none

namespace TypeTable

def name? (t : TypeTable) (uid : String) : Option String := t.names[uid]?

def isMissing (t : TypeTable) (uid : String) : Bool := t.missing.contains uid

def isDeclared (t : TypeTable) (uid : String) : Bool := t.names.contains uid || t.isMissing uid

/-- The name of the row with a value in a lookup enumeration. -/
def label? (t : TypeTable) (table : LookupTable) (value : Int) : Option String := do
  let labels ← t.labels.lookup table
  labels[value]?

def reference (t : TypeTable) (uid : String) : CrossReference :=
  match t.name? uid with
  | some name => .typed uid name
  | none => .unresolved uid

/-- A reference to nothing is a finding. -/
def referenceFindings (t : TypeTable) (uid subject : String) : List Diagnostic :=
  if (t.name? uid).isSome then [] else [.unresolvedReference subject uid]

end TypeTable

/-- A lookup enumeration whose rows are being named. -/
structure LookupRows where
  table : LookupTable
  typeName : String
  scope : NameScope := {}
  labels : Std.TreeMap Int String := {}

/-- The value of a row or node: its own, or the lower bound of its range. -/
def Element.value (e : Element) : Except RegistryError Int := do
  match ← e.int? "value" with
  | some value => return value
  | none => e.requiredInt "value_min"

/-- The name attribute as written. -/
def Element.rawName (e : Element) : String := (e.attr? "name").getD ""

/-- The walk that names the declared types. -/
structure Survey where
  table : TypeTable := {}
  lookup : Option LookupRows := none
  found : List Diagnostic := []

namespace Survey

def noteRevision (s : Survey) (e : Element) : Survey :=
  if s.table.revision.isSome then s
  else
    let revision := ⟨(e.attr? "title").getD "", (e.attr? "date").getD ""⟩
    { s with table := { s.table with revision := some revision } }

def note (s : Survey) (kind : DiagnosticKind) (e : Element) (uid message : String) : Survey :=
  { s with found := s.found ++ [⟨kind, e.tag ++ " " ++ uid, message⟩] }

/-- What a type is to be called before the scope of types tells it apart. -/
def typeBase (overrides : Overrides) (uid : String) (e : Element) : String :=
  (overrides.uidName? uid).getD (Name.normalize e.rawName)

/-- Names a declaration that is the first of its UID. -/
def declare (overrides : Overrides) (s : Survey) (uid : String) (e : Element) :
    Except GenerationError Survey := do
  let base := typeBase overrides uid e
  if base == Name.undefined then
    let s := s.note .missingName e uid
      "declaration has no usable name; references to it are untyped"
    return { s with table := { s.table with missing := s.table.missing.insert uid } }
  else
    let (name, types) ← ofScope (s.table.types.claim base)
    let names := s.table.names.insert uid name
    return { s with table := { s.table with names, types } }

/-- A type declaration: the first of its UID is named, and its rows are if paths look them up. -/
def startType (overrides : Overrides) (s : Survey) (e : Element) :
    Except GenerationError Survey := do
  let some uid := e.uid? | return s
  if s.table.isDeclared uid then
    return s.note .duplicateUid e uid "UID declared more than once; the first declaration is kept"
  let s ← declare overrides s uid e
  if e.kind == .enumeration then
    let lookup := (LookupTable.ofUid? uid).map fun table => { table, typeName := e.rawName }
    return { s with lookup }
  else return s

/-- A row while a lookup enumeration is open. -/
def startRow (overrides : Overrides) (s : Survey) (e : Element) :
    Except GenerationError Survey := do
  let some rows := s.lookup | return s
  let value ← ofRegistry e.value
  let naming : Naming := {
    raw := e.description
    fixed := overrides.row? rows.table.uid value e.description
    ancestors := [rows.typeName]
    subject := "" }
  let (resolved, scope) ← ofScope (naming.resolve rows.scope)
  let labels := rows.labels.insert value resolved.name
  return { s with lookup := some { rows with scope, labels } }

def start (overrides : Overrides) (s : Survey) (e : Element) : Except GenerationError Survey :=
  match e.kind with
  | .revision => .ok (s.noteRevision e)
  | .enumeration | .bitfield | .dictionary => startType overrides s e
  | .enumerationRow | .enumerationRange => startRow overrides s e
  | _ => .ok s

/-- The end of an enumeration closes the lookup. -/
def finish (s : Survey) (kind : ElementKind) : Survey :=
  match kind, s.lookup with
  | .enumeration, some rows =>
    let labels := (rows.table, rows.labels) :: s.table.labels
    { s with table := { s.table with labels }, lookup := none }
  | _, _ => s

def walk (overrides : Overrides) : Walk GenerationError Survey where
  start s e := some <$> start overrides s e
  finish s kind := .ok (s.finish kind)

/-- Surveys a registry. -/
def ofReader (overrides : Overrides) (r : Reader) : Except GenerationError Survey :=
  (walk overrides).through .registry {} r

end Survey

end EnumRegistry
