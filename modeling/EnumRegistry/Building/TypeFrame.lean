import EnumRegistry.TypeTable

/-!
A type declaration being filled: its rows are named in one scope, in the order in which they close.
-/

namespace EnumRegistry

/-- What names and references are decided by. -/
structure NameTables where
  types : TypeTable
  overrides : Overrides

inductive TypeFrame
  | enumeration (type : Enumeration) (scope : NameScope)
  | bitfield (type : Bitfield) (scope : NameScope)
  | dictionary (type : Dictionary) (scope : NameScope)

/-- A number as 32 bits without sign. -/
def word32? (v : Int) : Option Nat := if 0 ≤ v && v < 0x100000000 then some v.toNat else none

def maxWord32 : Nat := 0xFFFFFFFF

namespace NameTables

/-- The type a row refers to, with a finding if there is none. -/
def reference (t : NameTables) (e : Element) (subject : String) :
    Option CrossReference × List Diagnostic :=
  match (e.attr? "xref").map Text.trim with
  | none => (none, [])
  | some uid => (some (t.types.reference uid), t.types.referenceFindings uid subject)

end NameTables

namespace TypeFrame

/-- Whether an element is a row of the open type. -/
def accepts (kind : ElementKind) : TypeFrame → Bool
  | enumeration _ _ => kind == .enumerationRow || kind == .enumerationRange
  | bitfield _ _ => kind == .bitfieldRow
  | dictionary _ _ => kind == .dictionaryRow

/-- Opens the declaration of a type that has a name. An undeclared enumeration size is 8; a size
out of range is the largest for an enumeration and none for a bitfield. -/
def open? (e : Element) (uid name : String) : Except RegistryError TypeFrame :=
  match e.kind with
  | .enumeration => do
    let size := (← e.int? "size").getD 8
    let width := StorageWidth.ofDeclared ((word32? size).getD maxWord32)
    return enumeration ⟨uid, e.rawName, name, width, e.attr? "footnote", []⟩ {}
  | .bitfield => do
    let size ← e.requiredInt "size"
    return bitfield ⟨uid, e.rawName, name, (word32? size).getD 0, []⟩ {}
  | _ => .ok (dictionary ⟨uid, e.rawName, name, []⟩ {})

def addEnumerationRow (t : NameTables) (type : Enumeration) (scope : NameScope) (e : Element) :
    Except GenerationError (TypeFrame × List Diagnostic) := do
  let value ← ofRegistry e.value
  let rangeEnd ← ofRegistry (if (e.attr? "value").isSome then .ok none else e.int? "value_max")
  let subject := "enum " ++ type.uid ++ " row " ++ toString value
  let description := e.description
  let naming : Naming := {
    raw := description
    fixed := t.overrides.row? type.uid value description
    ancestors := [type.rawName]
    subject }
  let (resolved, scope) ← ofScope (naming.resolve scope)
  let (reference, found) := t.reference e subject
  let row : EnumerationRow :=
    { value, rangeEnd, description, footnote := e.attr? "footnote", reference,
      baseName := resolved.base, name := resolved.name }
  return (enumeration { type with rows := type.rows ++ [row] } scope, naming.findings ++ found)

def addBitfieldRow (t : NameTables) (type : Bitfield) (scope : NameScope) (e : Element) :
    Except GenerationError (TypeFrame × List Diagnostic) := do
  let rawName := (e.attr? "name").getD e.description
  let subject := "bitfield " ++ type.uid ++ " row " ++ Text.quoted rawName
  let naming : Naming := { raw := rawName, ancestors := [type.rawName], subject }
  let (resolved, scope) ← ofScope (naming.resolve scope)
  let position := (word32? (← ofRegistry (e.requiredInt "bit_position"))).getD 0
  let length := max ((word32? ((← ofRegistry (e.int? "length")).getD 1)).getD 1) 1
  let (reference, found) := t.reference e subject
  let row : BitfieldRow :=
    { rawName, name := resolved.name, position, length,
      description := (e.attr? "description").getD "", reference }
  return (bitfield { type with rows := type.rows ++ [row] } scope, naming.findings ++ found)

def addDictionaryRow (type : Dictionary) (scope : NameScope) (e : Element) :
    Except GenerationError (TypeFrame × List Diagnostic) := do
  let code ← ofRegistry (e.required "value")
  let description := (e.attr? "description").getD code
  let subject := "dict " ++ type.uid ++ " row " ++ Text.quoted code
  let naming : Naming := { raw := description, ancestors := [type.rawName], subject }
  let (resolved, scope) ← ofScope (naming.resolve scope)
  let row : DictionaryRow := { code, description, name := resolved.name }
  return (dictionary { type with rows := type.rows ++ [row] } scope, naming.findings)

/-- Adds the row of an element that closes, with what was found. -/
def addRow (t : NameTables) (e : Element) :
    TypeFrame → Except GenerationError (TypeFrame × List Diagnostic)
  | enumeration type scope => addEnumerationRow t type scope e
  | bitfield type scope => addBitfieldRow t type scope e
  | dictionary type scope => addDictionaryRow type scope e

end TypeFrame

namespace Bitfield

/-- A row reaches past the size; ends are cut off at 32 bits. -/
def exceeds (b : Bitfield) (row : BitfieldRow) : Bool :=
  b.totalBits < min (row.position + row.length) maxWord32

/-- Rows that do not fit the size are one finding. -/
def findings (b : Bitfield) : List Diagnostic :=
  if b.totalBits < b.usedBits || b.rows.any b.exceeds then
    [⟨.bitfieldOverflow, "bitfield " ++ b.uid,
      "fields use " ++ toString b.usedBits ++ " bits but the declared size is " ++
        toString b.totalBits⟩]
  else []

end Bitfield

end EnumRegistry
