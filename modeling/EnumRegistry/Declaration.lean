/-!
What a registry declares apart from classification trees: enumerations, bitfields and dictionaries
with their rows.
-/

namespace EnumRegistry

/-- The widths in which enumeration values are stored. -/
inductive StorageWidth
  | eight
  | sixteen
  | thirtyTwo
  deriving DecidableEq, Repr

namespace StorageWidth

/-- The least width that holds a declared size, none being wider than 32 bits. -/
def ofDeclared (bits : Nat) : StorageWidth :=
  if bits ≤ 8 then eight else if bits ≤ 16 then sixteen else thirtyTwo

def bits : StorageWidth → Nat
  | eight => 8
  | sixteen => 16
  | thirtyTwo => 32

end StorageWidth

/-- A row's reference to a declared type, with the type's name if the UID has one. -/
inductive CrossReference
  | typed (uid typeName : String)
  | unresolved (uid : String)
  deriving DecidableEq, Repr

namespace CrossReference

def uid : CrossReference → String
  | typed uid _ | unresolved uid => uid

def typeName? : CrossReference → Option String
  | typed _ name => some name
  | unresolved _ => none

end CrossReference

structure EnumerationRow where
  value : Int
  rangeEnd : Option Int
  description : String
  footnote : Option String
  reference : Option CrossReference
  /-- The name before the scope of the enumeration told it apart. -/
  baseName : String
  name : String
  deriving DecidableEq, Repr

structure Enumeration where
  uid : String
  rawName : String
  name : String
  width : StorageWidth
  footnote : Option String
  rows : List EnumerationRow
  deriving DecidableEq, Repr

structure BitfieldRow where
  rawName : String
  name : String
  /-- Position of the least significant bit. -/
  position : Nat
  length : Nat
  description : String
  reference : Option CrossReference
  deriving DecidableEq, Repr

structure Bitfield where
  uid : String
  rawName : String
  name : String
  totalBits : Nat
  rows : List BitfieldRow
  deriving DecidableEq, Repr

namespace Bitfield

def usedBits (b : Bitfield) : Nat := b.rows.foldr (·.length + ·) 0

/-- What the rows leave free, nothing where they overflow. -/
def paddingBits (b : Bitfield) : Nat := b.totalBits - b.usedBits

end Bitfield

structure DictionaryRow where
  code : String
  description : String
  name : String
  deriving DecidableEq, Repr

structure Dictionary where
  uid : String
  rawName : String
  name : String
  rows : List DictionaryRow
  deriving DecidableEq, Repr

/-- The revision a registry says it is. -/
structure Revision where
  title : String
  date : String
  deriving DecidableEq, Repr

end EnumRegistry
