import EnumRegistry.Emission.Placement

/-!
What the text of a symbol is written from besides its data: its place, the revision of the
registry, and where the types it refers to were placed. Here are also the members that rows are
rendered as.
-/

namespace EnumRegistry

inductive TypeKind
  | enumeration
  | bitfield
  | dictionary
  deriving DecidableEq, Repr

/-- The placement of a declared type. -/
structure PlacedType where
  kind : TypeKind
  placement : Placement
  deriving DecidableEq, Repr

def SymbolBody.typeKind? : SymbolBody → Option TypeKind
  | enumeration _ => some .enumeration
  | bitfield _ => some .bitfield
  | dictionary _ => some .dictionary
  | classification _ _ => none

abbrev PlacedTypes := Std.TreeMap String PlacedType

/-- Notes where a type was placed, unless its UID was noted already. -/
def notePlaced (types : PlacedTypes) (placed : Symbol × Placement) : PlacedTypes :=
  match placed.1.uid, placed.1.body.typeKind? with
  | some uid, some kind =>
    if types.contains uid then types else types.insert uid ⟨kind, placed.2⟩
  | _, _ => types

/-- The placement of each type by UID; of several symbols with one UID the first counts. -/
def placedTypes (placed : List (Symbol × Placement)) : PlacedTypes := placed.foldl notePlaced {}

structure RenderContext where
  language : Language
  placement : Placement
  uid : Option String
  revision : Option Revision
  types : PlacedTypes

/-- The text of a file, line by line. -/
abbrev Lines := List String

def Lines.text (lines : Lines) : String := String.join (lines.map (· ++ "\n"))

namespace RenderContext

def identifier (cx : RenderContext) : String := cx.placement.identifier

def namespacePath (cx : RenderContext) : String :=
  cx.language.separator.intercalate cx.placement.segments

/-- A name as a member; it may not be the name of the type around it. -/
def member (cx : RenderContext) (name : String) : String :=
  let escaped := cx.language.escape name
  if escaped == cx.identifier then escaped ++ "_" else escaped

/-- The enumeration a row is typed by, if its reference is resolved and names an emitted one. -/
def enumerationOf? (cx : RenderContext) (reference : Option CrossReference) :
    Option Placement := do
  let reference ← reference
  let _ ← reference.typeName?
  let placed ← cx.types[reference.uid]?
  if placed.kind == .enumeration then some placed.placement else none

/-- Where a file comes from. -/
def provenance (cx : RenderContext) : String :=
  let revision := match cx.revision with
    | some r => " from " ++ Text.oneLine r.title ++ " (" ++ Text.oneLine r.date ++ ")"
    | none => ""
  let uid := match cx.uid with
    | some uid => "; UID " ++ uid
    | none => ""
  "Generated by disenum-gen" ++ revision ++ uid ++ "."

end RenderContext

/-- A name with its first letter in upper case. -/
def capitalize (name : String) : String :=
  match name.toList with
  | [] => ""
  | c :: rest => String.ofList (Text.upper c ++ rest)

/-- The names a type declares itself, where its rows claim theirs beside them. Elsewhere rows
keep the names they come with. -/
def Language.fixedMembers : Language → TypeKind → Option (List String)
  | .java, .enumeration => some ["BIT_SIZE", "value", "description"]
  | .java, .bitfield => some ["getBits", "getClass"]
  | .cpp, .bitfield => some ["bits", "kSizeBits", "kPaddingBits"]
  | .csharp, .bitfield => some ["Bits", "SizeBits", "PaddingBits"]
  | .python, .enumeration => some ["bit_size", "name", "value"]
  | .python, .bitfield => some ["bits", "SIZE_BITS", "PADDING_BITS"]
  | _, _ => none

namespace RenderContext

/-- The member a row asks for. -/
def candidate (cx : RenderContext) (kind : TypeKind) (name : String) : String :=
  match cx.language, kind with
  | .java, .bitfield => "get" ++ capitalize (cx.member name)
  | .python, .bitfield => cx.member (snakeCase name)
  | _, _ => cx.member name

/-- The members of rows, in their order. -/
def members (cx : RenderContext) (kind : TypeKind) (names : List String) :
    Except Exhausted (List String) :=
  match cx.language.fixedMembers kind with
  | none => .ok (names.map (cx.candidate kind))
  | some fixed =>
    (NameScope.empty.insertAll fixed).claimAll (names.map (cx.candidate kind)) |>.map (·.1)

end RenderContext

/-- All ones in a field's length, which counts up to 64. -/
def fieldMask (length : Nat) : Nat := (1 <<< min length 64) - 1

/-- A mask in upper-case hexadecimal. -/
def maskDigits (length : Nat) : String :=
  String.ofList ((Nat.toDigits 16 (fieldMask length)).map Char.toUpper)

/-- The codes of a node, separated by commas. -/
def codeList (t : ClassificationTree) (id : Nat) : String :=
  ", ".intercalate ((t.codes id).map toString)

end EnumRegistry
