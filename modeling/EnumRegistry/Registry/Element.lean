import Std.Data.TreeMap
import EnumRegistry.Markup.Attribute
import EnumRegistry.Registry.Error
import EnumRegistry.Text.Blank

/-!
Elements of a registry: their kind by tag, and their attributes read as text and as numbers.
-/

namespace EnumRegistry

inductive ElementKind
  | revision
  | enumeration
  | enumerationRow
  | enumerationRange
  | bitfield
  | bitfieldRow
  | dictionary
  | dictionaryRow
  | entityTree
  | objectTree
  | entity
  | object
  | category
  | subCategory
  | subCategoryRange
  | specific
  | extra
  | jammerTree
  | jammerKind
  | jammerCategory
  | jammerSubCategory
  | jammerSpecific
  | other
  deriving DecidableEq, Repr

def ElementKind.ofTag : String → ElementKind
  | "revision" => revision
  | "enum" => enumeration
  | "enumrow" => enumerationRow
  | "enumrow_range" => enumerationRange
  | "bitfield" => bitfield
  | "bitfieldrow" => bitfieldRow
  | "dict" => dictionary
  | "dictrow" => dictionaryRow
  | "cet" => entityTree
  | "cot" => objectTree
  | "entity" => entity
  | "object" => object
  | "category" => category
  | "subcategory" => subCategory
  | "subcategory_range" => subCategoryRange
  | "specific" => specific
  | "extra" => extra
  | "jammer_technique" => jammerTree
  | "jammer_kind" => jammerKind
  | "jammer_category" => jammerCategory
  | "jammer_subcategory" => jammerSubCategory
  | "jammer_specific" => jammerSpecific
  | _ => other

structure Element where
  kind : ElementKind
  tag : String
  attributes : Std.TreeMap String String
  position : Nat

namespace Element

def attr? (e : Element) (name : String) : Option String := e.attributes[name]?

def missing (e : Element) (name : String) : RegistryError :=
  .missingAttribute e.tag name e.position

def required (e : Element) (name : String) : Except RegistryError String :=
  match e.attr? name with
  | some value => .ok value
  | none => .error (e.missing name)

/-- Reads a number, hexadecimal after `0x`. -/
def number? (text : String) : Option Int :=
  match Text.trimEnds Text.isBlank text.toList with
  | '0' :: 'x' :: digits | '0' :: 'X' :: digits => Text.int64? 16 digits
  | digits => Text.int64? 10 digits

def int? (e : Element) (name : String) : Except RegistryError (Option Int) :=
  match e.attr? name with
  | none => .ok none
  | some text =>
    match number? text with
    | some value => .ok (some value)
    | none => .error (.invalidNumber e.tag name text e.position)

def requiredInt (e : Element) (name : String) : Except RegistryError Int := do
  match ← e.int? name with
  | some value => return value
  | none => throw (e.missing name)

/-- The UID, unless it is blank. -/
def uid? (e : Element) : Option String :=
  ((e.attr? "uid").map Text.trim).filter (· != "")

/-- What the element says it is: its description, or else its name. -/
def description (e : Element) : String :=
  ((e.attr? "description").or (e.attr? "name")).getD ""

def isDeprecated (e : Element) : Bool :=
  (e.attr? "deprecated").any fun value => (Text.trim value).map Char.toLower == "true"

end Element

/-- A name without what stands before its first colon. -/
def localName (name : List UInt8) : List UInt8 :=
  if name.contains 0x3A then (name.dropWhile (· != 0x3A)).drop 1 else name

/-- The local name as text. -/
def localText (name : List UInt8) : String := Text.Utf8.decodeLossy (localName name)

/-- Gathers attributes up to the first fault; of two with one local name the later counts. -/
def gather (attributes : Std.TreeMap String String) :
    List (Except Markup.AttributeFault Markup.RawAttribute) →
    Except Markup.Fault (Std.TreeMap String String)
  | [] => .ok attributes
  | .error fault :: _ => .error (.tag fault)
  | .ok raw :: rest => do
    let text ← raw.text
    gather (attributes.insert (localText raw.key) text) rest

/-- The full name of a tag. -/
def tagName (content : List UInt8) : List UInt8 := content.takeWhile (!Markup.isSpace ·)

/-- The element of a tag's content. -/
def Element.ofTag (position : Nat) (content : List UInt8) : Except Markup.Fault Element := do
  let name := tagName content
  let rest := content.drop name.length
  let attributes ← gather {} (Markup.attributesFrom name.length [] .before rest)
  let tag := localText name
  return ⟨.ofTag tag, tag, attributes, position⟩

end EnumRegistry
