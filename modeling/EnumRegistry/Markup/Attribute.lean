import EnumRegistry.Markup.Reference

/-!
Attributes of a tag: keys and quoted values, in the bytes after the tag's name.
-/

namespace EnumRegistry.Markup

/-- Blanks of markup: space, tab, carriage return, line feed. -/
def isSpace (b : UInt8) : Bool := b == 0x20 || b == 0x9 || b == 0xD || b == 0xA

structure RawAttribute where
  key : List UInt8
  value : List UInt8
  deriving DecidableEq, Repr

/-- How far an attribute has been read; what is read stands last byte first. -/
inductive AttributeState
  | before
  | key (start : Nat) (read : List UInt8)
  | afterKey (start : Nat) (key : List UInt8)
  | beforeValue (key : List UInt8)
  | value (key : List UInt8) (quote : UInt8) (read : List UInt8)

/-- Keys read so far and where they stand. -/
abbrev Keys := List (List UInt8 × Nat)

/-- The state after a key and its `=`, unless the key stands twice. -/
def keyed (keys : Keys) (start : Nat) (key : List UInt8) : Except AttributeFault AttributeState :=
  match keys.lookup key with
  | some earlier => .error (.duplicate start earlier)
  | none => .ok (.beforeValue key)

/-- Reads on to the end of the tag at `offset`. A key stands at least one byte, whatever it is. The
list ends at the first fault. -/
def attributesFrom (offset : Nat) (keys : Keys) :
    AttributeState → List UInt8 → List (Except AttributeFault RawAttribute)
  | .before, [] => []
  | .key _ _, [] | .afterKey _ _, [] => [.error (.noEquals offset)]
  | .beforeValue _, [] => [.error (.noValue offset)]
  | .value _ quote _, [] => [.error (.openQuote offset (Char.ofNat quote.toNat))]
  | .before, b :: rest =>
    attributesFrom (offset + 1) keys (if isSpace b then .before else .key offset [b]) rest
  | .key start read, b :: rest =>
    if b == 0x3D then
      match keyed keys start read.reverse with
      | .error fault => [.error fault]
      | .ok state => attributesFrom (offset + 1) (keys ++ [(read.reverse, start)]) state rest
    else if isSpace b then attributesFrom (offset + 1) keys (.afterKey start read.reverse) rest
    else attributesFrom (offset + 1) keys (.key start (b :: read)) rest
  | .afterKey start key, b :: rest =>
    if isSpace b then attributesFrom (offset + 1) keys (.afterKey start key) rest
    else if b == 0x3D then
      match keyed keys start key with
      | .error fault => [.error fault]
      | .ok state => attributesFrom (offset + 1) (keys ++ [(key, start)]) state rest
    else [.error (.noEquals offset)]
  | .beforeValue key, b :: rest =>
    if isSpace b then attributesFrom (offset + 1) keys (.beforeValue key) rest
    else if b == 0x22 || b == 0x27 then attributesFrom (offset + 1) keys (.value key b []) rest
    else [.error (.unquoted offset)]
  | .value key quote read, b :: rest =>
    if b == quote then .ok ⟨key, read.reverse⟩ :: attributesFrom (offset + 1) keys .before rest
    else attributesFrom (offset + 1) keys (.value key quote (b :: read)) rest

/-- The text of an attribute's value. -/
def RawAttribute.text (a : RawAttribute) : Except Fault String := do
  let cs ← (Text.Utf8.decode a.value).mapError .encoding
  String.ofList <$> (expand cs).mapError .reference

end EnumRegistry.Markup
