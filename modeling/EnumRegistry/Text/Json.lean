/-!
JSON text: strings, and objects set out over lines.
-/

namespace EnumRegistry.Text

/-- A control character by number. -/
def unicodeEscape (c : Char) : List Char :=
  let digits := Nat.toDigits 16 c.toNat
  ['\\', 'u'] ++ List.replicate (4 - digits.length) '0' ++ digits

def jsonChar (c : Char) : List Char :=
  if c == '"' then ['\\', '"']
  else if c == '\\' then ['\\', '\\']
  else if c.toNat == 0x8 then ['\\', 'b']
  else if c.toNat == 0xC then ['\\', 'f']
  else if c == '\n' then ['\\', 'n']
  else if c == '\r' then ['\\', 'r']
  else if c == '\t' then ['\\', 't']
  else if c.toNat < 0x20 then unicodeEscape c
  else [c]

def jsonString (s : String) : String := String.ofList ('"' :: s.toList.flatMap jsonChar ++ ['"'])

/-- An object whose values are written already, each member on a line behind `indent`. -/
def jsonObject (indent : String) (members : List (String × String)) : String :=
  if members.isEmpty then "\x7b\x7d"
  else
    let line := fun (key, value) => indent ++ "  " ++ jsonString key ++ ": " ++ value
    "\x7b\n" ++ ",\n".intercalate (members.map line) ++ "\n" ++ indent ++ "\x7d"

end EnumRegistry.Text
