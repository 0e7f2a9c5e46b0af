import EnumRegistry.Text.Casing
import EnumRegistry.Text.HiddenTable

/-!
Quoted text, as messages show it: between double quotes, with escapes for quotes, backslashes and
everything that would not be seen.
-/

namespace EnumRegistry.Text

/-- Characters a reader could not see: controls, separators other than the space, marks that join
the character before them, letters without a shape, unassigned code points. -/
def isHidden (c : Char) : Bool :=
  c.toNat < 0x20 || (0x7F ≤ c.toNat && inIntervals c.toNat HiddenTable.intervals)

def quotedChar (c : Char) : List Char :=
  if c == '"' then ['\\', '"']
  else if c == '\\' then ['\\', '\\']
  else if c == '\n' then ['\\', 'n']
  else if c == '\r' then ['\\', 'r']
  else if c == '\t' then ['\\', 't']
  else if c.toNat == 0 then ['\\', '0']
  else if isHidden c then
    ['\\', 'u', Char.ofNat 0x7B] ++ Nat.toDigits 16 c.toNat ++ [Char.ofNat 0x7D]
  else [c]

def quoted (s : String) : String := String.ofList ('"' :: s.toList.flatMap quotedChar ++ ['"'])

end EnumRegistry.Text
