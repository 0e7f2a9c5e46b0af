import EnumRegistry.Text.Blank

/-!
Identifier fragments from registry text: words joined by underscores, glyphs spelled out, brackets
and quotes dropped. Every text has a fragment; one without letters and digits has the fallback.
-/

namespace EnumRegistry.Name

/-- The fragment of a text that holds no letter and no digit. -/
def undefined : String := "undefinedName"

/-- Characters between words. -/
def isSeparator (c : Char) : Bool :=
  c == ',' || c == '-' || c == '–' || c == '—' || c == '.' || c == '&' || c == '/' || c == '\\' ||
    c == '"' || c == '“' || c == '”' || Text.isBlank c

/-- Brackets and quotes, dropped without a trace. -/
def isStripped (c : Char) : Bool :=
  c == '(' || c == ')' || c == '[' || c == ']' || c == '{' || c == '}' || c == '\'' ||
    c == '‘' || c == '’' || c.toNat == 0x60

/-- A single leading letter is glued to the word after it. -/
def glueLeadingLetter : List Char → List Char
  | c :: '_' :: rest => if c.isAlpha then c :: rest else c :: '_' :: rest
  | cs => cs

/-- Spells out operator glyphs, two characters before one. -/
def spellGlyphs : List Char → List Char
  | '<' :: '=' :: rest => 'L' :: 'T' :: 'E' :: spellGlyphs rest
  | '>' :: '=' :: rest => 'G' :: 'T' :: 'E' :: spellGlyphs rest
  | '<' :: rest => 'L' :: 'T' :: spellGlyphs rest
  | '>' :: rest => 'G' :: 'T' :: spellGlyphs rest
  | '=' :: rest => 'E' :: 'Q' :: spellGlyphs rest
  | '+' :: rest => 'P' :: 'L' :: 'U' :: 'S' :: spellGlyphs rest
  | '%' :: rest => 'p' :: 'c' :: 't' :: spellGlyphs rest
  | c :: rest => c :: spellGlyphs rest
  | [] => []

/-- ASCII letters, digits and the underscore. -/
def isNameChar (c : Char) : Bool := c.isAlphanum || c == '_'

def isUnderscore (c : Char) : Bool := c == '_'

/-- One underscore for each run of them. -/
def collapse : List Char → List Char
  | [] => []
  | c :: rest =>
    if c == '_' && rest.head? == some '_' then collapse rest else c :: collapse rest

/-- The words of a text, glyphs spelled out, before the edges are tidied. -/
def spelled (raw : List Char) : List Char :=
  spellGlyphs ((glueLeadingLetter (Text.joinWords isSeparator '_' raw)).filter (!isStripped ·))

/-- A fragment starts with no digit and is not empty. -/
def guarded : List Char → List Char
  | [] => undefined.toList
  | c :: rest => if c.isDigit then '_' :: c :: rest else c :: rest

def normal (raw : List Char) : List Char :=
  guarded (Text.trimEnds isUnderscore (collapse ((spelled raw).filter isNameChar)))

/-- The identifier fragment of a text. -/
def normalize (raw : String) : String := String.ofList (normal raw.toList)

end EnumRegistry.Name
