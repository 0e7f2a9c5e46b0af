import EnumRegistry.Target.Language
import EnumRegistry.Text.Blank

/-!
Spellings in generated sources: identifiers clear of reserved words, namespace segments, file
stems, string literals and comments.
-/

namespace EnumRegistry

/-- Lower case with an underscore where a capital follows a small letter or a digit. `previous` is
the character before. -/
def snakeFrom (previous : Option Char) : List Char → List Char
  | [] => []
  | c :: rest =>
    let spelled :=
      if Text.isUppercase c then
        if previous.any fun p => Text.isLowercase p || p.isDigit then '_' :: Text.lower c
        else Text.lower c
      else [c]
    spelled ++ snakeFrom (some c) rest

def snakeCase (s : String) : String := String.ofList (snakeFrom none s.toList)

/-- One character inside a double-quoted literal. -/
def literalChar (c : Char) : List Char :=
  if c == '\\' then ['\\', '\\']
  else if c == '"' then ['\\', '"']
  else if c == '\n' then ['\\', 'n']
  else if c == '\r' then []
  else if c == '\t' then [' ']
  else [c]

/-- A text as it stands between the double quotes of a literal. -/
def literalText (s : String) : String := String.ofList (s.toList.flatMap literalChar)

/-- Parts the two characters that end a block comment. -/
def partCommentEnds : List Char → List Char
  | '*' :: '/' :: rest => '*' :: ' ' :: '/' :: partCommentEnds rest
  | c :: rest => c :: partCommentEnds rest
  | [] => []

/-- A text on one line that ends no block comment. -/
def commentText (s : String) : String := String.ofList (partCommentEnds (Text.oneLine s).toList)

namespace Language

/-- A reserved word gets an underscore behind it. -/
def escape (l : Language) (word : String) : String :=
  if l.isReserved word then word ++ "_" else word

/-- A path segment as part of a namespace; packages of Java and Python are in lower case. -/
def namespaceSegment (l : Language) (segment : String) : String :=
  let cased :=
    match l with
    | java | python => Text.lowerCase segment
    | cpp | csharp => segment
  l.escape (if cased.toList.head?.any Char.isDigit then "_" ++ cased else cased)

def fileStem (l : Language) (identifier : String) : String :=
  match l with
  | python => l.escape (snakeCase identifier)
  | java | cpp | csharp => identifier

end Language

end EnumRegistry
