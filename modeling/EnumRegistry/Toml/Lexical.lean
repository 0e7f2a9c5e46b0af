import EnumRegistry.Text.Integer

/-!
Lexical forms of TOML: blanks, comments, strings of four kinds, keys, and scalars. Each reader
gives what it read and the characters after it.
-/

namespace EnumRegistry.Toml

def isWs (c : Char) : Bool := c == ' ' || c == '\t'

/-- Characters that stand for themselves in comments and strings: all but controls. -/
def isPlain (c : Char) : Bool := c == '\t' || (0x20 ≤ c.toNat && c.toNat != 0x7F)

def skipWs (cs : List Char) : List Char := cs.dropWhile isWs

def newline? : List Char → Option (List Char)
  | '\n' :: rest => some rest
  | '\r' :: '\n' :: rest => some rest
  | _ => none

/-- Reads a comment, if there is one, and the end of the line. -/
def endLine? (cs : List Char) : Option (List Char) :=
  let rest := match skipWs cs with
    | '#' :: comment => comment.dropWhile isPlain
    | rest => rest
  if rest.isEmpty then some [] else newline? rest

/-- Skips blanks, line ends and comments. -/
def skipLines (comment : Bool) : List Char → Option (List Char)
  | [] => some []
  | '\n' :: rest => skipLines false rest
  | '\r' :: '\n' :: rest => skipLines false rest
  | c :: rest =>
    if comment then if isPlain c then skipLines true rest else none
    else if isWs c then skipLines false rest
    else if c == '#' then skipLines true rest
    else some (c :: rest)

/-- The character of a code given by hexadecimal digits. -/
def codePoint? (digits : List Char) : Option Char := do
  let n ← Text.natural? 16 digits
  if n.isValidChar then some (Char.ofNat n) else none

def escaped? : Char → Option Char
  | 'b' => some (Char.ofNat 0x8)
  | 't' => some '\t'
  | 'n' => some '\n'
  | 'f' => some (Char.ofNat 0xC)
  | 'r' => some '\r'
  | '"' => some '"'
  | '\\' => some '\\'
  | _ => none

def push (c : Char) (r : Option (List Char × List Char)) : Option (List Char × List Char) :=
  r.map fun (cs, rest) => (c :: cs, rest)

/-- The rest of a string in double quotes. -/
def basicText : List Char → Option (List Char × List Char)
  | [] => none
  | '"' :: rest => some ([], rest)
  | '\\' :: 'u' :: a :: b :: c :: d :: rest => do push (← codePoint? [a, b, c, d]) (basicText rest)
  | '\\' :: 'U' :: a :: b :: c :: d :: e :: f :: g :: h :: rest => do
    push (← codePoint? [a, b, c, d, e, f, g, h]) (basicText rest)
  | '\\' :: c :: rest => do push (← escaped? c) (basicText rest)
  | c :: rest => if isPlain c then push c (basicText rest) else none

/-- The rest of a string in single quotes. -/
def literalString : List Char → Option (List Char × List Char)
  | [] => none
  | '\'' :: rest => some ([], rest)
  | c :: rest => if isPlain c then push c (literalString rest) else none

/-- A backslash at the end of a line, blanks aside. -/
def endsLine (cs : List Char) : Bool := (newline? (skipWs cs)).isSome

/-- The rest of a string in three double quotes; up to two quotes may stand before the last three.
Behind a backslash at the end of a line, blanks are dropped (`skip`). -/
def basicLines (skip : Bool) : List Char → Option (List Char × List Char)
  | [] => none
  | '"' :: '"' :: '"' :: '"' :: '"' :: rest => some (['"', '"'], rest)
  | '"' :: '"' :: '"' :: '"' :: rest => some (['"'], rest)
  | '"' :: '"' :: '"' :: rest => some ([], rest)
  | '\r' :: '\n' :: rest =>
    if skip then basicLines true rest else push '\n' (basicLines false rest)
  | '\n' :: rest => if skip then basicLines true rest else push '\n' (basicLines false rest)
  | '\\' :: 'u' :: a :: b :: c :: d :: rest => do
    push (← codePoint? [a, b, c, d]) (basicLines false rest)
  | '\\' :: 'U' :: a :: b :: c :: d :: e :: f :: g :: h :: rest => do
    push (← codePoint? [a, b, c, d, e, f, g, h]) (basicLines false rest)
  | '\\' :: c :: rest =>
    if endsLine (c :: rest) then basicLines true rest
    else do push (← escaped? c) (basicLines false rest)
  | c :: rest =>
    if skip && isWs c then basicLines true rest
    else if isPlain c then push c (basicLines false rest)
    else none

/-- The rest of a string in three single quotes. -/
def literalLines : List Char → Option (List Char × List Char)
  | [] => none
  | '\'' :: '\'' :: '\'' :: '\'' :: '\'' :: rest => some (['\'', '\''], rest)
  | '\'' :: '\'' :: '\'' :: '\'' :: rest => some (['\''], rest)
  | '\'' :: '\'' :: '\'' :: rest => some ([], rest)
  | '\r' :: '\n' :: rest => push '\n' (literalLines rest)
  | '\n' :: rest => push '\n' (literalLines rest)
  | c :: rest => if isPlain c then push c (literalLines rest) else none

/-- A line end right behind the opening quotes is dropped. -/
def dropNewline (cs : List Char) : List Char := (newline? cs).getD cs

def string? : List Char → Option (String × List Char)
  | '"' :: '"' :: '"' :: rest => asString (basicLines false (dropNewline rest))
  | '"' :: rest => asString (basicText rest)
  | '\'' :: '\'' :: '\'' :: rest => asString (literalLines (dropNewline rest))
  | '\'' :: rest => asString (literalString rest)
  | _ => none
where
  asString (r : Option (List Char × List Char)) : Option (String × List Char) :=
    r.map fun (cs, rest) => (String.ofList cs, rest)

def isBareKeyChar (c : Char) : Bool := c.isAlphanum || c == '_' || c == '-'

def simpleKey? : List Char → Option (String × List Char)
  | '"' :: rest => (basicText rest).map fun (cs, rest) => (String.ofList cs, rest)
  | '\'' :: rest => (literalString rest).map fun (cs, rest) => (String.ofList cs, rest)
  | cs =>
    match cs.takeWhile isBareKeyChar with
    | [] => none
    | key => some (String.ofList key, cs.dropWhile isBareKeyChar)

/-- Further parts of a dotted key, at most as many as there are characters. -/
def keyParts (parts : List String) : Nat → List Char → Option (List String × List Char)
  | 0, _ => none
  | fuel + 1, cs => do
    let (key, rest) ← simpleKey? (skipWs cs)
    match skipWs rest with
    | '.' :: rest => keyParts (parts ++ [key]) fuel rest
    | rest => return (parts ++ [key], rest)

/-- How deep a document may nest: the most parts of a key, and the most arrays and tables around a
value. -/
def maxDepth : Nat := 79

/-- A dotted key: its last part, and the parts before it. -/
def key? (cs : List Char) : Option ((List String × String) × List Char) := do
  let (parts, rest) ← keyParts [] (cs.length + 1) cs
  guard (parts.length ≤ maxDepth)
  let key ← parts.getLast?
  return ((parts.dropLast, key), rest)

end EnumRegistry.Toml
