import EnumRegistry.Markup.Attribute

/-!
Lexemes of a document: its tags, each with the place it was met at, and its faults. Text, comments,
character data, declarations and instructions leave no lexeme. Nothing follows a fault after which
reading cannot go on.
-/

namespace EnumRegistry.Markup

/-- A tag's content is what stands between its angle brackets, less the slash of an empty tag. -/
inductive Lexeme
  | start (position : Nat) (content : List UInt8)
  | empty (position : Nat) (content : List UInt8)
  | close (position : Nat) (name : List UInt8)
  | fault (position : Nat) (fault : Fault)
  deriving DecidableEq, Repr

/-- Kinds of markup by how they end. -/
inductive Body
  | comment
  | cdata
  /-- So many angle brackets are open inside. -/
  | doctype (depth : Nat)
  | instruction
  /-- A quote is open inside. -/
  | tag (quote : Option UInt8)
  deriving DecidableEq, Repr

namespace Body

/-- The fault of markup that the document ends in, or that only looked like it. -/
def openFault : Body → SyntaxFault
  | comment => .openComment
  | cdata => .openCData
  | doctype _ => .openDoctype
  | instruction => .openInstruction
  | tag _ => .openTag

/-- Reads a byte after those read, last byte first; nothing is left where the byte ends the
markup. -/
def feed (body : Body) (read : List UInt8) (b : UInt8) : Option Body :=
  match body with
  | comment =>
    if b == 0x3E && [0x2D, 0x2D].isPrefixOf read && 5 ≤ read.length then none else some comment
  | cdata => if b == 0x3E && [0x5D, 0x5D].isPrefixOf read then none else some cdata
  | doctype depth =>
    if b == 0x3C then some (doctype (depth + 1))
    else if b == 0x3E then if depth = 0 then none else some (doctype (depth - 1))
    else some (doctype depth)
  | instruction => if b == 0x3E && [0x3F].isPrefixOf read then none else some instruction
  | tag none =>
    if b == 0x3E then none
    else if b == 0x22 || b == 0x27 then some (tag (some b))
    else some (tag none)
  | tag (some quote) => some (tag (if b == quote then none else some quote))

end Body

def lowerByte (b : UInt8) : UInt8 := if 0x41 ≤ b && b ≤ 0x5A then b + 0x20 else b

def startsWith (word : String) (bytes : List UInt8) : Bool := word.toUTF8.toList.isPrefixOf bytes

/-- Whether bytes start with a word, ASCII case aside. The word is in lower case. -/
def startsWithWord (word : String) (bytes : List UInt8) : Bool :=
  startsWith word (bytes.map lowerByte)

/-- Drops blanks at the end of a name, unless there is nothing else. -/
def trimName (name : List UInt8) : List UInt8 :=
  if name.all isSpace then name else (name.reverse.dropWhile isSpace).reverse

def tagLexeme (position : Nat) (content : List UInt8) : Lexeme :=
  match content with
  | 0x2F :: name => .close position (trimName name)
  | content =>
    if content.getLast? == some 0x2F then .empty position content.dropLast
    else .start position content

/-- What whole markup gives. Nothing can be read after markup of the wrong beginning; only a
`DOCTYPE` may begin in any case. -/
def Body.lexemes (body : Body) (position : Nat) (content : List UInt8) :
    Except SyntaxFault (List Lexeme) :=
  match body with
  | comment => if startsWith "!--" content then .ok [] else .error .openComment
  | cdata => if startsWith "![CDATA[" content then .ok [] else .error .openCData
  | doctype _ =>
    if !startsWithWord "!doctype" content then .error .openDoctype
    else if (content.drop 8).all isSpace then .ok [.fault position (.form .namelessDoctype)]
    else .ok []
  | instruction => if 2 ≤ content.length then .ok [] else .error .openInstruction
  | tag _ => .ok [tagLexeme position content]

/-- Where reading stands between two bytes. -/
inductive Place
  /-- Nothing but blanks since `start`. -/
  | gap (start : Nat)
  | text
  /-- After `<`. -/
  | opened (position : Nat)
  /-- After `<!`. -/
  | bang (position : Nat)
  /-- Inside markup; what is read stands last byte first. -/
  | inside (position : Nat) (body : Body) (read : List UInt8)
  deriving DecidableEq, Repr

def Place.endFault? : Place → Option (Nat × SyntaxFault)
  | gap _ | text => none
  | opened position => some (position, .openTag)
  | bang position => some (position, .unknownMarkup)
  | inside position body _ => some (position, body.openFault)

/-- What one byte does: reading goes on somewhere, markup is whole, or nothing more is read. -/
inductive Advance
  | on (place : Place)
  | whole (lexemes : List Lexeme)
  | stop (position : Nat) (fault : SyntaxFault)

/-- A byte inside markup. -/
def advanceInside (position : Nat) (body : Body) (read : List UInt8) (b : UInt8) : Advance :=
  match body.feed read b with
  | some body => .on (.inside position body (b :: read))
  | none =>
    match body.lexemes position read.reverse with
    | .ok lexemes => .whole lexemes
    | .error fault => .stop position fault

def Place.advance (place : Place) (offset : Nat) (b : UInt8) : Advance :=
  match place with
  | gap start =>
    if isSpace b then .on (.gap start)
    else if b == 0x3C then .on (.opened start)
    else .on .text
  | text => if b == 0x3C then .on (.opened offset) else .on .text
  | opened position =>
    if b == 0x21 then .on (.bang position)
    else if b == 0x3F then advanceInside position .instruction [] b
    else advanceInside position (.tag none) [] b
  | bang position =>
    if b == 0x2D then .on (.inside position .comment [b, 0x21])
    else if b == 0x5B then .on (.inside position .cdata [b, 0x21])
    else if b == 0x44 || b == 0x64 then .on (.inside position (.doctype 0) [b, 0x21])
    else .stop position .unknownMarkup
  | inside position body read => advanceInside position body read b

/-- The lexemes of the rest of a document, of which `offset` bytes are read. -/
def lexemesFrom (offset : Nat) (place : Place) : List UInt8 → List Lexeme
  | [] =>
    match place.endFault? with
    | some (position, fault) => [.fault position (.syntactic fault)]
    | none => []
  | b :: rest =>
    match place.advance offset b with
    | .on place => lexemesFrom (offset + 1) place rest
    | .whole lexemes => lexemes ++ lexemesFrom (offset + 1) (.gap (offset + 1)) rest
    | .stop position fault => [.fault position (.syntactic fault)]

/-- A document without the byte order mark before it. -/
def withoutMark : List UInt8 → List UInt8
  | 0xEF :: 0xBB :: 0xBF :: rest => rest
  | bytes => bytes

/-- The lexemes of a document. A byte order mark before it does not count. -/
def lexemes (document : List UInt8) : List Lexeme := lexemesFrom 0 (.gap 0) (withoutMark document)

end EnumRegistry.Markup
