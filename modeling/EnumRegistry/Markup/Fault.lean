import EnumRegistry.Files.Failure
import EnumRegistry.Text.Utf8

/-!
What can be wrong with a document's markup, and the words for it.
-/

namespace EnumRegistry.Markup

/-- Markup that never ends, or that begins like no markup. -/
inductive SyntaxFault
  | unknownMarkup
  | openInstruction
  | openComment
  | openDoctype
  | openCData
  | openTag
  deriving DecidableEq, Repr

def SyntaxFault.message : SyntaxFault → String
  | unknownMarkup => "unknown or missed symbol in markup"
  | openInstruction =>
    "processing instruction or xml declaration not closed: `?>` not found before end of input"
  | openComment => "comment not closed: `-->` not found before end of input"
  | openDoctype => "DOCTYPE not closed: `>` not found before end of input"
  | openCData => "CDATA not closed: `]]>` not found before end of input"
  | openTag => "tag not closed: `>` not found before end of input"

/-- Markup that is whole but out of place. Reading can go on after it. -/
inductive FormFault
  | namelessDoctype
  | unmatchedEnd (name : String)
  | mismatchedEnd (expected found : String)
  deriving DecidableEq, Repr

def FormFault.message : FormFault → String
  | namelessDoctype =>
    "`<!DOCTYPE>` declaration does not contain a name of a document type"
  | unmatchedEnd name => "close tag `</" ++ name ++ ">` does not match any open tag"
  | mismatchedEnd expected found =>
    "expected `</" ++ expected ++ ">`, but `</" ++ found ++ ">` was found"

/-- Faults between the name of a tag and its end. Positions count from the start of the tag. -/
inductive AttributeFault
  | noEquals (position : Nat)
  | noValue (position : Nat)
  | unquoted (position : Nat)
  | openQuote (position : Nat) (quote : Char)
  | duplicate (position earlier : Nat)
  deriving DecidableEq, Repr

def AttributeFault.message : AttributeFault → String
  | noEquals position =>
    "position " ++ toString position ++
      ": attribute key must be directly followed by `=` or space"
  | noValue position =>
    "position " ++ toString position ++ ": `=` must be followed by an attribute value"
  | unquoted position =>
    "position " ++ toString position ++
      ": attribute value must be enclosed in `\"` or `'`"
  | openQuote position quote =>
    "position " ++ toString position ++ ": missing closing quote `" ++ quote.toString ++
      "` in attribute value"
  | duplicate position earlier =>
    "position " ++ toString position ++
      ": duplicated attribute, previous declaration at position " ++ toString earlier

/-- Numbers of character references that name no character. -/
inductive NumberFault
  | sign
  | empty
  | notADigit
  | tooLarge
  | zero
  | notACharacter (code : Nat)
  deriving DecidableEq, Repr

def NumberFault.message : NumberFault → String
  | sign => "unexpected number sign"
  | empty => "cannot parse integer from empty string"
  | notADigit => "invalid digit found in string"
  | tooLarge => "number too large to fit in target type"
  | zero => "0x0 character is not permitted in XML"
  | notACharacter code => "`" ++ toString code ++ "` is not a valid codepoint"

/-- The number was not even read. -/
def NumberFault.isUnread : NumberFault → Bool
  | empty | notADigit | tooLarge => true
  | sign | zero | notACharacter _ => false

/-- Faults of references in attribute values. Positions count bytes of the value. -/
inductive ReferenceFault
  | unterminated (start stop : Nat)
  | unknown (start stop : Nat) (name : String)
  | number (fault : NumberFault)
  deriving DecidableEq, Repr

def ReferenceFault.message : ReferenceFault → String
  | unterminated start stop =>
    "Error while escaping character at range " ++ toString start ++ ".." ++ toString stop ++
      ": Cannot find ';' after '&'"
  | unknown start stop name =>
    "at " ++ toString start ++ ".." ++ toString stop ++ ": unrecognized entity `" ++ name ++
      "`"
  | number fault => "invalid character reference: " ++ fault.message

inductive Fault
  /-- The document cannot be read on. -/
  | unread (failure : FileFailure)
  | syntactic (fault : SyntaxFault)
  | form (fault : FormFault)
  | tag (fault : AttributeFault)
  | encoding (fault : Text.Utf8.Fault)
  | reference (fault : ReferenceFault)
  deriving DecidableEq, Repr

namespace Fault

def message : Fault → String
  | unread failure => "I/O error: " ++ failure.message
  | syntactic fault => "syntax error: " ++ fault.message
  | form fault => "ill-formed document: " ++ fault.message
  | tag fault => "error while parsing attribute: " ++ fault.message
  | encoding fault => "Malformed UTF-8 input: " ++ fault.message
  | reference fault => fault.message

/-- The fault told ever more closely. -/
def causes : Fault → List String
  | unread failure => [(unread failure).message, failure.message]
  | syntactic fault => [(syntactic fault).message, fault.message]
  | form fault => [(form fault).message, fault.message]
  | tag fault => [(tag fault).message, fault.message]
  | encoding fault => [(encoding fault).message, fault.message]
  | reference (.number fault) =>
    let told := (ReferenceFault.number fault).message
    if fault.isUnread then [told, told, fault.message, fault.message]
    else [told, told, fault.message]
  | reference fault => [fault.message, fault.message]

end Fault

end EnumRegistry.Markup
