import EnumRegistry.Markup.Fault
import EnumRegistry.Text.Integer

/-!
References in attribute values: five named characters, and characters by number.
-/

namespace EnumRegistry.Markup

def namedCharacter? (name : List Char) : Option Char :=
  match String.ofList name with
  | "lt" => some '<'
  | "gt" => some '>'
  | "amp" => some '&'
  | "apos" => some '\''
  | "quot" => some '"'
  | _ => none

/-- Reads further digits behind a value of 32 bits. A character that is no digit is told before the
value grows too large at it. -/
def codeOnto (radix : Nat) : Nat → List Char → Except NumberFault Nat
  | value, [] => .ok value
  | value, c :: rest =>
    match Text.digit? radix c with
    | none => .error .notADigit
    | some d =>
      if value * radix + d < 0x100000000 then codeOnto radix (value * radix + d) rest
      else .error .tooLarge

def code (radix : Nat) : List Char → Except NumberFault Nat
  | [] => .error .empty
  | '+' :: _ | '-' :: _ => .error .sign
  | cs => codeOnto radix 0 cs

/-- The character of a number, hexadecimal after an `x`. -/
def numberedCharacter (number : List Char) : Except NumberFault Char := do
  let n ← match number with
    | 'x' :: digits => code 16 digits
    | digits => code 10 digits
  if n = 0 then throw .zero
  else if n.isValidChar then return Char.ofNat n
  else throw (.notACharacter n)

/-- What a reference between `&` and `;` stands for, `start` being the place of its text. -/
def referenced (start : Nat) (name : List Char) : Except ReferenceFault Char :=
  match name with
  | '#' :: number => (numberedCharacter number).mapError .number
  | name =>
    match namedCharacter? name with
    | some c => .ok c
    | none =>
      let text := String.ofList name
      .error (.unknown start (start + text.utf8ByteSize) text)

/-- A reference being read: where its `&` stands, and its text so far, last character first. -/
structure OpenReference where
  start : Nat
  read : List Char := []

/-- Replaces references in the rest of a value of `size` bytes, of which `offset` are read. -/
def expandFrom (size offset : Nat) :
    Option OpenReference → List Char → Except ReferenceFault (List Char)
  | none, [] => .ok []
  | some r, [] => .error (.unterminated r.start size)
  | none, c :: rest =>
    let next := offset + c.utf8Size
    if c == '&' then expandFrom size next (some ⟨offset, []⟩) rest
    else (expandFrom size next none rest).map (c :: ·)
  | some r, c :: rest =>
    let next := offset + c.utf8Size
    if c == '&' then .error (.unterminated r.start size)
    else if c == ';' then do
      let d ← referenced (r.start + 1) r.read.reverse
      return d :: (← expandFrom size next none rest)
    else expandFrom size next (some { r with read := c :: r.read }) rest

def byteSize (cs : List Char) : Nat := cs.foldr (·.utf8Size + ·) 0

/-- The text of an attribute value. -/
def expand (value : List Char) : Except ReferenceFault (List Char) :=
  expandFrom (byteSize value) 0 none value

end EnumRegistry.Markup
