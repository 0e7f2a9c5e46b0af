/-!
UTF-8: bytes as characters and broken sequences. Strict decoding stops at the first broken
sequence, forgiving decoding puts the replacement character for each.
-/

namespace EnumRegistry.Text.Utf8

/-- A character, or a longest beginning of one that is followed by something else or by nothing. -/
inductive Part
  | char (c : Char)
  | broken (bytes : Nat)
  | cut (bytes : Nat)
  deriving DecidableEq, Repr

/-- A character begun: `more` bytes are to come, the next between `low` and `high`. -/
structure Begun where
  more : Nat
  low : UInt8
  high : UInt8
  value : Nat
  read : Nat
  deriving DecidableEq, Repr

/-- What a byte begins, if it may begin a character of more than one byte. -/
def begin? (b : UInt8) : Option Begun :=
  let n := b.toNat
  if 0xC2 ≤ n && n ≤ 0xDF then some ⟨1, 0x80, 0xBF, n - 0xC0, 1⟩
  else if n == 0xE0 then some ⟨2, 0xA0, 0xBF, 0, 1⟩
  else if n == 0xED then some ⟨2, 0x80, 0x9F, 0xD, 1⟩
  else if 0xE1 ≤ n && n ≤ 0xEF then some ⟨2, 0x80, 0xBF, n - 0xE0, 1⟩
  else if n == 0xF0 then some ⟨3, 0x90, 0xBF, 0, 1⟩
  else if 0xF1 ≤ n && n ≤ 0xF3 then some ⟨3, 0x80, 0xBF, n - 0xF0, 1⟩
  else if n == 0xF4 then some ⟨3, 0x80, 0x8F, 4, 1⟩
  else none

/-- Reads a byte at the start of a character. -/
def first (b : UInt8) : List Part × Option Begun :=
  if b < 0x80 then ([.char (Char.ofNat b.toNat)], none)
  else match begin? b with
    | some begun => ([], some begun)
    | none => ([.broken 1], none)

/-- Reads a byte inside a character; one that does not fit starts anew. -/
def Begun.next (s : Begun) (b : UInt8) : List Part × Option Begun :=
  if s.low ≤ b && b ≤ s.high then
    let value := s.value * 64 + (b.toNat - 0x80)
    if s.more = 1 then ([.char (Char.ofNat value)], none)
    else ([], some ⟨s.more - 1, 0x80, 0xBF, value, s.read + 1⟩)
  else
    let (parts, begun) := first b
    (.broken s.read :: parts, begun)

def partsFrom : Option Begun → List UInt8 → List Part
  | none, [] => []
  | some s, [] => [.cut s.read]
  | none, b :: rest => let (parts, begun) := first b; parts ++ partsFrom begun rest
  | some s, b :: rest => let (parts, begun) := s.next b; parts ++ partsFrom begun rest

def parts (bytes : List UInt8) : List Part := partsFrom none bytes

/-- Where strict decoding stops: a broken sequence of `length` bytes, or one cut by the end. -/
structure Fault where
  index : Nat
  length : Option Nat
  deriving DecidableEq, Repr

def Fault.message (f : Fault) : String :=
  match f.length with
  | some length =>
    "invalid utf-8 sequence of " ++ toString length ++ " bytes from index " ++ toString f.index
  | none => "incomplete utf-8 byte sequence from index " ++ toString f.index

def charsFrom (index : Nat) : List Part → Except Fault (List Char)
  | [] => .ok []
  | .char c :: rest => (charsFrom (index + c.utf8Size) rest).map (c :: ·)
  | .broken bytes :: _ => .error ⟨index, some bytes⟩
  | .cut _ :: _ => .error ⟨index, none⟩

def decode (bytes : List UInt8) : Except Fault (List Char) := charsFrom 0 (parts bytes)

/-- Decodes with the replacement character for each broken sequence. -/
def decodeLossy (bytes : List UInt8) : String :=
  String.ofList ((parts bytes).map fun
    | .char c => c
    | .broken _ | .cut _ => Char.ofNat 0xFFFD)

/-- Decodes, giving nothing where the bytes are no text. -/
def decodeOrEmpty (bytes : List UInt8) : String :=
  match decode bytes with
  | .ok cs => String.ofList cs
  | .error _ => ""

end EnumRegistry.Text.Utf8
