/-!
Integers in text: an optional sign and one or more digits, with a value of 64 signed bits.
-/

namespace EnumRegistry.Text

/-- The value of a digit, letters of either case standing for ten and above. -/
def digit? (radix : Nat) (c : Char) : Option Nat :=
  let value :=
    if c.isDigit then c.toNat - 48
    else if c.isLower then c.toNat - 87
    else if c.isUpper then c.toNat - 55
    else radix
  if value < radix then some value else none

/-- Reads further digits behind a value. -/
def digitsOnto (radix : Nat) : Nat → List Char → Option Nat
  | value, [] => some value
  | value, c :: rest =>
    match digit? radix c with
    | some d => digitsOnto radix (value * radix + d) rest
    | none => none

/-- A number without sign; there is no empty number. -/
def natural? (radix : Nat) : List Char → Option Nat
  | [] => none
  | c :: rest => digitsOnto radix 0 (c :: rest)

def signed? (radix : Nat) : List Char → Option Int
  | '+' :: rest => (natural? radix rest).map Int.ofNat
  | '-' :: rest => (natural? radix rest).map fun n => -(Int.ofNat n)
  | cs => (natural? radix cs).map Int.ofNat

/-- The values that fit 64 signed bits. -/
def fitsInt64 (v : Int) : Bool := -0x8000000000000000 ≤ v && v < 0x8000000000000000

def int64? (radix : Nat) (cs : List Char) : Option Int := (signed? radix cs).filter fitsInt64

end EnumRegistry.Text
