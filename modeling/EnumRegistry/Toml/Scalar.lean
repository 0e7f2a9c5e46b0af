import EnumRegistry.Text.Integer
import EnumRegistry.Toml.Lexical
import EnumRegistry.Toml.Value

/-!
Scalars of TOML other than strings: truth values, integers, decimal fractions, dates and times. Of
all but dates and times, only whether they are well formed is told.
-/

namespace EnumRegistry.Toml

/-- Digits of a class with single underscores between them. -/
def digitGroups (isDigit : Char → Bool) : List Char → Bool
  | [] => false
  | [c] => isDigit c
  | c :: '_' :: rest => isDigit c && digitGroups isDigit rest
  | c :: rest => isDigit c && digitGroups isDigit rest

def withoutSign : List Char → List Char
  | '+' :: rest | '-' :: rest => rest
  | cs => cs

/-- A decimal number in its usual form, without needless zeros in front. -/
def isDecimal (cs : List Char) : Bool :=
  digitGroups Char.isDigit cs && (cs.length == 1 || cs.head? != some '0')

def withoutGroups (cs : List Char) : List Char := cs.filter (· != '_')

def isInteger (cs : List Char) : Bool :=
  match cs with
  | '0' :: 'x' :: digits => grouped 16 digits
  | '0' :: 'o' :: digits => grouped 8 digits
  | '0' :: 'b' :: digits => grouped 2 digits
  | _ => isDecimal (withoutSign cs) && (Text.int64? 10 (withoutGroups cs)).isSome
where
  grouped (radix : Nat) (digits : List Char) : Bool :=
    digitGroups (fun c => (Text.digit? radix c).isSome) digits &&
      (Text.int64? radix (withoutGroups digits)).isSome

/-- The least number that 64-bit floating point rounds to infinity: half a last place above its
greatest finite number. -/
def overflow : Nat := 0x3FFFFFFFFFFFFF <<< 970

/-- Whether so many units of a power of ten are too many for 64-bit floating point. Numbers far from
the limit are told by their count of digits. -/
def overflows (units : List Char) (exponent : Int) : Bool :=
  let digits := units.dropWhile (· == '0')
  let magnitude := digits.length + exponent
  if digits.isEmpty || magnitude < 309 then false
  else if 309 < magnitude then true
  else
    let n := (Text.natural? 10 digits).getD 0
    overflow * Nat.pow 10 (-exponent).toNat ≤ n * Nat.pow 10 exponent.toNat

/-- The parts of a number in decimal places: the digits before its point, those behind it, and its
exponent. -/
structure Decimal where
  whole : List Char
  fraction : List Char
  exponent : Int

def Decimal.overflows (d : Decimal) : Bool :=
  Toml.overflows (d.whole ++ d.fraction) (d.exponent - d.fraction.length)

def exponent? (cs : List Char) : Option Int :=
  if digitGroups Char.isDigit (withoutSign cs) then Text.signed? 10 (withoutGroups cs) else none

def isExponentMark (c : Char) : Bool := c == 'e' || c == 'E'

/-- What follows the point of a number. -/
def fraction? (whole cs : List Char) : Option Decimal := do
  let fraction := cs.takeWhile (!isExponentMark ·)
  guard (digitGroups Char.isDigit fraction)
  match cs.dropWhile (!isExponentMark ·) with
  | [] => return ⟨whole, withoutGroups fraction, 0⟩
  | _ :: exponent => return ⟨whole, withoutGroups fraction, ← exponent? exponent⟩

/-- A number without sign that has a point or an exponent. -/
def decimal? (cs : List Char) : Option Decimal := do
  let isMark := fun c => c == '.' || isExponentMark c
  let whole := cs.takeWhile (!isMark ·)
  guard (isDecimal whole)
  match cs.dropWhile (!isMark ·) with
  | '.' :: rest => fraction? (withoutGroups whole) rest
  | _ :: exponent => return ⟨withoutGroups whole, [], ← exponent? exponent⟩
  | [] => none

/-- A number may be too far below zero, but not too far above. -/
def isFloat (cs : List Char) : Bool :=
  let unsigned := withoutSign cs
  unsigned == "inf".toList || unsigned == "nan".toList ||
    match decimal? unsigned with
    | some d => cs.head? == some '-' || !d.overflows
    | none => false

/-- Two digits with a value in a range. -/
def twoDigits (low high : Nat) (a b : Char) : Bool :=
  match Text.natural? 10 [a, b] with
  | some n => low ≤ n && n ≤ high
  | none => false

def daysIn (year month : Nat) : Nat :=
  if month = 2 then if year % 4 = 0 && (year % 100 != 0 || year % 400 = 0) then 29 else 28
  else if month = 4 || month = 6 || month = 9 || month = 11 then 30
  else 31

def isDate : List Char → Bool
  | [y₁, y₂, y₃, y₄, '-', m₁, m₂, '-', d₁, d₂] =>
    match Text.natural? 10 [y₁, y₂, y₃, y₄], Text.natural? 10 [m₁, m₂] with
    | some year, some month =>
      1 ≤ month && month ≤ 12 && twoDigits 1 (daysIn year month) d₁ d₂
    | _, _ => false
  | _ => false

/-- Parts of a second in plain form: at most nine digits, the last of them not zero. -/
def plainParts (digits : List Char) : List Char :=
  match ((digits.take 9).reverse.dropWhile (· == '0')).reverse with
  | [] => []
  | digits => '.' :: digits

/-- A time of day, in plain form. -/
def time? : List Char → Option (List Char)
  | h₁ :: h₂ :: ':' :: m₁ :: m₂ :: ':' :: s₁ :: s₂ :: rest => do
    guard (twoDigits 0 23 h₁ h₂ && twoDigits 0 59 m₁ m₂ && twoDigits 0 60 s₁ s₂)
    let seconds := [h₁, h₂, ':', m₁, m₂, ':', s₁, s₂]
    match rest with
    | [] => return seconds
    | '.' :: digits =>
      guard (!digits.isEmpty && digits.all Char.isDigit)
      return seconds ++ plainParts digits
    | _ => none
  | _ => none

/-- An offset from universal time, in plain form. -/
def offset? : List Char → Option (List Char)
  | [] => some []
  | ['Z'] | ['z'] => some ['Z']
  | [sign, h₁, h₂, ':', m₁, m₂] => do
    guard ((sign == '+' || sign == '-') && twoDigits 0 23 h₁ h₂ && twoDigits 0 59 m₁ m₂)
    let isZero := [h₁, h₂, m₁, m₂].all (· == '0')
    return [if isZero then '+' else sign, h₁, h₂, ':', m₁, m₂]
  | _ => none

/-- A time of day, with an offset if it has one. -/
def offsetTime? (cs : List Char) : Option (List Char) := do
  let isTimeChar := fun c : Char => c.isDigit || c == ':' || c == '.'
  return (← time? (cs.takeWhile isTimeChar)) ++ (← offset? (cs.dropWhile isTimeChar))

/-- A date, a time of day or both, in plain form. -/
def moment? (cs : List Char) : Option (List Char) :=
  match time? cs with
  | some time => some time
  | none => do
    let date := cs.take 10
    guard (isDate date)
    match cs.drop 10 with
    | [] => return date
    | c :: time =>
      guard (c == 'T' || c == 't' || c == ' ')
      return date ++ 'T' :: (← offsetTime? time)

def isScalarChar (c : Char) : Bool :=
  c.isAlphanum || c == '+' || c == '-' || c == '_' || c == '.' || c == ':'

/-- The characters of a scalar; a date may have a time behind one space. -/
def scalarRun (cs : List Char) : List Char :=
  let run := cs.takeWhile isScalarChar
  match cs.drop run.length with
  | ' ' :: c :: rest =>
    if isDate run && c.isDigit then run ++ ' ' :: (c :: rest).takeWhile isScalarChar else run
  | _ => run

def ofScalar? (cs : List Char) : Option Value :=
  match moment? cs with
  | some text => some (.moment (String.ofList text))
  | none =>
    if cs == "true".toList || cs == "false".toList || isInteger cs || isFloat cs then some .scalar
    else none

/-- Reads a scalar. -/
def scalar? (cs : List Char) : Option (Value × List Char) := do
  let run := scalarRun cs
  return (← ofScalar? run, cs.drop run.length)

end EnumRegistry.Toml
