import EnumRegistry.Text.CaseTable

/-!
Letter case: properties and mappings of characters, and the upper and lower case of a text.
-/

namespace EnumRegistry.Text

def inRun (n : Nat) (first last step : Nat) : Bool :=
  first ≤ n && n ≤ last && (n - first) % step == 0

def inIntervals (n : Nat) (intervals : List (Nat × Nat)) : Bool :=
  intervals.any fun (first, last) => first ≤ n && n ≤ last

def isUppercase (c : Char) : Bool :=
  c.isUpper || CaseTable.uppercase.any fun (first, last, step) => inRun c.toNat first last step

def isLowercase (c : Char) : Bool :=
  c.isLower || CaseTable.lowercase.any fun (first, last, step) => inRun c.toNat first last step

def isCased (c : Char) : Bool := inIntervals c.toNat CaseTable.cased

def isCaseIgnorable (c : Char) : Bool := inIntervals c.toNat CaseTable.caseIgnorable

/-- The image of a character under a table of shifts, itself if no run holds it. -/
def shift (table : List (Nat × Nat × Nat × Nat)) (c : Char) : Char :=
  match table.find? fun (first, last, step, _) => inRun c.toNat first last step with
  | some (first, _, _, image) => Char.ofNat (image + (c.toNat - first))
  | none => c

/-- Full upper-case mapping of one character. -/
def upper (c : Char) : List Char :=
  if c.toNat < 0x80 then [c.toUpper]
  else match CaseTable.upperExpansions.lookup c.toNat with
    | some image => image.map Char.ofNat
    | none => [shift CaseTable.upperShifts c]

/-- Full lower-case mapping of one character, whatever stands around it. -/
def lower (c : Char) : List Char :=
  if c.toNat < 0x80 then [c.toLower]
  else if c.toNat == 0x130 then ['i', Char.ofNat 0x307]
  else [shift CaseTable.lowerShifts c]

def upperCase (s : String) : String := String.ofList (s.toList.flatMap upper)

/-- Whether the first character that is not ignorable is cased. -/
def meetsCased (cs : List Char) : Bool := (cs.dropWhile isCaseIgnorable).head?.any isCased

/-- Lower case of the characters after `before` (nearest first). A capital sigma that ends a word
becomes a final sigma. -/
def lowerAfter (before : List Char) : List Char → List Char
  | [] => []
  | c :: rest =>
    let image :=
      if c.toNat == 0x3A3 && meetsCased before && !meetsCased rest then [Char.ofNat 0x3C2]
      else lower c
    image ++ lowerAfter (c :: before) rest

def lowerCase (s : String) : String := String.ofList (lowerAfter [] s.toList)

end EnumRegistry.Text
