/-!
White space and the edges of a text: the class, trimming, and closing gaps between words.
-/

namespace EnumRegistry.Text

/-- Property White_Space. -/
def isBlank (c : Char) : Bool :=
  let n := c.toNat
  (0x9 ≤ n && n ≤ 0xD) || n == 0x20 || n == 0x85 || n == 0xA0 || n == 0x1680 ||
    (0x2000 ≤ n && n ≤ 0x200A) || n == 0x2028 || n == 0x2029 || n == 0x202F || n == 0x205F ||
    n == 0x3000

/-- Drops the characters of a class from both ends. -/
def trimEnds (edge : Char → Bool) (cs : List Char) : List Char :=
  ((cs.dropWhile edge).reverse.dropWhile edge).reverse

def trim (s : String) : String := String.ofList (trimEnds isBlank s.toList)

/-- Puts `glue` for each run of separators, `gap` telling whether one is still to be written. -/
def closeGaps (separator : Char → Bool) (glue : Char) (gap : Bool) : List Char → List Char
  | [] => []
  | c :: rest =>
    if separator c then closeGaps separator glue true rest
    else if gap then glue :: c :: closeGaps separator glue false rest
    else c :: closeGaps separator glue false rest

/-- The words between separators, joined by `glue`. -/
def joinWords (separator : Char → Bool) (glue : Char) (cs : List Char) : List Char :=
  closeGaps separator glue false (cs.dropWhile separator)

/-- A text on one line, one space between words. -/
def oneLine (s : String) : String := String.ofList (joinWords isBlank ' ' s.toList)

end EnumRegistry.Text
