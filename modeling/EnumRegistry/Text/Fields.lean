/-!
Texts cut at separators.
-/

namespace EnumRegistry.Text

/-- The pieces between separators, empty ones included. -/
def pieces (separator : Char → Bool) : List Char → List Char × List (List Char)
  | [] => ([], [])
  | c :: rest =>
    let (first, others) := pieces separator rest
    if separator c then ([], first :: others) else (c :: first, others)

/-- The pieces between separators that are not empty. -/
def fields (separator : Char → Bool) (s : String) : List String :=
  let (first, others) := pieces separator s.toList
  ((first :: others).filter (!·.isEmpty)).map String.ofList

end EnumRegistry.Text
