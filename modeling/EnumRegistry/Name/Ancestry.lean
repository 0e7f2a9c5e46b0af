import EnumRegistry.Name.Normal

/-!
Names without letters: a numeric name is told apart by the names of its ancestors, nearest first,
up to the first one that brings a letter.
-/

namespace EnumRegistry.Name

/-- Digits, and underscores among them, but no letters. -/
def numeric (name : List Char) : Bool :=
  let core := name.dropWhile isUnderscore
  core.any Char.isDigit && core.all fun c => c.isDigit || c == '_'

/-- Puts ancestors in front of a numeric core until it is numeric no more. -/
def qualify (core : List Char) : List (List Char) → List Char
  | [] => '_' :: core
  | ancestor :: farther =>
    let longer := Text.trimEnds isUnderscore (normal ancestor) ++ '_' :: core
    if numeric longer then qualify longer farther else longer

def composed (base : List Char) (ancestors : List (List Char)) : List Char :=
  if numeric base then qualify (base.dropWhile isUnderscore) ancestors else base

def isNumeric (name : String) : Bool := numeric name.toList

/-- A name told apart by the texts of its ancestors, nearest first, if it has no letter. -/
def compose (base : String) (ancestors : List String) : String :=
  String.ofList (composed base.toList (ancestors.map String.toList))

end EnumRegistry.Name
