import EnumRegistry.Declaration
import EnumRegistry.Name.Scope

/-!
Oversized enumerations: the first block of rows stays, each further block becomes a satellite with
a type name of its own and row names told apart anew.
-/

namespace EnumRegistry

/-- The most rows of an enumeration, unless asked otherwise. -/
def defaultCeiling : Nat := 4096

/-- The first blocks of a size, so many of them. -/
def blocks {α : Type} (size : Nat) : Nat → List α → List (List α)
  | 0, _ => []
  | count + 1, xs => xs.take size :: blocks size count (xs.drop size)

namespace Enumeration

/-- What the name of a satellite has behind the name of its enumeration. -/
def satelliteMark (ordinal : Nat) : String :=
  if ordinal = 1 then "Additional" else "Additional" ++ toString ordinal

/-- Claims the base names of rows one after the other. -/
def rename (scope : NameScope) : List EnumerationRow → Except Exhausted (List EnumerationRow)
  | [] => .ok []
  | row :: rest => do
    let (name, scope) ← scope.claim row.baseName
    return { row with name } :: (← rename scope rest)

/-- The satellites for blocks of rows, the first of them having an ordinal. -/
def satellites (e : Enumeration) (types : NameScope) (ordinal : Nat) :
    List (List EnumerationRow) → Except Exhausted (List Enumeration × NameScope)
  | [] => .ok ([], types)
  | block :: rest => do
    let (name, types) ← types.claim (e.name ++ satelliteMark ordinal)
    let rows ← rename {} block
    let (others, types) ← satellites e types (ordinal + 1) rest
    return ({ e with name, rows } :: others, types)

/-- Cuts an enumeration into parts of at most `ceiling` rows. -/
def split (e : Enumeration) (ceiling : Nat) (types : NameScope) :
    Except Exhausted (List Enumeration × NameScope) := do
  let size := max ceiling 1
  if e.rows.length ≤ size then return ([e], types)
  else
    let rest := e.rows.drop size
    let count := (rest.length + size - 1) / size
    let (others, types) ← e.satellites types 1 (blocks size count rest)
    return ({ e with rows := e.rows.take size } :: others, types)

end Enumeration

end EnumRegistry
