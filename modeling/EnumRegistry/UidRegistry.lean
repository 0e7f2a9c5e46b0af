import Std.Data.TreeMap
import EnumRegistry.Declaration
import EnumRegistry.Text.Json

/-!
The registry of emitted symbols: for each UID the fully-qualified name of the first symbol that has
it.
-/

namespace EnumRegistry

structure UidRegistry where
  /-- The name of the language that the symbols are written in. -/
  language : String
  root : String
  revision : Option Revision := none
  symbols : Std.TreeMap String String := {}

namespace UidRegistry

def get? (r : UidRegistry) (uid : String) : Option String := r.symbols[uid]?

/-- Records a symbol, unless its UID is recorded already. -/
def record (r : UidRegistry) (uid qualified : String) : UidRegistry :=
  if r.symbols.contains uid then r else { r with symbols := r.symbols.insert uid qualified }

/-- The registry as JSON, UIDs in ascending order. -/
def toJson (r : UidRegistry) : String :=
  let quotedPairs := fun (pairs : List (String × String)) =>
    Text.jsonObject "  " (pairs.map fun (key, value) => (key, Text.jsonString value))
  let revision := match r.revision with
    | some revision =>
      [("revision", quotedPairs [("title", revision.title), ("date", revision.date)])]
    | none => []
  let members :=
    [("language", Text.jsonString r.language),
      ("root_namespace", Text.jsonString r.root)] ++
      revision ++ [("symbols", quotedPairs r.symbols.toList)]
  Text.jsonObject "" members ++ "\n"

end UidRegistry

end EnumRegistry
