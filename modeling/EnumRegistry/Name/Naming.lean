import EnumRegistry.Diagnostic
import EnumRegistry.Name.Ancestry
import EnumRegistry.Name.Scope

/-!
Names of registry items: a fixed name stands as it is, any other is derived from the item's text
and told apart by its ancestors; both then claim a place in a scope.
-/

namespace EnumRegistry

/-- What an item is named by. Ancestors are raw texts, nearest first. -/
structure Naming where
  raw : String
  fixed : Option String := none
  ancestors : List String := []
  subject : String

/-- A name before and after the scope told it apart. -/
structure ResolvedName where
  base : String
  name : String
  deriving DecidableEq, Repr

namespace Naming

def base (n : Naming) : String :=
  match n.fixed with
  | some name => name
  | none => Name.compose (Name.normalize n.raw) n.ancestors

/-- A derived name that fell back to the name of no text is a finding. -/
def findings (n : Naming) : List Diagnostic :=
  if n.fixed.isNone && Name.normalize n.raw == Name.undefined then
    [.malformedText n.subject n.raw]
  else []

def resolve (n : Naming) (scope : NameScope) : Except Exhausted (ResolvedName × NameScope) := do
  let (name, scope) ← scope.claim n.base
  return (⟨n.base, name⟩, scope)

end Naming

end EnumRegistry
