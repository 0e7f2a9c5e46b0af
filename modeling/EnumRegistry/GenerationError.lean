import EnumRegistry.Name.Scope
import EnumRegistry.OverrideFile
import EnumRegistry.Registry.Error

/-!
What ends a run without its result.
-/

namespace EnumRegistry

inductive GenerationError
  | registry (error : RegistryError)
  | exhausted (error : Exhausted)
  | overrides (error : OverridesError)
  | unwritten (path symbol : String) (cause : FileFailure)
  deriving DecidableEq, Repr

namespace GenerationError

def message : GenerationError → String
  | registry error => error.message
  | exhausted error => error.message
  | overrides error => error.message
  | unwritten path symbol cause =>
    "failed to write " ++ path ++ " for symbol " ++ symbol ++ ": " ++ cause.message

/-- The error and what lies behind it, told ever more closely. -/
def causes : GenerationError → List String
  | registry error => error.causes
  | exhausted error => [error.message]
  | overrides error => error.causes
  | unwritten path symbol cause => [(unwritten path symbol cause).message, cause.message]

end GenerationError

/-- A registry operation as part of a run. -/
def ofRegistry {α : Type} (r : Except RegistryError α) : Except GenerationError α :=
  r.mapError .registry

def ofTree {α : Type} (r : Except TreeError α) : Except GenerationError α :=
  r.mapError fun e => .registry (.tree e)

def ofScope {α : Type} (r : Except Exhausted α) : Except GenerationError α :=
  r.mapError .exhausted

end EnumRegistry
