import EnumRegistry.Building.Builder

/-!
Resolution of a registry: a survey of its types, then the building of its model. What the survey
finds stands before what the building finds.
-/

namespace EnumRegistry

structure Resolution where
  table : TypeTable
  model : Model
  found : List Diagnostic

namespace Resolution

def ofReader (overrides : Overrides) (ceiling : Nat) (r : Reader) :
    Except GenerationError Resolution := do
  let survey ← Survey.ofReader overrides r
  let builder ← Builder.ofReader ⟨survey.table, overrides⟩ ceiling r
  return ⟨survey.table, builder.model, survey.found ++ builder.found⟩

def ofString (overrides : Overrides) (ceiling : Nat) (document : String) :
    Except GenerationError Resolution :=
  ofReader overrides ceiling (.ofString document)

end Resolution

end EnumRegistry
