import EnumRegistry.Classification.Tree
import EnumRegistry.Files.Failure
import EnumRegistry.Markup.Fault
import EnumRegistry.Text.Quoted

/-!
Why a registry cannot be read.
-/

namespace EnumRegistry

inductive RegistryError
  | unopened (path : String) (cause : FileFailure)
  | markup (position : Nat) (fault : Markup.Fault)
  | missingAttribute (element name : String) (position : Nat)
  | invalidNumber (element name value : String) (position : Nat)
  | tree (error : TreeError)
  /-- The document ends inside an element. -/
  | endedInside (tag : String)
  deriving DecidableEq, Repr

namespace RegistryError

def message : RegistryError → String
  | unopened path cause => "failed to open registry " ++ path ++ ": " ++ cause.message
  | markup position fault =>
    "malformed registry XML near byte " ++ toString position ++ ": " ++ fault.message
  | missingAttribute element name position =>
    "<" ++ element ++ "> near byte " ++ toString position ++ " is missing attribute `" ++ name ++
      "`"
  | invalidNumber element name value position =>
    "<" ++ element ++ "> near byte " ++ toString position ++ ": attribute `" ++ name ++
      "` is not a number: " ++ Text.quoted value
  | tree error => error.message
  | endedInside tag => "registry ended inside <" ++ tag ++ ">"

/-- The error and what lies behind it, told ever more closely. -/
def causes (e : RegistryError) : List String :=
  e.message :: match e with
    | unopened _ cause => [cause.message]
    | markup _ fault => fault.causes
    | _ => []

end RegistryError

end EnumRegistry
