import EnumRegistry.Emission.CSharp
import EnumRegistry.Emission.Cpp
import EnumRegistry.Emission.Java
import EnumRegistry.Emission.Python

/-!
The text of a symbol in the language of its context.
-/

namespace EnumRegistry.RenderContext

def enumerationLines (cx : RenderContext) (e : Enumeration) (members : List String) : Lines :=
  match cx.language with
  | .java => Java.enumeration cx e members
  | .cpp => Cpp.enumeration cx e members
  | .csharp => CSharp.enumeration cx e members
  | .python => Python.enumeration cx e members

def bitfieldLines (cx : RenderContext) (b : Bitfield) (members : List String) : Lines :=
  match cx.language with
  | .java => Java.bitfield cx b members
  | .cpp => Cpp.bitfield cx b members
  | .csharp => CSharp.bitfield cx b members
  | .python => Python.bitfield cx b members

def dictionaryLines (cx : RenderContext) (d : Dictionary) (members : List String) : Lines :=
  match cx.language with
  | .java => Java.dictionary cx d members
  | .cpp => Cpp.dictionary cx d members
  | .csharp => CSharp.dictionary cx d members
  | .python => Python.dictionary cx d members

def classificationLines (cx : RenderContext) (t : ClassificationTree) (id : Nat)
    (n : ClassificationNode) : Lines :=
  match cx.language with
  | .java => Java.classification cx t id n
  | .cpp => Cpp.classification cx t id n
  | .csharp => CSharp.classification cx t id n
  | .python => Python.classification cx t id n

/-- The lines of a symbol; only its members can run out of names. -/
def render (cx : RenderContext) : SymbolBody → Except Exhausted Lines
  | .enumeration e => (cx.members .enumeration (e.rows.map (·.name))).map (cx.enumerationLines e)
  | .bitfield b => (cx.members .bitfield (b.rows.map (·.name))).map (cx.bitfieldLines b)
  | .dictionary d => (cx.members .dictionary (d.rows.map (·.name))).map (cx.dictionaryLines d)
  | .classification t id =>
    .ok (match t.nodes[id]? with
      | some n => cx.classificationLines t id n
      | none => [])

end EnumRegistry.RenderContext
