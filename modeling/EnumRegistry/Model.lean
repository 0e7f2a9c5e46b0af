import EnumRegistry.Classification.Tree
import EnumRegistry.Declaration

/-!
Everything a registry declares, named and typed.
-/

namespace EnumRegistry

structure Model where
  revision : Option Revision := none
  enumerations : List Enumeration := []
  bitfields : List Bitfield := []
  dictionaries : List Dictionary := []
  trees : List ClassificationTree := []
  deriving DecidableEq, Repr

namespace Model

def typeCount (m : Model) : Nat :=
  m.enumerations.length + m.bitfields.length + m.dictionaries.length

def nodeCount (m : Model) : Nat := m.trees.foldr (·.size + ·) 0

end Model

end EnumRegistry
