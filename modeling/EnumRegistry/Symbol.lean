import EnumRegistry.Classification.Path
import EnumRegistry.Model

/-!
Symbols of a model: what is emitted, under which name and in which namespace. Types come first, in
the order of the model, then the nodes of every tree, parents before children.
-/

namespace EnumRegistry

inductive SymbolBody
  | enumeration (type : Enumeration)
  | bitfield (type : Bitfield)
  | dictionary (type : Dictionary)
  | classification (tree : ClassificationTree) (node : Nat)
  deriving DecidableEq, Repr

structure Symbol where
  uid : Option String
  /-- Namespace segments below the root. -/
  segments : List String
  name : String
  body : SymbolBody
  deriving DecidableEq, Repr

namespace Symbol

/-- How messages call the symbol. -/
def label (s : Symbol) : String :=
  match s.uid with
  | some uid => s.name ++ " (UID " ++ uid ++ ")"
  | none => s.name

def ofEnumeration (e : Enumeration) : Symbol :=
  ⟨some e.uid, ["enumerations"], e.name, .enumeration e⟩

def ofBitfield (b : Bitfield) : Symbol := ⟨some b.uid, ["bitfields"], b.name, .bitfield b⟩

def ofDictionary (d : Dictionary) : Symbol :=
  ⟨some d.uid, ["dictionaries"], d.name, .dictionary d⟩

/-- The symbol of a node, unless it only gives a path segment. -/
def ofNode? (t : ClassificationTree) (id : Nat) : Option Symbol := do
  let node ← t.nodes[id]?
  if node.level.isPathOnly then none
  else some ⟨node.uid, t.namespaceOf id, node.name.getD (t.segment id), .classification t id⟩

def ofTree (t : ClassificationTree) : List Symbol := t.preOrder.filterMap (ofNode? t)

end Symbol

def Model.symbols (m : Model) : List Symbol :=
  m.enumerations.map Symbol.ofEnumeration ++ m.bitfields.map Symbol.ofBitfield ++
    m.dictionaries.map Symbol.ofDictionary ++ m.trees.flatMap Symbol.ofTree

end EnumRegistry
