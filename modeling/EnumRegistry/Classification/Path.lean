import EnumRegistry.Classification.Tree

/-!
Paths of classification nodes: the segments and codes from the root down, and the namespace a
node's symbol is placed in.
-/

namespace EnumRegistry.ClassificationTree

/-- A node's name without underscores, or its level and code while it has no name. -/
def nodeSegment (n : ClassificationNode) : String :=
  match n.name with
  | some name => String.ofList (name.toList.filter (· != '_'))
  | none => n.level.label ++ toString n.value

def segment (t : ClassificationTree) (id : Nat) : String :=
  (t.nodes[id]?.map nodeSegment).getD ""

def code (t : ClassificationTree) (id : Nat) : Int := (t.nodes[id]?.map (·.value)).getD 0

/-- A node with its ancestors, root first. -/
def trail (t : ClassificationTree) (id : Nat) : List Nat := (id :: t.ancestors id).reverse

/-- Segments from the root down to the node. -/
def path (t : ClassificationTree) (id : Nat) : List String := (t.trail id).map t.segment

/-- Codes from the root down to the node. -/
def codes (t : ClassificationTree) (id : Nat) : List Int := (t.trail id).map t.code

/-- The package of the hierarchy, then the segments of the ancestors. -/
def namespaceOf (t : ClassificationTree) (id : Nat) : List String :=
  t.hierarchy.package :: (t.path id).dropLast

end EnumRegistry.ClassificationTree
