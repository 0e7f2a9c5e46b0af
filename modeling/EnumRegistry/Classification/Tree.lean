import EnumRegistry.Classification.Level

/-!
Classification trees. Nodes are numbered in order of attachment; each knows its parent and its
children, and the tree its roots.
-/

namespace EnumRegistry

structure ClassificationNode where
  level : Level
  value : Int
  uid : Option String := none
  description : String
  /-- The identifier among the siblings, once given. -/
  name : Option String := none
  parent : Option Nat := none
  children : List Nat := []
  deriving DecidableEq, Repr

inductive TreeError
  | levelMismatch (parent : Option Level) (child : Level)
  | nameAlreadySet (node : Nat)
  | unknownNode (node : Nat)
  deriving DecidableEq, Repr

def TreeError.message : TreeError → String
  | levelMismatch none child => child.label ++ " cannot be nested under None"
  | levelMismatch (some parent) child =>
    child.label ++ " cannot be nested under Some(" ++ parent.label ++ ")"
  | nameAlreadySet node =>
    "resolved name of classification node " ++ toString node ++ " is already set"
  | unknownNode node => "classification node " ++ toString node ++ " is not in the tree"

structure ClassificationTree where
  hierarchy : Hierarchy
  uid : String
  nodes : Array ClassificationNode := #[]
  roots : List Nat := []
  deriving DecidableEq, Repr

namespace ClassificationTree

def size (t : ClassificationTree) : Nat := t.nodes.size

/-- Whether a level may stand under a parent, or at the top. -/
def admits (parent : Option Level) (child : Level) : Bool :=
  match parent with
  | some level => level.accepts child
  | none => child.isRoot

/-- Adds a node that is already known to fit, without name and children. -/
def append (t : ClassificationTree) (parent : Option Nat) (node : ClassificationNode) :
    ClassificationTree :=
  let nodes := t.nodes.push { node with parent, name := none, children := [] }
  match parent with
  | some p =>
    { t with nodes := nodes.modify p fun n => { n with children := n.children ++ [t.size] } }
  | none => { t with nodes, roots := t.roots ++ [t.size] }

/-- Attaches a node under a parent, or as a root, and gives its number. -/
def attach (t : ClassificationTree) (parent : Option Nat) (node : ClassificationNode) :
    Except TreeError (Nat × ClassificationTree) := do
  let level ← match parent with
    | none => pure none
    | some p => match t.nodes[p]? with
      | some n => pure (some n.level)
      | none => throw (.unknownNode p)
  if admits level node.level then return (t.size, t.append parent node)
  else throw (.levelMismatch level node.level)

/-- The children of a node, or the roots. -/
def childrenOf (t : ClassificationTree) : Option Nat → List Nat
  | some p => (t.nodes[p]?.map (·.children)).getD []
  | none => t.roots

/-- The first child with a level and a value. -/
def findChild? (t : ClassificationTree) (parent : Option Nat) (level : Level) (value : Int) :
    Option Nat :=
  (t.childrenOf parent).find? fun id =>
    t.nodes[id]?.any fun n => n.level == level && n.value == value

/-- Names a node; a name once given stays. -/
def setName (t : ClassificationTree) (id : Nat) (name : String) :
    Except TreeError ClassificationTree :=
  match t.nodes[id]? with
  | none => .error (.unknownNode id)
  | some node =>
    if node.name.isSome then .error (.nameAlreadySet id)
    else .ok { t with nodes := t.nodes.modify id fun n => { n with name := some name } }

/-- The way up from a node that may be, in at most so many steps. -/
def climb (t : ClassificationTree) : Nat → Option Nat → List Nat
  | 0, _ | _, none => []
  | steps + 1, some id => id :: t.climb steps (t.nodes[id]?.bind (·.parent))

/-- The ancestors of a node, nearest first. -/
def ancestors (t : ClassificationTree) (id : Nat) : List Nat :=
  t.climb t.size (t.nodes[id]?.bind (·.parent))

/-- How many nodes lie on the way from the root to a node, both counted. -/
def depth (t : ClassificationTree) (id : Nat) : Nat := (t.ancestors id).length + 1

/-- A node and all below it to a depth, parents before children. -/
def descend (t : ClassificationTree) : Nat → Nat → List Nat
  | 0, _ => []
  | depth + 1, id => id :: (t.childrenOf (some id)).flatMap (t.descend depth)

/-- All nodes, parents before children and siblings in order of attachment. -/
def preOrder (t : ClassificationTree) : List Nat := t.roots.flatMap (t.descend t.size)

end ClassificationTree

end EnumRegistry
