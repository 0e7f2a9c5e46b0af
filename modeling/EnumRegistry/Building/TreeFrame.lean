import EnumRegistry.Building.TypeFrame
import EnumRegistry.Classification.Tree

/-!
A classification tree being assembled. Nodes are attached as their elements open and named as they
close; nodes that only give a path segment are named at once and shared.
-/

namespace EnumRegistry

structure TreeFrame where
  tree : ClassificationTree
  /-- The names taken under each parent. -/
  scopes : Std.TreeMap (Option Nat) NameScope := {}
  /-- The open nodes, innermost first. -/
  cursor : List Nat := []

/-- A path segment to be found or made: its table and its code. -/
abbrev PathStep := LookupTable × Int

namespace TreeFrame

def new (hierarchy : Hierarchy) (uid : String) : TreeFrame := { tree := { hierarchy, uid } }

def scope (f : TreeFrame) (parent : Option Nat) : NameScope := (f.scopes[parent]?).getD {}

def setScope (f : TreeFrame) (parent : Option Nat) (scope : NameScope) : TreeFrame :=
  { f with scopes := f.scopes.insert parent scope }

/-- Descriptions of the ancestors of a node, nearest first. -/
def ancestry (t : ClassificationTree) (id : Nat) : List String :=
  (t.ancestors id).filterMap fun a => t.nodes[a]?.map (·.description)

/-- What a node is named by. -/
def naming (overrides : Overrides) (t : ClassificationTree) (id : Nat) (n : ClassificationNode) :
    Naming where
  raw := n.description
  fixed := overrides.specialCase? t.uid n.description
  ancestors := ancestry t id
  subject := n.level.label ++ " " ++ toString n.value ++ " in tree " ++ t.uid

/-- Names a node among its siblings. -/
def nameNode (overrides : Overrides) (f : TreeFrame) (id : Nat) :
    Except GenerationError (TreeFrame × List Diagnostic) := do
  match f.tree.nodes[id]? with
  | none => throw (.registry (.tree (.unknownNode id)))
  | some node =>
    let naming := naming overrides f.tree id node
    let (resolved, scope) ← ofScope (naming.resolve (f.scope node.parent))
    let tree ← ofTree (f.tree.setName id resolved.name)
    return ({ f with tree }.setScope node.parent scope, naming.findings)

/-- The label of a path segment, and a finding if the table has no row for its code. -/
def pathLabel (types : TypeTable) (treeUid : String) (step : PathStep) :
    String × List Diagnostic :=
  let (table, code) := step
  match types.label? table code with
  | some label => (label, [])
  | none =>
    let subject := table.level.label ++ " " ++ toString code ++ " in tree " ++ treeUid
    let message := "code " ++ toString code ++ " has no row in enumeration " ++ table.uid
    (table.level.label ++ toString code, [⟨.unresolvedReference, subject, message⟩])

/-- Finds or makes the node of a path segment. -/
def pathNode (types : TypeTable) (f : TreeFrame) (parent : Option Nat) (step : PathStep) :
    Except GenerationError (Nat × TreeFrame × List Diagnostic) := do
  let (table, value) := step
  match f.tree.findChild? parent table.level value with
  | some id => return (id, f, [])
  | none =>
    let (label, found) := pathLabel types f.tree.uid step
    let node : ClassificationNode := { level := table.level, value, description := label }
    let (id, tree) ← ofTree (f.tree.attach parent node)
    let (name, scope) ← ofScope ((f.scope parent).claim label)
    let tree ← ofTree (tree.setName id name)
    return (id, { f with tree }.setScope parent scope, found)

/-- Finds or makes the nodes of a path, each under the one before, and gives the last. -/
def pathNodes (types : TypeTable) (f : TreeFrame) (parent : Option Nat) :
    List PathStep → Except GenerationError (Option Nat × TreeFrame × List Diagnostic)
  | [] => .ok (parent, f, [])
  | step :: steps => do
    let (id, f, found) ← pathNode types f parent step
    let (last, f, more) ← pathNodes types f (some id) steps
    return (last, f, found ++ more)

/-- The path an element of a hierarchy asks for; jammer techniques have none. -/
def pathSteps (hierarchy : Hierarchy) (e : Element) :
    Except RegistryError (Option (List PathStep)) := do
  let kind ← e.requiredInt "kind"
  let domain ← e.requiredInt "domain"
  match hierarchy with
  | .entityTypes =>
    let country ← e.requiredInt "country"
    return some [(.country, country), (.entityKind, kind), (.domainOf kind, domain)]
  | .objectTypes => return some [(.objectKind, kind), (.platformDomain, domain)]
  | .jammerTechniques => return none

/-- Opens the path of an entity or object, unless something is open already. -/
def openPath (types : TypeTable) (f : TreeFrame) (e : Element) :
    Except GenerationError (Option (TreeFrame × List Diagnostic)) := do
  if !f.cursor.isEmpty then return none
  let some steps ← ofRegistry (pathSteps f.tree.hierarchy e) | return none
  let (last, f, found) ← pathNodes types f none steps
  return some ({ f with cursor := last.toList ++ f.cursor }, found)

/-- Attaches the node of an element under the innermost open one. -/
def openNode (f : TreeFrame) (level : Level) (e : Element) :
    Except GenerationError (Nat × TreeFrame) := do
  let value ← ofRegistry e.value
  let node : ClassificationNode := { level, value, uid := e.uid?, description := e.description }
  let (id, tree) ← ofTree (f.tree.attach f.cursor.head? node)
  return (id, { f with tree, cursor := id :: f.cursor })

/-- Leaves the innermost open node. -/
def leave (f : TreeFrame) : TreeFrame := { f with cursor := f.cursor.drop 1 }

end TreeFrame

end EnumRegistry
