import EnumRegistry.Diagnostic
import EnumRegistry.Proofs.Building.PlainNames

/-!
What is found in a tree that is being assembled. A path segment is found when it is made, if its
table has no row for its code; any other node when it is named, if its text yields no name. Finding
a node that is there already finds nothing again.
-/

namespace EnumRegistry

open ClassificationTree

theorem Diagnostic.count_append (kind : DiagnosticKind) (found more : List Diagnostic) :
    count kind (found ++ more) = count kind found + count kind more :=
  List.countP_append

namespace ClassificationTree

/-- A path segment whose table has no row for its code. -/
def lacksLabel (types : TypeTable) (tree : ClassificationTree) (id : Nat) : Bool :=
  tree.nodes[id]?.any fun n => n.level.isPathOnly &&
    (types.label? (tableAt tree.hierarchy n.level (n.parent.map tree.code)) n.value).isNone

/-- A node, but no path segment, whose text yields no name. -/
def lacksText (tree : ClassificationTree) (id : Nat) : Bool :=
  tree.nodes[id]?.any fun n => !n.level.isPathOnly && Name.normalize n.description == Name.undefined

/-- A finding of a kind is due for a node; for a text that yields no name, once the node has one. -/
def nodeDue (kind : DiagnosticKind) (types : TypeTable) (tree : ClassificationTree) (id : Nat) :
    Bool :=
  match kind with
  | .malformedText => tree.lacksText id && (tree.name? id).isSome
  | .unresolvedReference => tree.lacksLabel types id
  | _ => false

/-- How many findings of a kind are due for the nodes of a tree. -/
def due (kind : DiagnosticKind) (types : TypeTable) (tree : ClassificationTree) : Nat :=
  (List.range tree.size).countP (tree.nodeDue kind types)

variable {types : TypeTable} {t t' : ClassificationTree} {id : Nat}

variable (kind : DiagnosticKind)

end ClassificationTree

namespace TreeFrame

/-! ## Findings of the operations -/

variable (kind : DiagnosticKind) {t : NameTables} {f f' : TreeFrame}

end TreeFrame

end EnumRegistry
