import EnumRegistry.Building.TreeFrame
import EnumRegistry.Model
import EnumRegistry.Satellite

/-!
The walk that builds the model. Every open element says what its end completes: a row, a type, a
node, a path, a tree or nothing.
-/

namespace EnumRegistry

inductive OpenElement
  | type
  | row (element : Element)
  | tree
  | node (id : Nat)
  | path
  | other

structure Builder where
  /-- Type names taken, those of satellites included. -/
  types : NameScope
  /-- UIDs of types built so far. -/
  emitted : Std.TreeSet String := {}
  model : Model
  /-- Elements entered and not yet left, innermost first. -/
  opened : List OpenElement := []
  current : Option TypeFrame := none
  tree : Option TreeFrame := none
  found : List Diagnostic := []

/-- The level of a classification element. -/
def ElementKind.level? : ElementKind → Option Level
  | category => some .category
  | subCategory | subCategoryRange => some .subCategory
  | specific => some .specific
  | extra => some .extra
  | jammerKind => some .jammerKind
  | jammerCategory => some .jammerCategory
  | jammerSubCategory => some .jammerSubCategory
  | jammerSpecific => some .jammerSpecific
  | _ => none

/-- UID of the one entity tree that is read. -/
def entityTreeUid : String := "30"

/-- UID of the one object tree that is read. -/
def objectTreeUid : String := "226"

/-- UID of a jammer tree that states none. -/
def jammerTreeUid : String := "284"

namespace Builder

def ofTable (t : TypeTable) : Builder := { types := t.types, model := { revision := t.revision } }

def enter (b : Builder) (e : OpenElement) : Builder := { b with opened := e :: b.opened }

def note (b : Builder) (found : List Diagnostic) : Builder := { b with found := b.found ++ found }

/-- Neither a type nor a tree is open. -/
def isIdle (b : Builder) : Bool := b.current.isNone && b.tree.isNone

/-- Opens a type that has a name and was not built before. -/
def startType (t : NameTables) (b : Builder) (e : Element) :
    Except GenerationError (Option Builder) := do
  if !b.isIdle then return none
  let some uid := e.uid? | return none
  let some name := t.types.name? uid | return none
  if b.emitted.contains uid then return none
  let frame ← ofRegistry (TypeFrame.open? e uid name)
  return some ({ b with emitted := b.emitted.insert uid, current := some frame }.enter .type)

/-- Holds a row until it closes, if it belongs to the open type. -/
def startRow (b : Builder) (e : Element) : Option Builder :=
  if b.current.any (·.accepts e.kind) then some (b.enter (.row e)) else none

def startTree (b : Builder) (hierarchy : Hierarchy) (uid : String) : Option Builder :=
  if b.isIdle then some ({ b with tree := some (.new hierarchy uid) }.enter .tree) else none

/-- Opens a tree that carries the UID asked for. -/
def startSelected (b : Builder) (e : Element) (hierarchy : Hierarchy) (uid : String) :
    Option Builder :=
  if e.uid? == some uid then b.startTree hierarchy uid else none

def startPath (t : NameTables) (b : Builder) (e : Element) :
    Except GenerationError (Option Builder) := do
  let some frame := b.tree | return none
  let some (frame, found) ← frame.openPath t.types e | return none
  return some (({ b with tree := some frame }.note found).enter .path)

def startNode (b : Builder) (level : Level) (e : Element) :
    Except GenerationError (Option Builder) := do
  let some frame := b.tree | return none
  let (id, frame) ← frame.openNode level e
  return some ({ b with tree := some frame }.enter (.node id))

/-- Enters an element, or leaves it out. -/
def start (t : NameTables) (b : Builder) (e : Element) :
    Except GenerationError (Option Builder) :=
  match e.kind with
  | .enumeration | .bitfield | .dictionary => b.startType t e
  | .enumerationRow | .enumerationRange | .bitfieldRow | .dictionaryRow => .ok (b.startRow e)
  | .entityTree => .ok (b.startSelected e .entityTypes entityTreeUid)
  | .objectTree => .ok (b.startSelected e .objectTypes objectTreeUid)
  | .jammerTree => .ok (b.startTree .jammerTechniques (e.uid?.getD jammerTreeUid))
  | .entity | .object => b.startPath t e
  | kind =>
    match kind.level? with
    | some level => b.startNode level e
    | none => .ok (some (b.enter .other))

def finishRow (t : NameTables) (b : Builder) (e : Element) : Except GenerationError Builder := do
  let some frame := b.current | return b
  let (frame, found) ← frame.addRow t e
  return { b with current := some frame }.note found

/-- Adds the open type to the model; an oversized enumeration is split. -/
def finishType (ceiling : Nat) (b : Builder) : Except GenerationError Builder := do
  let m := b.model
  match b.current with
  | none => return b
  | some (.enumeration type _) =>
    let (parts, types) ← ofScope (type.split ceiling b.types)
    let model := { m with enumerations := m.enumerations ++ parts }
    return { b with current := none, types, model }
  | some (.bitfield type _) =>
    let model := { m with bitfields := m.bitfields ++ [type] }
    return { b with current := none, model }.note type.findings
  | some (.dictionary type _) =>
    return { b with current := none, model := { m with dictionaries := m.dictionaries ++ [type] } }

def finishNode (t : NameTables) (b : Builder) (id : Nat) : Except GenerationError Builder := do
  let some frame := b.tree | return b
  let (frame, found) ← frame.leave.nameNode t.overrides id
  return { b with tree := some frame }.note found

def finishTree (b : Builder) : Builder :=
  match b.tree with
  | none => b
  | some frame =>
    { b with tree := none, model := { b.model with trees := b.model.trees ++ [frame.tree] } }

/-- Leaves the innermost element. -/
def finish (t : NameTables) (ceiling : Nat) (b : Builder) : Except GenerationError Builder :=
  match b.opened with
  | [] => .ok b
  | e :: opened =>
    let b := { b with opened }
    match e with
    | .other => .ok b
    | .row element => b.finishRow t element
    | .type => b.finishType ceiling
    | .node id => b.finishNode t id
    | .path => .ok { b with tree := b.tree.map (·.leave) }
    | .tree => .ok b.finishTree

def walk (t : NameTables) (ceiling : Nat) : Walk GenerationError Builder where
  start b e := b.start t e
  finish b _ := b.finish t ceiling

/-- Builds a registry whose types are named. -/
def ofReader (t : NameTables) (ceiling : Nat) (r : Reader) : Except GenerationError Builder :=
  (walk t ceiling).through .registry (ofTable t.types) r

end Builder

end EnumRegistry
