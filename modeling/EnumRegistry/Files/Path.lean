import EnumRegistry.Text.Fields

/-!
Paths: names separated by slashes. A path is kept as it was written, while its parts say where it
leads; two paths of the same parts are the same path, whatever slashes and points they are written
with.
-/

namespace EnumRegistry

/-- A part of a path. Parts ascend in this order, names among themselves by code points. -/
inductive PathPart
  /-- The slash at the start of an absolute path. -/
  | root
  /-- The point at the start of a path. -/
  | here
  /-- The directory around the one reached. -/
  | up
  | name (s : String)
  deriving DecidableEq, Repr, Ord

def PathPart.text : PathPart → String
  | root => "/"
  | here => "."
  | up => ".."
  | name s => s

/-- The part that a name between slashes stands for. A point stands for none. -/
def PathPart.ofName? (s : String) : Option PathPart :=
  if s == "." then none else if s == ".." then some .up else some (.name s)

/-- The parts of a path. -/
def pathParts (path : String) : List PathPart :=
  let names := Text.fields (· == '/') path
  let start :=
    if path.startsWith "/" then [.root]
    else if names.head? == some "." then [.here]
    else []
  start ++ names.filterMap PathPart.ofName?

/-- The parts of a path between single slashes. -/
def plainPath (path : String) : String := "/".intercalate ((pathParts path).map (·.text))

/-- A path behind a directory. An absolute path leads away from it. -/
def pathInside (dir path : String) : String :=
  if dir.isEmpty || path.startsWith "/" then path
  else if dir.endsWith "/" then dir ++ path
  else dir ++ "/" ++ path

end EnumRegistry
