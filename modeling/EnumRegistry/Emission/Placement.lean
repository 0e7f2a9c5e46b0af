import Std.Data.TreeMap
import EnumRegistry.Files.Path
import EnumRegistry.Name.Scope
import EnumRegistry.Symbol
import EnumRegistry.Target.Spelling

/-!
Where symbols go: namespace, identifier, file and fully-qualified name. Identifiers differ by more
than case inside a directory, and a Python module never has the name of a package beside it.
-/

namespace EnumRegistry

/-- The directory of a namespace. -/
def directory (segments : List String) : String := segments.foldl pathInside ""

/-- A root namespace is cut at points, colons and slashes. -/
def rootSegments (root : String) : List String :=
  Text.fields (fun c => c == '.' || c == ':' || c == '/') root

/-- The language of a run and the namespace all symbols stand below. -/
structure Target where
  language : Language
  root : String

namespace Target

def segments (t : Target) : List String := rootSegments t.root

/-- The namespace of a symbol, root first. -/
def namespaceOf (t : Target) (s : Symbol) : List String :=
  t.segments ++ s.segments.map t.language.namespaceSegment

end Target

structure Placement where
  segments : List String
  identifier : String
  /-- What an import names: a module in Python, else the namespace. -/
  importName : String
  file : String
  qualified : String
  deriving DecidableEq, Repr

/-- The names taken in each directory. -/
abbrev DirectoryScopes := Std.TreeMap (List PathPart) NameScope

namespace Placement

def scopeAt (scopes : DirectoryScopes) (dir : String) : NameScope :=
  (scopes[pathParts dir]?).getD {}

def setScope (scopes : DirectoryScopes) (dir : String) (scope : NameScope) : DirectoryScopes :=
  scopes.insert (pathParts dir) scope

/-- Takes the names of the packages on the way down a namespace from a directory. -/
def reservePackages (scopes : DirectoryScopes) (dir : String) : List String → DirectoryScopes
  | [] => scopes
  | segment :: rest =>
    reservePackages (setScope scopes dir ((scopeAt scopes dir).insert segment))
      (pathInside dir segment) rest

/-- The scopes before any symbol is placed. -/
def initialScopes (t : Target) (symbols : List Symbol) : DirectoryScopes :=
  match t.language with
  | .python => symbols.foldl (fun scopes s => reservePackages scopes "" (t.namespaceOf s)) {}
  | .java | .cpp | .csharp => {}

/-- Places a symbol, claiming its name in its directory. -/
def place (t : Target) (scopes : DirectoryScopes) (s : Symbol) :
    Except Exhausted (Placement × DirectoryScopes) := do
  let segments := t.namespaceOf s
  let dir := directory segments
  let escaped := t.language.escape s.name
  let claimed := match t.language with
    | .python => t.language.fileStem escaped
    | .java | .cpp | .csharp => escaped
  let (stem, scope) ← (scopeAt scopes dir).claim claimed
  let namespacePath := t.language.separator.intercalate segments
  let (identifier, importName) := match t.language with
    | .python => (escaped, namespacePath ++ "." ++ stem)
    | .java | .cpp | .csharp => (stem, namespacePath)
  let file := pathInside dir (stem ++ "." ++ t.language.fileExtension)
  let qualified := importName ++ t.language.separator ++ identifier
  return (⟨segments, identifier, importName, file, qualified⟩, setScope scopes dir scope)

def placeAll (t : Target) (scopes : DirectoryScopes) :
    List Symbol → Except Exhausted (List Placement)
  | [] => .ok []
  | s :: rest => do
    let (placement, scopes) ← place t scopes s
    return placement :: (← placeAll t scopes rest)

end Placement

/-- The placements of symbols, in their order. -/
def Target.plan (t : Target) (symbols : List Symbol) : Except Exhausted (List Placement) :=
  Placement.placeAll t (Placement.initialScopes t symbols) symbols

end EnumRegistry
