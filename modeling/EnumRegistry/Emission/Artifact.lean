import EnumRegistry.Emission.Render
import EnumRegistry.Files.Store
import EnumRegistry.GenerationError
import EnumRegistry.UidRegistry

/-!
The files of a run, in the order in which they are written: one for each symbol, then the markers
of packages, then the registry of UIDs. Writing stops at the first file that cannot be made or
written.
-/

namespace EnumRegistry

/-- A file to be written, and what it is written for. -/
structure Artifact where
  path : String
  content : String
  owner : String
  deriving DecidableEq, Repr

def uidRegistryPath : String := "uid_registry.json"

/-- The file that makes a directory a package. -/
def Language.packageMarker? : Language → Option String
  | .python => some "__init__.py"
  | .java | .cpp | .csharp => none

/-- The directories on the way down a namespace from a directory. -/
def packagesBelow (dir : String) : List String → List String
  | [] => []
  | segment :: rest =>
    let dir := pathInside dir segment
    dir :: packagesBelow dir rest

/-- Everything that a run may write, placed. -/
structure Emission where
  target : Target
  revision : Option Revision
  placed : List (Symbol × Placement)

namespace Emission

/-- Places the symbols of a run. -/
def plan (target : Target) (revision : Option Revision) (symbols : List Symbol) :
    Except Exhausted Emission := do
  return ⟨target, revision, symbols.zip (← target.plan symbols)⟩

/-- The file of a symbol. -/
def symbolArtifact (e : Emission) (types : PlacedTypes) (placed : Symbol × Placement) :
    Except Exhausted Artifact := do
  let (s, p) := placed
  let lines ← RenderContext.render ⟨e.target.language, p, s.uid, e.revision, types⟩ s.body
  return ⟨p.file, Lines.text lines, s.label⟩

/-- The directories of all namespaces, ascending by their parts, each as it is first written. -/
def packages (e : Emission) : List String :=
  let dirs := e.placed.flatMap fun (_, p) => packagesBelow "" p.segments
  let byParts : Std.TreeMap (List PathPart) String :=
    dirs.foldl (fun found dir => found.insertIfNew (pathParts dir) dir) {}
  byParts.values

def markers (e : Emission) : List Artifact :=
  match e.target.language.packageMarker? with
  | some marker => e.packages.map fun dir => ⟨pathInside dir marker, "", "package marker"⟩
  | none => []

def recordPlaced (r : UidRegistry) (placed : Symbol × Placement) : UidRegistry :=
  match placed.1.uid with
  | some uid => r.record uid placed.2.qualified
  | none => r

/-- The registry of all symbols. -/
def uidRegistry (e : Emission) : UidRegistry :=
  e.placed.foldl recordPlaced
    { language := e.target.language.spelling, root := e.target.root, revision := e.revision }

def registryArtifact (e : Emission) : Artifact :=
  ⟨uidRegistryPath, e.uidRegistry.toJson, "uid registry"⟩

/-- All files, or why one cannot be made. -/
def artifacts (e : Emission) : List (Except Exhausted Artifact) :=
  let types := placedTypes e.placed
  e.placed.map (e.symbolArtifact types) ++ e.markers.map .ok ++ [.ok e.registryArtifact]

end Emission

/-- What became of writing: the files written, and what stopped it. -/
structure Writing where
  written : List String := []
  failure : Option GenerationError := none
  deriving DecidableEq, Repr

/-- Writes files into a directory of a store, up to the first that cannot be made or written. -/
def writeAll {m : Type → Type} [Monad m] (store : FileStore m) (dir : String) :
    List (Except Exhausted Artifact) → m Writing
  | [] => pure {}
  | .error e :: _ => pure { failure := some (.exhausted e) }
  | .ok a :: rest => do
    let path := pathInside dir a.path
    match ← store.write path a.content with
    | .error cause => return { failure := some (.unwritten path a.owner cause) }
    | .ok () =>
      let w ← writeAll store dir rest
      return { w with written := a.path :: w.written }

end EnumRegistry
