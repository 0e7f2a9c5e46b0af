import EnumRegistry.Emission.Artifact
import EnumRegistry.Resolution

/-!
A run: a registry is resolved, its symbols are placed, and their files are written. Nothing is
written before the whole registry is resolved and every symbol is placed.
-/

namespace EnumRegistry

structure Settings where
  registry : String
  out : String
  target : Target
  overrides : Overrides := .builtin
  ceiling : Nat := defaultCeiling

/-- What a run has made. -/
structure Report where
  enumerations : Nat
  bitfields : Nat
  dictionaries : Nat
  classifications : Nat
  uids : Nat
  diagnostics : Nat
  /-- In the order of writing. -/
  files : List String
  deriving DecidableEq, Repr

def SymbolBody.isClassification : SymbolBody → Bool
  | classification _ _ => true
  | enumeration _ | bitfield _ | dictionary _ => false

namespace Resolution

def emission (r : Resolution) (target : Target) : Except Exhausted Emission :=
  Emission.plan target r.model.revision r.model.symbols

def report (r : Resolution) (e : Emission) (files : List String) : Report where
  enumerations := r.model.enumerations.length
  bitfields := r.model.bitfields.length
  dictionaries := r.model.dictionaries.length
  classifications := e.placed.countP (·.1.body.isClassification)
  uids := e.uidRegistry.symbols.size
  diagnostics := r.found.length
  files

end Resolution

/-- The override tables in a file. -/
def Overrides.load {m : Type → Type} [Monad m] (store : FileStore m) (path : String) :
    m (Except OverridesError Overrides) := do
  match ← store.read path with
  | .error cause => return .error (.unreadable path cause)
  | .ok bytes =>
    match Text.Utf8.decode bytes with
    | .error _ => return .error (.unreadable path .notText)
    | .ok text => return Overrides.ofToml (String.ofList text) path

namespace Settings

/-- Writes the files of a registry that is at hand. -/
def generateFrom {m : Type → Type} [Monad m] (s : Settings) (store : FileStore m) (r : Reader) :
    m (Except GenerationError Report) := do
  let planned := do
    let resolution ← Resolution.ofReader s.overrides s.ceiling r
    return (resolution, ← ofScope (resolution.emission s.target))
  match planned with
  | .error e => return .error e
  | .ok (resolution, emission) =>
    let writing ← writeAll store s.out emission.artifacts
    match writing.failure with
    | some e => return .error e
    | none => return .ok (resolution.report emission writing.written)

/-- A whole run. A directory can be opened as a registry, but not read. -/
def generate {m : Type → Type} [Monad m] (s : Settings) (store : FileStore m) :
    m (Except GenerationError Report) := do
  match ← store.read s.registry with
  | .error .isDirectory => return .error (.registry (.markup 0 (.unread .isDirectory)))
  | .error cause => return .error (.registry (.unopened s.registry cause))
  | .ok bytes => s.generateFrom store (.ofBytes bytes)

end Settings

end EnumRegistry
