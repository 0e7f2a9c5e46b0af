import EnumRegistry.CommandLine.Arguments
import EnumRegistry.Generation

/-!
What the program answers to its arguments: an exit code and two texts. A run that fails says what it
was about, then what caused that, one cause behind the other.
-/

namespace EnumRegistry

structure Outcome where
  code : UInt8
  stdout : String := ""
  stderr : String := ""
  deriving DecidableEq, Repr

/-- The help text, line by line. -/
def helpLines : Lines := [
  "Generate Java, C++, C# or Python enumerations from the SISO registry",
  "",
  "Usage: disenum-gen [OPTIONS] --registry <REGISTRY> --language <LANGUAGE>",
  "",
  "Options:",
  "      --registry <REGISTRY>    Registry XML file",
  "      --language <LANGUAGE>    Target language: java, cpp, csharp or python",
  "      --out <OUT>              Output root directory [default: generated]",
  "      --namespace <NAMESPACE>  Root package or namespace. Defaults to the language's " ++
    "conventional root",
  "      --overrides <OVERRIDES>  Override table (TOML) replacing the built-in one",
  "      --verbose                Log at debug level unless RUST_LOG says otherwise",
  "  -h, --help                   Print help"]

/-- A text after a label, its other lines indented to where the first one begins. -/
def labelled (label text : String) : String :=
  let indent := String.ofList (List.replicate label.length ' ')
  label ++ ("\n" ++ indent).intercalate (text.splitOn "\n")

/-- Causes in a column, numbered if there are several. -/
def causeLines : List String → Lines
  | [cause] => [labelled "    " cause]
  | causes => causes.mapIdx fun i cause => labelled ("    " ++ toString i ++ ": ") cause

/-- The text of a failure. -/
def failureText (context : String) (causes : List String) : String :=
  Lines.text (["Error: " ++ context, "", "Caused by:"] ++ causeLines causes)

namespace Options

def target (o : Options) : Target := ⟨o.language, o.root.getD o.language.defaultRoot⟩

def settings (o : Options) (overrides : Overrides) : Settings where
  registry := o.registry
  out := o.out
  target := o.target
  overrides

/-- What a run says before it starts. -/
def announcement (o : Options) : Lines :=
  ["Generating " ++ o.language.spelling ++ " sources from " ++ o.registry ++ " into " ++ o.out ++
    " (namespace " ++ o.target.root ++ ")"]

end Options

/-- What a run says when it is done. -/
def Report.lines (r : Report) : Lines :=
  ["Generated " ++ toString r.enumerations ++ " enumerations, " ++ toString r.bitfields ++
      " bitfields, " ++ toString r.dictionaries ++ " dictionaries, " ++
      toString r.classifications ++ " classifications",
    "Files written: " ++ toString r.files.length ++ " (" ++ toString r.uids ++
      " UIDs registered)"] ++
    (if r.diagnostics = 0 then []
      else [toString r.diagnostics ++ " diagnostics reported (see stderr)"]) ++
    ["Generation complete."]

namespace Outcome

def ofGeneration (o : Options) : Except GenerationError Report → Outcome
  | .ok report => { code := 0, stdout := Lines.text (o.announcement ++ report.lines) }
  | .error e => {
      code := 1
      stdout := Lines.text o.announcement
      stderr := failureText ("Failed to generate from " ++ o.registry) e.causes }

def ofUsageError (e : UsageError) : Outcome where
  code := 2
  stderr := Lines.text ["error: " ++ e.message, "", "For more information, try '--help'."]

/-- A run with the tables that the options name. -/
def ofOptions {m : Type → Type} [Monad m] (store : FileStore m) (o : Options) : m Outcome := do
  let overrides ← match o.overrides with
    | none => pure (.ok .builtin)
    | some path => Overrides.load store path
  match overrides with
  | .ok overrides => return ofGeneration o (← (o.settings overrides).generate store)
  | .error e =>
    let path := o.overrides.getD ""
    return { code := 1, stderr := failureText ("Failed to load override table " ++ path) e.causes }

def ofArguments {m : Type → Type} [Monad m] (store : FileStore m) (arguments : List String) :
    m Outcome := do
  match Request.ofArguments arguments with
  | .ok (.run options) => ofOptions store options
  | .ok .help => return { code := 0, stdout := Lines.text helpLines }
  | .error e => return ofUsageError e

end Outcome

end EnumRegistry
