import EnumRegistry.Target.Language

/-!
The arguments of the program. Options take a value as `--name value` or `--name=value`, and each
stands at most once. Arguments are read from left to right, up to a call for help or the first
mistake.
-/

namespace EnumRegistry

/-- The options that take a value. -/
inductive ValueOption
  | registry
  | language
  | out
  | root
  | overrides
  deriving DecidableEq, Repr

namespace ValueOption

def all : List ValueOption := [registry, language, out, root, overrides]

def name : ValueOption → String
  | registry => "registry"
  | language => "language"
  | out => "out"
  | root => "namespace"
  | overrides => "overrides"

def ofName? (name : String) : Option ValueOption := all.find? (·.name == name)

/-- Paths are not empty, and languages are known. -/
def accepts : ValueOption → String → Bool
  | registry, value | out, value | overrides, value => !value.isEmpty
  | language, value => (Language.ofSpelling? value).isSome
  | root, _ => true

end ValueOption

structure Options where
  registry : String
  language : Language
  out : String := "generated"
  /-- The root namespace, unless it is the language's own. -/
  root : Option String := none
  overrides : Option String := none
  verbose : Bool := false
  deriving DecidableEq, Repr

inductive Request
  | help
  | run (options : Options)
  deriving DecidableEq, Repr

inductive UsageError
  | unexpected (argument : String)
  | repeated (name : String)
  | valueMissing (name : String)
  | valueUnwanted (name : String)
  | valueRefused (option : ValueOption) (value : String)
  | optionMissing (option : ValueOption)
  deriving DecidableEq, Repr

def UsageError.message : UsageError → String
  | unexpected argument => "unexpected argument " ++ Text.quoted argument
  | repeated name => "--" ++ name ++ " is given twice"
  | valueMissing name => "--" ++ name ++ " needs a value"
  | valueUnwanted name => "--" ++ name ++ " takes no value"
  | valueRefused .language value => Language.unknownMessage value
  | valueRefused option value => "--" ++ option.name ++ " cannot be " ++ Text.quoted value
  | optionMissing option => "--" ++ option.name ++ " is required"

inductive Argument
  /-- Ends the options. -/
  | separator
  | long (name : String) (value : Option String)
  | short (letter : Char)
  | plain
  deriving DecidableEq, Repr

namespace Argument

def ofString (s : String) : Argument :=
  match s.toList with
  | ['-', '-'] => separator
  | '-' :: '-' :: rest =>
    let value := match rest.dropWhile (· != '=') with
      | _ :: value => some (String.ofList value)
      | [] => none
    long (String.ofList (rest.takeWhile (· != '='))) value
  | '-' :: letter :: _ => short letter
  | _ => plain

def isPlain (s : String) : Bool := ofString s == plain

end Argument

/-- What has been read so far. -/
structure Given where
  values : List (ValueOption × String) := []
  verbose : Bool := false

namespace Given

def value? (g : Given) (option : ValueOption) : Option String := g.values.lookup option

def add (g : Given) (option : ValueOption) (value : String) : Except UsageError Given :=
  if (g.value? option).isSome then .error (.repeated option.name)
  else if option.accepts value then .ok { g with values := (option, value) :: g.values }
  else .error (.valueRefused option value)

def required (g : Given) (option : ValueOption) : Except UsageError String :=
  match g.value? option with
  | some value => .ok value
  | none => .error (.optionMissing option)

/-- The request, all arguments read. -/
def request (g : Given) : Except UsageError Request := do
  let registry ← g.required .registry
  let spelling ← g.required .language
  match Language.ofSpelling? spelling with
  | none => .error (.valueRefused .language spelling)
  | some language =>
    return .run {
      registry
      language
      out := (g.value? .out).getD "generated"
      root := g.value? .root
      overrides := g.value? .overrides
      verbose := g.verbose }

def readFrom (g : Given) : List String → Except UsageError Request
  | [] => g.request
  | argument :: rest =>
    match Argument.ofString argument with
    | .separator =>
      match rest with
      | [] => g.request
      | extra :: _ => .error (.unexpected extra)
    | .long "help" none | .short 'h' => .ok .help
    | .long "verbose" none =>
      if g.verbose then .error (.repeated "verbose") else readFrom { g with verbose := true } rest
    | .long name (some value) =>
      match ValueOption.ofName? name with
      | some option => do readFrom (← g.add option value) rest
      | none =>
        if name == "help" || name == "verbose" then .error (.valueUnwanted name)
        else .error (.unexpected argument)
    | .long name none =>
      match ValueOption.ofName? name, rest with
      | none, _ => .error (.unexpected argument)
      | some option, [] => .error (.valueMissing option.name)
      | some option, value :: rest =>
        if Argument.isPlain value then do readFrom (← g.add option value) rest
        else .error (.valueMissing option.name)
    | .short _ | .plain => .error (.unexpected argument)

end Given

def Request.ofArguments (arguments : List String) : Except UsageError Request :=
  Given.readFrom {} arguments

end EnumRegistry
