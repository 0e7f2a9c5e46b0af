import EnumRegistry.Text.Quoted

/-!
Output languages and what each one fixes: its spelling, file extension, separator, default root
namespace and reserved words.
-/

namespace EnumRegistry

inductive Language
  | java
  | cpp
  | csharp
  | python
  deriving DecidableEq, Repr

namespace Language

def spelling : Language → String
  | java => "java"
  | cpp => "cpp"
  | csharp => "csharp"
  | python => "python"

/-- A language from its spelling or a usual short form, in any ASCII case. -/
def ofSpelling? (s : String) : Option Language :=
  match s.map Char.toLower with
  | "java" => some java
  | "cpp" | "c++" => some cpp
  | "csharp" | "c#" | "cs" => some csharp
  | "python" | "py" => some python
  | _ => none

/-- The message for a spelling of no language. -/
def unknownMessage (s : String) : String :=
  "unknown language " ++ Text.quoted (s.map Char.toLower) ++
    "; expected one of java, cpp, csharp, python"

def fileExtension : Language → String
  | java => "java"
  | cpp => "hpp"
  | csharp => "cs"
  | python => "py"

/-- What stands between namespace segments. -/
def separator : Language → String
  | cpp => "::"
  | java | csharp | python => "."

def defaultRoot : Language → String
  | java => "edu.nps.moves.dis7"
  | cpp => "dis"
  | csharp => "OpenDis.Enumerations"
  | python => "opendis"

def javaReservedWords : List String := [
  "abstract", "assert", "boolean", "break", "byte", "case", "catch", "char", "class", "const",
  "continue", "default", "do", "double", "else", "enum", "extends", "final", "finally", "float",
  "for", "goto", "if", "implements", "import", "instanceof", "int", "interface", "long",
  "native", "new", "package", "private", "protected", "public", "return", "short", "static",
  "strictfp", "super", "switch", "synchronized", "this", "throw", "throws", "transient", "try",
  "void", "volatile", "while", "true", "false", "null"]

def cppReservedWords : List String := [
  "alignas", "alignof", "and", "asm", "auto", "bool", "break", "case", "catch", "char", "class",
  "const", "constexpr", "continue", "decltype", "default", "delete", "do", "double", "else",
  "enum", "explicit", "export", "extern", "false", "float", "for", "friend", "goto", "if",
  "inline", "int", "long", "mutable", "namespace", "new", "noexcept", "not", "nullptr",
  "operator", "or", "private", "protected", "public", "register", "return", "short", "signed",
  "sizeof", "static", "struct", "switch", "template", "this", "throw", "true", "try", "typedef",
  "typename", "union", "unsigned", "using", "virtual", "void", "volatile", "while", "xor"]

def csharpReservedWords : List String := [
  "abstract", "as", "base", "bool", "break", "byte", "case", "catch", "char", "checked", "class",
  "const", "continue", "decimal", "default", "delegate", "do", "double", "else", "enum", "event",
  "explicit", "extern", "false", "finally", "fixed", "float", "for", "foreach", "goto", "if",
  "implicit", "in", "int", "interface", "internal", "is", "lock", "long", "namespace", "new",
  "null", "object", "operator", "out", "override", "params", "private", "protected", "public",
  "readonly", "ref", "return", "sbyte", "sealed", "short", "sizeof", "static", "string",
  "struct", "switch", "this", "throw", "true", "try", "typeof", "uint", "ulong", "unchecked",
  "unsafe", "ushort", "using", "virtual", "void", "volatile", "while"]

def pythonReservedWords : List String := [
  "False", "None", "True", "and", "as", "assert", "async", "await", "break", "class", "continue",
  "def", "del", "elif", "else", "except", "finally", "for", "from", "global", "if", "import",
  "in", "is", "lambda", "nonlocal", "not", "or", "pass", "raise", "return", "try", "while",
  "with", "yield"]

def reservedWords : Language → List String
  | java => javaReservedWords
  | cpp => cppReservedWords
  | csharp => csharpReservedWords
  | python => pythonReservedWords

def isReserved (l : Language) (word : String) : Bool := l.reservedWords.contains word

end Language

end EnumRegistry
