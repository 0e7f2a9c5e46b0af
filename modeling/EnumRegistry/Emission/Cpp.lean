import EnumRegistry.Emission.Context

/-!
C++ headers: scoped enumerations with a description function, and structs for all else.
-/

namespace EnumRegistry.Cpp

def underlying : StorageWidth → String
  | .eight => "std::uint8_t"
  | .sixteen => "std::uint16_t"
  | .thirtyTwo => "std::uint32_t"

/-- A header around the lines of a declaration. -/
def header (cx : RenderContext) (title : String) (includes : List String) (body : Lines) : Lines :=
  ["// " ++ commentText title, "// " ++ cx.provenance, "#pragma once", "", "#include <cstdint>"] ++
    includes.map ("#include " ++ ·) ++
    ["", "namespace " ++ cx.namespacePath ++ " \x7b", ""] ++ body ++
    ["", "\x7d  // namespace " ++ cx.namespacePath]

/-- The rows whose value no row before has, since a switch takes no value twice. -/
def firstOfValue (seen : Std.TreeSet Int) :
    List (EnumerationRow × String) → List (EnumerationRow × String)
  | [] => []
  | (row, member) :: rest =>
    if seen.contains row.value then firstOfValue seen rest
    else (row, member) :: firstOfValue (seen.insert row.value) rest

def enumeration (cx : RenderContext) (e : Enumeration) (members : List String) : Lines :=
  let name := cx.identifier
  let rows := e.rows.zip members
  let enumerator := fun ((row, member) : EnumerationRow × String) =>
    "    " ++ member ++ " = " ++ toString row.value ++ ",  // " ++ commentText row.description
  let case := fun ((row, member) : EnumerationRow × String) =>
    "        case " ++ name ++ "::" ++ member ++ ": return \"" ++ literalText row.description ++
      "\";"
  header cx e.rawName [] (
    ["enum class " ++ name ++ " : " ++ underlying e.width ++ " \x7b"] ++ rows.map enumerator ++
      ["\x7d;", "", "inline const char* description(" ++ name ++ " value) \x7b",
        "    switch (value) \x7b"] ++
      (firstOfValue {} rows).map case ++
      ["        default: return \"\";", "    \x7d", "\x7d"])

/-- The headers of the enumerations that rows are typed by, each once and in order. -/
def includes (cx : RenderContext) (b : Bitfield) : List String :=
  let files := b.rows.filterMap fun row =>
    (cx.enumerationOf? row.reference).map fun p => "\"" ++ plainPath p.file ++ "\""
  (Std.TreeSet.ofList files compare).toList

def field (cx : RenderContext) (row : BitfieldRow) (member : String) : Lines :=
  let extract := "static_cast<std::uint32_t>((bits >> " ++ toString row.position ++ ") & 0x" ++
    maskDigits row.length ++ "ULL)"
  let accessor := match cx.enumerationOf? row.reference with
    | some target =>
      "    ::" ++ target.qualified ++ " " ++ member ++ "() const \x7b return static_cast<::" ++
        target.qualified ++ ">(" ++ extract ++ "); \x7d"
    | none => "    std::uint32_t " ++ member ++ "() const \x7b return " ++ extract ++ "; \x7d"
  ["", "    // " ++ commentText row.description, accessor]

def bitfield (cx : RenderContext) (b : Bitfield) (members : List String) : Lines :=
  header cx b.rawName (includes cx b) (
    ["struct " ++ cx.identifier ++ " \x7b",
      "    static constexpr unsigned kSizeBits = " ++ toString b.totalBits ++ ";",
      "    static constexpr unsigned kPaddingBits = " ++ toString b.paddingBits ++ ";", "",
      "    std::uint64_t bits = 0;"] ++
      (b.rows.zip members).flatMap (fun (row, member) => field cx row member) ++ ["\x7d;"])

def dictionary (cx : RenderContext) (d : Dictionary) (members : List String) : Lines :=
  let constant := fun ((row, member) : DictionaryRow × String) =>
    ["    // " ++ commentText row.description,
      "    static constexpr const char* " ++ member ++ " = \"" ++ literalText row.code ++ "\";"]
  header cx d.rawName [] (
    ["struct " ++ cx.identifier ++ " \x7b"] ++ (d.rows.zip members).flatMap constant ++ ["\x7d;"])

def classification (cx : RenderContext) (t : ClassificationTree) (id : Nat)
    (n : ClassificationNode) : Lines :=
  header cx n.description []
    ["struct " ++ cx.identifier ++ " \x7b",
      "    static constexpr const char* kLevel = \"" ++ n.level.label ++ "\";",
      "    static constexpr int kValue = " ++ toString n.value ++ ";",
      "    static constexpr const char* kDescription = \"" ++ literalText n.description ++ "\";",
      "    static constexpr int kCodes[" ++ toString (t.codes id).length ++ "] = \x7b" ++
        codeList t id ++ "\x7d;",
      "\x7d;"]

end EnumRegistry.Cpp
