import EnumRegistry.Emission.Context

/-!
Python modules: integer enums, and classes for all else.
-/

namespace EnumRegistry.Python

def docText (s : String) : String := literalText (commentText s)

def header (cx : RenderContext) (title : String) : Lines :=
  ["\"\"\"" ++ docText title, "", cx.provenance, "\"\"\"", ""]

def docLine (indent text : String) : String := indent ++ "\"\"\"" ++ docText text ++ "\"\"\""

def enumeration (cx : RenderContext) (e : Enumeration) (members : List String) : Lines :=
  let constant := fun ((row, member) : EnumerationRow × String) =>
    "    " ++ member ++ " = " ++ toString row.value ++ "  # " ++ commentText row.description
  header cx e.rawName ++
    ["from enum import IntEnum", "", "", "class " ++ cx.identifier ++ "(IntEnum):",
      docLine "    " e.rawName, ""] ++
    (e.rows.zip members).map constant ++
    ["", "    @property", "    def bit_size(self) -> int:",
      "        return " ++ toString e.width.bits]

/-- The imports of the enumerations that rows are typed by, each once and in order. -/
def imports (cx : RenderContext) (b : Bitfield) : List String :=
  let lines := b.rows.filterMap fun row =>
    (cx.enumerationOf? row.reference).map fun p =>
      "from " ++ p.importName ++ " import " ++ p.identifier
  (Std.TreeSet.ofList lines compare).toList

def field (cx : RenderContext) (row : BitfieldRow) (member : String) : Lines :=
  let extract := "(self.bits >> " ++ toString row.position ++ ") & 0x" ++ maskDigits row.length
  let (type, value) := match cx.enumerationOf? row.reference with
    | some target => (target.identifier, target.identifier ++ "(" ++ extract ++ ")")
    | none => ("int", extract)
  ["", "    @property", "    def " ++ member ++ "(self) -> " ++ type ++ ":",
    docLine "        " row.description, "        return " ++ value]

def bitfield (cx : RenderContext) (b : Bitfield) (members : List String) : Lines :=
  let imports := imports cx b
  header cx b.rawName ++ imports ++ (if imports.isEmpty then [] else [""]) ++
    ["", "class " ++ cx.identifier ++ ":", docLine "    " b.rawName, "",
      "    SIZE_BITS = " ++ toString b.totalBits,
      "    PADDING_BITS = " ++ toString b.paddingBits, "",
      "    def __init__(self, bits: int = 0) -> None:", "        self.bits = bits"] ++
    (b.rows.zip members).flatMap (fun (row, member) => field cx row member)

def dictionary (cx : RenderContext) (d : Dictionary) (members : List String) : Lines :=
  let constant := fun ((row, member) : DictionaryRow × String) =>
    "    " ++ member ++ " = \"" ++ literalText row.code ++ "\"  # " ++ commentText row.description
  header cx d.rawName ++ ["", "class " ++ cx.identifier ++ ":", docLine "    " d.rawName, ""] ++
    (d.rows.zip members).map constant ++ (if d.rows.isEmpty then ["    pass"] else [])

def classification (cx : RenderContext) (t : ClassificationTree) (id : Nat)
    (n : ClassificationNode) : Lines :=
  header cx n.description ++
    ["", "class " ++ cx.identifier ++ ":", "    LEVEL = \"" ++ n.level.label ++ "\"",
      "    VALUE = " ++ toString n.value,
      "    DESCRIPTION = \"" ++ literalText n.description ++ "\"",
      "    CODES = (" ++ codeList t id ++ ",)"]

end EnumRegistry.Python
