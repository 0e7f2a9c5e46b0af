import EnumRegistry.Emission.Context

/-!
Java sources: enums for enumerations and dictionaries, final classes for bitfields and nodes.
-/

namespace EnumRegistry.Java

def header (cx : RenderContext) (title : String) : Lines :=
  ["package " ++ cx.namespacePath ++ ";", "", "/**", " * " ++ commentText title, " *",
    " * " ++ cx.provenance, " */"]

/-- The type of a value and the mark of its literals. -/
def valueType : StorageWidth → String × String
  | .thirtyTwo => ("long", "L")
  | .eight | .sixteen => ("int", "")

/-- Constants end in commas, the last in a semicolon. -/
def constants (texts : List (Lines × String)) : Lines :=
  match texts with
  | [] => ["    ;"]
  | [(before, last)] => before ++ [last ++ ";"]
  | (before, text) :: rest => before ++ [text ++ ","] ++ constants rest

def enumeration (cx : RenderContext) (e : Enumeration) (members : List String) : Lines :=
  let name := cx.identifier
  let (type, mark) := valueType e.width
  let constant := fun ((row, member) : EnumerationRow × String) =>
    (["    /** " ++ commentText row.description ++ " */"],
      "    " ++ member ++ "(" ++ toString row.value ++ mark ++ ", \"" ++
        literalText row.description ++ "\")")
  header cx e.rawName ++ ["public enum " ++ name ++ " \x7b"] ++
    constants ((e.rows.zip members).map constant) ++
    ["", "    /** Size of the wire representation in bits. */",
      "    public static final int BIT_SIZE = " ++ toString e.width.bits ++ ";", "",
      "    private final " ++ type ++ " value;", "    private final String description;", "",
      "    " ++ name ++ "(" ++ type ++ " value, String description) \x7b",
      "        this.value = value;", "        this.description = description;", "    \x7d", "",
      "    public " ++ type ++ " getValue() \x7b", "        return value;", "    \x7d", "",
      "    public String getDescription() \x7b", "        return description;", "    \x7d", "",
      "    /** Returns the constant with the given value, or null. */",
      "    public static " ++ name ++ " fromValue(" ++ type ++ " value) \x7b",
      "        for (" ++ name ++ " e : values()) \x7b", "            if (e.value == value) \x7b",
      "                return e;", "            \x7d", "        \x7d", "        return null;",
      "    \x7d", "\x7d"]

def field (cx : RenderContext) (row : BitfieldRow) (member : String) : Lines :=
  let extract := "(int) ((bits >>> " ++ toString row.position ++ ") & 0x" ++
    maskDigits row.length ++ "L)"
  let body := match cx.enumerationOf? row.reference with
    | some target =>
      ["    public " ++ target.qualified ++ " " ++ member ++ "() \x7b",
        "        return " ++ target.qualified ++ ".fromValue(" ++ extract ++ ");"]
    | none => ["    public int " ++ member ++ "() \x7b", "        return " ++ extract ++ ";"]
  ["", "    /** " ++ commentText row.description ++ " */"] ++ body ++ ["    \x7d"]

def bitfield (cx : RenderContext) (b : Bitfield) (members : List String) : Lines :=
  let name := cx.identifier
  header cx b.rawName ++
    ["public final class " ++ name ++ " \x7b",
      "    public static final int SIZE_BITS = " ++ toString b.totalBits ++ ";",
      "    public static final int PADDING_BITS = " ++ toString b.paddingBits ++ ";", "",
      "    private final long bits;", "", "    public " ++ name ++ "(long bits) \x7b",
      "        this.bits = bits;", "    \x7d", "", "    public long getBits() \x7b",
      "        return bits;", "    \x7d"] ++
    (b.rows.zip members).flatMap (fun (row, member) => field cx row member) ++ ["\x7d"]

def dictionary (cx : RenderContext) (d : Dictionary) (members : List String) : Lines :=
  let name := cx.identifier
  let constant := fun ((row, member) : DictionaryRow × String) =>
    (([] : Lines), "    " ++ member ++ "(\"" ++ literalText row.code ++ "\", \"" ++
      literalText row.description ++ "\")")
  header cx d.rawName ++ ["public enum " ++ name ++ " \x7b"] ++
    constants ((d.rows.zip members).map constant) ++
    ["", "    private final String code;", "    private final String description;", "",
      "    " ++ name ++ "(String code, String description) \x7b", "        this.code = code;",
      "        this.description = description;", "    \x7d", "",
      "    public String getCode() \x7b", "        return code;", "    \x7d", "",
      "    public String getDescription() \x7b", "        return description;", "    \x7d", "\x7d"]

def classification (cx : RenderContext) (t : ClassificationTree) (id : Nat)
    (n : ClassificationNode) : Lines :=
  let name := cx.identifier
  header cx n.description ++
    ["public final class " ++ name ++ " \x7b",
      "    public static final String LEVEL = \"" ++ n.level.label ++ "\";",
      "    public static final int VALUE = " ++ toString n.value ++ ";",
      "    public static final String DESCRIPTION = \"" ++ literalText n.description ++ "\";",
      "    /** Codes from the root of the hierarchy down to this node. */",
      "    public static final int[] CODES = \x7b" ++ codeList t id ++ "\x7d;", "",
      "    private " ++ name ++ "() \x7b", "    \x7d", "\x7d"]

end EnumRegistry.Java
