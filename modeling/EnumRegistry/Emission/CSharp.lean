import EnumRegistry.Emission.Context

/-!
C# sources: enums, readonly structs for bitfields, and static classes for all else.
-/

namespace EnumRegistry.CSharp

def underlying : StorageWidth → String
  | .eight => "byte"
  | .sixteen => "ushort"
  | .thirtyTwo => "uint"

def xmlChar (c : Char) : List Char :=
  if c == '&' then "&amp;".toList
  else if c == '<' then "&lt;".toList
  else if c == '>' then "&gt;".toList
  else [c]

/-- A text inside a documentation comment. -/
def xmlText (s : String) : String := String.ofList ((commentText s).toList.flatMap xmlChar)

/-- A source around the lines of a declaration. -/
def source (cx : RenderContext) (title : String) (body : Lines) : Lines :=
  ["// " ++ cx.provenance, "namespace " ++ cx.namespacePath, "\x7b", "    /// <summary>",
    "    /// " ++ xmlText title, "    /// </summary>"] ++ body ++ ["\x7d"]

def summary (text : String) : String := "        /// <summary>" ++ xmlText text ++ "</summary>"

def enumeration (cx : RenderContext) (e : Enumeration) (members : List String) : Lines :=
  let enumerator := fun ((row, member) : EnumerationRow × String) =>
    [summary row.description, "        " ++ member ++ " = " ++ toString row.value ++ ","]
  source cx e.rawName (
    ["    public enum " ++ cx.identifier ++ " : " ++ underlying e.width, "    \x7b"] ++
      (e.rows.zip members).flatMap enumerator ++ ["    \x7d"])

def field (cx : RenderContext) (row : BitfieldRow) (member : String) : Lines :=
  let extract := "(uint)((Bits >> " ++ toString row.position ++ ") & 0x" ++
    maskDigits row.length ++ "UL)"
  let accessor := match cx.enumerationOf? row.reference with
    | some target =>
      "        public global::" ++ target.qualified ++ " " ++ member ++ " => (global::" ++
        target.qualified ++ ")" ++ extract ++ ";"
    | none => "        public uint " ++ member ++ " => " ++ extract ++ ";"
  ["", summary row.description, accessor]

def bitfield (cx : RenderContext) (b : Bitfield) (members : List String) : Lines :=
  let name := cx.identifier
  source cx b.rawName (
    ["    public readonly struct " ++ name, "    \x7b",
      "        public const int SizeBits = " ++ toString b.totalBits ++ ";",
      "        public const int PaddingBits = " ++ toString b.paddingBits ++ ";", "",
      "        public " ++ name ++ "(ulong bits) \x7b Bits = bits; \x7d", "",
      "        public ulong Bits \x7b get; \x7d"] ++
      (b.rows.zip members).flatMap (fun (row, member) => field cx row member) ++ ["    \x7d"])

def dictionary (cx : RenderContext) (d : Dictionary) (members : List String) : Lines :=
  let constant := fun ((row, member) : DictionaryRow × String) =>
    [summary row.description,
      "        public const string " ++ member ++ " = \"" ++ literalText row.code ++ "\";"]
  source cx d.rawName (
    ["    public static class " ++ cx.identifier, "    \x7b"] ++
      (d.rows.zip members).flatMap constant ++ ["    \x7d"])

def classification (cx : RenderContext) (t : ClassificationTree) (id : Nat)
    (n : ClassificationNode) : Lines :=
  source cx n.description
    ["    public static class " ++ cx.identifier, "    \x7b",
      "        public const string Level = \"" ++ n.level.label ++ "\";",
      "        public const int Value = " ++ toString n.value ++ ";",
      "        public const string Description = \"" ++ literalText n.description ++ "\";",
      "        public static readonly int[] Codes = \x7b " ++ codeList t id ++ " \x7d;",
      "    \x7d"]

end EnumRegistry.CSharp
