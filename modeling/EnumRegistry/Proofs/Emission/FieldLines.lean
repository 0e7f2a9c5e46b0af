import EnumRegistry.Emission.Render
import EnumRegistry.Proofs.Name.Scope
import Mathlib.Data.List.Duplicate

/-!
The lines of a bitfield. Every row has lines of its own, with an accessor of the type that the row
has, and each enumeration that types a row is imported in one line where the language imports.
-/

namespace EnumRegistry

namespace Language

/-- How a type is written in an accessor: an enumeration, or else a plain number. -/
def accessorType (l : Language) : Option Placement → String
  | some type =>
    match l with
    | java => type.qualified
    | cpp => "::" ++ type.qualified
    | csharp => "global::" ++ type.qualified
    | python => type.identifier
  | none =>
    match l with
    | java | python => "int"
    | cpp => "std::uint32_t"
    | csharp => "uint"

/-- How an accessor begins. -/
def accessorHead (l : Language) (type member : String) : String :=
  match l with
  | java => "    public " ++ type ++ " " ++ member ++ "() \x7b"
  | cpp => "    " ++ type ++ " " ++ member ++ "() const \x7b"
  | csharp => "        public " ++ type ++ " " ++ member ++ " =>"
  | python => "    def " ++ member ++ "(self) -> " ++ type ++ ":"

@[simp] theorem java_accessorHead (type member : String) :
    java.accessorHead type member = "    public " ++ type ++ " " ++ member ++ "() \x7b" := rfl

@[simp] theorem cpp_accessorHead (type member : String) :
    cpp.accessorHead type member = "    " ++ type ++ " " ++ member ++ "() const \x7b" := rfl

@[simp] theorem csharp_accessorHead (type member : String) :
    csharp.accessorHead type member = "        public " ++ type ++ " " ++ member ++ " =>" := rfl

@[simp] theorem python_accessorHead (type member : String) :
    python.accessorHead type member = "    def " ++ member ++ "(self) -> " ++ type ++ ":" := rfl

/-- How lines begin that import another file. -/
def importMark? : Language → Option String
  | .cpp => some "#include \""
  | .python => some "from "
  | .java | .csharp => none

/-- The line that imports a type. Where names are fully qualified there is none. -/
def importLine? : Language → Placement → Option String
  | .cpp, type => some ("#include \"" ++ plainPath type.file ++ "\"")
  | .python, type => some ("from " ++ type.importName ++ " import " ++ type.identifier)
  | .java, _ | .csharp, _ => none

end Language

namespace RenderContext

variable (cx : RenderContext)

theorem length_members {kind : TypeKind} {names members : List String}
    (h : cx.members kind names = .ok members) : members.length = names.length := by
  unfold RenderContext.members at h
  split at h
  · cases h
    exact List.length_map _
  · obtain ⟨⟨_, scope⟩, claimed, rfl⟩ := map_eq_ok.mp h
    rw [← (NameScope.claimAll_spells claimed).length_eq, List.length_map]

/-- The lines of a row. -/
def fieldLines (row : BitfieldRow) (member : String) : Lines :=
  match cx.language with
  | .java => Java.field cx row member
  | .cpp => Cpp.field cx row member
  | .csharp => CSharp.field cx row member
  | .python => Python.field cx row member

/-- The accessor of a row has the type that the row is typed by. -/
theorem accessor_of_field (row : BitfieldRow) (member : String) :
    ∃ line ∈ cx.fieldLines row member, (cx.language.accessorHead
      (cx.language.accessorType (cx.enumerationOf? row.reference)) member).toList <+:
        line.toList := by
  unfold fieldLines
  cases hl : cx.language with
  | java =>
    simp only [Java.field]
    cases cx.enumerationOf? row.reference with
    | none =>
      refine ⟨_, List.mem_append_left _ (List.mem_append_right _ (.head _)), ?_⟩
      simp [Language.accessorType]
    | some type =>
      refine ⟨_, List.mem_append_left _ (List.mem_append_right _ (.head _)), ?_⟩
      simp [Language.accessorType]
  | cpp | csharp | python =>
    refine ⟨_, .tail _ (.tail _ (.head _)), ?_⟩
    cases cx.enumerationOf? row.reference with
    | none => simp [Language.accessorType]
    | some type => simp [Language.accessorType]

/-- The lines of the rows stand one behind the other. -/
theorem bitfieldLines_fields (b : Bitfield) (members : List String) :
    ∃ before after, cx.bitfieldLines b members =
      before ++ (b.rows.zip members).flatMap (fun x => cx.fieldLines x.1 x.2) ++ after := by
  unfold bitfieldLines fieldLines
  cases cx.language with
  | java => exact ⟨_, _, rfl⟩
  | cpp =>
    simp only [Cpp.bitfield, Cpp.header]
    exact ⟨_, _, by rw [← List.append_assoc, ← List.append_assoc, List.append_assoc _ _ ["", _]]⟩
  | csharp =>
    simp only [CSharp.bitfield, CSharp.source]
    exact ⟨_, _, by rw [← List.append_assoc, ← List.append_assoc, List.append_assoc _ _ ["\x7d"]]⟩
  | python => exact ⟨_, [], (List.append_nil _).symm⟩

end RenderContext

/-! ## Imports -/

section
variable {texts : List String}

theorem mem_sorted {text : String} :
    text ∈ (Std.TreeSet.ofList texts compare).toList ↔ text ∈ texts := by
  rw [Std.TreeSet.mem_toList, Std.TreeSet.mem_ofList, List.contains_iff_mem]

theorem nodup_sorted : (Std.TreeSet.ofList texts compare).toList.Nodup :=
  Std.TreeSet.distinct_toList.imp fun apart same => apart (Std.compare_eq_iff_eq.mpr same)

end

/-- Lines none of which begins with a mark. -/
def Lines.Free (lines : Lines) (mark : String) : Prop :=
  ∀ line ∈ lines, ¬ mark.toList <+: line.toList

/-- Of the lines that begin with a mark there are certain ones, each of them once. -/
structure Lines.Marks (lines : Lines) (mark : String) (wanted : String → Prop) : Prop where
  once : ∀ line, wanted line → lines.count line = 1
  only : ∀ line ∈ lines, mark.toList <+: line.toList → wanted line

theorem Lines.marks_of_parts {before among after : Lines} {mark : String} {wanted : String → Prop}
    (freeBefore : before.Free mark) (freeAfter : after.Free mark) (nodup : among.Nodup)
    (mem : ∀ line, line ∈ among ↔ wanted line)
    (marked : ∀ line, wanted line → mark.toList <+: line.toList) :
    Lines.Marks (before ++ among ++ after) mark wanted where
  once line h := by
    have outside {lines : Lines} (free : lines.Free mark) : lines.count line = 0 :=
      List.count_eq_zero.mpr fun hline => free line hline (marked line h)
    rw [List.count_append, List.count_append, outside freeBefore, outside freeAfter,
      List.count_eq_one_of_mem nodup ((mem line).mpr h)]
  only line hline h := by
    rcases List.mem_append.mp hline with hline | hline
    · rcases List.mem_append.mp hline with hline | hline
      · exact absurd h (freeBefore line hline)
      · exact (mem line).mp hline
    · exact absurd h (freeAfter line hline)

namespace Cpp

variable (cx : RenderContext)

theorem field_free (row : BitfieldRow) (member : String) :
    Lines.Free (field cx row member) "#include \"" := by
  unfold field Lines.Free
  cases cx.enumerationOf? row.reference <;> simp

theorem bitfield_marks (b : Bitfield) (members : List String) :
    Lines.Marks (bitfield cx b members) "#include \"" fun line =>
      ∃ row ∈ b.rows, ∃ type, cx.enumerationOf? row.reference = some type ∧
        "#include \"" ++ plainPath type.file ++ "\"" = line := by
  simp only [bitfield, header, List.append_assoc _ _ ["", _], List.append_assoc _ (_ :: _) _]
  apply Lines.marks_of_parts
  · simp [Lines.Free]
  · simp only [Lines.Free, List.forall_mem_append, List.forall_mem_flatMap]
    exact ⟨by simp, ⟨by simp, fun x _ => field_free cx x.1 x.2⟩, by simp, by simp⟩
  · exact nodup_sorted.map fun _ _ => (String.append_right_inj _).mp
  · have quoted (path : String) :
        "#include " ++ ("\"" ++ path ++ "\"") = "#include \"" ++ path ++ "\"" :=
      String.toList_inj.mp (by simp)
    intro line
    simp only [includes, List.mem_map, mem_sorted, List.mem_filterMap, Option.map_eq_some_iff]
    constructor
    · rintro ⟨_, ⟨row, hrow, type, typed, rfl⟩, rfl⟩
      exact ⟨row, hrow, type, typed, (quoted _).symm⟩
    · rintro ⟨row, hrow, type, typed, rfl⟩
      exact ⟨_, ⟨row, hrow, type, typed, rfl⟩, quoted _⟩
  · rintro line ⟨row, -, type, -, rfl⟩
    simp

end Cpp

namespace Python

variable (cx : RenderContext)

theorem header_free (title : String) : Lines.Free (header cx title) "from " := by
  have origin : ¬ "from ".toList <+: cx.provenance.toList := by
    unfold RenderContext.provenance
    simp
  simpa [Lines.Free, header] using origin

theorem field_free (row : BitfieldRow) (member : String) :
    Lines.Free (field cx row member) "from " := by
  unfold field Lines.Free
  cases cx.enumerationOf? row.reference <;> simp [docLine]

theorem bitfield_marks (b : Bitfield) (members : List String) :
    Lines.Marks (bitfield cx b members) "from " fun line =>
      ∃ row ∈ b.rows, ∃ type, cx.enumerationOf? row.reference = some type ∧
        "from " ++ type.importName ++ " import " ++ type.identifier = line := by
  rw [bitfield, List.append_assoc, List.append_assoc]
  apply Lines.marks_of_parts
  · exact header_free cx b.rawName
  · simp only [Lines.Free, List.forall_mem_append, List.forall_mem_flatMap]
    refine ⟨?_, by simp [docLine], fun x _ => field_free cx x.1 x.2⟩
    split <;> simp
  · exact nodup_sorted
  · intro line
    simp only [imports, mem_sorted, List.mem_filterMap, Option.map_eq_some_iff]
  · rintro line ⟨row, -, type, -, rfl⟩
    simp

end Python

namespace RenderContext

variable (cx : RenderContext)

/-- A bitfield imports the enumerations that its rows are typed by, each once. -/
theorem bitfieldLines_marks (b : Bitfield) (members : List String) {mark : String}
    (h : cx.language.importMark? = some mark) :
    Lines.Marks (cx.bitfieldLines b members) mark fun line =>
      ∃ row ∈ b.rows, ∃ type, cx.enumerationOf? row.reference = some type ∧
        cx.language.importLine? type = some line := by
  unfold bitfieldLines
  cases hl : cx.language <;> rw [hl] at h <;> cases h
  · simpa [Language.importLine?] using Cpp.bitfield_marks cx b members
  · simpa [Language.importLine?] using Python.bitfield_marks cx b members

end RenderContext

end EnumRegistry
