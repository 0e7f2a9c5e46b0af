import EnumRegistry.Proofs.Building.References
import EnumRegistry.Proofs.Emission.FieldLines
import EnumRegistry.Proofs.Emission.FirstPlaced
import EnumRegistry.Proofs.Emission.Writing

/-!
Types of bitfield rows. A row is typed by the enumeration that its reference names, and the name of
that type in the row's accessor is the one in the registry of UIDs, although the two come from
different tables.
-/

namespace EnumRegistry

/-! ## Symbols of a model -/

namespace Model

variable {m : Model}

/-- A row has a resolved reference to the UID of an enumeration. -/
def TypesRow (m : Model) (row : BitfieldRow) : Prop :=
  ∃ uid name, row.reference = some (.typed uid name) ∧ ∃ type ∈ m.enumerations, type.uid = uid

/-- What symbols there are besides those of enumerations. -/
def otherSymbols (m : Model) : List Symbol :=
  m.bitfields.map Symbol.ofBitfield ++ m.dictionaries.map Symbol.ofDictionary ++
    m.trees.flatMap Symbol.ofTree

theorem symbols_eq (m : Model) :
    m.symbols = m.enumerations.map Symbol.ofEnumeration ++ m.otherSymbols := by
  simp only [symbols, otherSymbols, List.append_assoc]

theorem mem_otherSymbols {s : Symbol} : s ∈ m.otherSymbols ↔
    (∃ b ∈ m.bitfields, Symbol.ofBitfield b = s) ∨
      (∃ d ∈ m.dictionaries, Symbol.ofDictionary d = s) ∨
      ∃ t ∈ m.trees, s ∈ Symbol.ofTree t := by
  simp only [otherSymbols, List.mem_append, List.mem_map, List.mem_flatMap, or_assoc]

/-- No other symbol is an enumeration. -/
theorem not_enumeration_of_mem {s : Symbol} (hs : s ∈ m.otherSymbols) :
    s.body.typeKind? ≠ some .enumeration := by
  rcases mem_otherSymbols.mp hs with ⟨b, -, rfl⟩ | ⟨d, -, rfl⟩ | ⟨t, -, hs⟩
  · nofun
  · nofun
  · obtain ⟨id, -, hs⟩ := List.mem_filterMap.mp hs
    obtain ⟨n, -, -, rfl⟩ := Symbol.ofNode?_eq_some.mp hs
    nofun

theorem exists_enumeration_of_mem {s : Symbol} (hs : s ∈ m.symbols)
    (kind : s.body.typeKind? = some .enumeration) :
    ∃ type ∈ m.enumerations, Symbol.ofEnumeration type = s := by
  cases emits_of_mem hs with
  | enumeration he => exact ⟨_, he, rfl⟩
  | bitfield | dictionary | node => cases kind

theorem mem_bitfields_of_mem {b : Bitfield} (hs : Symbol.ofBitfield b ∈ m.symbols) :
    b ∈ m.bitfields ∧ Symbol.ofBitfield b ∈ m.otherSymbols := by
  have own : b ∈ m.bitfields := by
    generalize same : Symbol.ofBitfield b = s at hs
    cases emits_of_mem hs with
    | bitfield hb => exact (SymbolBody.bitfield.inj (congrArg Symbol.body same)).symm ▸ hb
    | enumeration | dictionary | node => cases congrArg Symbol.body same
  exact ⟨own, mem_otherSymbols.mpr (.inl ⟨b, own, rfl⟩)⟩

end Model

/-! ## The table of types -/

theorem RenderContext.enumerationOf?_eq_some {cx : RenderContext}
    {reference : Option CrossReference} {type : Placement} :
    cx.enumerationOf? reference = some type ↔ ∃ uid name,
      reference = some (.typed uid name) ∧ cx.types[uid]? = some ⟨.enumeration, type⟩ := by
  cases reference with
  | none => simp [enumerationOf?]
  | some reference =>
    cases reference with
    | unresolved uid => simp [enumerationOf?, CrossReference.typeName?]
    | typed uid name =>
      have reads : cx.enumerationOf? (some (.typed uid name)) = cx.types[uid]?.bind
          fun placed => if placed.kind == .enumeration then some placed.placement else none := rfl
      rw [reads, Option.bind_eq_some_iff]
      constructor
      · rintro ⟨⟨kind, place⟩, found, h⟩
        split at h
        · rename_i enumeration
          obtain rfl := beq_iff_eq.mp enumeration
          cases h
          exact ⟨uid, name, rfl, found⟩
        · cases h
      · rintro ⟨_, _, same, found⟩
        cases same
        exact ⟨_, found, rfl⟩

namespace Emission

variable {target : Target} {revision : Option Revision} {m : Model} {e : Emission}

/-- The table of types has the place of an enumeration under a UID exactly if the registry has the
name of that one, and then it is the first enumeration with the UID. -/
theorem enumeration_of_types (planned : plan target revision m.symbols = .ok e) {uid : String}
    {type : Placement} : (placedTypes e.placed)[uid]? = some ⟨.enumeration, type⟩ ↔
      ∃ primary, m.enumerations.find? (·.uid == uid) = some primary ∧
        e.holder? uid = some (Symbol.ofEnumeration primary, type) := by
  constructor
  · intro h
    obtain ⟨s, hs, own, kind⟩ := mem_of_placedTypes h
    have known : s ∈ m.symbols := plan_symbols planned ▸ List.mem_map.mpr ⟨_, hs, rfl⟩
    obtain ⟨found, hfound, rfl⟩ := Model.exists_enumeration_of_mem known kind
    obtain rfl : found.uid = uid := Option.some.inj own
    -- Whichever enumeration the place is of, the first with its UID was noted before.
    obtain ⟨primary, first, typeOf⟩ := Model.typeOf?_enumeration hfound
    obtain ⟨place, held⟩ := holder?_of_typeOf? planned typeOf
    rw [placedTypes_holder held rfl] at h
    cases h
    exact ⟨primary, first, held⟩
  · rintro ⟨primary, -, held⟩
    exact placedTypes_holder held rfl

/-- Enumerations are placed before all else. -/
theorem enumeration_before (planned : plan target revision m.symbols = .ok e)
    {type : Enumeration} {q : Placement} (htype : (Symbol.ofEnumeration type, q) ∈ e.placed)
    {b : Bitfield} {p : Placement} (hb : (Symbol.ofBitfield b, p) ∈ e.placed) :
    [(Symbol.ofEnumeration type, q), (Symbol.ofBitfield b, p)].Sublist e.placed := by
  have symbols := plan_symbols planned
  rw [m.symbols_eq] at symbols
  obtain ⟨first, others, split, enumerations, rest⟩ := List.map_eq_append_iff.mp symbols
  rw [split] at htype hb ⊢
  refine (List.singleton_sublist.mpr ?_).append (List.singleton_sublist.mpr ?_)
  · rcases List.mem_append.mp htype with htype | htype
    · exact htype
    · have other : Symbol.ofEnumeration type ∈ m.otherSymbols :=
        rest ▸ List.mem_map.mpr ⟨_, htype, rfl⟩
      exact absurd rfl (Model.not_enumeration_of_mem other)
  · rcases List.mem_append.mp hb with hb | hb
    · have early : Symbol.ofBitfield b ∈ m.enumerations.map Symbol.ofEnumeration :=
        enumerations ▸ List.mem_map.mpr ⟨_, hb, rfl⟩
      obtain ⟨_, -, same⟩ := List.mem_map.mp early
      cases congrArg Symbol.body same
    · exact hb

end Emission

/-! ## Modules and imports -/

/-- A place in Python is a module, and a name is found in it. -/
structure Placement.IsModule (place : Placement) : Prop where
  file : ∃ stem, place.importName = ".".intercalate place.segments ++ "." ++ stem ∧
    place.file = pathInside (directory place.segments) (stem ++ ".py")
  qualified : place.qualified = place.importName ++ "." ++ place.identifier

theorem Target.placed_isModule {t : Target} (python : t.language = .python) (s : Symbol)
    (stem : String) : (t.placed s stem).IsModule where
  file := ⟨stem, by
    simp [placed, python, Language.separator, directoryOf, fileName, Language.fileExtension,
      String.append_assoc]⟩
  qualified := by simp [placed, python, Language.separator]

namespace Emission

variable {target : Target} {revision : Option Revision} {symbols : List Symbol} {e : Emission}

theorem placed_isModule (planned : plan target revision symbols = .ok e)
    (python : target.language = .python) {placed : Symbol × Placement} (h : placed ∈ e.placed) :
    placed.2.IsModule := by
  obtain ⟨slots, -, -, rfl⟩ := plan_eq_ok planned
  obtain ⟨slot, -, rfl⟩ := List.mem_map.mp h
  exact Target.placed_isModule python slot.1 slot.2

/-- Enumerations have one namespace, so each has a module of its own. -/
theorem enumeration_modules (planned : plan target revision symbols = .ok e)
    (python : target.language = .python) {type other : Enumeration} {q q' : Placement}
    (h : (Symbol.ofEnumeration type, q) ∈ e.placed)
    (h' : (Symbol.ofEnumeration other, q') ∈ e.placed) (same : q'.importName = q.importName) :
    q' = q := by
  obtain ⟨slots, claimed, -, rfl⟩ := plan_eq_ok planned
  obtain ⟨⟨s, stem⟩, hslot, own⟩ := List.mem_map.mp h
  obtain ⟨⟨s', stem'⟩, hslot', own'⟩ := List.mem_map.mp h'
  cases own
  cases own'
  have stems : stem' = stem := by
    simpa [Target.placed, python, Target.namespaceOf, Symbol.ofEnumeration] using same
  subst stems
  have slot := List.inj_on_of_nodup_map claimed.nodup hslot' hslot rfl
  rw [(Prod.mk.inj slot).1]

end Emission

theorem existsUnique_of_count {α : Type} [DecidableEq α] {l : List α} {a : α}
    (h : l.count a = 1) : ∃! i : Nat, l[i]? = some a := by
  induction l with
  | nil => cases h
  | cons b l ih =>
    by_cases same : b = a
    · subst same
      rw [List.count_cons_self, Nat.add_eq_right, List.count_eq_zero] at h
      refine ⟨0, rfl, fun i hi => ?_⟩
      cases i with
      | zero => rfl
      | succ i => exact absurd (List.mem_of_getElem? (l := l) hi) h
    · rw [List.count_cons_of_ne same] at h
      obtain ⟨i, hi, unique⟩ := ih h
      refine ⟨i + 1, hi, fun j hj => ?_⟩
      cases j with
      | zero => exact absurd (Option.some.inj hj) same
      | succ j => rw [unique j hj]

/-- A line imports a type: in C++ its file, by a path that leads there, in Python the type from its
module. -/
def Language.Imports (l : Language) (type : Placement) (line : String) : Prop :=
  match l with
  | .cpp => ∃ path, line = "#include \"" ++ path ++ "\"" ∧ pathParts path = pathParts type.file
  | .python => line = "from " ++ type.importName ++ " import " ++ type.identifier
  | .java | .csharp => False

namespace Emission

/-- What the bitfield in a place is rendered from. -/
def context (e : Emission) (b : Bitfield) (p : Placement) : RenderContext :=
  ⟨e.target.language, p, some b.uid, e.revision, placedTypes e.placed⟩

/-- The enumeration that types a row of a bitfield, with its place: the one the row refers to, the
one with the name that the survey gave its UID, and the one in the registry of UIDs. -/
structure TypedBy (res : Resolution) (e : Emission) (b : Bitfield) (p : Placement)
    (row : BitfieldRow) (primary : Enumeration) (type : Placement) : Prop where
  reference : row.reference = some (.typed primary.uid primary.name)
  first : res.model.enumerations.find? (·.uid == primary.uid) = some primary
  named : res.table.name? primary.uid = some primary.name
  registered : e.uidRegistry.get? primary.uid = some type.qualified
  before : [(Symbol.ofEnumeration primary, type), (Symbol.ofBitfield b, p)].Sublist e.placed

/-- A row of a bitfield and its lines among those of the file. -/
structure FieldTyped (res : Resolution) (e : Emission) (b : Bitfield) (p : Placement)
    (lines : Lines) (row : BitfieldRow) (block : Lines) : Prop where
  typed : ((e.context b p).enumerationOf? row.reference).isSome ↔ res.model.TypesRow row
  accessor : ∃ member, ∃ line ∈ block,
    (e.target.language.accessorHead (e.target.language.accessorType
      ((e.context b p).enumerationOf? row.reference)) member).toList <+: line.toList
  primary : ∀ type, (e.context b p).enumerationOf? row.reference = some type →
    ∃ primary, TypedBy res e b p row primary type
  imported : ∀ type, (e.context b p).enumerationOf? row.reference = some type →
    e.target.language = .cpp ∨ e.target.language = .python →
      ∃! i : Nat, ∃ line, lines[i]? = some line ∧ e.target.language.Imports type line
  module : ∀ type, (e.context b p).enumerationOf? row.reference = some type →
    e.target.language = .python → type.IsModule ∧ ∀ other place,
      (Symbol.ofEnumeration other, place) ∈ e.placed →
        place.importName = type.importName → place = type

section
variable {target : Target} {revision : Option Revision} {m : Model} {e : Emission} {b : Bitfield}
  {p : Placement} {row : BitfieldRow} {type : Placement}

/-- The enumeration of a row is the first with the UID that the row refers to. -/
theorem enumerationOf?_context (planned : plan target revision m.symbols = .ok e) :
    (e.context b p).enumerationOf? row.reference = some type ↔ ∃ uid name primary,
      row.reference = some (.typed uid name) ∧
      m.enumerations.find? (·.uid == uid) = some primary ∧
      e.holder? uid = some (Symbol.ofEnumeration primary, type) := by
  simp only [RenderContext.enumerationOf?_eq_some, context, enumeration_of_types planned]
  constructor
  · rintro ⟨uid, name, reference, primary, first, held⟩
    exact ⟨uid, name, primary, reference, first, held⟩
  · rintro ⟨uid, name, primary, reference, first, held⟩
    exact ⟨uid, name, reference, primary, first, held⟩

theorem isSome_enumerationOf? (planned : plan target revision m.symbols = .ok e) :
    ((e.context b p).enumerationOf? row.reference).isSome ↔ m.TypesRow row := by
  rw [Option.isSome_iff_exists]
  simp only [enumerationOf?_context planned]
  constructor
  · rintro ⟨type, uid, name, primary, reference, first, -⟩
    exact ⟨uid, name, reference, primary, List.mem_of_find?_eq_some first,
      by simpa using List.find?_some first⟩
  · rintro ⟨uid, name, reference, known, hknown, rfl⟩
    obtain ⟨primary, first, typeOf⟩ := Model.typeOf?_enumeration hknown
    obtain ⟨type, held⟩ := holder?_of_typeOf? planned typeOf
    exact ⟨type, known.uid, name, primary, reference, first, held⟩

/-- What can be made of a bitfield is the text of its lines. -/
theorem symbolArtifact_bitfield {file : Artifact}
    (made : e.symbolArtifact (placedTypes e.placed) (Symbol.ofBitfield b, p) = .ok file) :
    ∃ members : List String, members.length = b.rows.length ∧
      file.content = Lines.text ((e.context b p).bitfieldLines b members) := by
  have rendered : e.symbolArtifact (placedTypes e.placed) (Symbol.ofBitfield b, p) =
      ((e.context b p).members .bitfield (b.rows.map (·.name))).map
        ((e.context b p).bitfieldLines b) >>= fun lines =>
          .ok ⟨p.file, Lines.text lines, (Symbol.ofBitfield b).label⟩ := rfl
  rw [rendered] at made
  obtain ⟨lines, hlines, written⟩ := bind_eq_ok.mp made
  obtain ⟨members, hmembers, rfl⟩ := map_eq_ok.mp hlines
  cases written
  refine ⟨members, ?_, rfl⟩
  simpa using (e.context b p).length_members hmembers

end

end Emission

/-- Rows and the blocks of lines that are made of them correspond. -/
theorem forall₂_blocks {α β γ : Type} {R : α → γ → Prop} {f : α → β → γ} {as : List α}
    {bs : List β} (lengths : bs.length = as.length) (h : ∀ a ∈ as, ∀ b, R a (f a b)) :
    List.Forall₂ R as ((as.zip bs).map fun x => f x.1 x.2) := by
  induction as generalizing bs with
  | nil => exact .nil
  | cons a as ih =>
    cases bs with
    | nil => cases lengths
    | cons b bs =>
      exact .cons (h a (List.mem_cons_self ..) b)
        (ih (Nat.succ.inj lengths) fun a ha => h a (List.mem_cons_of_mem _ ha))

namespace Emission

variable {target : Target} {revision : Option Revision} {m : Model} {e : Emission} {b : Bitfield}
  {p : Placement} {row : BitfieldRow} {type : Placement}

/-- Of the lines of a bitfield exactly one imports the type of a row. -/
theorem imported_once (members : List String) (hrow : row ∈ b.rows)
    (typed : (e.context b p).enumerationOf? row.reference = some type)
    (imports : e.target.language = .cpp ∨ e.target.language = .python) :
    ∃! i : Nat, ∃ line, ((e.context b p).bitfieldLines b members)[i]? = some line ∧
      e.target.language.Imports type line := by
  obtain ⟨mark, marked⟩ : ∃ mark, e.target.language.importMark? = some mark := by
    rcases imports with cpp | python
    · exact ⟨_, by rw [cpp]; rfl⟩
    · exact ⟨_, by rw [python]; rfl⟩
  obtain ⟨once, only⟩ := (e.context b p).bitfieldLines_marks b members marked
  generalize (e.context b p).bitfieldLines b members = lines at once only ⊢
  have same : (e.context b p).language = e.target.language := rfl
  simp only [same] at once only
  rcases imports with cpp | python
  · rw [cpp] at once only marked ⊢
    cases marked
    obtain ⟨i, hi, unique⟩ := existsUnique_of_count (once _ ⟨row, hrow, type, typed, rfl⟩)
    refine ⟨i, ⟨_, hi, _, rfl, pathParts_plainPath type.file⟩, ?_⟩
    rintro j ⟨_, hj, path, rfl, leads⟩
    -- A line that leads there has a plain path of the same parts, so it is the same line.
    obtain ⟨-, -, other, -, line⟩ := only _ (List.mem_of_getElem? hj) (by simp)
    obtain rfl : plainPath other.file = path :=
      (String.append_right_inj _).mp ((String.append_left_inj _).mp (Option.some.inj line))
    rw [pathParts_plainPath] at leads
    have paths : plainPath other.file = plainPath type.file := by rw [plainPath, leads, plainPath]
    exact unique j (paths ▸ hj)
  · rw [python] at once only marked ⊢
    obtain ⟨i, hi, unique⟩ := existsUnique_of_count (once _ ⟨row, hrow, type, typed, rfl⟩)
    refine ⟨i, ⟨_, hi, rfl⟩, ?_⟩
    rintro j ⟨_, hj, rfl⟩
    exact unique j hj

end Emission

theorem Resolution.references_isFrom {overrides : Overrides} {ceiling : Nat} {r : Reader}
    {res : Resolution} (h : ofReader overrides ceiling r = .ok res) :
    ∀ reference ∈ res.model.references, reference.IsFrom res.table := by
  obtain ⟨survey, builder, -, hbuilder, rfl⟩ := ofReader_eq_ok h
  exact (Builder.ofReader_referring hbuilder).model

/-- A row with a type is typed by the enumeration that its reference names. -/
theorem Resolution.exists_typedBy {overrides : Overrides} {ceiling : Nat} {r : Reader}
    {res : Resolution} (resolved : ofReader overrides ceiling r = .ok res) {target : Target}
    {e : Emission} (planned : res.emission target = .ok e) {b : Bitfield} {p : Placement}
    (placed : (Symbol.ofBitfield b, p) ∈ e.placed) (hb : b ∈ res.model.bitfields)
    {row : BitfieldRow} (hrow : row ∈ b.rows) {type : Placement}
    (typed : (e.context b p).enumerationOf? row.reference = some type) :
    ∃ primary, Emission.TypedBy res e b p row primary type := by
  obtain ⟨uid, name, primary, reference, first, held⟩ :=
    (Emission.enumerationOf?_context planned).mp typed
  obtain rfl : primary.uid = uid := by simpa using List.find?_some first
  have named := primary_named resolved first
  have listed : CrossReference.typed primary.uid name ∈ res.model.references :=
    List.mem_append_right _ (List.mem_flatMap.mpr
      ⟨b, hb, List.mem_filterMap.mpr ⟨row, hrow, reference⟩⟩)
  have looked : CrossReference.typed primary.uid name = res.table.reference primary.uid :=
    references_isFrom resolved _ listed
  rw [TypeTable.reference, named] at looked
  exact ⟨primary, by rw [reference, looked], first, named, by rw [e.uidRegistry_get?, held]; rfl,
    Emission.enumeration_before planned (List.mem_of_find?_eq_some held) placed⟩

/-- Every row of a bitfield is typed by an enumeration exactly if its reference is resolved and
names one. That one is the first with its UID, no satellite, and it is called in the row's accessor
what the registry of UIDs calls it; where the language imports, one line imports its file. -/
theorem fields_typed {overrides : Overrides} {ceiling : Nat} {r : Reader} {res : Resolution}
    (resolved : Resolution.ofReader overrides ceiling r = .ok res) {target : Target}
    {e : Emission} (planned : res.emission target = .ok e) {b : Bitfield} {p : Placement}
    (placed : (Symbol.ofBitfield b, p) ∈ e.placed) {file : Artifact}
    (made : e.symbolArtifact (placedTypes e.placed) (Symbol.ofBitfield b, p) = .ok file) :
    b ∈ res.model.bitfields ∧ file.path = p.file ∧
    ∃ lines before blocks after, file.content = Lines.text lines ∧
      lines = before ++ blocks.flatten ++ after ∧
      List.Forall₂ (Emission.FieldTyped res e b p lines) b.rows blocks := by
  have symbols := Emission.plan_symbols planned
  have known : Symbol.ofBitfield b ∈ res.model.symbols :=
    symbols ▸ List.mem_map.mpr ⟨_, placed, rfl⟩
  obtain ⟨members, lengths, content⟩ := Emission.symbolArtifact_bitfield made
  obtain ⟨before, after, lines⟩ := (e.context b p).bitfieldLines_fields b members
  rw [List.flatMap_def] at lines
  have hb := (Model.mem_bitfields_of_mem known).1
  refine ⟨hb, Emission.symbolArtifact_path made, _, before, _, after, content, lines,
    forall₂_blocks lengths ?_⟩
  intro row hrow member
  refine ⟨Emission.isSome_enumerationOf? planned, ⟨member, ?_⟩, ?_, ?_, ?_⟩
  · exact (e.context b p).accessor_of_field row member
  · intro type typed
    exact Resolution.exists_typedBy resolved planned placed hb hrow typed
  · intro type typed imports
    exact Emission.imported_once members hrow typed imports
  · intro type typed python
    rw [Emission.plan_target planned] at python
    obtain ⟨uid, name, primary, -, -, held⟩ := (Emission.enumerationOf?_context planned).mp typed
    have htype := List.mem_of_find?_eq_some held
    exact ⟨Emission.placed_isModule planned python htype, fun other place hother same =>
      Emission.enumeration_modules planned python htype hother same⟩

/-- A bitfield with a row that refers to a split enumeration. -/
def paintDocument : String :=
  "<r><bitfield uid=\"3\" name=\"Paint\" size=\"8\">" ++
    "<bitfieldrow name=\"Tint\" bit_position=\"0\" xref=\"1\"/></bitfield>" ++
    "<enum uid=\"1\" name=\"Color\" size=\"8\"><enumrow value=\"1\" description=\"Red\"/>" ++
    "<enumrow value=\"2\" description=\"Blue\"/></enum></r>"

theorem paint_fields_typed : ∃ (res : Resolution) (e : Emission) (b : Bitfield) (p : Placement)
    (file : Artifact), Resolution.ofString {} 1 paintDocument = .ok res ∧
    res.emission ⟨.python, "a"⟩ = .ok e ∧
    e.uidRegistry.get? "1" = some "a.enumerations.color.Color" ∧
    res.model.enumerations.map (·.name) = ["Color", "ColorAdditional"] ∧
    res.model.bitfields = [b] ∧ b.rows.map (·.reference) = [some (.typed "1" "Color")] ∧
    ∃ lines before blocks after, file.content = Lines.text lines ∧
      lines = before ++ blocks.flatten ++ after ∧
      List.Forall₂ (Emission.FieldTyped res e b p lines) b.rows blocks := by
  have run : (Resolution.ofString {} 1 paintDocument).toOption.map (fun res =>
      (res.model.enumerations.map (·.name), res.model.bitfields.map (·.rows.map (·.reference)),
        (res.emission ⟨.python, "a"⟩).toOption.map fun e =>
          e.uidRegistry.get? "1" == some "a.enumerations.color.Color" && e.placed.all fun placed =>
            (e.symbolArtifact (placedTypes e.placed) placed).toOption.isSome)) =
      some (["Color", "ColorAdditional"], [[some (.typed "1" "Color")]], some true) := by
    decide +kernel
  obtain ⟨res, hres, facts⟩ := exists_ok_of_map run
  simp only [Prod.mk.injEq] at facts
  obtain ⟨enumerations, bitfields, planned⟩ := facts
  obtain ⟨e, he, facts⟩ := exists_ok_of_map planned
  obtain ⟨registered, all⟩ := Bool.and_eq_true_iff.mp facts
  rw [beq_iff_eq] at registered
  obtain ⟨b, hb, rows⟩ := List.map_eq_singleton_iff.mp bitfields
  have known : Symbol.ofBitfield b ∈ e.placed.map (·.1) := by
    rw [Emission.plan_symbols he, res.model.symbols_eq]
    exact List.mem_append_right _ (Model.mem_otherSymbols.mpr (.inl ⟨b, by simp [hb], rfl⟩))
  obtain ⟨⟨_, p⟩, placed, rfl⟩ := List.mem_map.mp known
  have makes := List.all_eq_true.mp all _ placed
  cases made : e.symbolArtifact (placedTypes e.placed) (Symbol.ofBitfield b, p) with
  | error =>
    rw [made] at makes
    cases makes
  | ok file =>
    obtain ⟨-, -, lines⟩ := fields_typed hres he placed made
    exact ⟨res, e, b, p, file, hres, he, registered, enumerations, hb, rows, lines⟩

end EnumRegistry
