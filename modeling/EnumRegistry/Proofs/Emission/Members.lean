import EnumRegistry.Proofs.Building.RowNames
import EnumRegistry.Proofs.Emission.FieldLines
import EnumRegistry.Proofs.Emission.Namespaces
import EnumRegistry.Proofs.Name.Requests
import Mathlib.Data.List.DropRight

/-!
Members that rows are rendered as. Most types declare no names beside those of their rows and keep
these, with underscores behind those that a language or the type itself has taken; as no name of a
row ends in an underscore, no two of them come to be alike. The other types claim their members in
a scope, where what is claimed is no reserved word either, since no reserved word ends in a digit.
-/

namespace EnumRegistry

/-! ## Reserved words -/

namespace Language

variable (l : Language)

theorem isReserved_eq_false {word : String} :
    l.isReserved word = false ↔ word ∉ l.reservedWords := by
  rw [isReserved, ← Bool.not_eq_true, List.contains_iff_mem]

theorem isReserved_of_digit {word : String} {c : Char} (last : word.toList.getLast? = some c)
    (digit : c.isDigit = true) : l.isReserved word = false := by
  have letters : ∀ reserved ∈ l.reservedWords,
      reserved.toList.getLast?.any Char.isDigit = false := by
    cases l <;> decide
  refine l.isReserved_eq_false.mpr fun reserved => ?_
  simpa [last, digit] using letters word reserved

/-- Numbers keep a name as clear of reserved words as it was. -/
theorem isReserved_of_spells {base name : String} (free : l.isReserved base = false)
    (spells : NameScope.Spells base name) : l.isReserved name = false := by
  rcases spells.eq_or_digit with rfl | ⟨c, last, digit⟩
  · exact free
  · exact l.isReserved_of_digit last digit

theorem isReserved_claimAll {s t : NameScope} {bases names : List String}
    (free : ∀ base ∈ bases, l.isReserved base = false) (h : s.claimAll bases = .ok (names, t)) :
    ∀ name ∈ names, l.isReserved name = false :=
  NameScope.claimAll_forall (fun spells free => l.isReserved_of_spells free spells) h free

theorem java_isReserved_get (property : String) : java.isReserved ("get" ++ property) = false := by
  have none : ∀ reserved ∈ java.reservedWords, ¬ "get".toList <+: reserved.toList := by decide
  refine java.isReserved_eq_false.mpr fun reserved => ?_
  exact none _ reserved (by simp [String.toList_append])

end Language

namespace RenderContext

variable (cx : RenderContext)

theorem isReserved_member (name : String) : cx.language.isReserved (cx.member name) = false := by
  unfold member
  dsimp only
  split
  · exact cx.language.isReserved_underscore _
  · exact cx.language.isReserved_escape name

theorem isReserved_candidate (kind : TypeKind) (name : String) :
    cx.language.isReserved (cx.candidate kind name) = false := by
  unfold candidate
  split
  · rename_i java
    rw [java]
    exact Language.java_isReserved_get _
  · exact cx.isReserved_member _
  · exact cx.isReserved_member _

/-! ## Underscores behind names -/

theorem member_eq (name : String) :
    ∃ count, (cx.member name).toList = name.toList ++ List.replicate count '_' := by
  unfold member Language.escape
  dsimp only
  split <;> split
  · exact ⟨2, by simp [String.toList_append]⟩
  · exact ⟨1, by simp [String.toList_append]⟩
  · exact ⟨1, by simp [String.toList_append]⟩
  · exact ⟨0, by simp⟩

end RenderContext

theorem rdropWhile_underscores {cs : List Char} (h : cs.getLast? ≠ some '_') (count : Nat) :
    (cs ++ List.replicate count '_').rdropWhile Name.isUnderscore = cs := by
  induction count with
  | zero =>
    rw [List.replicate_zero, List.append_nil, List.rdropWhile_eq_self_iff]
    intro nonempty last
    rw [List.getLast?_eq_some_getLast nonempty] at h
    exact h (congrArg some (by simpa [Name.isUnderscore] using last))
  | succ count ih =>
    rw [List.replicate_succ', ← List.append_assoc, List.rdropWhile_concat_pos _ _ _ (by decide), ih]

theorem upper_of_isNameChar {c : Char} (h : Name.isNameChar c = true) :
    Text.upper c = [c.toUpper] := by
  rw [Text.upper, if_pos (toNat_lt_of_isNameChar h)]

theorem toUpper_ne_underscore {c : Char} (h : Name.isNameChar c = true) (apart : c ≠ '_') :
    c.toUpper ≠ '_' :=
  of_ascii (P := fun c => Name.isNameChar c = true → c ≠ '_' → c.toUpper ≠ '_') (by decide)
    (toNat_lt_of_isNameChar h) h apart

/-- Upper case changes nothing in how a name ends. -/
theorem ClosedName.getLast?_lookupKey {name : String} (h : ClosedName name) :
    (lookupKey name).toList.getLast? ≠ some '_' := by
  have upper : (lookupKey name).toList = name.toList.map Char.toUpper := by
    rw [lookupKey, Text.upperCase, String.toList_ofList,
      List.flatMap_congr fun c hc => upper_of_isNameChar (h.plain.chars c hc)]
    exact (List.map_eq_flatMap ..).symm
  rw [upper, List.getLast?_map]
  intro last
  obtain ⟨c, hc, underscore⟩ := Option.map_eq_some_iff.mp last
  refine toUpper_ne_underscore (h.plain.chars c (List.mem_of_getLast? hc)) ?_ underscore
  rintro rfl
  exact h.finish hc

/-- A key without the underscores at its end. -/
def bareKey (key : String) : String := String.ofList (key.toList.rdropWhile Name.isUnderscore)

namespace RenderContext

variable (cx : RenderContext)

/-- What is put behind a closed name can be taken off again. -/
theorem bareKey_member {name : String} (h : ClosedName name) :
    bareKey (lookupKey (cx.member name)) = lookupKey name := by
  obtain ⟨count, member⟩ := cx.member_eq name
  have underscores : (List.replicate count '_').flatMap Text.upper = List.replicate count '_' := by
    rw [List.flatMap_congr (g := fun c => [c]), List.flatMap_singleton']
    intro c hc
    obtain rfl := List.eq_of_mem_replicate hc
    rfl
  have key : (lookupKey (cx.member name)).toList =
      (lookupKey name).toList ++ List.replicate count '_' := by
    simp only [lookupKey, Text.upperCase, String.toList_ofList, member, List.flatMap_append,
      underscores]
  rw [bareKey, key, rdropWhile_underscores h.getLast?_lookupKey, String.ofList_toList]

/-- Members are apart where the names are. -/
theorem nodup_members {names : List String} (closed : ∀ name ∈ names, ClosedName name)
    (apart : (names.map lookupKey).Nodup) : ((names.map cx.member).map lookupKey).Nodup := by
  have same : ((names.map cx.member).map lookupKey).map bareKey = names.map lookupKey := by
    rw [List.map_map, List.map_map]
    exact List.map_congr_left fun name h => cx.bareKey_member (closed name h)
  exact List.Nodup.of_map bareKey (same ▸ apart)

theorem candidate_of_unfixed {kind : TypeKind} (h : cx.language.fixedMembers kind = none) :
    cx.candidate kind = cx.member := by
  funext name
  unfold candidate
  cases hl : cx.language <;> cases kind <;> rw [hl] at h <;> first | rfl | cases h

/-- Members differ by more than case and are clear of reserved words. -/
theorem members_nodup {kind : TypeKind} {names members : List String}
    (closed : ∀ name ∈ names, ClosedName name) (apart : (names.map lookupKey).Nodup)
    (h : cx.members kind names = .ok members) :
    (members.map lookupKey).Nodup ∧
      ∀ member ∈ members, cx.language.isReserved member = false := by
  have free : ∀ candidate ∈ names.map (cx.candidate kind),
      cx.language.isReserved candidate = false :=
    List.forall_mem_map.mpr fun name _ => cx.isReserved_candidate kind name
  unfold RenderContext.members at h
  split at h
  · rename_i unfixed
    cases h
    rw [cx.candidate_of_unfixed unfixed] at free ⊢
    exact ⟨cx.nodup_members closed apart, free⟩
  · obtain ⟨⟨_, scope⟩, claims, rfl⟩ := map_eq_ok.mp h
    exact ⟨NameScope.claimAll_nodup claims, cx.language.isReserved_claimAll free claims⟩

end RenderContext

/-! ## Members in the text -/

/-- Among some lines there are some that begin with given heads, one for each and in order. -/
def Lines.Declare (lines : Lines) (heads : List String) : Prop :=
  ∃ declared : List String, declared.Sublist lines ∧
    List.Forall₂ (fun head line => head.toList <+: line.toList) heads declared

namespace Lines.Declare

variable {lines : Lines} {heads : List String}

theorem before (h : lines.Declare heads) (after : Lines) :
    Lines.Declare (lines ++ after) heads := by
  obtain ⟨declared, among, each⟩ := h
  exact ⟨declared, among.trans (List.sublist_append_left _ _), each⟩

theorem behind (h : lines.Declare heads) (before : Lines) :
    Lines.Declare (before ++ lines) heads := by
  obtain ⟨declared, among, each⟩ := h
  exact ⟨declared, among.trans (List.sublist_append_right _ _), each⟩

theorem append {lines' : Lines} {heads' : List String} (h : lines.Declare heads)
    (h' : lines'.Declare heads') : Lines.Declare (lines ++ lines') (heads ++ heads') := by
  obtain ⟨declared, among, each⟩ := h
  obtain ⟨declared', among', each'⟩ := h'
  exact ⟨declared ++ declared', among.append among', List.rel_append each each'⟩

theorem singleton {line head : String} (among : line ∈ lines) (h : head.toList <+: line.toList) :
    lines.Declare [head] :=
  ⟨[line], List.singleton_sublist.mpr among, .cons h .nil⟩

theorem flatMap {α : Type} {zs : List α} {text : α → Lines} {head : α → String}
    (h : ∀ z, ∃ line ∈ text z, (head z).toList <+: line.toList) :
    Lines.Declare (zs.flatMap text) (zs.map head) := by
  induction zs with
  | nil => exact ⟨[], .refl [], .nil⟩
  | cons z zs ih =>
    obtain ⟨line, among, starts⟩ := h z
    rw [List.flatMap_cons]
    exact (singleton among starts).append ih

theorem map {α : Type} {zs : List α} {text head : α → String}
    (h : ∀ z, (head z).toList <+: (text z).toList) :
    Lines.Declare (zs.map text) (zs.map head) := by
  rw [List.map_eq_flatMap (f := text)]
  exact flatMap fun z => ⟨text z, List.mem_singleton_self _, h z⟩

/-- What ends the constants of an enum stands behind their heads. -/
theorem constants {α : Type} {zs : List α} {text : α → Lines × String} {head : α → String}
    (h : ∀ z, (head z).toList <+: (text z).2.toList) :
    Lines.Declare (Java.constants (zs.map text)) (zs.map head) := by
  have starts (z : α) (mark : String) : (head z).toList <+: ((text z).2 ++ mark).toList := by
    rw [String.toList_append]
    exact (h z).trans (List.prefix_append _ _)
  induction zs with
  | nil => exact ⟨[], List.nil_sublist _, .nil⟩
  | cons z zs ih =>
    cases zs with
    | nil => exact (singleton (List.mem_singleton_self _) (starts z ";")).behind _
    | cons z' zs =>
      have first := (singleton (List.mem_singleton_self _) (starts z ",")).behind (text z).1
      exact first.append ih

end Lines.Declare

namespace Language

/-- How the member of an enumeration begins. -/
def enumeratorHead (l : Language) (member : String) : String :=
  match l with
  | java => "    " ++ member ++ "("
  | cpp | python => "    " ++ member ++ " = "
  | csharp => "        " ++ member ++ " = "

/-- How the member of a dictionary begins. -/
def constantHead (l : Language) (member : String) : String :=
  match l with
  | java => "    " ++ member ++ "(\""
  | cpp => "    static constexpr const char* " ++ member ++ " = \""
  | csharp => "        public const string " ++ member ++ " = \""
  | python => "    " ++ member ++ " = \""

@[simp] theorem java_constantHead (member : String) :
    java.constantHead member = "    " ++ member ++ "(\"" := rfl

@[simp] theorem cpp_constantHead (member : String) : cpp.constantHead member =
    "    static constexpr const char* " ++ member ++ " = \"" := rfl

@[simp] theorem csharp_constantHead (member : String) : csharp.constantHead member =
    "        public const string " ++ member ++ " = \"" := rfl

@[simp] theorem python_constantHead (member : String) :
    python.constantHead member = "    " ++ member ++ " = \"" := rfl

end Language

namespace RenderContext

variable (cx : RenderContext)

/-- How the members of a type begin, one for each row. -/
def heads (members : List String) : SymbolBody → List String
  | .enumeration e => (e.rows.zip members).map fun x => cx.language.enumeratorHead x.2
  | .bitfield b => (b.rows.zip members).map fun x => cx.language.accessorHead
      (cx.language.accessorType (cx.enumerationOf? x.1.reference)) x.2
  | .dictionary d => (d.rows.zip members).map fun x => cx.language.constantHead x.2
  | .classification _ _ => []

theorem enumerationLines_declare (e : Enumeration) (members : List String) :
    (cx.enumerationLines e members).Declare (cx.heads members (.enumeration e)) := by
  unfold enumerationLines heads
  cases cx.language with
  | java =>
    refine ((Lines.Declare.constants fun x => ?_).behind _).before _
    simp [Language.enumeratorHead]
  | cpp =>
    simp only [Cpp.enumeration, Cpp.header]
    refine (((((Lines.Declare.map fun x => ?_).behind _).before _).before _).before _
      |>.behind _).before _
    simp [Language.enumeratorHead]
  | csharp =>
    simp only [CSharp.enumeration, CSharp.source]
    refine ((((Lines.Declare.flatMap fun x => ?_).behind _).before _).behind _).before _
    simp [Language.enumeratorHead]
  | python =>
    refine ((Lines.Declare.map fun x => ?_).behind _).before _
    simp [Language.enumeratorHead]

theorem bitfieldLines_declare (b : Bitfield) (members : List String) :
    (cx.bitfieldLines b members).Declare (cx.heads members (.bitfield b)) := by
  obtain ⟨before, after, lines⟩ := cx.bitfieldLines_fields b members
  rw [lines, heads]
  refine ((Lines.Declare.flatMap fun x => ?_).behind before).before after
  exact cx.accessor_of_field x.1 x.2

theorem dictionaryLines_declare (d : Dictionary) (members : List String) :
    (cx.dictionaryLines d members).Declare (cx.heads members (.dictionary d)) := by
  unfold dictionaryLines heads
  cases cx.language with
  | java =>
    refine ((Lines.Declare.constants fun x => ?_).behind _).before _
    simp
  | cpp =>
    simp only [Cpp.dictionary, Cpp.header]
    refine ((((Lines.Declare.flatMap fun x => ?_).behind _).before _).behind _).before _
    simp
  | csharp =>
    simp only [CSharp.dictionary, CSharp.source]
    refine ((((Lines.Declare.flatMap fun x => ?_).behind _).before _).behind _).before _
    simp
  | python =>
    refine ((Lines.Declare.map fun x => ?_).behind _).before _
    simp

/-- The rendered lines of a type declare a member for each row. -/
theorem render_declare {body : SymbolBody} {kind : TypeKind} (typed : body.typeKind? = some kind)
    {lines : Lines} (rendered : cx.render body = .ok lines) :
    ∃ members, cx.members kind body.rowNames = .ok members ∧
      lines.Declare (cx.heads members body) := by
  cases body with
  | enumeration e =>
    cases typed
    obtain ⟨members, made, rfl⟩ := map_eq_ok.mp rendered
    exact ⟨members, made, cx.enumerationLines_declare e members⟩
  | bitfield b =>
    cases typed
    obtain ⟨members, made, rfl⟩ := map_eq_ok.mp rendered
    exact ⟨members, made, cx.bitfieldLines_declare b members⟩
  | dictionary d =>
    cases typed
    obtain ⟨members, made, rfl⟩ := map_eq_ok.mp rendered
    exact ⟨members, made, cx.dictionaryLines_declare d members⟩
  | classification => cases typed

end RenderContext

/-- Without overrides, whatever type of the model is rendered in whatever language and place, its
lines declare a member for each of its rows; these members differ by more than case and none is a
reserved word of the language. -/
theorem members_apart {ceiling : Nat} {r : Reader} {res : Resolution}
    (h : Resolution.ofReader {} ceiling r = .ok res) {s : Symbol} (hs : s ∈ res.model.symbols)
    {kind : TypeKind} (typed : s.body.typeKind? = some kind) (cx : RenderContext) {lines : Lines}
    (rendered : cx.render s.body = .ok lines) :
    ∃ members, cx.members kind s.body.rowNames = .ok members ∧
      members.length = s.body.rowNames.length ∧ lines.Declare (cx.heads members s.body) ∧
      (members.map lookupKey).Nodup ∧
      ∀ member ∈ members, cx.language.isReserved member = false := by
  obtain ⟨members, made, declares⟩ := cx.render_declare typed rendered
  obtain ⟨apart, closed⟩ := Resolution.rowNames_closed h s hs
  exact ⟨members, made, cx.length_members made, declares, cx.members_nodup closed apart made⟩

/-- A dictionary and a row that are called by a reserved word, and a row that has it in capitals. -/
def reservedDocument : String :=
  "<dict uid=\"1\" name=\"new\"><dictrow value=\"a\" description=\"new\"/>" ++
    "<dictrow value=\"b\" description=\"NEW\"/></dict>"

/-- Where the dictionary is placed in C++. -/
def reservedContext : RenderContext where
  language := .cpp
  placement := ⟨["a", "dictionaries"], "new_", "a::dictionaries", "a/dictionaries/new_.hpp",
    "a::dictionaries::new_"⟩
  uid := some "1"
  revision := none
  types := {}

theorem reserved_members_apart : ∃ res s lines members,
    Resolution.ofReader {} 4096 (.ofString reservedDocument) = .ok res ∧
      res.model.symbols = [s] ∧ s.body.typeKind? = some .dictionary ∧
      reservedContext.render s.body = .ok lines ∧
      reservedContext.members .dictionary s.body.rowNames = .ok members ∧
      members = ["new__", "NEW1"] ∧ (members.map lookupKey).Nodup ∧
      ∀ member ∈ members, Language.cpp.isReserved member = false := by
  have run : (Resolution.ofReader {} 4096 (.ofString reservedDocument)).toOption.map
      (fun res => res.model.symbols.map fun s => (s.body.typeKind?,
        (reservedContext.render s.body).toOption.map fun _ => (),
        (reservedContext.members .dictionary s.body.rowNames).toOption)) =
      some [(some .dictionary, some (), some ["new__", "NEW1"])] := by
    decide +kernel
  obtain ⟨res, hres, symbols⟩ := exists_ok_of_map run
  obtain ⟨s, hs, same⟩ := List.map_eq_singleton_iff.mp symbols
  obtain ⟨typed, rendered, made⟩ : _ ∧ _ ∧ _ := by simpa only [Prod.mk.injEq] using same
  obtain ⟨lines, rendered, -⟩ := exists_ok_of_map rendered
  have member : s ∈ res.model.symbols := hs ▸ List.mem_singleton_self s
  obtain ⟨members, made', -, -, apart, free⟩ :=
    members_apart hres member typed reservedContext rendered
  refine ⟨res, s, lines, members, hres, hs, typed, rendered, made', ?_, apart, free⟩
  rw [made'] at made
  exact Option.some.inj made

end EnumRegistry
