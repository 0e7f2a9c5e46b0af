import EnumRegistry.Proofs.Emission.Members
import EnumRegistry.Proofs.Emission.Rendering

/-!
Names that a text declares itself, besides the members of its rows. Where members are claimed, these
names are taken first, and where members are getters, constants and fields are out of their way; a
Java dictionary has two fields and claims nothing.
-/

namespace EnumRegistry

/-- A name that a line declares, with what stands before it and directly behind. -/
structure Declarator where
  before : String
  name : String
  behind : String

/-- How the line begins. -/
def Declarator.head (d : Declarator) : String := d.before ++ d.name ++ d.behind

/-- What the text of a symbol declares besides the members of its rows: constants, fields and
properties, and where rows are methods, the methods that they could be mistaken for. -/
def Language.ownDeclarators : Language → SymbolBody → List Declarator
  | .java, .enumeration e =>
    [⟨"    public static final int ", "BIT_SIZE", " = "⟩,
      ⟨"    private final " ++ (Java.valueType e.width).1 ++ " ", "value", ";"⟩,
      ⟨"    private final String ", "description", ";"⟩]
  | .java, .bitfield _ =>
    [⟨"    public static final int ", "SIZE_BITS", " = "⟩,
      ⟨"    public static final int ", "PADDING_BITS", " = "⟩,
      ⟨"    private final long ", "bits", ";"⟩, ⟨"    public long ", "getBits", "() \x7b"⟩]
  | .java, .dictionary _ =>
    [⟨"    private final String ", "code", ";"⟩, ⟨"    private final String ", "description", ";"⟩]
  | .java, .classification _ _ =>
    [⟨"    public static final String ", "LEVEL", " = \""⟩,
      ⟨"    public static final int ", "VALUE", " = "⟩,
      ⟨"    public static final String ", "DESCRIPTION", " = \""⟩,
      ⟨"    public static final int[] ", "CODES", " = \x7b"⟩]
  | .cpp, .bitfield _ =>
    [⟨"    static constexpr unsigned ", "kSizeBits", " = "⟩,
      ⟨"    static constexpr unsigned ", "kPaddingBits", " = "⟩,
      ⟨"    std::uint64_t ", "bits", " = 0;"⟩]
  | .cpp, .classification _ _ =>
    [⟨"    static constexpr const char* ", "kLevel", " = \""⟩,
      ⟨"    static constexpr int ", "kValue", " = "⟩,
      ⟨"    static constexpr const char* ", "kDescription", " = \""⟩,
      ⟨"    static constexpr int ", "kCodes", "["⟩]
  | .csharp, .bitfield _ =>
    [⟨"        public const int ", "SizeBits", " = "⟩,
      ⟨"        public const int ", "PaddingBits", " = "⟩,
      ⟨"        public ulong ", "Bits", " \x7b get; \x7d"⟩]
  | .csharp, .classification _ _ =>
    [⟨"        public const string ", "Level", " = \""⟩,
      ⟨"        public const int ", "Value", " = "⟩,
      ⟨"        public const string ", "Description", " = \""⟩,
      ⟨"        public static readonly int[] ", "Codes", " = \x7b "⟩]
  | .python, .enumeration _ => [⟨"    def ", "bit_size", "(self) -> int:"⟩]
  | .python, .bitfield _ =>
    [⟨"    ", "SIZE_BITS", " = "⟩, ⟨"    ", "PADDING_BITS", " = "⟩,
      ⟨"        self.", "bits", " = bits"⟩]
  | .python, .classification _ _ =>
    [⟨"    ", "LEVEL", " = \""⟩, ⟨"    ", "VALUE", " = "⟩, ⟨"    ", "DESCRIPTION", " = \""⟩,
      ⟨"    ", "CODES", " = ("⟩]
  | .cpp, .enumeration _ | .cpp, .dictionary _ | .csharp, .enumeration _ | .csharp, .dictionary _
  | .python, .dictionary _ => []

/-- The names of what the text of a symbol declares itself. -/
def Language.ownNames (l : Language) (body : SymbolBody) : List String :=
  (l.ownDeclarators body).map (·.name)

/-- What the text of a type declares itself is taken when members are claimed, or is a constant or
field where members are getters, or belongs to a Java dictionary. -/
theorem Language.ownNames_cases (l : Language) {body : SymbolBody} {kind : TypeKind}
    (typed : body.typeKind? = some kind) {own : String} (h : own ∈ l.ownNames body) :
    (∃ fixed, l.fixedMembers kind = some fixed ∧ own ∈ fixed) ∨
      (l = .java ∧ kind = .bitfield ∧ ¬ "get".toList <+: own.toList) ∨
      l = .java ∧ kind = .dictionary := by
  cases body with
  | enumeration e =>
    cases typed
    cases l with
    | java => exact .inl ⟨_, rfl, h⟩
    | python => exact .inl ⟨_, rfl, List.mem_cons.mpr (.inl (List.mem_singleton.mp h))⟩
    | cpp | csharp => cases h
  | bitfield b =>
    cases typed
    -- Of what is declared in Java, a getter could be called `getBits` only.
    cases l with
    | java =>
      have each : ∀ own ∈ ["SIZE_BITS", "PADDING_BITS", "bits", "getBits"],
          own = "getBits" ∨ ¬ "get".toList <+: own.toList := by decide
      rcases each own h with rfl | noGetter
      · exact .inl ⟨_, rfl, by decide⟩
      · exact .inr (.inl ⟨rfl, rfl, noGetter⟩)
    | cpp =>
      have taken : ["kSizeBits", "kPaddingBits", "bits"] ⊆
          ["bits", "kSizeBits", "kPaddingBits"] := by decide
      exact .inl ⟨_, rfl, taken h⟩
    | csharp =>
      have taken : ["SizeBits", "PaddingBits", "Bits"] ⊆
          ["Bits", "SizeBits", "PaddingBits"] := by decide
      exact .inl ⟨_, rfl, taken h⟩
    | python =>
      have taken : ["SIZE_BITS", "PADDING_BITS", "bits"] ⊆
          ["bits", "SIZE_BITS", "PADDING_BITS"] := by decide
      exact .inl ⟨_, rfl, taken h⟩
  | dictionary d =>
    cases typed
    cases l with
    | java => exact .inr (.inr ⟨rfl, rfl⟩)
    | cpp | csharp | python => cases h
  | classification => cases typed

/-! ## Lines that declare them -/

/-- A line begins with a head. -/
def Begins (head line : String) : Prop := head.toList <+: line.toList

theorem Begins.of_eq {head line : String} (h : head = line) : Begins head line :=
  h ▸ List.prefix_rfl

theorem Begins.append {head line : String} (h : Begins head line) (more : String) :
    Begins head (line ++ more) := by
  rw [Begins, String.toList_append]
  exact h.trans (List.prefix_append _ _)

/-- Every declarator begins one of the lines. -/
def Lines.Own (lines : Lines) (declarators : List Declarator) : Prop :=
  ∀ d ∈ declarators, ∃ line ∈ lines, Begins d.head line

namespace Lines.Own

variable {lines : Lines} {ds : List Declarator}

theorem nil : lines.Own [] := nofun

theorem cons {d : Declarator} {line : String} (i : Nat) (here : lines[i]? = some line)
    (begins : Begins d.head line) (h : lines.Own ds) : lines.Own (d :: ds) :=
  List.forall_mem_cons.mpr ⟨⟨line, List.mem_of_getElem? here, begins⟩, h⟩

theorem among {lines' : Lines} (h : lines.Own ds) (inside : lines ⊆ lines') : lines'.Own ds := by
  intro d hd
  obtain ⟨line, hline, begins⟩ := h d hd
  exact ⟨line, inside hline, begins⟩

theorem behind (h : lines.Own ds) (before : Lines) : Own (before ++ lines) ds :=
  h.among (List.subset_append_right _ _)

theorem before (h : lines.Own ds) (after : Lines) : Own (lines ++ after) ds :=
  h.among (List.subset_append_left _ _)

end Lines.Own

namespace RenderContext

variable (cx : RenderContext)

theorem enumerationLines_own (e : Enumeration) (members : List String) :
    (cx.enumerationLines e members).Own (cx.language.ownDeclarators (.enumeration e)) := by
  unfold enumerationLines
  cases cx.language with
  | java =>
    refine Lines.Own.behind ?_ _
    refine .cons 2 rfl (.append (.append (.of_eq rfl) _) _) (.cons 4 rfl (.of_eq ?_)
      (.cons 5 rfl (.of_eq rfl) .nil))
    cases e.width <;> rfl
  | cpp | csharp => exact .nil
  | python =>
    refine Lines.Own.behind ?_ _
    exact .cons 2 rfl (.of_eq rfl) .nil

theorem bitfieldLines_own (b : Bitfield) (members : List String) :
    (cx.bitfieldLines b members).Own (cx.language.ownDeclarators (.bitfield b)) := by
  unfold bitfieldLines
  cases cx.language with
  | java =>
    refine (Lines.Own.behind ?_ _).before _ |>.before _
    exact .cons 1 rfl (.append (.append (.of_eq rfl) _) _)
      (.cons 2 rfl (.append (.append (.of_eq rfl) _) _)
        (.cons 4 rfl (.of_eq rfl) (.cons 10 rfl (.of_eq rfl) .nil)))
  | cpp =>
    refine ((Lines.Own.before (Lines.Own.before ?_ _) _).behind _).before _
    exact .cons 1 rfl (.append (.append (.of_eq rfl) _) _)
      (.cons 2 rfl (.append (.append (.of_eq rfl) _) _)
        (.cons 4 rfl (.of_eq rfl) .nil))
  | csharp =>
    refine ((Lines.Own.before (Lines.Own.before ?_ _) _).behind _).before _
    exact .cons 2 rfl (.append (.append (.of_eq rfl) _) _)
      (.cons 3 rfl (.append (.append (.of_eq rfl) _) _)
        (.cons 7 rfl (.of_eq rfl) .nil))
  | python =>
    refine (Lines.Own.behind ?_ _).before _
    exact .cons 4 rfl (.append (.of_eq rfl) _) (.cons 5 rfl (.append (.of_eq rfl) _)
      (.cons 8 rfl (.of_eq rfl) .nil))

theorem dictionaryLines_own (d : Dictionary) (members : List String) :
    (cx.dictionaryLines d members).Own (cx.language.ownDeclarators (.dictionary d)) := by
  unfold dictionaryLines
  cases cx.language with
  | java =>
    refine Lines.Own.behind ?_ _
    exact .cons 1 rfl (.of_eq rfl) (.cons 2 rfl (.of_eq rfl) .nil)
  | cpp | csharp | python => exact .nil

theorem classificationLines_own (t : ClassificationTree) (id : Nat) (n : ClassificationNode) :
    (cx.classificationLines t id n).Own (cx.language.ownDeclarators (.classification t id)) := by
  unfold classificationLines
  cases cx.language with
  | java =>
    refine Lines.Own.behind ?_ _
    exact .cons 1 rfl (.append (.append (.of_eq rfl) _) _)
      (.cons 2 rfl (.append (.append (.of_eq rfl) _) _)
        (.cons 3 rfl (.append (.append (.of_eq rfl) _) _)
          (.cons 5 rfl (.append (.append (.of_eq rfl) _) _) .nil)))
  | cpp =>
    refine (Lines.Own.behind ?_ _).before _
    exact .cons 1 rfl (.append (.append (.of_eq rfl) _) _)
      (.cons 2 rfl (.append (.append (.of_eq rfl) _) _)
        (.cons 3 rfl (.append (.append (.of_eq rfl) _) _)
          (.cons 4 rfl (.append (.append (.append (.append (.of_eq rfl) _) _) _) _) .nil)))
  | csharp =>
    refine (Lines.Own.behind ?_ _).before _
    exact .cons 2 rfl (.append (.append (.of_eq rfl) _) _)
      (.cons 3 rfl (.append (.append (.of_eq rfl) _) _)
        (.cons 4 rfl (.append (.append (.of_eq rfl) _) _)
          (.cons 5 rfl (.append (.append (.of_eq rfl) _) _) .nil)))
  | python =>
    refine Lines.Own.behind ?_ _
    exact .cons 2 rfl (.append (.append (.of_eq rfl) _) _)
      (.cons 3 rfl (.append (.of_eq rfl) _)
        (.cons 4 rfl (.append (.append (.of_eq rfl) _) _)
          (.cons 5 rfl (.append (.append (.of_eq rfl) _) _) .nil)))

/-- The lines of a type declare what its text declares itself. -/
theorem render_own {body : SymbolBody} {kind : TypeKind} (typed : body.typeKind? = some kind)
    {lines : Lines} (rendered : cx.render body = .ok lines) :
    lines.Own (cx.language.ownDeclarators body) := by
  cases body with
  | enumeration e =>
    obtain ⟨members, -, rfl⟩ := map_eq_ok.mp rendered
    exact cx.enumerationLines_own e members
  | bitfield b =>
    obtain ⟨members, -, rfl⟩ := map_eq_ok.mp rendered
    exact cx.bitfieldLines_own b members
  | dictionary d =>
    obtain ⟨members, -, rfl⟩ := map_eq_ok.mp rendered
    exact cx.dictionaryLines_own d members
  | classification => cases typed

/-! ## Members beside them -/

/-- Where members are claimed, they differ by more than case from what was taken before. -/
theorem members_apart_fixed {kind : TypeKind} {names members fixed : List String}
    (claimed : cx.language.fixedMembers kind = some fixed)
    (made : cx.members kind names = .ok members) :
    ∀ member ∈ members, ∀ own ∈ fixed, lookupKey own ≠ lookupKey member := by
  unfold RenderContext.members at made
  rw [claimed] at made
  obtain ⟨⟨_, scope⟩, claims, rfl⟩ := map_eq_ok.mp made
  intro member hmember own hown same
  have free := NameScope.claimAll_fresh claims member hmember
  refine ne_true_of_eq_false free ?_
  rw [NameScope.contains, Std.TreeSet.contains_iff_mem]
  exact (NameScope.mem_insertAll _ _ _).mpr (.inr ⟨own, hown, same⟩)

/-- Getters begin alike, with numbers behind them or not. -/
theorem java_getters {names members : List String} (java : cx.language = .java)
    (made : cx.members .bitfield names = .ok members) :
    ∀ member ∈ members, "get".toList <+: member.toList := by
  unfold RenderContext.members at made
  rw [java] at made
  obtain ⟨⟨_, scope⟩, claims, rfl⟩ := map_eq_ok.mp made
  refine NameScope.claimAll_forall ?_ claims ?_
  · rintro base _ ⟨attempt, rfl⟩ get
    unfold NameScope.spelling
    split
    · exact get
    · rw [String.toList_append]
      exact get.trans (List.prefix_append _ _)
  · refine List.forall_mem_map.mpr fun name _ => ?_
    unfold candidate
    rw [java, String.toList_append]
    exact List.prefix_append _ _

/-- Where nothing is claimed, every row keeps its name as far as a member can have it. -/
theorem members_of_unfixed {kind : TypeKind} (unfixed : cx.language.fixedMembers kind = none)
    (names : List String) : cx.members kind names = .ok (names.map cx.member) := by
  rw [RenderContext.members, unfixed, cx.candidate_of_unfixed unfixed]

/-- No name becomes a member that is called as the type around it. -/
theorem member_ne_identifier (name : String) : cx.member name ≠ cx.identifier := by
  unfold member
  dsimp only
  split
  · rename_i around
    intro same
    rw [beq_iff_eq] at around
    have longer := congrArg String.length (same.trans around.symm)
    simp at longer
  · rename_i around
    simpa using around

/-- A word that is free and does not end in an underscore is what its own name becomes, unless the
type around it is called so, and what no other name becomes. -/
theorem member_eq_iff {name own : String} (free : cx.language.isReserved own = false)
    (finish : own.toList.getLast? ≠ some '_') :
    cx.member name = own ↔ name = own ∧ own ≠ cx.identifier := by
  constructor
  · intro becomes
    refine ⟨?_, becomes ▸ cx.member_ne_identifier name⟩
    obtain ⟨count, member⟩ := cx.member_eq name
    rw [becomes] at member
    cases count with
    | zero => exact String.ext (by simpa using member.symm)
    | succ count =>
      refine absurd ?_ finish
      rw [member, List.replicate_succ', ← List.append_assoc, List.getLast?_concat]
  · rintro ⟨rfl, apart⟩
    simp [member, Language.escape, free, apart]

/-- Of the names that the text of a type declares itself, only those of Java dictionaries are not
kept from being members. -/
theorem ownNames_not_members {body : SymbolBody} {kind : TypeKind}
    (typed : body.typeKind? = some kind) {names members : List String}
    (made : cx.members kind names = .ok members)
    (guarded : ¬ (cx.language = .java ∧ kind = .dictionary)) :
    ∀ own ∈ cx.language.ownNames body, own ∉ members := by
  intro own hown member
  rcases cx.language.ownNames_cases typed hown with
    ⟨fixed, claims, taken⟩ | ⟨java, rfl, noGetter⟩ | free
  · exact cx.members_apart_fixed claims made own member own taken rfl
  · exact noGetter (cx.java_getters java made own member)
  · exact guarded free

/-- A row of a Java dictionary has the member of a field's name just when it is called so itself. -/
theorem java_dictionary_member (java : cx.language = .java) {d : Dictionary} {own : String}
    (h : own ∈ cx.language.ownNames (.dictionary d)) {names members : List String}
    (made : cx.members .dictionary names = .ok members) (i : Nat) :
    members[i]? = some own ↔ names[i]? = some own ∧ own ≠ cx.identifier := by
  rw [cx.members_of_unfixed (by rw [java]; rfl)] at made
  cases made
  have plain : ∀ own ∈ ["code", "description"],
      Language.java.isReserved own = false ∧ own.toList.getLast? ≠ some '_' := by decide
  rw [java] at h
  obtain ⟨free, finish⟩ := plain own h
  rw [← java] at free
  simp only [List.getElem?_map, Option.map_eq_some_iff, cx.member_eq_iff free finish]
  constructor
  · rintro ⟨name, row, rfl, apart⟩
    exact ⟨row, apart⟩
  · rintro ⟨row, apart⟩
    exact ⟨own, row, rfl, apart⟩

end RenderContext

/-- Whatever the rows of a type are called and whatever language and place it is rendered in, its
lines declare a member for each row beside the names of their own. A member is one of these only in
a Java dictionary: there a row called `code` or `description` becomes the constant of that name,
which is that of a field, unless the dictionary itself is called so. -/
theorem members_beside_own_names {cx : RenderContext} {body : SymbolBody} {kind : TypeKind}
    (typed : body.typeKind? = some kind) {lines : Lines} (rendered : cx.render body = .ok lines) :
    ∃ members : List String, cx.members kind body.rowNames = .ok members ∧
      lines.Declare (cx.heads members body) ∧ lines.Own (cx.language.ownDeclarators body) ∧
      ∀ own ∈ cx.language.ownNames body, ∀ i : Nat, members[i]? = some own ↔
        cx.language = .java ∧ kind = .dictionary ∧ body.rowNames[i]? = some own ∧
          own ≠ cx.identifier := by
  obtain ⟨members, made, declares⟩ := cx.render_declare typed rendered
  refine ⟨members, made, declares, cx.render_own typed rendered, fun own hown i => ?_⟩
  by_cases unclaimed : cx.language = .java ∧ kind = .dictionary
  · obtain ⟨java, rfl⟩ := unclaimed
    cases body with
    | dictionary d =>
      rw [cx.java_dictionary_member java hown made]
      simp only [java, true_and]
    | enumeration | bitfield | classification => cases typed
  · have apart := cx.ownNames_not_members typed made unclaimed own hown
    refine iff_of_false (fun here => apart (List.mem_of_getElem? here)) ?_
    rintro ⟨java, dictionary, -⟩
    exact unclaimed ⟨java, dictionary⟩

/-- A dictionary with a row called as a field of its enum. -/
def codeDocument : String :=
  "<dict uid=\"1\" name=\"D\"><dictrow value=\"a\" description=\"code\"/></dict>"

/-- The enum declares a constant and a field of one name. -/
theorem code_declared_twice : ∃ run members, FirstRendered.IsRun ⟨.java, "a"⟩ codeDocument run ∧
    run.placed.1.body.typeKind? = some .dictionary ∧
    (run.emission.contextOf run.placed).members .dictionary run.placed.1.body.rowNames =
      .ok members ∧
    members = ["code"] ∧ "code" ∈ Language.java.ownNames run.placed.1.body ∧
    "    code(\"a\", \"code\");" ∈ run.lines ∧ "    private final String code;" ∈ run.lines := by
  have seen : (FirstRendered.ofDocument? ⟨.java, "a"⟩ codeDocument).map (fun run =>
      (run.placed.1.body.typeKind?, ((run.emission.contextOf run.placed).members .dictionary
        run.placed.1.body.rowNames).toOption, (Language.java.ownNames run.placed.1.body).contains
          "code", run.lines.contains "    code(\"a\", \"code\");",
        run.lines.contains "    private final String code;")) =
      some (some .dictionary, some ["code"], true, true, true) := by
    decide +kernel
  obtain ⟨run, made, found⟩ := FirstRendered.isRun_of_seen seen
  simp only [Prod.mk.injEq, List.contains_iff_mem, toOption_eq_some] at found
  obtain ⟨typed, members, own, constant, field⟩ := found
  exact ⟨run, ["code"], made, typed, members, rfl, own, constant, field⟩

/-- An enumeration with a row called as a field of its enum. -/
def valueDocument : String :=
  "<enum uid=\"1\" name=\"E\" size=\"8\"><enumrow value=\"1\" description=\"value\"/></enum>"

theorem value_beside_field : ∃ run members, FirstRendered.IsRun ⟨.java, "a"⟩ valueDocument run ∧
    run.placed.1.body.typeKind? = some .enumeration ∧
    (run.emission.contextOf run.placed).members .enumeration run.placed.1.body.rowNames =
      .ok members ∧
    members = ["value1"] ∧ "value" ∈ Language.java.ownNames run.placed.1.body ∧
    ∀ own ∈ Language.java.ownNames run.placed.1.body, own ∉ members := by
  have seen : (FirstRendered.ofDocument? ⟨.java, "a"⟩ valueDocument).map (fun run =>
      ((run.emission.contextOf run.placed).language, run.placed.1.body.typeKind?,
        ((run.emission.contextOf run.placed).members .enumeration
          run.placed.1.body.rowNames).toOption,
        (Language.java.ownNames run.placed.1.body).contains "value")) =
      some (.java, some .enumeration, some ["value1"], true) := by
    decide +kernel
  obtain ⟨run, made, found⟩ := FirstRendered.isRun_of_seen seen
  simp only [Prod.mk.injEq, List.contains_iff_mem, toOption_eq_some] at found
  obtain ⟨java, typed, claimed, own⟩ := found
  obtain ⟨members, made', -, -, apart⟩ := members_beside_own_names typed made.rendered
  rw [made'] at claimed
  rw [java] at apart
  refine ⟨run, members, made, typed, made', Except.ok.inj claimed, own, fun own hown member => ?_⟩
  obtain ⟨i, here⟩ := List.mem_iff_getElem?.mp member
  obtain ⟨-, dictionary, -⟩ := (apart own hown i).mp here
  cases dictionary

end EnumRegistry
