import EnumRegistry.Proofs.Emission.OwnNames
import EnumRegistry.Proofs.Name.Numbered

/-!
The name of a type among what its own text declares. No row becomes a member that is called so, but
a claim may put a number behind the member, and what the text declares itself is called as it is.
-/

namespace EnumRegistry

open NameScope

theorem bareKey_eq_self {name : String} (finish : (lookupKey name).toList.getLast? ≠ some '_') :
    bareKey (lookupKey name) = lookupKey name := by
  have bare := rdropWhile_underscores finish 0
  rw [List.replicate_zero, List.append_nil] at bare
  rw [bareKey, bare, String.ofList_toList]

namespace RenderContext

variable (cx : RenderContext)

/-- The members of the rows of a symbol; a node has none. -/
def rowMembers (body : SymbolBody) : Except Exhausted (List String) :=
  match body.typeKind? with
  | some kind => cx.members kind body.rowNames
  | none => .ok []

/-- A member is like a name that ends in no underscore only if its row is. -/
theorem lookupKey_of_member {name own : String} (closed : ClosedName name)
    (finish : (lookupKey own).toList.getLast? ≠ some '_')
    (same : lookupKey (cx.member name) = lookupKey own) : lookupKey name = lookupKey own := by
  rw [← cx.bareKey_member closed, same, bareKey_eq_self finish]

/-- In C++ and C#, all that is reserved before members are claimed is declared by the text. -/
theorem fixedMembers_subset_ownNames (covers : cx.language = .cpp ∨ cx.language = .csharp)
    {body : SymbolBody} {kind : TypeKind} (typed : body.typeKind? = some kind)
    {fixed : List String} (claimed : cx.language.fixedMembers kind = some fixed) :
    fixed ⊆ cx.language.ownNames body ∧
      ∀ own ∈ fixed, (lookupKey own).toList.getLast? ≠ some '_' := by
  cases body with
  | bitfield b =>
    cases typed
    rcases covers with cpp | csharp
    · rw [cpp] at claimed ⊢
      cases claimed
      have declared : ["bits", "kSizeBits", "kPaddingBits"] ⊆
          ["kSizeBits", "kPaddingBits", "bits"] := by decide
      exact ⟨declared, by decide⟩
    · rw [csharp] at claimed ⊢
      cases claimed
      have declared : ["Bits", "SizeBits", "PaddingBits"] ⊆
          ["SizeBits", "PaddingBits", "Bits"] := by decide
      exact ⟨declared, by decide⟩
  | enumeration | dictionary =>
    cases typed
    rcases covers with same | same <;> rw [same] at claimed <;> cases claimed
  | classification => cases typed

theorem candidate_eq_member (covers : cx.language = .cpp ∨ cx.language = .csharp)
    (kind : TypeKind) : cx.candidate kind = cx.member := by
  funext name
  unfold candidate
  rcases covers with same | same <;> rw [same]

/-- A member of a row is called as the type around it only if it was displaced. -/
theorem identifier_displaced (covers : cx.language = .cpp ∨ cx.language = .csharp)
    {body : SymbolBody} (apart : (body.rowNames.map lookupKey).Nodup)
    (closed : ∀ name ∈ body.rowNames, ClosedName name) {members : List String}
    (made : cx.rowMembers body = .ok members) (around : cx.identifier ∈ members) :
    Displaced (cx.language.ownNames body) body.rowNames cx.identifier := by
  have kept : cx.identifier ∉ body.rowNames.map cx.member := by
    intro same
    obtain ⟨name, -, same⟩ := List.mem_map.mp same
    exact cx.member_ne_identifier name same
  unfold rowMembers RenderContext.members at made
  simp only [cx.candidate_eq_member covers] at made
  split at made
  · rename_i kind typed
    split at made
    · cases made
      exact absurd around kept
    · rename_i fixed claimed
      obtain ⟨⟨_, scope⟩, claims, rfl⟩ := map_eq_ok.mp made
      obtain ⟨declared, finish⟩ := cx.fixedMembers_subset_ownNames covers typed claimed
      rcases claimAll_insertAll_displaced (cx.nodup_members closed apart) claims _ around with
        same | ⟨own, hown, ⟨_, hbase, hit⟩, number⟩
      · exact absurd same kept
      · obtain ⟨name, hname, rfl⟩ := List.mem_map.mp hbase
        have row := cx.lookupKey_of_member (closed name hname) (finish own hown) hit
        exact ⟨own, declared hown, ⟨name, hname, row⟩, number⟩
  · cases made
    cases around

/-- The lines of a symbol declare the members of its rows beside the names of their own. -/
theorem render_declares {m : Model} {s : Symbol} (hs : s ∈ m.symbols) {lines : Lines}
    (rendered : cx.render s.body = .ok lines) :
    ∃ members, cx.rowMembers s.body = .ok members ∧ lines.Declare (cx.heads members s.body) ∧
      lines.Own (cx.language.ownDeclarators s.body) := by
  cases Model.emits_of_mem hs with
  | enumeration | bitfield | dictionary =>
    obtain ⟨members, made, declares⟩ := cx.render_declare rfl rendered
    exact ⟨members, made, declares, cx.render_own rfl rendered⟩
  | @node tree id n htree hn =>
    refine ⟨[], rfl, ⟨[], List.nil_sublist _, .nil⟩, ?_⟩
    have text : cx.render (.classification tree id) = .ok (cx.classificationLines tree id n) := by
      rw [render, hn]
    obtain rfl := Except.ok.inj (text.symm.trans rendered)
    exact cx.classificationLines_own tree id n

end RenderContext

/-- Without overrides, what a C++ or C# text declares for rows and what it declares itself are
called otherwise than the type around them, unless the type is called as one of the latter, letter
case aside, with or without digits behind. A row has the member of that name only where a row is
like a name that the text declares itself and the number that this costs is part of the type's own
name; so never in a dictionary and never without digits. -/
theorem type_name_apart {ceiling : Nat} {r : Reader} {res : Resolution}
    (h : Resolution.ofReader {} ceiling r = .ok res) {s : Symbol} (hs : s ∈ res.model.symbols)
    {cx : RenderContext} (covers : cx.language = .cpp ∨ cx.language = .csharp) {lines : Lines}
    (rendered : cx.render s.body = .ok lines) :
    ∃ members, cx.rowMembers s.body = .ok members ∧ lines.Declare (cx.heads members s.body) ∧
      lines.Own (cx.language.ownDeclarators s.body) ∧
      (cx.identifier ∈ members →
        Displaced (cx.language.ownNames s.body) s.body.rowNames cx.identifier) ∧
      ((∀ own ∈ cx.language.ownNames s.body, ∀ digits, ¬ DigitsBehind digits own cx.identifier) →
        ∀ name ∈ members ++ cx.language.ownNames s.body, name ≠ cx.identifier) := by
  obtain ⟨apart, closed⟩ := Resolution.rowNames_closed h s hs
  obtain ⟨members, made, declares, own⟩ := cx.render_declares hs rendered
  have displaced := cx.identifier_displaced covers apart closed made
  refine ⟨members, made, declares, own, displaced, ?_⟩
  rintro free _ hname rfl
  rcases List.mem_append.mp hname with member | own
  · obtain ⟨own, hown, -, digits, -, behind⟩ := displaced member
    exact free own hown digits behind
  · exact free _ own [] ⟨nofun, (List.append_nil _).symm⟩

/-- A struct with a row called as its property `Bits`, and a struct called as its constant. -/
def structDocument : String :=
  "<r><bitfield uid=\"1\" name=\"Bits1\" size=\"8\">" ++
    "<bitfieldrow name=\"Bits\" bit_position=\"0\"/></bitfield>" ++
    "<bitfield uid=\"2\" name=\"SizeBits\" size=\"8\"/></r>"

/-- Each has a member that is called as it is: the first for its row, the second by itself. -/
theorem struct_names_declared_inside : ∃ run,
    FirstRendered.IsRun ⟨.csharp, "a"⟩ structDocument run ∧
      "    public readonly struct Bits1" ∈ run.lines ∧
      "        public uint Bits1 => (uint)((Bits >> 0) & 0x1UL);" ∈ run.lines ∧
      ∃ first second, run.emission.placed = [first, second] ∧
        first.2.identifier = "Bits1" ∧ second.2.identifier = "SizeBits" ∧
        (run.emission.contextOf first).rowMembers first.1.body = .ok ["Bits1"] ∧
        "SizeBits" ∈ Language.csharp.ownNames second.1.body := by
  have seen : (FirstRendered.ofDocument? ⟨.csharp, "a"⟩ structDocument).map (fun run =>
      (run.lines.contains "    public readonly struct Bits1" &&
          run.lines.contains "        public uint Bits1 => (uint)((Bits >> 0) & 0x1UL);",
        run.emission.placed.map fun placed => (placed.2.identifier,
          ((run.emission.contextOf placed).rowMembers placed.1.body).toOption,
          (Language.csharp.ownNames placed.1.body).contains "SizeBits"))) =
      some (true, [("Bits1", some ["Bits1"], true), ("SizeBits", some [], true)]) := by
    decide +kernel
  obtain ⟨run, made, found⟩ := FirstRendered.isRun_of_seen seen
  simp only [Prod.mk.injEq, Bool.and_eq_true, List.contains_iff_mem] at found
  obtain ⟨⟨struct, accessor⟩, placed⟩ := found
  obtain ⟨first, rest, placed, look, others⟩ := List.map_eq_cons_iff.mp placed
  obtain ⟨second, rfl, look'⟩ := List.map_eq_singleton_iff.mp others
  simp only [Prod.mk.injEq, List.contains_iff_mem, toOption_eq_some] at look look'
  exact ⟨run, made, struct, accessor, first, second, placed, look.1, look'.1, look.2.1, look'.2.2⟩

/-- A struct with a row called as the struct. -/
def levelDocument : String :=
  "<bitfield uid=\"1\" name=\"Level\" size=\"8\">" ++
    "<bitfieldrow name=\"Level\" bit_position=\"0\"/></bitfield>"

theorem row_called_as_its_struct : ∃ run members,
    FirstRendered.IsRun ⟨.csharp, "a"⟩ levelDocument run ∧ run.placed.2.identifier = "Level" ∧
      (run.emission.contextOf run.placed).rowMembers run.placed.1.body = .ok members ∧
      members = ["Level_"] ∧
      ∀ name ∈ members ++ Language.csharp.ownNames run.placed.1.body, name ≠ "Level" := by
  have seen : (FirstRendered.ofDocument? ⟨.csharp, "a"⟩ levelDocument).map (fun run =>
      ((run.emission.contextOf run.placed).language, run.placed.2.identifier,
        ((run.emission.contextOf run.placed).rowMembers run.placed.1.body).toOption,
        Language.csharp.ownNames run.placed.1.body)) =
      some (.csharp, "Level", some ["Level_"], ["SizeBits", "PaddingBits", "Bits"]) := by
    decide +kernel
  obtain ⟨run, made, found⟩ := FirstRendered.isRun_of_seen seen
  simp only [Prod.mk.injEq, toOption_eq_some] at found
  obtain ⟨csharp, called, claimed, own⟩ := found
  obtain ⟨members, made', -, -, -, apart⟩ :=
    type_name_apart made.resolved made.known (.inr csharp) made.rendered
  rw [made'] at claimed
  rw [csharp] at apart
  have identifier : (run.emission.contextOf run.placed).identifier = "Level" := called
  rw [identifier] at apart
  refine ⟨run, members, made, called, made', Except.ok.inj claimed, apart ?_⟩
  rw [own]
  have none : ∀ own ∈ ["SizeBits", "PaddingBits", "Bits"],
      ¬ (lookupKey own).toList <+: (lookupKey "Level").toList := by decide +kernel
  exact fun own hown digits behind => none own hown behind.isPrefix

end EnumRegistry
