import EnumRegistry.Proofs.Building.TreeFindings
import EnumRegistry.Proofs.Emission.Packages

/-!
Namespaces as sources spell them. Whatever a segment is, its component starts with no digit and is
no reserved word; it has name characters only if the segment has. Every segment has, save that of a
path segment that is called by a negative code for want of a label.
-/

namespace EnumRegistry

/-- ASCII letters, digits and underscores only. -/
def NameText (s : String) : Prop := ∀ c ∈ s.toList, Name.isNameChar c = true

instance (s : String) : Decidable (NameText s) :=
  decidable_of_iff (s.toList.all Name.isNameChar = true) List.all_eq_true

theorem nameText_append {s t : String} : NameText (s ++ t) ↔ NameText s ∧ NameText t := by
  simp only [NameText, String.toList_append, List.forall_mem_append]

theorem PlainName.nameText {s : String} (h : PlainName s) : NameText s := h.chars

theorem nameText_repr (n : Nat) : NameText (toString n) := fun _ => isNameChar_of_mem_repr

/-- Only the sign of a negative code is no name character. -/
theorem nameText_code (code : Int) : NameText (toString code) ↔ 0 ≤ code := by
  cases code with
  | ofNat n => exact iff_of_true (nameText_repr n) (Int.natCast_nonneg n)
  | negSucc n =>
    refine iff_of_false ?_ (Int.not_le.mpr (Int.negSucc_lt_zero n))
    change ¬ NameText ("-" ++ Nat.repr (n + 1))
    rw [nameText_append]
    exact fun h => absurd h.1 (by decide)

theorem NameScope.Spells.nameText_iff {base name : String}
    (spells : NameScope.Spells base name) : NameText name ↔ NameText base := by
  obtain ⟨attempt, rfl⟩ := spells
  unfold NameScope.spelling
  split
  · rfl
  · exact nameText_append.trans (and_iff_left (nameText_repr attempt))

/-! ## Components -/

namespace Language

variable (l : Language)

/-- What a source of the language can spell as one part of a namespace. -/
structure IsComponent (s : String) : Prop where
  nonempty : s ≠ ""
  chars : NameText s
  start : s.toList.head?.any Char.isDigit = false
  free : l.isReserved s = false

theorem isReserved_underscore (word : String) : l.isReserved (word ++ "_") = false := by
  have ending : ∀ reserved ∈ l.reservedWords, reserved.toList.getLast? ≠ some '_' := by
    cases l <;> decide
  rw [isReserved, ← Bool.not_eq_true, List.contains_iff_mem]
  intro reserved
  exact ending _ reserved (by simp [String.toList_append])

theorem isReserved_escape (word : String) : l.isReserved (l.escape word) = false := by
  unfold escape
  cases reserved : l.isReserved word with
  | true => exact l.isReserved_underscore word
  | false => exact reserved

theorem nameText_escape {word : String} : NameText (l.escape word) ↔ NameText word := by
  unfold escape
  split
  · exact nameText_append.trans (and_iff_left (by decide))
  · rfl

theorem head?_escape {word : String} (h : word.toList.head?.any Char.isDigit = false) :
    (l.escape word).toList.head?.any Char.isDigit = false := by
  unfold escape
  split
  · rw [String.toList_append]
    cases hcs : word.toList with
    | nil => decide
    | cons c cs => simpa [hcs] using h
  · exact h

theorem isNameChar_toLower_iff {c : Char} (h : isSegmentChar c = true) :
    Name.isNameChar c.toLower = true ↔ Name.isNameChar c = true :=
  of_ascii (P := fun c => isSegmentChar c = true →
    (Name.isNameChar c.toLower = true ↔ Name.isNameChar c = true)) (by decide)
    (toNat_lt_of_isSegmentChar h) h

theorem nameText_lowerCase {s : String} (h : IsSegment s) :
    NameText (Text.lowerCase s) ↔ NameText s := by
  rw [NameText, Text.lowerCase, lowerAfter_segment [] h.chars, String.toList_ofList,
    List.forall_mem_map]
  exact forall₂_congr fun c hc => isNameChar_toLower_iff (h.chars c hc)

theorem nameText_namespaceSegment {s : String} (h : IsSegment s) :
    NameText (l.namespaceSegment s) ↔ NameText s := by
  have opened (t : String) :
      NameText (if t.toList.head?.any Char.isDigit then "_" ++ t else t) ↔ NameText t := by
    split
    · exact nameText_append.trans (and_iff_right (by decide))
    · rfl
  unfold namespaceSegment
  rw [nameText_escape]
  cases l with
  | java | python => exact (opened _).trans (nameText_lowerCase h)
  | cpp | csharp => exact opened s

theorem head?_namespaceSegment (s : String) :
    (l.namespaceSegment s).toList.head?.any Char.isDigit = false := by
  have opened (t : String) :
      (if t.toList.head?.any Char.isDigit then "_" ++ t else t).toList.head?.any Char.isDigit =
        false := by
    cases digit : t.toList.head?.any Char.isDigit with
    | true =>
      rw [if_pos rfl, String.toList_append]
      rfl
    | false => exact digit
  exact l.head?_escape (opened _)

/-- A component can be spelled if and only if its segment has name characters only. -/
theorem isComponent_namespaceSegment {s : String} (h : IsSegment s) :
    l.IsComponent (l.namespaceSegment s) ↔ NameText s where
  mp component := (l.nameText_namespaceSegment h).mp component.chars
  mpr text := ⟨(l.isSegment_namespaceSegment h).nonempty, (l.nameText_namespaceSegment h).mpr text,
    l.head?_namespaceSegment s, l.isReserved_escape _⟩

end Language

/-! ## Segments of nodes -/

namespace ClassificationTree

/-- A path segment that is called by its code for want of a label, and the code is negative. -/
def CalledNegative (types : TypeTable) (tree : ClassificationTree) (id : Nat) : Prop :=
  tree.lacksLabel types id = true ∧ tree.code id < 0

variable {types : TypeTable} {tree : ClassificationTree} {scope : Option Nat → NameScope}

theorem nameText_segmentBase (plain : types.Plain) (table : LookupTable) (level : Level)
    (code : Int) : NameText (segmentBase types table level code) ↔
      ¬ ((types.label? table code).isNone = true ∧ code < 0) := by
  unfold segmentBase
  cases hlabel : types.label? table code with
  | some label => simpa using (plain.label hlabel).nameText
  | none =>
    have word : NameText level.label := by cases level <;> decide
    rw [Option.getD_none, nameText_append, and_iff_right word, nameText_code]
    simp

theorem nameText_baseName (plain : types.Plain) {id : Nat} (hid : id < tree.size) :
    NameText (baseName ⟨types, {}⟩ tree id) ↔ ¬ tree.CalledNegative types id := by
  obtain ⟨n, hn⟩ := getElem?_of_lt_size hid
  have code : tree.code id = n.value := by simp [code, hn]
  cases pathOnly : n.level.isPathOnly with
  | true =>
    simp only [baseName, CalledNegative, lacksLabel, hn, pathOnly, ↓reduceIte, Option.any_some,
      Bool.true_and, code]
    exact nameText_segmentBase plain _ _ _
  | false =>
    refine iff_of_true (baseName_plain hn pathOnly).nameText ?_
    simp [CalledNegative, lacksLabel, hn, pathOnly]

/-- Taking underscores out and telling siblings apart change nothing in this. -/
theorem nameText_segment (plain : types.Plain) (h : Settled ⟨types, {}⟩ tree scope []) {id : Nat}
    (hid : id < tree.size) :
    NameText (tree.segment id) ↔ ¬ tree.CalledNegative types id := by
  obtain ⟨n, hn⟩ := getElem?_of_lt_size hid
  obtain ⟨name, named, spells⟩ := h.spells hid
  simp only [name?, hn, Option.bind_some] at named
  rw [← nameText_baseName plain hid, ← spells.nameText_iff]
  simp only [segment, hn, Option.map_some, Option.getD_some, nodeSegment, named, NameText,
    String.toList_ofList, List.mem_filter, and_imp]
  refine forall₂_congr fun c hc => ⟨fun left => ?_, fun text _ => text⟩
  by_cases underscore : c = '_'
  · exact underscore ▸ Name.isNameChar_underscore
  · exact left (by simpa using underscore)

end ClassificationTree

/-! ## Namespaces of symbols -/

/-- The nodes whose segments stand in the namespace of a symbol, root first; a declared type has
none. -/
def SymbolBody.above : SymbolBody → List (ClassificationTree × Nat)
  | .enumeration _ | .bitfield _ | .dictionary _ => []
  | .classification tree node => (tree.ancestors node).reverse.map (tree, ·)

theorem Model.segments_of_mem {m : Model} {s : Symbol}
    (wellFormed : ∀ tree ∈ m.trees, tree.WellFormed) (hs : s ∈ m.symbols) :
    ∃ package, (∀ l : Language, l.IsComponent (l.namespaceSegment package)) ∧
      s.segments = package :: s.body.above.map (fun node => node.1.segment node.2) ∧
      ∀ node ∈ s.body.above, node.1 ∈ m.trees ∧ node.2 < node.1.size := by
  have package {s : String} (segment : IsSegment s) (text : NameText s) (l : Language) :
      l.IsComponent (l.namespaceSegment s) := (l.isComponent_namespaceSegment segment).mpr text
  cases emits_of_mem hs with
  | enumeration | bitfield | dictionary =>
    exact ⟨_, package (by decide) (by decide), rfl, nofun⟩
  | @node tree id n htree hn =>
    refine ⟨tree.hierarchy.package, ?_, ?_, ?_⟩
    · cases tree.hierarchy <;> exact package (by decide) (by decide)
    · simp only [SymbolBody.above, ClassificationTree.namespaceOf_eq, List.map_map]
      rfl
    · simp only [SymbolBody.above, List.mem_map, List.mem_reverse]
      rintro _ ⟨a, ha, rfl⟩
      have below := ClassificationTree.ancestors_lt (wellFormed tree htree) ha
      exact ⟨htree, Nat.lt_trans below (ClassificationTree.lt_size_of_getElem? hn)⟩

/-- Which nodes give a part of a namespace that can be spelled. -/
theorem Resolution.isComponent_node {ceiling : Nat} {r : Reader} {res : Resolution}
    (h : ofReader {} ceiling r = .ok res) (l : Language) {tree : ClassificationTree}
    (htree : tree ∈ res.model.trees) {id : Nat} (hid : id < tree.size) :
    l.IsComponent (l.namespaceSegment (tree.segment id)) ↔
      ¬ tree.CalledNegative res.table id := by
  obtain ⟨scope, named⟩ := settled_trees h tree htree
  obtain ⟨survey, builder, surveyed, -, rfl⟩ := ofReader_eq_ok h
  have plain := Survey.ofReader_plain surveyed
  rw [l.isComponent_namespaceSegment (ClassificationTree.segment_isSegment plain named hid),
    ClassificationTree.nameText_segment plain named hid]

/-- Without overrides every part of a symbol's namespace below the root can be spelled in a source
of the language, except exactly those of the path segments above it that are called by a negative
code for want of a label. -/
theorem namespaces_spelled {ceiling : Nat} {r : Reader} {res : Resolution}
    (h : Resolution.ofReader {} ceiling r = .ok res) {target : Target} {e : Emission}
    (planned : res.emission target = .ok e) :
    e.placed.map (·.1) = res.model.symbols ∧ ∀ placed ∈ e.placed, ∃ package below,
      placed.2.segments = target.segments ++ package :: below ∧
      target.language.IsComponent package ∧
      List.Forall₂ (fun segment node => target.language.IsComponent segment ↔
        ¬ node.1.CalledNegative res.table node.2) below placed.1.body.above := by
  obtain ⟨symbols, scopes, slots, claimedAt⟩ := Resolution.emission_claimedAt h planned
  obtain rfl := Resolution.emission_target planned
  refine ⟨symbols, fun placed hplaced => ?_⟩
  have hs : placed.1 ∈ res.model.symbols := symbols ▸ List.mem_map.mpr ⟨placed, hplaced, rfl⟩
  obtain ⟨package, component, segments, inside⟩ := Model.segments_of_mem
    (fun tree htree => (Resolution.settled_trees h tree htree).elim fun _ named =>
      named.wellFormed) hs
  rw [claimedAt.placed] at hplaced
  obtain ⟨slot, -, rfl⟩ := List.mem_map.mp hplaced
  refine ⟨_, slot.1.body.above.map fun node =>
    e.target.language.namespaceSegment (node.1.segment node.2), ?_, component _, ?_⟩
  · rw [Target.placed_segments, Target.namespaceOf]
    exact congrArg _ ((congrArg _ segments).trans (by rw [List.map_cons, List.map_map]; rfl))
  · rw [List.forall₂_map_left_iff, List.forall₂_same]
    intro node hnode
    obtain ⟨htree, hid⟩ := inside node hnode
    exact Resolution.isComponent_node h _ htree hid

/-- A country with a negative code and no label. -/
def negativeCountryDocument : String :=
  "<cet uid=\"30\"><entity country=\"-5\" kind=\"1\" domain=\"1\">" ++
    "<category value=\"1\" name=\"tank\"/></entity></cet>"

theorem negative_country_unspelled : ∃ res e placed,
    Resolution.ofReader {} 4096 (.ofString negativeCountryDocument) = .ok res ∧
      res.emission ⟨.cpp, "a"⟩ = .ok e ∧ e.placed = [placed] ∧
      placed.2.segments = ["a", "entities", "Country-5", "Kind1", "Domain1"] ∧
      ¬ Language.cpp.IsComponent "Country-5" := by
  have run : (Resolution.ofReader {} 4096 (.ofString negativeCountryDocument)).toOption.map
      (fun res => (res.emission ⟨.cpp, "a"⟩).toOption.map fun e => e.placed.map (·.2.segments)) =
        some (some [["a", "entities", "Country-5", "Kind1", "Domain1"]]) := by decide +kernel
  obtain ⟨res, hres, planned⟩ := exists_ok_of_map run
  obtain ⟨e, he, segments⟩ := exists_ok_of_map planned
  obtain ⟨placed, hplaced, segments⟩ := List.map_eq_singleton_iff.mp segments
  exact ⟨res, e, placed, hres, he, hplaced, segments, fun component =>
    absurd component.chars (by decide)⟩

/-- Two negative codes; the country has a label and the kind has none. -/
def labelledCountryDocument : String :=
  "<r><enum uid=\"29\" name=\"N\"><enumrow value=\"-5\" description=\"Far Land\"/></enum>" ++
    "<cet uid=\"30\"><entity country=\"-5\" kind=\"-1\" domain=\"1\">" ++
    "<category value=\"1\" name=\"tank\"/></entity></cet></r>"

theorem labelled_country_spelled : ∃ res e,
    Resolution.ofReader {} 4096 (.ofString labelledCountryDocument) = .ok res ∧
      res.emission ⟨.java, "a"⟩ = .ok e ∧ ∃ placed ∈ e.placed,
        placed.2.segments = ["a", "entities", "farland", "kind-1", "domain1"] ∧
        Language.java.IsComponent "entities" ∧
        List.Forall₂ (fun segment node => Language.java.IsComponent segment ↔
          ¬ node.1.CalledNegative res.table node.2) ["farland", "kind-1", "domain1"]
            placed.1.body.above := by
  have run : (Resolution.ofReader {} 4096 (.ofString labelledCountryDocument)).toOption.map
      (fun res => (res.emission ⟨.java, "a"⟩).toOption.map fun e => e.placed.map (·.2.segments)) =
        some (some [["a", "enumerations"], ["a", "entities", "farland", "kind-1", "domain1"]]) := by
    decide +kernel
  obtain ⟨res, hres, planned⟩ := exists_ok_of_map run
  obtain ⟨e, he, segments⟩ := exists_ok_of_map planned
  have found : ["a", "entities", "farland", "kind-1", "domain1"] ∈ e.placed.map (·.2.segments) :=
    segments ▸ by simp
  obtain ⟨placed, hplaced, at'⟩ := List.mem_map.mp found
  obtain ⟨package, below, spelled, component, nodes⟩ :=
    (namespaces_spelled hres he).2 placed hplaced
  have root : (Target.mk .java "a").segments = ["a"] := by decide
  rw [at', root] at spelled
  obtain ⟨rfl, rfl⟩ : "entities" = package ∧ ["farland", "kind-1", "domain1"] = below := by
    simpa using spelled
  exact ⟨res, e, hres, he, placed, hplaced, at', component, nodes⟩

end EnumRegistry
