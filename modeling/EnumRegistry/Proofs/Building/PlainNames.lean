import EnumRegistry.Proofs.Building.SiblingNames
import EnumRegistry.Proofs.Building.TypeNames
import EnumRegistry.Proofs.Target.Spelling
import EnumRegistry.Symbol

/-!
Names without overrides. Where no name is fixed by hand, all names of types are derived from texts
and so are plain; nodes of trees have plain names too, save path segments that are called by level
and code.
-/

namespace EnumRegistry

@[simp] theorem uidName?_empty (uid : String) : ({} : Overrides).uidName? uid = none := by
  simp [Overrides.uidName?]

@[simp] theorem specialCase?_empty (scope description : String) :
    ({} : Overrides).specialCase? scope description = none := by
  simp [Overrides.specialCase?]

@[simp] theorem row?_empty (uid : String) (value : Int) (description : String) :
    ({} : Overrides).row? uid value description = none := by
  simp [Overrides.row?, Overrides.valueAlias?]

/-! ## The survey -/

/-- Names of types and labels are plain. -/
structure TypeTable.Plain (t : TypeTable) : Prop where
  name : ∀ {uid name : String}, t.name? uid = some name → PlainName name
  label : ∀ {table : LookupTable} {value : Int} {label : String},
    t.label? table value = some label → PlainName label

namespace Survey

/-- All names found so far are plain, those of the rows of an open lookup among them. -/
structure Plain (s : Survey) : Prop where
  table : s.table.Plain
  rows : ∀ {rows : LookupRows} {value : Int} {label : String}, s.lookup = some rows →
    rows.labels[value]? = some label → PlainName label

theorem lookupAfter_plain {s : Survey} (hs : s.Plain) {uid : String} {e : Element}
    {rows : LookupRows} {value : Int} {label : String} (h : s.lookupAfter uid e = some rows)
    (hlabel : rows.labels[value]? = some label) : PlainName label := by
  unfold lookupAfter at h
  split at h
  · obtain ⟨table, -, rfl⟩ := Option.map_eq_some_iff.mp h
    simp at hlabel
  · exact hs.rows h hlabel

theorem rowNaming_plain (rows : LookupRows) (value : Int) (e : Element) :
    PlainName (rowNaming {} rows value e).base := by
  rw [Naming.base, rowNaming, row?_empty]
  exact plainName_compose (plainName_normalize _) _

theorem started_plain {s s' : Survey} {e : Element} (hs : s.Plain) (h : Started {} s e s') :
    s'.Plain := by
  cases h with
  | passed => exact hs
  | revision =>
    unfold noteRevision
    split
    · exact hs
    · exact ⟨⟨hs.table.name, hs.table.label⟩, hs.rows⟩
  | repeated => exact ⟨hs.table, hs.rows⟩
  | unnamed => exact ⟨⟨hs.table.name, hs.table.label⟩, lookupAfter_plain hs⟩
  | named _ _ _ claimed =>
    refine ⟨⟨?_, hs.table.label⟩, lookupAfter_plain hs⟩
    intro uid name h
    simp only [TypeTable.name?, Std.TreeMap.getElem?_insert] at h
    split at h
    · obtain rfl := Option.some.inj h
      apply (NameScope.claim_eq_ok claimed).1.plain
      rw [typeBase, uidName?_empty, Option.getD_none]
      exact plainName_normalize _
    · exact hs.table.name h
  | row isOpen _ claimed =>
    refine ⟨⟨hs.table.name, hs.table.label⟩, ?_⟩
    intro rows value label h hlabel
    obtain rfl := Option.some.inj h
    simp only [Naming.resolve, bind_eq_ok, Prod.exists, pure_eq_ok, Except.ok.injEq,
      Prod.mk.injEq] at claimed
    obtain ⟨found, scope, claimed, rfl, rfl⟩ := claimed
    simp only [Std.TreeMap.getElem?_insert] at hlabel
    split at hlabel
    · obtain rfl := Option.some.inj hlabel
      exact (NameScope.claim_eq_ok claimed).1.plain (rowNaming_plain _ _ _)
    · exact hs.rows isOpen hlabel

theorem finish_plain {s : Survey} {kind : ElementKind} (hs : s.Plain) : (s.finish kind).Plain := by
  unfold finish
  split
  · rename_i rows isOpen
    refine ⟨⟨hs.table.name, ?_⟩, nofun⟩
    intro table value label h
    simp only [TypeTable.label?, List.lookup_cons] at h
    split at h
    · exact hs.rows isOpen h
    · exact hs.table.label h
  · exact hs

theorem ofReader_plain {r : Reader} {s : Survey} (h : ofReader {} r = .ok s) : s.table.Plain := by
  have keeps : (walk {}).Keeps Plain := walk_keeps started_plain finish_plain
  have empty : Plain {} := by
    refine ⟨⟨?_, ?_⟩, ?_⟩
    · intro uid name h
      simp [TypeTable.name?] at h
    · intro table value label h
      simp [TypeTable.label?] at h
    · intro rows value label h
      cases h
  exact (keeps.run empty (Walk.through_eq_ok.mp h).2).table

end Survey

/-! ## Nodes of trees -/

namespace ClassificationTree

/-- Every node of a settled tree is called by some spelling of its base name. -/
theorem Settled.spells {t : NameTables} {tree : ClassificationTree}
    {scope : Option Nat → NameScope} (h : Settled t tree scope []) {id : Nat}
    (hid : id < tree.size) :
    ∃ name, tree.name? id = some name ∧ NameScope.Spells (baseName t tree id) name := by
  obtain ⟨names, taken, hclaims, hnames⟩ := h.namedInOrder (tree.parent? id)
  have hmem := mem_childrenOf_parent? h.wellFormed hid
  have named := List.forall₂_map_left_iff.mp (NameScope.claimAll_spells hclaims)
  generalize tree.childrenOf (tree.parent? id) = kids at named hmem hnames
  clear hclaims
  induction named with
  | nil => cases hmem
  | cons first rest ih =>
    simp only [List.map_cons, List.cons.injEq] at hnames
    rcases List.mem_cons.mp hmem with rfl | hmem
    · exact ⟨_, hnames.1, first⟩
    · exact ih hmem hnames.2

variable {types : TypeTable} {tree : ClassificationTree} {scope : Option Nat → NameScope}

theorem baseName_plain {id : Nat} {n : ClassificationNode} (hn : tree.nodes[id]? = some n)
    (named : n.level.isPathOnly = false) : PlainName (baseName ⟨types, {}⟩ tree id) := by
  simp only [baseName, hn, named, Bool.false_eq_true, ↓reduceIte, specialCase?_empty,
    Option.getD_none]
  exact plainName_compose (plainName_normalize _) _

theorem segmentBase_isNodeName (plain : types.Plain) (table : LookupTable) (level : Level)
    (code : Int) : IsNodeName (segmentBase types table level code) := by
  unfold segmentBase
  cases hlabel : types.label? table code with
  | some label => exact (plain.label hlabel).isNodeName
  | none => exact isNodeName_levelCode level code

theorem baseName_isNodeName (plain : types.Plain) {id : Nat} (hid : id < tree.size) :
    IsNodeName (baseName ⟨types, {}⟩ tree id) := by
  obtain ⟨n, hn⟩ := getElem?_of_lt_size hid
  cases pathOnly : n.level.isPathOnly with
  | true =>
    simp only [baseName, hn, pathOnly, ↓reduceIte]
    exact segmentBase_isNodeName plain _ _ _
  | false => exact (baseName_plain hn pathOnly).isNodeName

theorem segment_isSegment (plain : types.Plain) (h : Settled ⟨types, {}⟩ tree scope []) {id : Nat}
    (hid : id < tree.size) : IsSegment (tree.segment id) := by
  obtain ⟨n, hn⟩ := getElem?_of_lt_size hid
  obtain ⟨name, named, spells⟩ := h.spells hid
  simp only [name?, hn, Option.bind_some] at named
  simp only [segment, hn, Option.map_some, Option.getD_some, nodeSegment, named]
  exact (spells.isNodeName (baseName_isNodeName plain hid)).isSegment

theorem namespaceOf_eq (tree : ClassificationTree) (id : Nat) : tree.namespaceOf id =
    tree.hierarchy.package :: (tree.ancestors id).reverse.map tree.segment := by
  simp [namespaceOf, path, trail]

theorem namespaceOf_isSegment (plain : types.Plain) (h : Settled ⟨types, {}⟩ tree scope [])
    {id : Nat} (hid : id < tree.size) : ∀ s ∈ tree.namespaceOf id, IsSegment s := by
  intro s hs
  rw [namespaceOf_eq] at hs
  rcases List.mem_cons.mp hs with rfl | hs
  · cases tree.hierarchy <;> decide
  · obtain ⟨a, ha, rfl⟩ := List.mem_map.mp hs
    have below := ancestors_lt h.wellFormed (List.mem_reverse.mp ha)
    exact segment_isSegment plain h (Nat.lt_trans below hid)

end ClassificationTree

/-! ## Symbols -/

/-- A symbol with a plain name, in a namespace of segments. -/
structure Symbol.Plain (s : Symbol) : Prop where
  name : PlainName s.name
  placed : s.segments ≠ []
  segments : ∀ segment ∈ s.segments, IsSegment segment

theorem Symbol.ofNode?_eq_some {tree : ClassificationTree} {id : Nat} {s : Symbol} :
    ofNode? tree id = some s ↔ ∃ n, tree.nodes[id]? = some n ∧ n.level.isPathOnly = false ∧
      s = ⟨n.uid, tree.namespaceOf id, n.name.getD (tree.segment id), .classification tree id⟩ := by
  unfold ofNode?
  refine Option.bind_eq_some_iff.trans (exists_congr fun n => and_congr_right fun _ => ?_)
  cases n.level.isPathOnly <;> simp [eq_comm]

/-- What the symbols of a model are made from. -/
inductive Model.Emits (m : Model) : Symbol → Prop
  | enumeration {e : Enumeration} (he : e ∈ m.enumerations) : Emits m (.ofEnumeration e)
  | bitfield {b : Bitfield} (hb : b ∈ m.bitfields) : Emits m (.ofBitfield b)
  | dictionary {d : Dictionary} (hd : d ∈ m.dictionaries) : Emits m (.ofDictionary d)
  | node {tree : ClassificationTree} {id : Nat} {n : ClassificationNode} (htree : tree ∈ m.trees)
      (hn : tree.nodes[id]? = some n) (pathOnly : n.level.isPathOnly = false) :
      Emits m ⟨n.uid, tree.namespaceOf id, n.name.getD (tree.segment id), .classification tree id⟩

theorem Model.emits_of_mem {m : Model} {s : Symbol} (hs : s ∈ m.symbols) : m.Emits s := by
  simp only [symbols, List.mem_append, List.mem_map, List.mem_flatMap] at hs
  rcases hs with ((⟨e, he, rfl⟩ | ⟨b, hb, rfl⟩) | ⟨d, hd, rfl⟩) | ⟨tree, htree, hs⟩
  · exact .enumeration he
  · exact .bitfield hb
  · exact .dictionary hd
  · obtain ⟨id, -, hs⟩ := List.mem_filterMap.mp hs
    obtain ⟨n, hn, pathOnly, rfl⟩ := Symbol.ofNode?_eq_some.mp hs
    exact .node htree hn pathOnly

theorem Symbol.plain_of_node {types : TypeTable} {tree : ClassificationTree}
    {scope : Option Nat → NameScope} (plain : types.Plain)
    (h : ClassificationTree.Settled ⟨types, {}⟩ tree scope []) {id : Nat} {n : ClassificationNode}
    (hn : tree.nodes[id]? = some n) (pathOnly : n.level.isPathOnly = false) :
    Symbol.Plain ⟨n.uid, tree.namespaceOf id, n.name.getD (tree.segment id),
      .classification tree id⟩ := by
  have hid := ClassificationTree.lt_size_of_getElem? hn
  obtain ⟨name, named, spells⟩ := h.spells hid
  simp only [ClassificationTree.name?, hn, Option.bind_some] at named
  refine ⟨?_, List.cons_ne_nil _ _, ClassificationTree.namespaceOf_isSegment plain h hid⟩
  rw [named]
  exact spells.plain (ClassificationTree.baseName_plain hn pathOnly)

/-- A declared type has the name of its UID or, as a satellite, one that is made from it. -/
theorem TypeTable.Calls.plain {t : TypeTable} (plain : t.Plain) {uid name : String}
    (calls : t.Calls uid name) : PlainName name := by
  cases calls with
  | named h => exact plain.name h
  | satellite ordinal h spells =>
    have base := plain.name h
    exact spells.plain (plainName_satelliteMark base ordinal)

theorem Resolution.symbols_plain {ceiling : Nat} {r : Reader} {res : Resolution}
    (h : ofReader {} ceiling r = .ok res) : ∀ s ∈ res.model.symbols, s.Plain := by
  have trees := settled_trees h
  obtain ⟨survey, builder, hsurvey, hbuilder, rfl⟩ := ofReader_eq_ok h
  have plain := Survey.ofReader_plain hsurvey
  have calls := (Builder.ofReader_typesInOrder (Survey.ofReader_namesApart hsurvey)
    hbuilder).settled.calls
  have package {s : String} (hs : IsSegment s) : ∀ segment ∈ [s], IsSegment segment := by
    intro segment hsegment
    exact List.mem_singleton.mp hsegment ▸ hs
  intro s hs
  cases Model.emits_of_mem hs with
  | @enumeration e he =>
    have member : (e.uid, e.name) ∈ builder.model.types :=
      List.mem_append_left _ (List.mem_append_left _ (List.mem_map.mpr ⟨e, he, rfl⟩))
    exact ⟨(calls _ _ member).plain plain, List.cons_ne_nil _ _, package (by decide)⟩
  | @bitfield b hb =>
    have member : (b.uid, b.name) ∈ builder.model.types :=
      List.mem_append_left _ (List.mem_append_right _ (List.mem_map.mpr ⟨b, hb, rfl⟩))
    exact ⟨(calls _ _ member).plain plain, List.cons_ne_nil _ _, package (by decide)⟩
  | @dictionary d hd =>
    have member : (d.uid, d.name) ∈ builder.model.types :=
      List.mem_append_right _ (List.mem_map.mpr ⟨d, hd, rfl⟩)
    exact ⟨(calls _ _ member).plain plain, List.cons_ne_nil _ _, package (by decide)⟩
  | node htree hn pathOnly =>
    obtain ⟨scope, settled⟩ := trees _ htree
    exact Symbol.plain_of_node plain settled hn pathOnly

end EnumRegistry
