import EnumRegistry.Proofs.Building.Stack
import EnumRegistry.Proofs.Building.TypeFrame
import Mathlib.Data.List.Nodup

/-!
What becomes of the elements that a builder enters. A declaration is being filled or in the model, a
tree is being assembled or in the model, and a row is open, in the type that is being filled or in
the model; at the end of a document nothing is left open, so the model has them all.
-/

namespace EnumRegistry

/-- What a row says besides its name. -/
inductive RowFact
  | enumeration (value : Int) (description : String)
  | bitfield (rawName : String)
  | dictionary (code : String)

/-- What an element says as a row. -/
def Element.rowFact? (e : Element) : Option RowFact :=
  match e.kind with
  | .enumerationRow | .enumerationRange => e.value.toOption.map (.enumeration · e.description)
  | .bitfieldRow => some (.bitfield ((e.attr? "name").getD e.description))
  | .dictionaryRow => (e.attr? "value").map .dictionary
  | _ => none

def EnumerationRow.fact (row : EnumerationRow) : RowFact := .enumeration row.value row.description

def BitfieldRow.fact (row : BitfieldRow) : RowFact := .bitfield row.rawName

def DictionaryRow.fact (row : DictionaryRow) : RowFact := .dictionary row.code

namespace TypeFrame

def facts : TypeFrame → List RowFact
  | enumeration type _ => type.rows.map (·.fact)
  | bitfield type _ => type.rows.map (·.fact)
  | dictionary type _ => type.rows.map (·.fact)

theorem Opens.facts {e : Element} {uid name : String} {frame : TypeFrame}
    (h : Opens e uid name frame) : frame.facts = [] := by
  cases h <;> rfl

/-- A row is added with what its element says. -/
theorem Added.facts {t : NameTables} {e : Element} {frame frame' : TypeFrame}
    (h : Added t e frame frame') (accepts : frame.accepts e.kind = true) :
    frame'.facts.map some = frame.facts.map some ++ [e.rowFact?] := by
  cases h with
  | @enumeration _ _ _ row read =>
    have fact : e.rowFact? = some row.fact := by
      simp only [TypeFrame.accepts, Bool.or_eq_true, beq_iff_eq] at accepts
      rcases accepts with kind | kind <;>
        simp [Element.rowFact?, kind, read.value, Except.toOption, EnumerationRow.fact,
          read.description]
    simp [TypeFrame.facts, fact]
  | @bitfield _ _ _ row _ read =>
    have fact : e.rowFact? = some row.fact := by
      rw [Element.rowFact?, eq_of_beq accepts, BitfieldRow.fact, read.rawName]
    simp [TypeFrame.facts, fact]
  | @dictionary _ _ _ row _ read =>
    have fact : e.rowFact? = some row.fact := by
      rw [Element.rowFact?, eq_of_beq accepts, read.code]
      rfl
    simp [TypeFrame.facts, fact]

end TypeFrame

/-- The row that an open element holds. -/
def OpenElement.openRow? : OpenElement → Option Element
  | row e => some e
  | type | tree | node _ | path | other => none

namespace OpenElement.Completes

variable {e : Element} {o : OpenElement}

theorem declares (h : Completes e o) : e.kind.declaresType = o.isType := by
  cases h with
  | type declares => exact declares
  | row row => cases kind : e.kind <;> simp_all [ElementKind.isRow] <;> rfl
  | tree selected => cases kind : e.kind <;> simp_all [Element.selectedTree?] <;> rfl
  | path kind => rcases kind with kind | kind <;> rw [kind] <;> rfl
  | node _ levelled => cases kind : e.kind <;> simp_all [ElementKind.level?] <;> rfl
  | other plain => cases kind : e.kind <;> simp_all [ElementKind.isPlain] <;> rfl

theorem isRow (h : Completes e o) : e.kind.isRow = (openRow? o).isSome := by
  cases h with
  | type declares => cases kind : e.kind <;> simp_all [ElementKind.declaresType] <;> rfl
  | row row => exact row
  | tree selected => cases kind : e.kind <;> simp_all [Element.selectedTree?] <;> rfl
  | path kind => rcases kind with kind | kind <;> rw [kind] <;> rfl
  | node _ levelled => cases kind : e.kind <;> simp_all [ElementKind.level?] <;> rfl
  | other plain => cases kind : e.kind <;> simp_all [ElementKind.isPlain] <;> rfl

theorem selects (h : Completes e o) : e.selectedTree?.isSome = o.isTree := by
  cases h with
  | type declares =>
    cases kind : e.kind <;> simp_all [ElementKind.declaresType, Element.selectedTree?] <;> rfl
  | row row => cases kind : e.kind <;> simp_all [ElementKind.isRow, Element.selectedTree?] <;> rfl
  | tree selected => exact selected
  | path kind => rcases kind with kind | kind <;> simp [Element.selectedTree?, kind] <;> rfl
  | node _ levelled =>
    cases kind : e.kind <;> simp_all [ElementKind.level?, Element.selectedTree?] <;> rfl
  | other plain =>
    cases kind : e.kind <;> simp_all [ElementKind.isPlain, Element.selectedTree?] <;> rfl

end OpenElement.Completes

namespace Model

/-- The declared types, by the kind of their declaration and their UID. -/
def declared (m : Model) : List (ElementKind × String) :=
  m.enumerations.map (fun e => (.enumeration, e.uid)) ++
    m.bitfields.map (fun b => (.bitfield, b.uid)) ++
    m.dictionaries.map fun d => (.dictionary, d.uid)

/-- What all rows say, type by type. -/
def facts (m : Model) : List RowFact :=
  m.enumerations.flatMap (fun e => e.rows.map (·.fact)) ++
    m.bitfields.flatMap (fun b => b.rows.map (·.fact)) ++
    m.dictionaries.flatMap fun d => d.rows.map (·.fact)

/-- A model has what elements declare: every tree, in their order, every type, each under a UID of
its own, and every row. -/
structure Has (m : Model) (entered : List Element) : Prop where
  trees : m.trees.map (fun tree => (tree.hierarchy, tree.uid)) =
    entered.filterMap (·.selectedTree?)
  types : ∀ e ∈ entered, e.kind.declaresType = true →
    ∃ uid, e.uid? = some uid ∧ (e.kind, uid) ∈ m.declared
  apart : ((entered.filter (·.kind.declaresType)).map (·.uid?)).Nodup
  rows : ((entered.filter (·.kind.isRow)).map (·.rowFact?)).Perm (m.facts.map some)

theorem declared_enumerations (m : Model) {uid : String} {parts : List Enumeration}
    (h : ∃ part ∈ parts, part.uid = uid) :
    ∀ type ∈ m.declared ++ [(.enumeration, uid)],
      type ∈ declared { m with enumerations := m.enumerations ++ parts } := by
  obtain ⟨part, hpart, rfl⟩ := h
  intro type htype
  simp only [declared, List.map_append, List.mem_append, List.mem_singleton] at htype ⊢
  rcases htype with ((htype | htype) | htype) | rfl
  · exact .inl (.inl (.inl htype))
  · exact .inl (.inr htype)
  · exact .inr htype
  · exact .inl (.inl (.inr (List.mem_map.mpr ⟨part, hpart, rfl⟩)))

theorem declared_bitfields (m : Model) (b : Bitfield) :
    ∀ type ∈ m.declared ++ [(.bitfield, b.uid)],
      type ∈ declared { m with bitfields := m.bitfields ++ [b] } := by
  intro type htype
  simp only [declared, List.map_append, List.map_singleton, List.mem_append] at htype ⊢
  rcases htype with ((htype | htype) | htype) | htype
  · exact .inl (.inl htype)
  · exact .inl (.inr (.inl htype))
  · exact .inr htype
  · exact .inl (.inr (.inr htype))

theorem declared_dictionaries (m : Model) (d : Dictionary) :
    declared { m with dictionaries := m.dictionaries ++ [d] } =
      m.declared ++ [(.dictionary, d.uid)] := by
  simp [declared]

theorem facts_enumerations (m : Model) (parts : List Enumeration) :
    (facts { m with enumerations := m.enumerations ++ parts }).Perm
      (m.facts ++ (parts.flatMap (·.rows)).map (·.fact)) := by
  simp only [facts, List.flatMap_append, List.append_assoc, List.map_flatMap]
  apply List.Perm.append_left
  rw [← List.append_assoc (m.bitfields.flatMap _)]
  exact List.perm_append_comm

theorem facts_bitfields (m : Model) (b : Bitfield) :
    (facts { m with bitfields := m.bitfields ++ [b] }).Perm (m.facts ++ b.rows.map (·.fact)) := by
  simp only [facts, List.flatMap_append, List.flatMap_singleton, List.append_assoc]
  apply List.Perm.append_left
  apply List.Perm.append_left
  exact List.perm_append_comm

theorem facts_dictionaries (m : Model) (d : Dictionary) :
    facts { m with dictionaries := m.dictionaries ++ [d] } = m.facts ++ d.rows.map (·.fact) := by
  simp [facts]

end Model

open OpenElement (Completes openRow? isTree)

namespace Builder

/-- The types in the model and the one that is being filled. -/
def declared (b : Builder) : List (ElementKind × String) :=
  b.model.declared ++ b.current.toList.map fun frame => (frame.kind, frame.uid)

def facts (b : Builder) : List RowFact := b.model.facts ++ b.current.toList.flatMap (·.facts)

def treeLabels (b : Builder) : List (Hierarchy × String) :=
  b.model.trees.map (fun tree => (tree.hierarchy, tree.uid)) ++
    b.tree.toList.map fun frame => (frame.tree.hierarchy, frame.tree.uid)

/-- Whatever was entered is open, being filled or assembled, or in the model. -/
structure Accounted (t : NameTables) (s : Trail Builder) : Prop where
  stacked : Stacked t s
  fits : ∀ e, .row e ∈ s.state.opened →
    ∃ frame, s.state.current = some frame ∧ frame.accepts e.kind = true
  trees : s.state.treeLabels = s.entered.filterMap (·.selectedTree?)
  types : ∀ e ∈ s.entered, e.kind.declaresType = true →
    ∃ uid, e.uid? = some uid ∧ s.state.emitted.contains uid = true ∧
      (e.kind, uid) ∈ s.state.declared
  apart : ((s.entered.filter (·.kind.declaresType)).map (·.uid?)).Nodup
  rows : ((s.entered.filter (·.kind.isRow)).map (·.rowFact?)).Perm
    ((s.state.opened.filterMap openRow?).map (·.rowFact?) ++ s.state.facts.map some)

theorem accounted_ofTable (t : NameTables) : Accounted t ⟨ofTable t.types, [], []⟩ where
  stacked := stacked_ofTable t
  fits := by simp [ofTable]
  trees := rfl
  types := by simp
  apart := .nil
  rows := .nil

theorem entered_labels {t : NameTables} {b b' : Builder} {e : Element}
    (h : Entered t b e b') (inOrder : b.TreesInOrder t) :
    b'.treeLabels = b.treeLabels ++ e.selectedTree?.toList := by
  obtain ⟨o, opened, complete⟩ := entered_completes h
  have selects := complete.selects
  cases h with
  | tree idle selected =>
    simp [treeLabels, (isIdle_eq_true.mp idle).2, selected, enter, TreeFrame.new]
  | type | row | other =>
    cases opened
    have none : e.selectedTree? = none := by simpa [isTree] using selects
    simp [treeLabels, none, enter]
  | path tree kind made =>
    cases opened
    have none : e.selectedTree? = none := by simpa [isTree] using selects
    have larger := (TreeFrame.openPath_located (inOrder.growing _ tree).settled.wellFormed
      made).2.1.larger
    simp [treeLabels, none, enter, note, tree, larger.hierarchy, larger.uid]
  | node tree levelled attached =>
    cases opened
    have none : e.selectedTree? = none := by simpa [isTree] using selects
    have larger := (TreeFrame.openNode_grows attached).larger
    simp [treeLabels, none, enter, tree, larger.hierarchy, larger.uid]

theorem left_labels {t : NameTables} {ceiling : Nat} {b b' : Builder} (h : Left t ceiling b b') :
    b'.treeLabels = b.treeLabels := by
  cases h with
  | outside => rfl
  | other | row | enumeration | bitfield | dictionary | noType | noTree => rfl
  | node opened tree named =>
    have larger := (TreeFrame.nameNode_grows named).larger
    simp [treeLabels, note, tree, larger.hierarchy, larger.uid, TreeFrame.leave]
  | path opened tree => simp [treeLabels, tree, TreeFrame.leave]
  | tree opened tree => simp [treeLabels, tree]

/-- An element that declares no type and is no row changes nothing about types and rows. -/
theorem Accounted.enter {t : NameTables} {s : Trail Builder} {b' : Builder} {e : Element}
    {o : OpenElement} (hs : Accounted t s)
    (stacked : Stacked t ⟨b', e :: s.inside, s.entered ++ [e]⟩)
    (trees : b'.treeLabels = (s.entered ++ [e]).filterMap (·.selectedTree?))
    (opened : b'.opened = o :: s.state.opened) (complete : Completes e o)
    (noType : o.isType = false) (noRow : openRow? o = none) (current : b'.current = s.state.current)
    (emitted : b'.emitted = s.state.emitted) (model : b'.model = s.state.model) :
    Accounted t ⟨b', e :: s.inside, s.entered ++ [e]⟩ := by
  have declares : e.kind.declaresType = false := complete.declares.trans noType
  have row : e.kind.isRow = false := by simp [complete.isRow, noRow]
  have declared : b'.declared = s.state.declared := by simp only [declared, model, current]
  have facts : b'.facts = s.state.facts := by simp only [Builder.facts, model, current]
  refine ⟨stacked, ?_, ?_, ?_, ?_, ?_⟩
  · intro e' he'
    change _ ∈ b'.opened at he'
    rw [opened] at he'
    rcases List.mem_cons.mp he' with rfl | he'
    · cases noRow
    · exact current ▸ hs.fits e' he'
  · exact trees
  · intro e' he' declares'
    rcases List.mem_append.mp he' with he' | he'
    · change ∃ uid, _ ∧ b'.emitted.contains uid = true ∧ _ ∈ b'.declared
      rw [emitted, declared]
      exact hs.types e' he' declares'
    · obtain rfl := List.mem_singleton.mp he'
      cases declares.symm.trans declares'
  · simpa [List.filter_append, declares] using hs.apart
  · change List.Perm _ ((b'.opened.filterMap openRow?).map _ ++ b'.facts.map some)
    rw [opened, facts, List.filterMap_cons, noRow]
    simpa [List.filter_append, row] using hs.rows

theorem entered_accounted {t : NameTables} {s : Trail Builder} {b' : Builder} {e : Element}
    (hs : Accounted t s) (h : Entered t s.state e b') :
    Accounted t ⟨b', e :: s.inside, s.entered ++ [e]⟩ := by
  have stacked := entered_stacked hs.stacked h
  have trees : b'.treeLabels = (s.entered ++ [e]).filterMap (·.selectedTree?) := by
    rw [entered_labels h hs.stacked.inOrder, hs.trees, List.filterMap_append]
    cases tree : e.selectedTree? <;> simp [tree]
  obtain ⟨o, opened, complete⟩ := entered_completes h
  cases h with
  | tree | path | node | other =>
    cases opened
    exact hs.enter stacked trees rfl complete rfl rfl rfl rfl rfl
  | @type uid name frame idle declares identified named fresh opens =>
    have row : e.kind.isRow = false := complete.isRow.trans (by cases opened; rfl)
    have current := (isIdle_eq_true.mp idle).1
    have kind := (TypeFrame.open?_opens opens).kind declares
    have noFacts := (TypeFrame.open?_opens opens).facts
    have same := (TypeFrame.open?_opens opens).named.1
    have old (e' : Element) (he' : e' ∈ s.entered) (declares' : e'.kind.declaresType = true) :
        ∃ other, e'.uid? = some other ∧ s.state.emitted.contains other = true ∧
          (e'.kind, other) ∈ s.state.model.declared := by
      simpa [Builder.declared, current] using hs.types e' he' declares'
    refine ⟨stacked, ?_, ?_, ?_, ?_, ?_⟩
    · intro e' he'
      rcases List.mem_cons.mp he' with he' | he'
      · cases he'
      · cases hs.stacked.inOrder.nested.plain_of_idle idle _ he'
    · exact trees
    · intro e' he' declares'
      change ∃ other, _ ∧ (s.state.emitted.insert uid).contains other = true ∧
        (e'.kind, other) ∈ s.state.model.declared ++ [(frame.kind, frame.uid)]
      rcases List.mem_append.mp he' with he' | he'
      · obtain ⟨other, hother, emitted, declared⟩ := old e' he' declares'
        refine ⟨other, hother, ?_, List.mem_append_left _ declared⟩
        rw [Std.TreeSet.contains_insert, emitted, Bool.or_true]
      · obtain rfl := List.mem_singleton.mp he'
        exact ⟨uid, identified, by simp, by simp [kind, same]⟩
    · rw [List.filter_append, List.map_append]
      refine List.Nodup.append hs.apart (by simp [declares]) ?_
      intro x hx hnew
      obtain ⟨e', he', rfl⟩ := List.mem_map.mp hx
      obtain ⟨he', declares'⟩ := List.mem_filter.mp he'
      obtain ⟨other, hother, emitted, -⟩ := old e' he' declares'
      have again : e'.uid? = e.uid? := by simpa [declares] using hnew
      obtain rfl : uid = other := Option.some.inj (identified.symm.trans (again.symm.trans hother))
      rw [emitted] at fresh
      cases fresh
    · have none : openRow? .type = none := rfl
      simpa [Builder.facts, enter, noFacts, none, current, List.filter_append, row] using hs.rows
  | @row frame current accepts =>
    have declares : e.kind.declaresType = false := complete.declares.trans (by cases opened; rfl)
    have row := TypeFrame.isRow_of_accepts accepts
    refine ⟨stacked, ?_, ?_, ?_, ?_, ?_⟩
    · intro e' he'
      rcases List.mem_cons.mp he' with same | he'
      · cases same
        exact ⟨frame, current, accepts⟩
      · exact hs.fits e' he'
    · exact trees
    · intro e' he' declares'
      rcases List.mem_append.mp he' with he' | he'
      · exact hs.types e' he' declares'
      · obtain rfl := List.mem_singleton.mp he'
        cases declares.symm.trans declares'
    · simpa [List.filter_append, declares] using hs.apart
    · have some : openRow? (.row e) = some e := rfl
      simp only [enter, List.filterMap_cons, some, List.filter_append, List.filter_cons, row,
        List.filter_nil, ↓reduceIte, List.map_append, List.map_cons, List.map_nil]
      exact (List.perm_append_singleton _ _).trans (hs.rows.cons _)

/-- A finished type is in the model, with all its rows. -/
theorem Accounted.finish {t : NameTables} {s : Trail Builder} {b' : Builder} {frame : TypeFrame}
    {rest : List OpenElement} (hs : Accounted t s)
    (stacked : Stacked t ⟨b', s.inside.drop 1, s.entered⟩)
    (trees : b'.treeLabels = s.state.treeLabels)
    (opened : s.state.opened = .type :: rest) (left : b'.opened = rest)
    (current : s.state.current = some frame) (done : b'.current = none)
    (emitted : b'.emitted = s.state.emitted)
    (declared : ∀ type ∈ s.state.model.declared ++ [(frame.kind, frame.uid)],
      type ∈ b'.model.declared)
    (facts : b'.model.facts.Perm (s.state.model.facts ++ frame.facts)) :
    Accounted t ⟨b', s.inside.drop 1, s.entered⟩ := by
  refine ⟨stacked, ?_, trees.trans hs.trees, ?_, hs.apart, ?_⟩
  · intro e he
    have inside := (hs.stacked.inOrder.nested.inType current).1
    rw [opened] at inside
    change _ ∈ b'.opened at he
    rw [left] at he
    cases inside with
    | type plain => cases plain _ he
  · intro e he declares
    obtain ⟨uid, huid, old, known⟩ := hs.types e he declares
    refine ⟨uid, huid, emitted ▸ old, ?_⟩
    simp only [Builder.declared, current, Option.toList_some, List.map_singleton] at known
    simpa [Builder.declared, done] using declared _ known
  · have rows := hs.rows
    have none : openRow? .type = none := rfl
    simp only [opened, List.filterMap_cons, none, Builder.facts, current, Option.toList_some,
      List.flatMap_singleton] at rows
    simp only [left, Builder.facts, done, Option.toList_none, List.flatMap_nil, List.append_nil]
    exact rows.trans (.append_left _ (facts.symm.map some))

/-- Leaving what is neither a type nor a row changes nothing about types and rows. -/
theorem Accounted.leave {t : NameTables} {s : Trail Builder} {b' : Builder} {o : OpenElement}
    {rest : List OpenElement} (hs : Accounted t s)
    (stacked : Stacked t ⟨b', s.inside.drop 1, s.entered⟩)
    (trees : b'.treeLabels = s.state.treeLabels)
    (opened : s.state.opened = o :: rest) (left : b'.opened = rest) (noRow : openRow? o = none)
    (current : b'.current = s.state.current) (emitted : b'.emitted = s.state.emitted)
    (declared : b'.model.declared = s.state.model.declared)
    (facts : b'.model.facts = s.state.model.facts) :
    Accounted t ⟨b', s.inside.drop 1, s.entered⟩ := by
  refine ⟨stacked, ?_, trees.trans hs.trees, ?_, hs.apart, ?_⟩
  · intro e he
    change _ ∈ b'.opened at he
    exact current ▸ hs.fits e (opened ▸ List.mem_cons_of_mem _ (left ▸ he))
  · simpa only [Builder.declared, declared, current, emitted] using hs.types
  · have rows := hs.rows
    rw [opened, List.filterMap_cons, noRow] at rows
    simpa only [left, Builder.facts, facts, current] using rows

/-- A finished row is in the type that is being filled. -/
theorem Accounted.fill {t : NameTables} {s : Trail Builder} {b' : Builder} {e : Element}
    {frame frame' : TypeFrame} {found : List Diagnostic} {rest : List OpenElement}
    (hs : Accounted t s) (stacked : Stacked t ⟨b', s.inside.drop 1, s.entered⟩)
    (trees : b'.treeLabels = s.state.treeLabels) (opened : s.state.opened = .row e :: rest)
    (left : b'.opened = rest) (current : s.state.current = some frame)
    (added : frame.addRow t e = .ok (frame', found)) (filled : b'.current = some frame')
    (emitted : b'.emitted = s.state.emitted) (model : b'.model = s.state.model) :
    Accounted t ⟨b', s.inside.drop 1, s.entered⟩ := by
  obtain ⟨_, same, accepts⟩ := hs.fits e (opened ▸ List.mem_cons_self ..)
  obtain rfl := Option.some.inj (current.symm.trans same)
  have added := TypeFrame.addRow_added added
  have kind := added.kind
  have uid := added.named.1
  have facts := added.facts accepts
  refine ⟨stacked, ?_, trees.trans hs.trees, ?_, hs.apart, ?_⟩
  · intro e' he'
    change _ ∈ b'.opened at he'
    obtain ⟨_, same, accepts⟩ := hs.fits e' (opened ▸ List.mem_cons_of_mem _ (left ▸ he'))
    obtain rfl := Option.some.inj (current.symm.trans same)
    exact ⟨frame', filled, (TypeFrame.accepts_congr kind e'.kind).trans accepts⟩
  · have declared : b'.declared = s.state.declared := by
      simp only [Builder.declared, model, filled, current, Option.toList_some, List.map_singleton,
        kind, uid]
    simpa only [declared, emitted] using hs.types
  · have rows := hs.rows
    have row : openRow? (.row e) = some e := rfl
    simp only [opened, List.filterMap_cons, row, List.map_cons, Builder.facts, current,
      Option.toList_some, List.flatMap_singleton, List.map_append, List.cons_append] at rows
    simp only [left, Builder.facts, model, filled, Option.toList_some, List.flatMap_singleton,
      List.map_append, facts, ← List.append_assoc]
    refine rows.trans ?_
    rw [← List.append_assoc]
    exact (List.perm_append_singleton _ _).symm

theorem left_accounted {t : NameTables} {ceiling : Nat} {s : Trail Builder} {b' : Builder}
    (hs : Accounted t s) (h : Left t ceiling s.state b') :
    Accounted t ⟨b', s.inside.drop 1, s.entered⟩ := by
  have stacked := left_stacked hs.stacked h
  have trees := left_labels h
  have nested := hs.stacked.inOrder.nested
  cases h with
  | outside opened => exact ⟨stacked, hs.fits, hs.trees, hs.types, hs.apart, hs.rows⟩
  | other opened | path opened | node opened | tree opened =>
    exact hs.leave stacked trees opened rfl rfl rfl rfl rfl rfl
  | row opened current added =>
    exact hs.fill stacked trees opened rfl current added rfl rfl rfl
  | @enumeration rest type scope types parts opened current split =>
    have rows : (parts.flatMap (·.rows)).map (·.fact) = type.rows.map (·.fact) :=
      Enumeration.split_rows (fun _ _ => rfl) split
    obtain ⟨blocks, satellites, -, rfl⟩ := Enumeration.split_eq_ok split
    refine hs.finish stacked trees opened rfl current rfl rfl
      (Model.declared_enumerations _ ⟨_, List.mem_cons_self .., rfl⟩) ?_
    exact (Model.facts_enumerations _ _).trans (.append_left _ (.of_eq rows))
  | bitfield opened current =>
    exact hs.finish stacked trees opened rfl current rfl rfl (Model.declared_bitfields _ _)
      (Model.facts_bitfields _ _)
  | dictionary opened current =>
    refine hs.finish stacked trees opened rfl current rfl rfl ?_
      (.of_eq (Model.facts_dictionaries _ _))
    rw [Model.declared_dictionaries]
    exact fun _ h => h
  | noType opened inType none => exact absurd none (nested.current_of_opened opened inType)
  | noTree opened inTree none => exact absurd none (nested.tree_of_opened opened inTree)

end Builder

open Builder in
/-- At every step of a build over properly nested events, the open elements are those that were
entered, one for each element that is open and not left out with its subtree; what is being filled
or assembled is told by the one type or tree among them, and the cursor by the nodes and paths. When
all events are through, the model has everything that was entered. -/
theorem open_elements_accounted (t : NameTables) (ceiling : Nat) {before after : List Event}
    (nested : Balanced [] (before ++ after)) {b : Builder}
    (built : (walk t ceiling).run 0 (ofTable t.types) before = .ok b) :
    ∃ skipped inside entered,
      (walk t ceiling).trailed.run 0 ⟨ofTable t.types, [], []⟩ before =
        .ok ⟨b, inside, entered⟩ ∧
      openElements [] before = skipped ++ inside ∧
      (∀ e ∈ skipped.getLast?, (walk t ceiling).LeavesOut b e) ∧
      List.Forall₂ Completes inside b.opened ∧
      (∀ kind rest, after = .finish kind :: rest → skipped = [] → b.opened ≠ []) ∧
      b.opened.countP (·.isType) = (if b.current.isSome then 1 else 0) ∧
      b.opened.countP (·.isTree) = (if b.tree.isSome then 1 else 0) ∧
      (b.current = none ∨ b.tree = none) ∧
      (∀ f, b.tree = some f → PointsAt f.tree (inside.zip b.opened) f.cursor) ∧
      (after = [] → skipped = [] ∧ b.opened = [] ∧ b.current = none ∧ b.tree = none ∧
        b.model.Has entered) := by
  obtain ⟨inside, entered, trail⟩ := Walk.run_trailed (s := ofTable t.types) built
  have keeps : (walk t ceiling).trailed.Keeps (Accounted t) :=
    trailed_keeps entered_accounted left_accounted
  obtain ⟨stacked, -, trees, types, apart, rows⟩ := keeps.run (accounted_ofTable t) trail
  obtain ⟨inOrder, completes, points⟩ := stacked
  obtain ⟨countTypes, countTrees⟩ := inOrder.nested.countP
  obtain ⟨skipped, opened, out⟩ := Walk.run_openElements trail [] rfl (by simp)
  replace opened : openElements [] before = skipped ++ inside := opened
  have behind : Balanced ((openElements [] before).map (·.kind)) after := Balanced.behind nested
  refine ⟨skipped, inside, entered, trail, opened, out, completes, ?_, countTypes, countTrees, ?_,
    points, ?_⟩
  · rintro kind rest rfl rfl closed
    rw [closed] at completes
    cases completes
    rw [opened] at behind
    exact behind
  · cases inOrder.nested with
    | idle _ current | tree _ current => exact .inl current
    | type _ _ tree => exact .inr tree
  · rintro rfl
    have nothing : skipped ++ inside = [] := opened ▸ List.map_eq_nil_iff.mp behind
    obtain ⟨rfl, rfl⟩ := List.append_eq_nil_iff.mp nothing
    have closed : b.opened = [] := List.forall₂_nil_left_iff.mp completes
    obtain ⟨current, tree⟩ : b.current = none ∧ b.tree = none := by
      rw [closed] at countTypes countTrees
      constructor
      · simpa using countTypes
      · simpa using countTrees
    refine ⟨rfl, closed, current, tree, ?_, ?_, apart, ?_⟩
    · simpa [treeLabels, tree] using trees
    · intro e he declares
      obtain ⟨uid, huid, -, known⟩ := types e he declares
      exact ⟨uid, huid, by simpa [declared, current] using known⟩
    · simpa [closed, Builder.facts, current] using rows

/-- A node below a path. -/
def pathDocument : String :=
  "<cet uid=\"30\"><entity country=\"5\" kind=\"1\" domain=\"1\"><category value=\"1\"/>" ++
    "</entity></cet>"

open Builder in
theorem open_node_accounted : ∃ (b : Builder) (f : TreeFrame) (inside : List Element),
    (walk ⟨{}, {}⟩ 4096).run 0 (ofTable {}) ((Reader.ofString pathDocument).events.1.take 3) =
      .ok b ∧
    Balanced [] (Reader.ofString pathDocument).events.1 ∧ b.tree = some f ∧ f.cursor = [3, 2] ∧
    b.opened.countP (·.isTree) = 1 ∧ PointsAt f.tree (inside.zip b.opened) [3, 2] := by
  have run : ((walk ⟨{}, {}⟩ 4096).run 0 (ofTable {})
      ((Reader.ofString pathDocument).events.1.take 3)).toOption.map
        (fun b => b.tree.map (·.cursor)) = some (some [3, 2]) := by decide +kernel
  have complete : (Reader.ofString pathDocument).events.2 = none := by decide +kernel
  have nested : Balanced [] (Reader.ofString pathDocument).events.1 :=
    Reader.ofBytes_balanced (Prod.ext rfl complete)
  obtain ⟨b, built, tree⟩ := exists_ok_of_map run
  obtain ⟨f, tree, cursor⟩ := Option.map_eq_some_iff.mp tree
  rw [← List.take_append_drop 3 (Reader.ofString pathDocument).events.1] at nested
  obtain ⟨-, inside, -, -, -, -, -, -, -, trees, -, points, -⟩ :=
    open_elements_accounted ⟨{}, {}⟩ 4096 nested built
  rw [List.take_append_drop] at nested
  refine ⟨b, f, inside, built, nested, tree, cursor, ?_, cursor ▸ points f tree⟩
  rw [trees, tree]
  rfl

end EnumRegistry
