import EnumRegistry.Proofs.Building.Declarations
import EnumRegistry.Proofs.Resolution

/-!
Rows and the types that hold them. The types of a model are made of the declarations that are built,
each of one and in their order, and the rows of each are the row elements inside its declaration, in
the order in which they end.
-/

namespace EnumRegistry

open List (Forall₂)

/-- The declarations that are built, of some that stand one behind the other: those whose UID has a
name and that are the first of their UID. -/
def TypeTable.accepted (t : TypeTable) : List (Element × Forest) → List (Element × Forest)
  | [] => []
  | declared :: rest =>
    if declared.1.uid?.any (fun uid => (t.name? uid).isSome) then
      declared :: (t.accepted rest).filter (·.1.uid? != declared.1.uid?)
    else t.accepted rest

/-- One more declaration is built if none of its UID was. -/
theorem TypeTable.accepted_concat (t : TypeTable) (declared : List (Element × Forest))
    (last : Element × Forest) : t.accepted (declared ++ [last]) = t.accepted declared ++
      if last.1.uid?.any (fun uid => (t.name? uid).isSome) &&
        !(t.accepted declared).any (·.1.uid? == last.1.uid?) then [last] else [] := by
  induction declared with
  | nil => simp [accepted]
  | cons first rest ih =>
    simp only [List.cons_append, accepted, ih]
    split
    · rw [List.filter_append, List.cons_append]
      congr 2
      by_cases same : first.1.uid? = last.1.uid?
      · simp only [List.any_cons, same, BEq.rfl, Bool.true_or, Bool.not_true, Bool.and_false,
          Bool.false_eq_true, ↓reduceIte]
        split <;> simp
      · have others : ((t.accepted rest).filter (·.1.uid? != first.1.uid?)).any
            (·.1.uid? == last.1.uid?) = (t.accepted rest).any (·.1.uid? == last.1.uid?) := by
          rw [List.any_filter]
          congr 1
          funext declared
          by_cases own : declared.1.uid? = last.1.uid?
          · simp [own, Ne.symm same]
          · simp [own]
        simp only [List.any_cons, others, beq_eq_false_iff_ne.mpr same, Bool.false_or]
        split <;> simp [Ne.symm same]
    · rfl

/-! ## Types and their declarations -/

/-- An enumeration, its satellites behind it, and the declaration that they are made of. -/
structure Enumeration.MadeOf (t : TypeTable) (declared : Element × Forest)
    (parts : List Enumeration) : Prop where
  uid : ∀ part ∈ parts, declared.1.uid? = some part.uid
  first : ∃ primary satellites, parts = primary :: satellites ∧
    t.name? primary.uid = some primary.name
  rows : Forall₂ (fun e row => row.ReadFrom e) (declared.2.rowsOf (·.isEnumerationRow))
    (parts.flatMap (·.rows))

/-- A bitfield and the declaration that it is made of. -/
structure Bitfield.MadeOf (t : TypeTable) (declared : Element × Forest) (b : Bitfield) : Prop where
  uid : declared.1.uid? = some b.uid
  name : t.name? b.uid = some b.name
  rows : Forall₂ (fun e row => row.ReadFrom e) (declared.2.rowsOf (· == .bitfieldRow)) b.rows

/-- A dictionary and the declaration that it is made of. -/
structure Dictionary.MadeOf (t : TypeTable) (declared : Element × Forest) (d : Dictionary) :
    Prop where
  uid : declared.1.uid? = some d.uid
  name : t.name? d.uid = some d.name
  rows : Forall₂ (fun e row => row.ReadFrom e) (declared.2.rowsOf (· == .dictionaryRow)) d.rows

/-- The types of a model are made of declarations, one of each and in their order. -/
structure Model.MadeOf (t : TypeTable) (declared : List (Element × Forest)) (m : Model) :
    Prop where
  enumerations : ∃ groups, m.enumerations = groups.flatten ∧
    Forall₂ (Enumeration.MadeOf t) (declared.filter (·.1.kind == .enumeration)) groups
  bitfields :
    Forall₂ (Bitfield.MadeOf t) (declared.filter (·.1.kind == .bitfield)) m.bitfields
  dictionaries :
    Forall₂ (Dictionary.MadeOf t) (declared.filter (·.1.kind == .dictionary)) m.dictionaries

theorem forall₂_concat {α β : Type} {R : α → β → Prop} {as : List α} {bs : List β} {a : α} {b : β}
    (h : Forall₂ R as bs) (last : R a b) : Forall₂ R (as ++ [a]) (bs ++ [b]) :=
  List.rel_append h (.cons last .nil)

namespace Model.MadeOf

variable {t : TypeTable} {declared : List (Element × Forest)} {m : Model}
  {last : Element × Forest}

theorem add_enumeration (h : m.MadeOf t declared) (kind : last.1.kind = .enumeration)
    {parts : List Enumeration} (made : Enumeration.MadeOf t last parts) :
    MadeOf t (declared ++ [last]) { m with enumerations := m.enumerations ++ parts } where
  enumerations := by
    obtain ⟨groups, flat, fits⟩ := h.enumerations
    refine ⟨groups ++ [parts], by simp [flat], ?_⟩
    simpa [kind] using forall₂_concat fits made
  bitfields := by simpa [kind] using h.bitfields
  dictionaries := by simpa [kind] using h.dictionaries

theorem add_bitfield (h : m.MadeOf t declared) (kind : last.1.kind = .bitfield) {b : Bitfield}
    (made : b.MadeOf t last) :
    MadeOf t (declared ++ [last]) { m with bitfields := m.bitfields ++ [b] } where
  enumerations := by simpa [kind] using h.enumerations
  bitfields := by simpa [kind] using forall₂_concat h.bitfields made
  dictionaries := by simpa [kind] using h.dictionaries

theorem add_dictionary (h : m.MadeOf t declared) (kind : last.1.kind = .dictionary) {d : Dictionary}
    (made : d.MadeOf t last) :
    MadeOf t (declared ++ [last]) { m with dictionaries := m.dictionaries ++ [d] } where
  enumerations := by simpa [kind] using h.enumerations
  bitfields := by simpa [kind] using h.bitfields
  dictionaries := by simpa [kind] using forall₂_concat h.dictionaries made

end Model.MadeOf

namespace TypeFrame

variable {t : NameTables} {frame frame' : TypeFrame} {done elements : List Element}

/-- The rows of an open type are made of some elements. -/
def RowsFrom (elements : List Element) : TypeFrame → Prop
  | enumeration type _ => Forall₂ (fun e row => row.ReadFrom e) elements type.rows
  | bitfield type _ => Forall₂ (fun e row => row.ReadFrom e) elements type.rows
  | dictionary type _ => Forall₂ (fun e row => row.ReadFrom e) elements type.rows

theorem Opens.rowsFrom {e : Element} {uid name : String} (h : frame.Opens e uid name) :
    frame.RowsFrom [] := by
  cases h <;> exact .nil

theorem Added.rowsFrom {e : Element} (h : frame.Added t e frame') (before : frame.RowsFrom done) :
    frame'.RowsFrom (done ++ [e]) := by
  cases h with
  | enumeration read | bitfield read | dictionary read => exact forall₂_concat before read

theorem Gains.rowsFrom (h : frame.Gains t elements frame') (before : frame.RowsFrom done) :
    frame'.RowsFrom (done ++ elements) := by
  induction h generalizing done with
  | nil => rwa [List.append_nil]
  | @cons e rest _ _ _ added behind ih =>
    rw [← List.singleton_append, ← List.append_assoc]
    exact ih (added.rowsFrom before)

theorem Gains.named (h : frame.Gains t elements frame') :
    frame'.uid = frame.uid ∧ frame'.name = frame.name := by
  induction h with
  | nil => exact ⟨rfl, rfl⟩
  | cons added behind ih => exact ⟨ih.1.trans added.named.1, ih.2.trans added.named.2⟩

end TypeFrame

/-! ## A step and a run -/

theorem EnumerationRow.readFrom_named (row : EnumerationRow) (name : String) :
    EnumerationRow.ReadFrom { row with name } = row.ReadFrom := by
  funext e
  refine propext ⟨fun h => ?_, fun h => ?_⟩
  · exact ⟨h.value, h.rangeEnd, h.description, h.footnote, h.reference⟩
  · exact ⟨h.value, h.rangeEnd, h.description, h.footnote, h.reference⟩

namespace Enumeration

/-- The parts of an enumeration have its rows one after the other, each of them the UID, and the
first the name. -/
theorem split_madeOf {t : TypeTable} {e : Element} {inside : Forest} {type : Enumeration}
    {ceiling : Nat} {types types' : NameScope} {parts : List Enumeration}
    (identified : e.uid? = some type.uid) (named : t.name? type.uid = some type.name)
    (rows : Forall₂ (fun e row => row.ReadFrom e) (inside.rowsOf (·.isEnumerationRow)) type.rows)
    (split : type.split ceiling types = .ok (parts, types')) : MadeOf t (e, inside) parts where
  uid part hpart := by rw [split_uid split part hpart, identified]
  first := by
    obtain ⟨blocks, satellites, -, rfl⟩ := split_eq_ok split
    exact ⟨_, satellites, rfl, named⟩
  rows := by
    have same : (parts.flatMap (·.rows)).map (·.ReadFrom) = type.rows.map (·.ReadFrom) :=
      split_rows EnumerationRow.readFrom_named split
    have told : Forall₂ (fun e fact => fact e) (inside.rowsOf (·.isEnumerationRow))
        (type.rows.map (·.ReadFrom)) := List.forall₂_map_right_iff.mpr rows
    rw [← same] at told
    exact List.forall₂_map_right_iff.mp told

end Enumeration

namespace TypeFrame

/-- A type that ends is made of its declaration. -/
theorem Ends.madeOf {t : TypeTable} {declared : List (Element × Forest)} {m m' : Model}
    {e : Element} {inside : Forest} {ceiling : Nat} {frame : TypeFrame}
    (ends : frame.Ends ceiling m m') (kind : frame.kind = e.kind)
    (identified : e.uid? = some frame.uid) (named : t.name? frame.uid = some frame.name)
    (rows : frame.RowsFrom (inside.rowsOf fun kind => frame.accepts kind))
    (made : m.MadeOf t declared) : m'.MadeOf t (declared ++ [(e, inside)]) := by
  cases ends with
  | @enumeration type scope _ _ _ split =>
    simp only [accepts_enumeration] at rows
    exact made.add_enumeration kind.symm (Enumeration.split_madeOf identified named rows split)
  | bitfield type scope => exact made.add_bitfield kind.symm ⟨identified, named, rows⟩
  | dictionary type scope => exact made.add_dictionary kind.symm ⟨identified, named, rows⟩

end TypeFrame

namespace Builder

variable {t : NameTables} {ceiling : Nat}

/-- The types built so far are made of the declarations passed so far. -/
structure Made (t : NameTables) (done : List (Element × Forest)) (b : Builder) : Prop where
  emitted : ∀ uid, b.emitted.contains uid =
    (t.types.accepted done).any (·.1.uid? == some uid)
  model : b.model.MadeOf t.types (t.types.accepted done)

section
variable {done : List (Element × Forest)} {b b' : Builder} {e : Element} {inside : Forest}

/-- A declaration is not built if its UID has no name or has been built. -/
theorem Made.accepted_out (made : Made t done b) (inside : Forest)
    (known : ∀ uid name, e.uid? = some uid → t.types.name? uid = some name →
      b.emitted.contains uid = true) :
    t.types.accepted (done ++ [(e, inside)]) = t.types.accepted done := by
  rw [t.types.accepted_concat, if_neg, List.append_nil]
  intro accepted
  simp only [Bool.and_eq_true, Option.any_eq_true, Bool.not_eq_true'] at accepted
  obtain ⟨⟨uid, identified, hasName⟩, first⟩ := accepted
  obtain ⟨name, named⟩ := Option.isSome_iff_exists.mp hasName
  have built := known uid name identified named
  rw [made.emitted, ← identified, first] at built
  cases built

theorem Made.accepted_built (made : Made t done b) (inside : Forest) {uid name : String}
    (identified : e.uid? = some uid) (named : t.types.name? uid = some name)
    (fresh : b.emitted.contains uid = false) :
    t.types.accepted (done ++ [(e, inside)]) = t.types.accepted done ++ [(e, inside)] := by
  rw [t.types.accepted_concat, if_pos]
  simp [identified, named, ← made.emitted, fresh]

theorem Made.declare (made : Made t done b) (type : e.kind.declaresType = true)
    (declares : Declares t ceiling b e inside b') : Made t (done ++ [(e, inside)]) b' := by
  cases declares with
  | out known =>
    have same := made.accepted_out inside known
    exact ⟨same ▸ made.emitted, same ▸ made.model⟩
  | @built uid name frame frame' _ identified named fresh opens rows emitted ends =>
    have more := made.accepted_built inside identified named fresh
    refine ⟨?_, ?_⟩
    · intro other
      have own : (compare uid other == .eq) = ([(e, inside)].any (·.1.uid? == some other)) := by
        rw [Bool.eq_iff_iff, beq_iff_eq, Std.LawfulEqCmp.compare_eq_iff_eq]
        simp [identified]
      rw [more, emitted, Std.TreeSet.contains_insert, made.emitted, List.any_append, own,
        Bool.or_comm]
    · obtain ⟨uid', name'⟩ := rows.named
      rw [opens.named.1] at uid'
      rw [opens.named.2] at name'
      have held := rows.rowsFrom opens.rowsFrom
      rw [List.nil_append] at held
      simp only [← TypeFrame.accepts_congr rows.kind] at held
      rw [more]
      exact ends.madeOf (rows.kind.trans (opens.kind type)) (uid' ▸ identified)
        (by rw [uid', name', named]) held made.model

end

theorem follows_made (t : NameTables) (ceiling : Nat) : Follows t ceiling (Made t) where
  keep {done b b'} made emitted types := by
    obtain ⟨trees, model⟩ := types
    obtain ⟨enumerations, bitfields, dictionaries⟩ := made.model
    exact ⟨emitted ▸ made.emitted, model ▸ ⟨enumerations, bitfields, dictionaries⟩⟩
  declare made type declares := made.declare type declares

theorem made_ofTable (t : NameTables) : Made t [] (ofTable t.types) where
  emitted uid := by simp [ofTable, TypeTable.accepted]
  model := ⟨⟨[], rfl, .nil⟩, .nil, .nil⟩

end Builder

/-- The types of a resolved model are made of the declarations that are built, one of each and in
their order, and hold exactly the rows that their declarations do, as they are declared and in the
order in which they end. -/
theorem rows_complete (overrides : Overrides) (ceiling : Nat) (document : List UInt8)
    (res : Resolution)
    (resolved : Resolution.ofReader overrides ceiling (.ofBytes document) = .ok res) :
    ∃ f : Forest, (Reader.ofBytes document).events = (f.events, none) ∧
      res.model.MadeOf res.table (res.table.accepted f.declared) := by
  obtain ⟨survey, b, -, built, rfl⟩ := Resolution.ofReader_eq_ok resolved
  obtain ⟨f, read, walked⟩ := Walk.through_ofBytes _ built
  have made := (Builder.follows_made ⟨survey.table, overrides⟩ ceiling).visit
    (Builder.treesInOrder_ofTable _) rfl (Builder.made_ofTable _) walked
  exact ⟨f, read, made.model⟩

/-- Rows in rows and in other elements, a row that is deprecated, rows of other types, and a
declaration that is not the first of its UID. -/
def colorDocument : String :=
  "<enum uid=\"1\" name=\"Color\" size=\"8\"><enumrow value=\"1\" description=\"Red\">" ++
    "<enumrow value=\"2\" description=\"Green\"/></enumrow>" ++
    "<dictrow value=\"x\"/><enumrow value=\"3\" deprecated=\"true\"/>" ++
    "<note><enumrow_range value_min=\"4\" value_max=\"6\" description=\"Rest\"/></note></enum>" ++
    "<dict uid=\"1\" name=\"Color\"><dictrow value=\"y\"/></dict>"

theorem color_rows_complete : ∃ (res : Resolution) (f : Forest),
    Resolution.ofString {} 2 colorDocument = .ok res ∧
    (Reader.ofString colorDocument).events = (f.events, none) ∧
    res.model.enumerations.map (fun e => (e.name, e.rows.map (·.value))) =
      [("Color", [2, 1]), ("ColorAdditional", [4])] ∧
    res.model.dictionaries = [] ∧ res.model.MadeOf res.table (res.table.accepted f.declared) := by
  have run : (Resolution.ofString {} 2 colorDocument).toOption.map (fun res =>
      (res.model.enumerations.map (fun e => (e.name, e.rows.map (·.value))),
        res.model.dictionaries)) =
      some ([("Color", [2, 1]), ("ColorAdditional", [4])], []) := by
    decide +kernel
  obtain ⟨res, resolved, facts⟩ := exists_ok_of_map run
  obtain ⟨enumerations, dictionaries⟩ := Prod.mk.inj facts
  obtain ⟨f, read, made⟩ := rows_complete {} 2 _ res resolved
  exact ⟨res, f, resolved, read, enumerations, dictionaries, made⟩

end EnumRegistry
