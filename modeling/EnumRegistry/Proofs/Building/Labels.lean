import EnumRegistry.Proofs.Building.Declarations
import EnumRegistry.Proofs.Resolution
import EnumRegistry.Proofs.Survey.Labels

/-!
The labels of path segments are the names of rows. The builder names the rows of an enumeration as
the survey does, one after the other in a scope of their own; so where both read the same rows, the
label of a value is the name of the last row with the value.
-/

namespace EnumRegistry

/-- What a label is taken from. -/
def EnumerationRow.labelled (row : EnumerationRow) : Int × String := (row.value, row.name)

namespace TypeFrame

/-- Rows are added to a type; those of an enumeration are named one after the other. -/
inductive Reads (overrides : Overrides) (elements : List Element) : TypeFrame → TypeFrame → Prop
  | enumeration {type type' : Enumeration} {scope scope' : NameScope}
      {named : List (Int × String)} (uid : type'.uid = type.uid)
      (rawName : type'.rawName = type.rawName)
      (names : nameRows overrides type.uid type.rawName scope elements = .ok (named, scope'))
      (rows : type'.rows.map (·.labelled) = type.rows.map (·.labelled) ++ named) :
      Reads overrides elements (.enumeration type scope) (.enumeration type' scope')
  | bitfield {type type' : Bitfield} {scope scope' : NameScope} :
      Reads overrides elements (.bitfield type scope) (.bitfield type' scope')
  | dictionary {type type' : Dictionary} {scope scope' : NameScope} :
      Reads overrides elements (.dictionary type scope) (.dictionary type' scope')

variable {overrides : Overrides}

theorem Reads.nil (frame : TypeFrame) : Reads overrides [] frame frame := by
  cases frame with
  | enumeration type scope => exact .enumeration rfl rfl rfl (List.append_nil _).symm
  | bitfield => exact .bitfield
  | dictionary => exact .dictionary

theorem Reads.append {first second : List Element} {frame frame' frame'' : TypeFrame}
    (h : Reads overrides first frame frame') (h' : Reads overrides second frame' frame'') :
    Reads overrides (first ++ second) frame frame'' := by
  cases h with
  | enumeration uid rawName names rows =>
    cases h' with
    | enumeration uid' rawName' names' rows' =>
      rw [uid, rawName] at names'
      exact .enumeration (uid'.trans uid) (rawName'.trans rawName) (nameRows_append names names')
        (by rw [rows', rows, List.append_assoc])
  | bitfield =>
    cases h'
    exact .bitfield
  | dictionary =>
    cases h'
    exact .dictionary

theorem Added.reads {t : NameTables} {e : Element} {frame frame' : TypeFrame}
    (h : Added t e frame frame') : Reads t.overrides [e] frame frame' := by
  cases h with
  | enumeration read referred base claimed =>
    exact .enumeration rfl rfl (nameRows_singleton read.value (base ▸ claimed))
      (by simp [EnumerationRow.labelled])
  | bitfield => exact .bitfield
  | dictionary => exact .dictionary

theorem Gains.reads {t : NameTables} {elements : List Element} {frame frame' : TypeFrame}
    (h : Gains t elements frame frame') : Reads t.overrides elements frame frame' := by
  induction h with
  | nil frame => exact .nil frame
  | cons added behind ih => exact added.reads.append ih

end TypeFrame

namespace Enumeration

/-- An enumeration that is not split keeps all its rows. -/
theorem split_eq_singleton {e whole : Enumeration} {ceiling : Nat} {types types' : NameScope}
    (h : e.split ceiling types = .ok ([whole], types')) : whole.rows = e.rows := by
  have values : ([whole].flatMap (·.rows)).map (·.value) = e.rows.map (·.value) :=
    split_rows (fun _ _ => rfl) h
  obtain ⟨blocks, satellites, -, same⟩ := split_eq_ok h
  obtain ⟨rfl, rfl⟩ := List.cons_eq_cons.mp same
  have length := congrArg List.length values
  simp only [List.flatMap_singleton, List.length_map, List.length_take] at length
  exact List.take_of_length_le (by omega)

end Enumeration

namespace Builder

variable {t : NameTables} {ceiling : Nat}

open Survey (declares)

/-- The parts of an enumeration that is made of a declaration. -/
def PartsOf (t : NameTables) (ceiling : Nat) (uid : String) (e : Element) (inside : Forest)
    (parts : List Enumeration) : Prop :=
  e.kind = .enumeration ∧ ∃ (type : Enumeration) (scope types types' : NameScope),
    nameRows t.overrides uid e.rawName {} inside.rowsEnded =
      .ok (type.rows.map (·.labelled), scope) ∧
    type.split ceiling types = .ok (parts, types')

/-- A builder that has passed some declarations has the parts of an enumeration with a UID only if
it is the first declaration of the UID. -/
structure Covers (t : NameTables) (ceiling : Nat) (uid : String) (done : List (Element × Forest))
    (b : Builder) : Prop where
  known : done.any (declares uid) = true → t.types.name? uid ≠ none →
    b.emitted.contains uid = true
  parts : b.model.enumerations.filter (·.uid == uid) = [] ∨
    ∃ e inside, done.find? (declares uid) = some (e, inside) ∧
      PartsOf t ceiling uid e inside (b.model.enumerations.filter (·.uid == uid))

variable {uid : String} {done : List (Element × Forest)}

/-- What is built of a UID stays as it is where nothing is added to it. -/
theorem Covers.keep {b b' : Builder} (covers : Covers t ceiling uid done b)
    (emitted : b.emitted.contains uid = true → b'.emitted.contains uid = true)
    (same : b'.model.enumerations.filter (·.uid == uid) =
      b.model.enumerations.filter (·.uid == uid))
    (more : List (Element × Forest))
    (known : more.any (declares uid) = true → t.types.name? uid ≠ none →
      b'.emitted.contains uid = true) : Covers t ceiling uid (done ++ more) b' where
  known any named := by
    rw [List.any_append, Bool.or_eq_true] at any
    rcases any with any | any
    · exact emitted (covers.known any named)
    · exact known any named
  parts := by
    rw [same]
    refine covers.parts.imp_right ?_
    rintro ⟨e, inside, found, rest⟩
    exact ⟨e, inside, by rw [List.find?_append, found, Option.some_or], rest⟩

/-- Nothing is built of a UID before its first declaration. -/
theorem Covers.nothing {b : Builder} {name : String} (covers : Covers t ceiling uid done b)
    (named : t.types.name? uid = some name) (fresh : b.emitted.contains uid = false) :
    done.find? (declares uid) = none ∧ b.model.enumerations.filter (·.uid == uid) = [] := by
  have unseen : done.find? (declares uid) = none := by
    rw [List.find?_eq_none]
    intro declared hmem own
    have contained := covers.known (List.any_eq_true.mpr ⟨declared, hmem, own⟩) (by simp [named])
    cases contained.symm.trans fresh
  refine ⟨unseen, ?_⟩
  rcases covers.parts with none | ⟨e, inside, found, -⟩
  · exact none
  · cases unseen.symm.trans found

/-- The parts of an enumeration are built of a UID by its first declaration alone. -/
theorem Covers.declare {b b' : Builder} {e : Element} {inside : Forest}
    (covers : Covers t ceiling uid done b) (declares : Declares t ceiling b e inside b') :
    Covers t ceiling uid (done ++ [(e, inside)]) b' := by
  cases declares with
  | out known =>
    refine covers.keep id rfl _ fun any named => ?_
    obtain ⟨name, named⟩ := Option.ne_none_iff_exists'.mp named
    exact known uid name (by simpa [Survey.declares] using any) named
  | @built own name frame frame' _ identified named fresh opens rows emitted ends =>
    have kept (h : b.emitted.contains uid = true) : b'.emitted.contains uid = true := by
      simp [emitted, h]
    have known (h : [(e, inside)].any (Survey.declares uid) = true) (_ : t.types.name? uid ≠ none) :
        b'.emitted.contains uid = true := by
      have own : own = uid := by simpa [Survey.declares, identified] using h
      simp [emitted, own]
    have reads := rows.reads
    generalize hmodel : b'.model = model at ends
    cases ends with
    | bitfield | dictionary => exact covers.keep kept (by rw [hmodel]) _ known
    | @enumeration type scope types types' parts split =>
      cases reads with
      | @enumeration first _ start _ named' uid' rawName names labelled =>
        cases opens with
        | enumeration kind =>
          simp only [TypeFrame.accepts_enumeration, Forest.rowsOf_isEnumerationRow] at names
          rw [List.map_nil, List.nil_append] at labelled
          have partsUid (part : Enumeration) (hpart : part ∈ parts) : part.uid = own :=
            (Enumeration.split_uid split part hpart).trans uid'
          by_cases equal : own = uid
          · subst equal
            obtain ⟨unseen, nothing⟩ := covers.nothing named fresh
            have filtered : b'.model.enumerations.filter (·.uid == own) = parts := by
              rw [hmodel, List.filter_append, nothing, List.nil_append, List.filter_eq_self]
              exact fun part hpart => by simp [partsUid part hpart]
            refine ⟨fun _ => known (by simp [Survey.declares, identified]),
              .inr ⟨e, inside, ?_, ?_⟩⟩
            · rw [List.find?_append, unseen, Option.none_or,
                List.find?_cons_of_pos (by simp [Survey.declares, identified])]
            · rw [filtered]
              exact ⟨kind, type, scope, types, types', labelled ▸ names, split⟩
          · refine covers.keep kept ?_ _ known
            rw [hmodel, List.filter_append, List.append_right_eq_self, List.filter_eq_nil_iff]
            exact fun part hpart => by simp [partsUid part hpart, equal]

theorem follows_covers (t : NameTables) (ceiling : Nat) (uid : String) :
    Follows t ceiling (Covers t ceiling uid) where
  keep {done b b'} covers emitted types := by
    obtain ⟨trees, model⟩ := types
    rw [← List.append_nil done]
    exact covers.keep (emitted ▸ id) (by rw [model]) [] nofun
  declare covers _ declares := covers.declare declares

theorem covers_ofTable (t : NameTables) (ceiling : Nat) (uid : String) :
    Covers t ceiling uid [] (ofTable t.types) :=
  ⟨nofun, .inl rfl⟩

end Builder

/-- The labels of a lookup enumeration are the names of its rows. This takes type declarations that
stand inside plain elements only, and rows that stand so inside the declarations in question: other
elements hide what they hold from the builder, but not from the survey. -/
theorem labels_name_rows (overrides : Overrides) (ceiling : Nat) (document : List UInt8)
    (f : Forest) (res : Resolution) (table : LookupTable) (e : Enumeration)
    (read : (Reader.ofBytes document).events = (f.events, none))
    (apart : f.exposes (·.declaresType) = true)
    (rows : ∀ declared ∈ f.declared, declared.1.uid? = some table.uid →
      declared.2.exposes (·.isEnumerationRow) = true)
    (resolved : Resolution.ofReader overrides ceiling (.ofBytes document) = .ok res)
    (whole : res.model.enumerations.filter (·.uid == table.uid) = [e]) (value : Int) :
    res.table.label? table value = (e.rows.reverse.find? (·.value == value)).map (·.name) ∧
      (res.table.label? table value = none ↔ ∀ row ∈ e.rows, row.value ≠ value) := by
  obtain ⟨survey, b, surveyed, built, rfl⟩ := Resolution.ofReader_eq_ok resolved
  have covers : Survey.Covers overrides table f.declared survey :=
    Survey.visit_covers apart (Survey.covers_new overrides table)
      ((Walk.through_events _ read).symm.trans surveyed)
  have built : Builder.Covers ⟨survey.table, overrides⟩ ceiling table.uid f.declared b :=
    (Builder.follows_covers _ _ _).visit (Builder.treesInOrder_ofTable _) rfl
      (Builder.covers_ofTable _ _ _) ((Walk.through_events _ read).symm.trans built)
  obtain ⟨d, inside, found, kind, type, scope, types, types', names, split⟩ :
      ∃ d inside, f.declared.find? (Survey.declares table.uid) = some (d, inside) ∧
        Builder.PartsOf ⟨survey.table, overrides⟩ ceiling table.uid d inside [e] := by
    have parts := built.parts
    rw [whole] at parts
    exact parts.resolve_left (List.cons_ne_nil _ _)
  -- Both walks read the same rows, so they give the same names to them.
  have exposed : inside.exposes (·.isEnumerationRow) = true :=
    rows _ (List.mem_of_find?_eq_some found)
      (by simpa [Survey.declares] using List.find?_some found)
  obtain ⟨named, scope', names', lookup⟩ := covers.labels d inside found kind
  rw [Forest.rowsStarted_of_exposes exposed, names, Except.ok.injEq, Prod.mk.injEq] at names'
  obtain ⟨rfl, -⟩ := names'
  have label : survey.table.label? table value =
      (e.rows.reverse.find? (·.value == value)).map (·.name) := by
    rw [Enumeration.split_eq_singleton split, TypeTable.label?, lookup]
    change (withLabels {} _)[value]? = _
    rw [getElem?_withLabels, ← List.map_reverse, List.find?_map, Option.map_map]
    simp [EnumerationRow.labelled, Function.comp_def]
  refine ⟨label, ?_⟩
  rw [label, Option.map_eq_none_iff, List.find?_eq_none]
  simp

/-- Two rows with one value and one description. -/
def countryDocument : String :=
  "<enum uid=\"29\" name=\"Country\" size=\"16\"><enumrow value=\"1\" description=\"Aland\"/>" ++
    "<enumrow value=\"1\" description=\"Aland\"/></enum>"

theorem country_label_names_row : ∃ (f : Forest) (res : Resolution) (e : Enumeration),
    (Reader.ofString countryDocument).events = (f.events, none) ∧
    f.exposes (·.declaresType) = true ∧
    (∀ declared ∈ f.declared, declared.1.uid? = some LookupTable.country.uid →
      declared.2.exposes (·.isEnumerationRow) = true) ∧
    Resolution.ofString {} 4096 countryDocument = .ok res ∧
    res.model.enumerations.filter (·.uid == LookupTable.country.uid) = [e] ∧
    e.rows.map (·.labelled) = [(1, "Aland"), (1, "Aland1")] ∧
    res.table.label? .country 1 = some "Aland1" ∧
    (e.rows.reverse.find? (·.value == 1)).map (·.name) = some "Aland1" := by
  have outline : (Reader.ofString countryDocument).events.1.map (·.outline) =
      [(true, .enumeration), (true, .enumerationRow), (false, .enumerationRow),
        (true, .enumerationRow), (false, .enumerationRow), (false, .enumeration)] := by
    decide +kernel
  have complete : (Reader.ofString countryDocument).events.2.isNone = true := by decide +kernel
  have run : (Resolution.ofString {} 4096 countryDocument).toOption.map (fun res =>
      (res.model.enumerations.map fun e => (e.uid, e.rows.map (·.labelled)),
        res.table.label? .country 1)) =
      some ([("29", [(1, "Aland"), (1, "Aland1")])], some "Aland1") := by
    decide +kernel
  obtain ⟨res, resolved, facts⟩ := exists_ok_of_map run
  obtain ⟨enumerations, label⟩ := Prod.mk.inj facts
  obtain ⟨e, single, fields⟩ := List.map_eq_singleton_iff.mp enumerations
  obtain ⟨uid, rows⟩ := Prod.mk.inj fields
  have whole : res.model.enumerations.filter (·.uid == LookupTable.country.uid) = [e] := by
    simp [single, uid, LookupTable.uid]
  simp only [List.map_eq_cons_iff, List.map_eq_nil_iff, Event.outline_eq_start,
    Event.outline_eq_finish] at outline
  obtain ⟨_, _, events, ⟨a, rfl, ka⟩, _, _, rfl, ⟨b, rfl, kb⟩, _, _, rfl, rfl,
    _, _, rfl, ⟨c, rfl, kc⟩, _, _, rfl, rfl, _, _, rfl, rfl, rfl⟩ := outline
  obtain ⟨f, hf⟩ : ∃ f : Forest, f = .node a (.node b .nil (.node c .nil .nil)) .nil := ⟨_, rfl⟩
  have read : (Reader.ofString countryDocument).events = (f.events, none) := by
    apply Prod.ext
    · simp [events, hf, Forest.events, ka, kb, kc]
    · exact Option.isNone_iff_eq_none.mp complete
  have apart : f.exposes (·.declaresType) = true := by
    simp [hf, Forest.exposes, Forest.separates, Forest.lacks, ka, kb, kc,
      ElementKind.declaresType]
  have exposed : ∀ declared ∈ f.declared, declared.1.uid? = some LookupTable.country.uid →
      declared.2.exposes (·.isEnumerationRow) = true := by
    simp [hf, Forest.declared, Forest.exposes, Forest.separates, Forest.lacks, ka, kb, kc,
      ElementKind.isPlain, ElementKind.declaresType]
  obtain ⟨same, -⟩ := labels_name_rows {} 4096 _ f res .country e read apart exposed resolved
    whole 1
  exact ⟨f, res, e, read, apart, exposed, resolved, whole, rows, label, same.symm.trans label⟩

/-- A row of an enumeration inside an element that the builder leaves out. -/
def hiddenRowDocument : String :=
  "<enum uid=\"29\" name=\"Country\" size=\"16\"><category value=\"9\">" ++
    "<enumrow value=\"1\" description=\"Aland\"/></category></enum>"

/-- Whether an element is a classification tree. -/
def ElementKind.isTree : ElementKind → Bool
  | entityTree | objectTree | jammerTree => true
  | _ => false

/-- A label needs no row: no declaration stands inside another or inside a tree, and no row holds
anything, but the survey reads a row where the builder reads none. -/
theorem hidden_row_labelled : ∃ (f : Forest) (res : Resolution) (e : Enumeration),
    (Reader.ofString hiddenRowDocument).events = (f.events, none) ∧
    f.separates (fun kind => kind.declaresType || kind.isTree) (·.declaresType) = true ∧
    f.separates (·.isRow) (fun _ => true) = true ∧
    Resolution.ofString {} 4096 hiddenRowDocument = .ok res ∧
    res.model.enumerations.filter (·.uid == LookupTable.country.uid) = [e] ∧ e.rows = [] ∧
    res.table.label? .country 1 = some "Aland" := by
  have outline : (Reader.ofString hiddenRowDocument).events.1.map (·.outline) =
      [(true, .enumeration), (true, .category), (true, .enumerationRow),
        (false, .enumerationRow), (false, .category), (false, .enumeration)] := by
    decide +kernel
  have complete : (Reader.ofString hiddenRowDocument).events.2.isNone = true := by decide +kernel
  have run : (Resolution.ofString {} 4096 hiddenRowDocument).toOption.map (fun res =>
      (res.model.enumerations.map fun e => (e.uid, e.rows), res.table.label? .country 1)) =
      some ([("29", [])], some "Aland") := by
    decide +kernel
  obtain ⟨res, resolved, facts⟩ := exists_ok_of_map run
  obtain ⟨enumerations, label⟩ := Prod.mk.inj facts
  obtain ⟨e, single, fields⟩ := List.map_eq_singleton_iff.mp enumerations
  obtain ⟨uid, rows⟩ := Prod.mk.inj fields
  simp only [List.map_eq_cons_iff, List.map_eq_nil_iff, Event.outline_eq_start,
    Event.outline_eq_finish] at outline
  obtain ⟨_, _, events, ⟨a, rfl, ka⟩, _, _, rfl, ⟨b, rfl, kb⟩, _, _, rfl, ⟨c, rfl, kc⟩,
    _, _, rfl, rfl, _, _, rfl, rfl, _, _, rfl, rfl, rfl⟩ := outline
  refine ⟨.node a (.node b (.node c .nil .nil) .nil) .nil, res, e, ?_, ?_, ?_, resolved,
    by simp [single, uid, LookupTable.uid], rows, label⟩
  · apply Prod.ext
    · simp [events, Forest.events, ka, kb, kc]
    · exact Option.isNone_iff_eq_none.mp complete
  · simp [Forest.separates, Forest.lacks, ka, kb, kc, ElementKind.declaresType,
      ElementKind.isTree]
  · simp [Forest.separates, Forest.lacks, ka, kb, ElementKind.isRow]

end EnumRegistry
