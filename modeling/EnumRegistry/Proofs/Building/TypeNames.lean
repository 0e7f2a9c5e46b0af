import EnumRegistry.Proofs.Building.Step
import EnumRegistry.Proofs.Building.TypeFrame
import EnumRegistry.Proofs.Resolution
import EnumRegistry.Proofs.Survey

/-!
Names of types and of their rows in a resolved registry. The survey names every UID before anything
is built; satellites claim theirs while the model is built, in the scope that the survey left, so
no satellite has the name of a type declared after it.
-/

namespace EnumRegistry

namespace Model

/-- The UIDs and the names of all types; a satellite has the UID of its enumeration. -/
def types (m : Model) : List (String × String) :=
  m.enumerations.map (fun e => (e.uid, e.name)) ++ m.bitfields.map (fun b => (b.uid, b.name)) ++
    m.dictionaries.map fun d => (d.uid, d.name)

theorem types_enumerations (m : Model) (parts : List Enumeration) :
    (types { m with enumerations := m.enumerations ++ parts }).Perm
      (parts.map (fun e => (e.uid, e.name)) ++ m.types) := by
  simp only [types, List.map_append, List.append_assoc]
  exact List.perm_append_comm_assoc _ _ _

theorem types_bitfields (m : Model) (b : Bitfield) :
    (types { m with bitfields := m.bitfields ++ [b] }).Perm ((b.uid, b.name) :: m.types) := by
  simp only [types, List.map_append, List.map_singleton, List.append_assoc,
    List.singleton_append]
  rw [← List.append_assoc, ← List.append_assoc]
  exact List.perm_middle

theorem types_dictionaries (m : Model) (d : Dictionary) :
    (types { m with dictionaries := m.dictionaries ++ [d] }).Perm ((d.uid, d.name) :: m.types) := by
  simp only [types, List.map_append, List.map_cons, List.map_nil, ← List.append_assoc]
  exact List.perm_append_singleton _ _

end Model

/-- What a type is called: its UID has that name, or it is a satellite of a type whose UID has one,
and no name of the survey is like it. -/
inductive TypeTable.Calls (t : TypeTable) (uid name : String) : Prop
  | named (h : t.name? uid = some name)
  | satellite {base : String} (ordinal : Nat) (h : t.name? uid = some base)
      (spells : NameScope.Spells (base ++ Enumeration.satelliteMark ordinal) name)
      (apart : t.types.contains name = false)

/-- The names of the types built so far, in a scope that also holds all names of the survey. -/
structure NamesSettled (t : TypeTable) (scope : NameScope) (types : List (String × String)) :
    Prop where
  known : ∀ name, t.types.contains name = true → scope.contains name = true
  taken : ∀ uid name, (uid, name) ∈ types → scope.contains name = true
  nodup : (types.map fun (_, name) => lookupKey name).Nodup
  calls : ∀ uid name, (uid, name) ∈ types → t.Calls uid name

section
variable {t : TypeTable} {scope scope' : NameScope} {types types' : List (String × String)}

theorem NamesSettled.perm (h : NamesSettled t scope types) (perm : types'.Perm types) :
    NamesSettled t scope types' where
  known := h.known
  taken uid name hmem := h.taken uid name (perm.mem_iff.mp hmem)
  nodup := (perm.map _).nodup_iff.mpr h.nodup
  calls uid name hmem := h.calls uid name (perm.mem_iff.mp hmem)

/-- A type of a new UID has a name of its own. -/
theorem NamesSettled.primary (h : NamesSettled t scope types) (apart : t.NamesApart)
    {uid name : String} (named : t.name? uid = some name) (fresh : ∀ n, (uid, n) ∉ types) :
    NamesSettled t scope ((uid, name) :: types) := by
  refine ⟨h.known, ?_, List.nodup_cons.mpr ⟨?_, h.nodup⟩, ?_⟩
  · intro u n hmem
    rcases List.mem_cons.mp hmem with heq | hmem
    · cases heq
      exact h.known name (apart.taken named)
    · exact h.taken u n hmem
  · intro hmem
    obtain ⟨⟨u, n⟩, hold, hkey⟩ := List.mem_map.mp hmem
    cases h.calls u n hold with
    | named other =>
      obtain rfl := apart.apart other named hkey
      exact fresh n hold
    | satellite ordinal _ _ free =>
      rw [NameScope.contains_congr t.types hkey, apart.taken named] at free
      cases free
  · intro u n hmem
    rcases List.mem_cons.mp hmem with heq | hmem
    · cases heq
      exact .named named
    · exact h.calls u n hmem

/-- A satellite claims a name that nothing has, not even a type that is yet to be built. -/
theorem NamesSettled.satellite (h : NamesSettled t scope types) {uid base name : String}
    {ordinal : Nat} (named : t.name? uid = some base)
    (claimed : scope.claim (base ++ Enumeration.satelliteMark ordinal) = .ok (name, scope')) :
    NamesSettled t scope' ((uid, name) :: types) := by
  obtain ⟨spells, free, rfl⟩ := NameScope.claim_eq_ok claimed
  refine ⟨?_, ?_, List.nodup_cons.mpr ⟨?_, h.nodup⟩, ?_⟩
  · intro n hn
    exact NameScope.contains_insert_of_contains (h.known n hn)
  · intro u n hmem
    rcases List.mem_cons.mp hmem with heq | hmem
    · cases heq
      simp [NameScope.contains_insert]
    · exact NameScope.contains_insert_of_contains (h.taken u n hmem)
  · intro hmem
    obtain ⟨⟨u, n⟩, hold, hkey⟩ := List.mem_map.mp hmem
    rw [← NameScope.contains_congr scope hkey, h.taken u n hold] at free
    cases free
  · intro u n hmem
    rcases List.mem_cons.mp hmem with heq | hmem
    · cases heq
      refine .satellite ordinal named spells ?_
      by_contra known
      rw [h.known name (by simpa using known)] at free
      cases free
    · exact h.calls u n hmem

theorem satellites_settled {e : Enumeration} {ordinal : Nat} {blocks : List (List EnumerationRow)}
    {parts : List Enumeration} (h : NamesSettled t scope types)
    (named : t.name? e.uid = some e.name)
    (split : e.satellites scope ordinal blocks = .ok (parts, scope')) :
    NamesSettled t scope' (parts.map (fun part => (part.uid, part.name)) ++ types) := by
  induction blocks generalizing scope ordinal parts types with
  | nil =>
    simp only [Enumeration.satellites, Except.ok.injEq, Prod.mk.injEq] at split
    obtain ⟨rfl, rfl⟩ := split
    exact h
  | cons block blocks ih =>
    obtain ⟨name, between, rows, others, claimed, -, hothers, rfl⟩ :=
      Enumeration.satellites_cons_eq_ok split
    exact (ih (h.satellite named claimed) hothers).perm List.perm_middle.symm

theorem split_settled {e : Enumeration} {ceiling : Nat} {parts : List Enumeration}
    (h : NamesSettled t scope types) (apart : t.NamesApart) (named : t.name? e.uid = some e.name)
    (fresh : ∀ n, (e.uid, n) ∉ types) (split : e.split ceiling scope = .ok (parts, scope')) :
    NamesSettled t scope' (parts.map (fun part => (part.uid, part.name)) ++ types) := by
  obtain ⟨blocks, satellites, hsatellites, rfl⟩ := Enumeration.split_eq_ok split
  exact (satellites_settled (h.primary apart named fresh) named hsatellites).perm
    List.perm_middle.symm

end

/-- The types of a model have the names of the survey, satellites apart, and all rows are named in
order. -/
structure Model.NamedFrom (t : TypeTable) (m : Model) : Prop where
  first : ∀ uid e, m.enumerations.find? (·.uid == uid) = some e → t.name? uid = some e.name
  bitfield : ∀ f ∈ m.bitfields, t.name? f.uid = some f.name
  dictionary : ∀ d ∈ m.dictionaries, t.name? d.uid = some d.name
  parts : ∀ e ∈ m.enumerations, e.RowsInOrder
  fields : ∀ f ∈ m.bitfields, ∃ scope, NameScope.ClaimedIn (f.rows.map (·.name)) scope
  entries : ∀ d ∈ m.dictionaries, ∃ scope, NameScope.ClaimedIn (d.rows.map (·.name)) scope

namespace Model.NamedFrom

variable {t : TypeTable} {m : Model}

theorem add_enumeration (h : m.NamedFrom t) {e : Enumeration} {ceiling : Nat}
    {scope scope' : NameScope} {parts : List Enumeration} (named : t.name? e.uid = some e.name)
    (rows : e.RowsInOrder) (split : e.split ceiling scope = .ok (parts, scope')) :
    NamedFrom t { m with enumerations := m.enumerations ++ parts } := by
  have sorted := Enumeration.split_parts split rows
  refine ⟨?_, h.bitfield, h.dictionary, ?_, h.fields, h.entries⟩
  · intro uid first hfirst
    rw [List.find?_append] at hfirst
    cases old : m.enumerations.find? (·.uid == uid) with
    | some e =>
      rw [old, Option.some_or] at hfirst
      exact h.first uid first (old.trans hfirst)
    | none =>
      rw [old, Option.none_or] at hfirst
      obtain rfl : e.uid = uid := by
        have same := List.find?_some hfirst
        rw [(sorted first (List.mem_of_find?_eq_some hfirst)).1] at same
        simpa using same
      obtain ⟨blocks, satellites, -, rfl⟩ := Enumeration.split_eq_ok split
      simp only [List.find?_cons, beq_self_eq_true, Option.some.injEq] at hfirst
      exact hfirst ▸ named
  · intro part hpart
    rcases List.mem_append.mp hpart with hpart | hpart
    · exact h.parts part hpart
    · exact (sorted part hpart).2

theorem add_bitfield (h : m.NamedFrom t) {f : Bitfield} {scope : NameScope}
    (named : t.name? f.uid = some f.name)
    (rows : NameScope.ClaimedIn (f.rows.map (·.name)) scope) :
    NamedFrom t { m with bitfields := m.bitfields ++ [f] } := by
  refine ⟨h.first, ?_, h.dictionary, h.parts, ?_, h.entries⟩ <;> intro g hg <;>
    rcases List.mem_append.mp hg with hg | hg
  · exact h.bitfield g hg
  · exact List.mem_singleton.mp hg ▸ named
  · exact h.fields g hg
  · exact List.mem_singleton.mp hg ▸ ⟨scope, rows⟩

theorem add_dictionary (h : m.NamedFrom t) {d : Dictionary} {scope : NameScope}
    (named : t.name? d.uid = some d.name)
    (rows : NameScope.ClaimedIn (d.rows.map (·.name)) scope) :
    NamedFrom t { m with dictionaries := m.dictionaries ++ [d] } := by
  refine ⟨h.first, h.bitfield, ?_, h.parts, h.fields, ?_⟩ <;> intro g hg <;>
    rcases List.mem_append.mp hg with hg | hg
  · exact h.dictionary g hg
  · exact List.mem_singleton.mp hg ▸ named
  · exact h.entries g hg
  · exact List.mem_singleton.mp hg ▸ ⟨scope, rows⟩

end Model.NamedFrom

/-- An open type has the name of its UID, of which no type has been built, and its rows are in
order. -/
structure TypeFrame.Filling (t : TypeTable) (emitted : Std.TreeSet String)
    (types : List (String × String)) (frame : TypeFrame) : Prop where
  named : t.name? frame.uid = some frame.name
  emitted : emitted.contains frame.uid = true
  fresh : ∀ name, (frame.uid, name) ∉ types
  rows : frame.InOrder

namespace Builder

structure TypesInOrder (t : NameTables) (b : Builder) : Prop where
  settled : NamesSettled t.types b.types b.model.types
  emitted : ∀ uid name, (uid, name) ∈ b.model.types → b.emitted.contains uid = true
  current : ∀ frame, b.current = some frame → frame.Filling t.types b.emitted b.model.types
  model : b.model.NamedFrom t.types

theorem typesInOrder_ofTable (t : NameTables) : TypesInOrder t (ofTable t.types) where
  settled := ⟨fun _ h => h, by simp [ofTable, Model.types], by simp [ofTable, Model.types],
    by simp [ofTable, Model.types]⟩
  emitted := by simp [ofTable, Model.types]
  current frame h := by simp [ofTable] at h
  model := by constructor <;> simp [ofTable]

theorem entered_typesInOrder {t : NameTables} {b b' : Builder} {e : Element}
    (hb : b.TypesInOrder t) (h : Entered t b e b') : b'.TypesInOrder t := by
  cases h with
  | type idle declares identified named fresh opens =>
    refine ⟨hb.settled, ?_, ?_, hb.model⟩
    · intro uid name hmem
      change (b.emitted.insert _).contains uid = true
      rw [Std.TreeSet.contains_insert, hb.emitted uid name hmem, Bool.or_true]
    · intro frame hframe
      cases hframe
      have rows := (TypeFrame.open?_opens opens).inOrder
      obtain ⟨huid, hname⟩ := (TypeFrame.open?_opens opens).named
      refine ⟨by rw [huid, hname, named], ?_, fun name hmem => ?_, rows⟩
      · change (b.emitted.insert _).contains _ = true
        simp [huid]
      · rw [huid] at hmem
        rw [hb.emitted _ name hmem] at fresh
        cases fresh
  | row | tree | path | node | other => exact ⟨hb.settled, hb.emitted, hb.current, hb.model⟩

theorem left_typesInOrder {t : NameTables} {ceiling : Nat} {b b' : Builder}
    (apart : t.types.NamesApart) (hb : b.TypesInOrder t) (h : Left t ceiling b b') :
    b'.TypesInOrder t := by
  cases h with
  | outside => exact hb
  | other | node | path | noType | noTree =>
    exact ⟨hb.settled, hb.emitted, hb.current, hb.model⟩
  | tree =>
    obtain ⟨first, bitfield, dictionary, parts, fields, entries⟩ := hb.model
    exact ⟨hb.settled, hb.emitted, hb.current,
      ⟨first, bitfield, dictionary, parts, fields, entries⟩⟩
  | row opened current added =>
    refine ⟨hb.settled, hb.emitted, ?_, hb.model⟩
    intro frame hframe
    cases hframe
    have filling := hb.current _ current
    have rows := (TypeFrame.addRow_added added).inOrder filling.rows
    obtain ⟨uid, name⟩ := (TypeFrame.addRow_added added).named
    exact ⟨by rw [uid, name, filling.named], uid ▸ filling.emitted, uid ▸ filling.fresh, rows⟩
  | enumeration opened current split =>
    obtain ⟨named, emitted, fresh, rows⟩ := hb.current _ current
    have perm := Model.types_enumerations b.model
    refine ⟨(split_settled hb.settled apart named fresh split).perm (perm _),
      ?_, nofun,
      hb.model.add_enumeration named ⟨_, rows⟩ split⟩
    intro uid name hmem
    rcases List.mem_append.mp ((perm _).mem_iff.mp hmem) with hmem | hmem
    · obtain ⟨part, hpart, heq⟩ := List.mem_map.mp hmem
      cases heq
      rw [(Enumeration.split_parts split ⟨_, rows⟩ part hpart).1]
      exact emitted
    · exact hb.emitted uid name hmem
  | bitfield opened current =>
    obtain ⟨named, emitted, fresh, rows⟩ := hb.current _ current
    have perm := Model.types_bitfields b.model
    refine ⟨(hb.settled.primary apart named fresh).perm (perm _), ?_,
      nofun, hb.model.add_bitfield named rows⟩
    intro uid name hmem
    rcases List.mem_cons.mp ((perm _).mem_iff.mp hmem) with heq | hmem
    · cases heq
      exact emitted
    · exact hb.emitted uid name hmem
  | dictionary opened current =>
    obtain ⟨named, emitted, fresh, rows⟩ := hb.current _ current
    have perm := Model.types_dictionaries b.model
    refine ⟨(hb.settled.primary apart named fresh).perm (perm _), ?_,
      nofun, hb.model.add_dictionary named rows⟩
    intro uid name hmem
    rcases List.mem_cons.mp ((perm _).mem_iff.mp hmem) with heq | hmem
    · cases heq
      exact emitted
    · exact hb.emitted uid name hmem

theorem ofReader_typesInOrder {t : NameTables} {ceiling : Nat} {r : Reader} {b : Builder}
    (apart : t.types.NamesApart) (h : ofReader t ceiling r = .ok b) : b.TypesInOrder t :=
  (walk_keeps (fun _ => entered_typesInOrder) (left_typesInOrder apart)).run
    (typesInOrder_ofTable t) (Walk.through_eq_ok.mp h).2

end Builder

/-- Type names differ by more than case, satellites included, and all other types have the names of
the survey; inside every part, bitfield and dictionary row names differ by more than case, and those
of a part are what its base names claim in order in an empty scope. -/
theorem type_names_apart {overrides : Overrides} {ceiling : Nat} {r : Reader} {res : Resolution}
    (h : Resolution.ofReader overrides ceiling r = .ok res) :
    ((res.model.enumerations.map (·.name) ++ res.model.bitfields.map (·.name) ++
      res.model.dictionaries.map (·.name)).map lookupKey).Nodup ∧
    (∀ e ∈ res.model.enumerations, res.model.enumerations.find? (·.uid == e.uid) = some e →
      res.table.name? e.uid = some e.name) ∧
    (∀ f ∈ res.model.bitfields, res.table.name? f.uid = some f.name) ∧
    (∀ d ∈ res.model.dictionaries, res.table.name? d.uid = some d.name) ∧
    (∀ e ∈ res.model.enumerations, ((e.rows.map (·.name)).map lookupKey).Nodup ∧
      ∃ scope, NameScope.claimAll {} (e.rows.map (·.baseName)) =
        .ok (e.rows.map (·.name), scope)) ∧
    (∀ f ∈ res.model.bitfields, ((f.rows.map (·.name)).map lookupKey).Nodup) ∧
    ∀ d ∈ res.model.dictionaries, ((d.rows.map (·.name)).map lookupKey).Nodup := by
  obtain ⟨survey, builder, hsurvey, hbuilder, rfl⟩ := Resolution.ofReader_eq_ok h
  have inOrder := Builder.ofReader_typesInOrder (Survey.ofReader_namesApart hsurvey) hbuilder
  obtain ⟨first, bitfield, dictionary, parts, fields, entries⟩ := inOrder.model
  refine ⟨?_, fun e _ => first e.uid e, bitfield, dictionary, ?_, ?_, ?_⟩
  · have nodup := inOrder.settled.nodup
    simpa [Model.types, Function.comp_def] using nodup
  · intro e he
    obtain ⟨scope, hclaims⟩ := parts e he
    exact ⟨NameScope.claimAll_nodup hclaims, scope, hclaims⟩
  · intro f hf
    obtain ⟨scope, rows⟩ := fields f hf
    exact rows.nodup
  · intro d hd
    obtain ⟨scope, rows⟩ := entries d hd
    exact rows.nodup

/-- An enumeration that is split, and a type that is called like its satellite would be. -/
def splitDocument : String :=
  "<r><enum uid=\"1\" name=\"A\" size=\"8\"><enumrow value=\"0\" name=\"x\"/>" ++
    "<enumrow value=\"1\" name=\"X\"/></enum><dict uid=\"2\" name=\"AAdditional\"/></r>"

theorem split_names_apart :
    ∃ res, Resolution.ofReader {} 1 (.ofString splitDocument) = .ok res ∧
      res.model.types = [("1", "A"), ("1", "AAdditional1"), ("2", "AAdditional")] ∧
      ((res.model.enumerations.map (·.name) ++ res.model.bitfields.map (·.name) ++
        res.model.dictionaries.map (·.name)).map lookupKey).Nodup := by
  have run : (Resolution.ofReader {} 1 (.ofString splitDocument)).toOption.map (·.model.types) =
      some [("1", "A"), ("1", "AAdditional1"), ("2", "AAdditional")] := by decide +kernel
  obtain ⟨res, hres, types⟩ := exists_ok_of_map run
  exact ⟨res, hres, types, (type_names_apart hres).1⟩

end EnumRegistry
