import Mathlib.Data.List.Perm.Basic
import EnumRegistry.Proofs.Building.InType
import EnumRegistry.Proofs.Building.Rows
import EnumRegistry.Proofs.Registry.Reordering

/-!
What a builder makes of declarations. Of the types that are declared beside it a declaration depends
only on the names that its rows refer to. So where no enumeration is oversized the builder makes of
each declaration what it makes of it by itself, in the order of the declarations.
-/

namespace EnumRegistry

open List (Forall₂)

namespace TypeFrame

def enumeration? : TypeFrame → Option Enumeration
  | enumeration type _ => some type
  | _ => none

def bitfield? : TypeFrame → Option Bitfield
  | bitfield type _ => some type
  | _ => none

def dictionary? : TypeFrame → Option Dictionary
  | dictionary type _ => some type
  | _ => none

/-- The type is not split. -/
def Fits (ceiling : Nat) (frame : TypeFrame) : Prop :=
  ∀ type, frame.enumeration? = some type → type.rows.length ≤ max ceiling 1

end TypeFrame

/-- Tables with the same names for types and the same overrides. -/
structure NameTables.Agree (t t' : NameTables) : Prop where
  overrides : t'.overrides = t.overrides
  names : ∀ uid, t'.types.name? uid = t.types.name? uid

namespace NameTables.Agree

variable {t t' : NameTables}

theorem reference (agree : t.Agree t') (e : Element) (subject : String) :
    t'.reference e subject = t.reference e subject := by
  simp only [NameTables.reference, TypeTable.reference, TypeTable.referenceFindings, agree.names]

/-- Rows are the same by tables that agree. -/
theorem addRow (agree : t.Agree t') (e : Element) (frame : TypeFrame) :
    frame.addRow t' e = frame.addRow t e := by
  cases frame with
  | enumeration type scope =>
    simp only [TypeFrame.addRow, TypeFrame.addEnumerationRow, agree.overrides, agree.reference]
  | bitfield type scope =>
    simp only [TypeFrame.addRow, TypeFrame.addBitfieldRow, agree.reference]
  | dictionary type scope => rfl

theorem addRows (agree : t.Agree t') (elements : List Element) (frame : TypeFrame) :
    frame.addRows t' elements = frame.addRows t elements := by
  induction elements generalizing frame with
  | nil => rfl
  | cons e rest ih => simp only [TypeFrame.addRows, agree.addRow, ih]

end NameTables.Agree

/-- A model with further types. -/
def Model.add (m : Model) (made : List (Option TypeFrame)) : Model :=
  { m with
    enumerations := m.enumerations ++ made.filterMap (·.bind (·.enumeration?))
    bitfields := m.bitfields ++ made.filterMap (·.bind (·.bitfield?))
    dictionaries := m.dictionaries ++ made.filterMap (·.bind (·.dictionary?)) }

theorem Model.add_nil (m : Model) : m.add [] = m := by
  simp only [add, List.filterMap_nil, List.append_nil]

theorem Model.add_append (m : Model) (first second : List (Option TypeFrame)) :
    m.add (first ++ second) = (m.add first).add second := by
  simp only [add, List.filterMap_append, List.append_assoc]

theorem Enumeration.split_fits {type : Enumeration} {ceiling : Nat} {types : NameScope}
    (fits : type.rows.length ≤ max ceiling 1) : type.split ceiling types = .ok ([type], types) := by
  rw [split, if_pos fits]
  rfl

namespace Builder

variable {t : NameTables} {ceiling : Nat} {b : Builder}

/-- A type that is not split is added to the model as it is. -/
theorem finishType_fits {frame : TypeFrame} (current : b.current = some frame)
    (noTree : b.tree = none) (fits : frame.Fits ceiling) :
    ∃ b', b.finishType ceiling = .ok b' ∧ b'.isIdle = true ∧ b'.emitted = b.emitted ∧
      b'.model = b.model.add [some frame] := by
  unfold finishType
  rw [current]
  cases frame with
  | enumeration type scope =>
    dsimp only
    rw [Enumeration.split_fits (fits type rfl)]
    refine ⟨_, rfl, isIdle_eq_true.mpr ⟨rfl, noTree⟩, rfl, ?_⟩
    simp [Model.add, TypeFrame.enumeration?, TypeFrame.bitfield?, TypeFrame.dictionary?]
  | bitfield type scope =>
    refine ⟨_, rfl, isIdle_eq_true.mpr ⟨rfl, noTree⟩, rfl, ?_⟩
    simp [note, Model.add, TypeFrame.enumeration?, TypeFrame.bitfield?, TypeFrame.dictionary?]
  | dictionary type scope =>
    refine ⟨_, rfl, isIdle_eq_true.mpr ⟨rfl, noTree⟩, rfl, ?_⟩
    simp [Model.add, TypeFrame.enumeration?, TypeFrame.bitfield?, TypeFrame.dictionary?]

/-! ## A declaration -/

/-- What a declaration makes: a type with its rows, if the UID has a name. -/
inductive Makes (t : NameTables) (d : Element × Forest) : Option TypeFrame → Prop
  | nothing (unnamed : ∀ uid, d.1.uid? = some uid → t.types.name? uid = none) : Makes t d none
  | type {uid name : String} {frame last : TypeFrame} {found : List Diagnostic}
      (identified : d.1.uid? = some uid) (named : t.types.name? uid = some name)
      (opens : TypeFrame.open? d.1 uid name = .ok frame)
      (rows : frame.addRows t (d.2.rowsOf fun kind => frame.accepts kind) = .ok (last, found)) :
      Makes t d (some last)

/-- What a declaration makes is a matter of names alone. -/
theorem Makes.agree {t' : NameTables} {d : Element × Forest} {made : Option TypeFrame}
    (makes : Makes t d made) (agree : t.Agree t') : Makes t' d made := by
  cases makes with
  | nothing unnamed =>
    exact .nothing fun uid identified => (agree.names uid).trans (unnamed uid identified)
  | type identified named opens rows =>
    exact .type identified ((agree.names _).trans named) opens ((agree.addRows _ _).trans rows)

/-- A declaration with no more rows than an enumeration may have. -/
def Small (ceiling : Nat) (d : Element × Forest) : Prop :=
  d.1.kind = .enumeration → (d.2.rowsOf (·.isEnumerationRow)).length ≤ max ceiling 1

/-- An enumeration that a declaration makes has as many rows as it declares. -/
theorem Makes.fits {d : Element × Forest} {frame : TypeFrame} (makes : Makes t d (some frame))
    (small : Small ceiling d) : frame.Fits ceiling := by
  intro type made
  cases makes with
  | @type uid name first _ found identified named opens added =>
    have opens := TypeFrame.open?_opens opens
    have gains := TypeFrame.addRows_gains added
    have read := gains.rowsFrom opens.rowsFrom
    cases frame with
    | bitfield | dictionary => cases made
    | enumeration type' scope =>
      cases made
      cases opens with
      | bitfield => cases gains.kind
      | dictionary => cases gains.kind
      | enumeration kind =>
        simp only [TypeFrame.accepts_enumeration, List.nil_append] at read
        exact (Forall₂.length_eq read) ▸ small kind

/-- Declarations that stand before a builder that has none open: current ones, each of a UID of its
own that is not built, and none of them oversized. -/
structure Awaits (ceiling : Nat) (ds : List (Element × Forest)) (b : Builder) : Prop where
  idle : b.isIdle = true
  current : ∀ d ∈ ds, d.1.isDeprecated = false
  types : ∀ d ∈ ds, d.1.kind.declaresType = true
  small : ∀ d ∈ ds, Small ceiling d
  unbuilt : ∀ uid ∈ ds.filterMap (·.1.uid?), b.emitted.contains uid = false
  apart : (ds.filterMap (·.1.uid?)).Nodup

variable {b' : Builder} {d : Element × Forest} {ds : List (Element × Forest)}

/-- The declarations behind the first one wait on. -/
theorem Awaits.behind (awaits : Awaits ceiling (d :: ds) b) (idle : b'.isIdle = true)
    (emitted : ∀ uid, d.1.uid? ≠ some uid → b'.emitted.contains uid = b.emitted.contains uid) :
    Awaits ceiling ds b' where
  idle := idle
  current other member := awaits.current other (List.mem_cons_of_mem d member)
  types other member := awaits.types other (List.mem_cons_of_mem d member)
  small other member := awaits.small other (List.mem_cons_of_mem d member)
  unbuilt uid member := by
    have other : d.1.uid? ≠ some uid := by
      intro same
      have apart : (uid :: ds.filterMap (·.1.uid?)).Nodup := by
        have apart := awaits.apart
        rwa [List.filterMap_cons, same] at apart
      exact (List.nodup_cons.mp apart).1 member
    rw [emitted uid other]
    apply awaits.unbuilt
    rw [List.mem_filterMap] at member ⊢
    obtain ⟨own, inside, identified⟩ := member
    exact ⟨own, List.mem_cons_of_mem d inside, identified⟩
  apart := awaits.apart.sublist ((List.sublist_cons_self d ds).filterMap _)

theorem Awaits.fresh (awaits : Awaits ceiling (d :: ds) b) {uid : String}
    (identified : d.1.uid? = some uid) : b.emitted.contains uid = false := by
  apply awaits.unbuilt
  exact List.mem_filterMap.mpr ⟨d, List.mem_cons_self, identified⟩

/-- A builder in a type that it has just begun. -/
def begun (b : Builder) (uid : String) (frame : TypeFrame) : Builder :=
  { b with emitted := b.emitted.insert uid, current := some frame }.enter .type

theorem visit_begun (idle : b.isIdle = true) (uid : String) (frame : TypeFrame) (f : Forest) :
    Maps id (b.begun uid frame).withRows
      (frame.addRows t (f.rowsOf fun kind => frame.accepts kind))
      ((walk t ceiling).visit f (b.begun uid frame)) := by
  have current : (b.begun uid frame).current = some frame := rfl
  have noTree : (b.begun uid frame).tree = none := (isIdle_eq_true.mp idle).2
  exact visit_rows current noTree f

/-- A walk over a declaration. -/
def pass (t : NameTables) (ceiling : Nat) (b : Builder) (d : Element × Forest) :
    Except GenerationError Builder :=
  (walk t ceiling).visit (.node d.1 d.2 .nil) b

theorem Awaits.pass_eq (awaits : Awaits ceiling (d :: ds) b) :
    b.pass t ceiling d = (do
      match ← b.startType t d.1 with
      | none => .ok b
      | some entered => do
        let left ← (walk t ceiling).visit d.2 entered
        left.finish t ceiling) := by
  have type := awaits.types d List.mem_cons_self
  rw [pass, Walk.visit, awaits.current d List.mem_cons_self, if_neg Bool.false_ne_true]
  change b.start t d.1 >>= _ = _
  rw [start_declaresType type]
  cases b.startType t d.1 with
  | error err => rfl
  | ok entered =>
    cases entered with
    | none => rfl
    | some entered =>
      change (walk t ceiling).visit d.2 entered >>= _ = (walk t ceiling).visit d.2 entered >>= _
      cases (walk t ceiling).visit d.2 entered with
      | error err => rfl
      | ok left =>
        change left.finish t ceiling >>= _ = left.finish t ceiling
        cases left.finish t ceiling <;> rfl

/-- A builder that gets past a declaration has made something of it. -/
theorem Awaits.makes (awaits : Awaits ceiling (d :: ds) b)
    (walked : b.pass t ceiling d = .ok b') : ∃ made, Makes t d made := by
  rw [awaits.pass_eq] at walked
  obtain ⟨entered, started, walked⟩ := bind_eq_ok.mp walked
  rcases startType_eq_ok started with
    ⟨-, busy | none | ⟨uid, identified, unnamed | built⟩⟩ |
    ⟨uid, name, frame, -, identified, named, -, opens, rfl⟩
  · cases busy.symm.trans awaits.idle
  · exact ⟨_, .nothing fun uid identified => by cases none.symm.trans identified⟩
  · refine ⟨none, .nothing fun other same => ?_⟩
    obtain rfl := Option.some.inj (identified.symm.trans same)
    exact unnamed
  · cases built.symm.trans (awaits.fresh identified)
  · obtain ⟨left, visited, -⟩ := bind_eq_ok.mp walked
    obtain ⟨rows, added, -⟩ := (visit_begun awaits.idle uid frame d.2).eq_ok.mp visited
    exact ⟨some rows.1, .type identified named opens added⟩

/-- A builder gets past a declaration of which something can be made, and adds that. -/
theorem Awaits.adds (awaits : Awaits ceiling (d :: ds) b) {made : Option TypeFrame}
    (makes : Makes t d made) :
    ∃ b', b.pass t ceiling d = .ok b' ∧ b'.model = b.model.add [made] ∧
      Awaits ceiling ds b' := by
  have idle := awaits.idle
  have noTree := (isIdle_eq_true.mp idle).2
  rw [awaits.pass_eq]
  cases makes with
  | nothing unnamed =>
    have left : b.startType t d.1 = .ok none := by
      rw [startType, idle]
      cases identified : d.1.uid? with
      | none => rfl
      | some uid =>
        simp only [unnamed uid identified]
        rfl
    rw [left]
    refine ⟨b, rfl, ?_, awaits.behind idle fun _ _ => rfl⟩
    simp [Model.add]
  | @type uid name frame last found identified named opens added =>
    have entered : b.startType t d.1 = .ok (some (b.begun uid frame)) := by
      simp only [startType, idle, identified, named, awaits.fresh identified, opens]
      rfl
    have visited : (walk t ceiling).visit d.2 (b.begun uid frame) =
        .ok ((b.begun uid frame).withRows (last, found)) :=
      (visit_begun idle uid frame d.2).eq_ok.mpr ⟨_, added, rfl⟩
    have fits := (Makes.type identified named opens added).fits
      (awaits.small d List.mem_cons_self)
    obtain ⟨b', finished, idle', emitted, model⟩ := finishType_fits
      (b := { (b.begun uid frame).withRows (last, found) with opened := b.opened }) rfl noTree fits
    rw [entered]
    change ∃ b', (walk t ceiling).visit d.2 _ >>= _ = Except.ok b' ∧ _
    rw [visited]
    refine ⟨b', finished, model, awaits.behind idle' fun other apart => ?_⟩
    have differs : uid ≠ other := by
      rintro rfl
      exact apart identified
    rw [emitted]
    change (b.emitted.insert uid).contains other = _
    rw [Std.TreeSet.contains_insert]
    simp [differs]

/-! ## Declarations in any order -/

/-- What is made of declarations one after the other is added in their order. -/
theorem Awaits.run (awaits : Awaits ceiling ds b) :
    (∀ b', ds.foldlM (pass t ceiling) b = .ok b' → ∃ made, Forall₂ (Makes t) ds made) ∧
    ∀ made, Forall₂ (Makes t) ds made →
      ∃ b', ds.foldlM (pass t ceiling) b = .ok b' ∧ b'.model = b.model.add made := by
  induction ds generalizing b with
  | nil =>
    refine ⟨fun b' _ => ⟨[], .nil⟩, fun made makes => ⟨b, rfl, ?_⟩⟩
    cases makes
    rw [Model.add_nil]
  | cons d ds ih =>
    constructor
    · intro b' walked
      rw [List.foldlM_cons] at walked
      obtain ⟨between, first, walked⟩ := bind_eq_ok.mp walked
      obtain ⟨made, makes⟩ := awaits.makes first
      obtain ⟨_, first', -, awaits⟩ := awaits.adds makes
      obtain rfl := Except.ok.inj (first'.symm.trans first)
      obtain ⟨rest, others⟩ := (ih awaits).1 b' walked
      exact ⟨made :: rest, .cons makes others⟩
    · rintro _ (_ | ⟨makes, others⟩)
      obtain ⟨between, first, model, awaits⟩ := awaits.adds makes
      obtain ⟨b', walked, model'⟩ := (ih awaits).2 _ others
      refine ⟨b', ?_, ?_⟩
      · rw [List.foldlM_cons, first]
        exact walked
      · rw [model', model, ← Model.add_append, List.singleton_append]

/-- A document that holds declarations only is one declaration after the other. -/
theorem visit_declared {f : Forest} (only : f.declaresOnly = true) :
    (walk t ceiling).visit f b = f.declared.foldlM (pass t ceiling) b := by
  induction f generalizing b with
  | nil => rfl
  | node e inside behind ih_inside ih_behind =>
    obtain ⟨head, others⟩ := Forest.declaresOnly_behind.mp only
    have own := (Forest.declaresOnly_node head).1
    have first (b : Builder) : (walk t ceiling).visit (.node e inside .nil) b =
        (Forest.node e inside .nil).declared.foldlM (pass t ceiling) b := by
      rw [Forest.declared, Forest.declared, List.append_nil]
      cases deprecated : e.isDeprecated with
      | true =>
        rw [Walk.visit, if_pos deprecated]
        rfl
      | false =>
        have own := own deprecated
        rw [if_neg Bool.false_ne_true]
        by_cases plain : e.kind.isPlain = true
        · rw [if_pos plain] at own ⊢
          rw [visit_plain plain deprecated, ih_inside own]
        · rw [if_neg plain] at own ⊢
          rw [if_pos own, List.foldlM_cons, pass]
          cases (walk t ceiling).visit (.node e inside .nil) b <;> rfl
    rw [Walk.visit_behind, Forest.declared_behind, List.foldlM_append, first]
    congr 1
    exact funext fun b => ih_behind others

theorem awaits_new {f : Forest} (types : TypeTable)
    (uids : (f.declared.filterMap (·.1.uid?)).Nodup)
    (small : ∀ d ∈ f.declared, Small ceiling d) :
    Awaits ceiling f.declared (ofTable types) where
  idle := rfl
  current _ member := (Forest.mem_declared member).1
  types _ member := (Forest.mem_declared member).2
  small := small
  unbuilt uid _ := by
    change (∅ : Std.TreeSet String).contains uid = false
    exact Std.TreeSet.contains_emptyc
  apart := uids

/-- A model is another but for the order of its types. -/
structure Reordered (m m' : Model) : Prop where
  enumerations : m'.enumerations.Perm m.enumerations
  bitfields : m'.bitfields.Perm m.bitfields
  dictionaries : m'.dictionaries.Perm m.dictionaries
  trees : m'.trees = m.trees

/-- By tables that agree declarations make the same types in any order. -/
theorem visit_reordered {t' : NameTables} (agree : t.Agree t') {f f' : Forest}
    (only : f.declaresOnly = true) (only' : f'.declaresOnly = true)
    (permuted : f'.declared.Perm f.declared) (uids : (f.declared.filterMap (·.1.uid?)).Nodup)
    (small : ∀ d ∈ f.declared, Small ceiling d)
    (walked : (walk t ceiling).visit f (ofTable t.types) = .ok b) :
    ∃ b', (walk t' ceiling).visit f' (ofTable t'.types) = .ok b' ∧ Reordered b.model b'.model := by
  have awaits := awaits_new t.types uids small
  have awaits' : Awaits ceiling f'.declared (ofTable t'.types) := by
    refine awaits_new t'.types ?_ fun d member => small d (permuted.mem_iff.mp member)
    exact (permuted.filterMap _).nodup_iff.mpr uids
  rw [visit_declared only] at walked
  obtain ⟨made, makes⟩ := awaits.run.1 b walked
  obtain ⟨_, walked', model⟩ := awaits.run.2 made makes
  obtain rfl := Except.ok.inj (walked'.symm.trans walked)
  obtain ⟨made', makes', same⟩ := List.perm_comp_forall₂ permuted makes
  obtain ⟨b', built, model'⟩ := awaits'.run.2 made' (makes'.imp fun _ _ h => h.agree agree)
  refine ⟨b', by rw [visit_declared only', built], ?_⟩
  rw [model, model']
  exact ⟨(same.filterMap _).append_left _, (same.filterMap _).append_left _,
    (same.filterMap _).append_left _, rfl⟩

end Builder

end EnumRegistry
