import EnumRegistry.Building.Builder
import EnumRegistry.Proofs.Registry.Walk

/-!
The builder by what one event can do. `Entered` lists the ways in which it enters an element,
`Left` the ways in which it leaves one, and each holds everything that was checked on the way.
-/

namespace EnumRegistry

/-- Whether an element declares a type. -/
def ElementKind.declaresType : ElementKind → Bool
  | enumeration | bitfield | dictionary => true
  | _ => false

/-- Whether an element means nothing to the model by itself. -/
def ElementKind.isPlain : ElementKind → Bool
  | revision | other => true
  | _ => false

theorem ElementKind.isPathOnly_of_level? {kind : ElementKind} {level : Level}
    (h : kind.level? = some level) : level.isPathOnly = false := by
  cases kind <;> cases h <;> rfl

/-- The tree that an element opens, if it is one that is read. -/
def Element.selectedTree? (e : Element) : Option (Hierarchy × String) :=
  match e.kind with
  | .entityTree =>
    if e.uid? = some entityTreeUid then some (.entityTypes, entityTreeUid) else none
  | .objectTree =>
    if e.uid? = some objectTreeUid then some (.objectTypes, objectTreeUid) else none
  | .jammerTree => some (.jammerTechniques, e.uid?.getD jammerTreeUid)
  | _ => none

namespace Builder

/-- The ways in which an element is entered. -/
inductive Entered (t : NameTables) (b : Builder) (e : Element) : Builder → Prop
  | type {uid name : String} {frame : TypeFrame} (idle : b.isIdle = true)
      (declares : e.kind.declaresType = true) (identified : e.uid? = some uid)
      (named : t.types.name? uid = some name) (fresh : b.emitted.contains uid = false)
      (opens : TypeFrame.open? e uid name = .ok frame) :
      Entered t b e
        ({ b with emitted := b.emitted.insert uid, current := some frame }.enter .type)
  | row {frame : TypeFrame} (current : b.current = some frame)
      (accepts : frame.accepts e.kind = true) : Entered t b e (b.enter (.row e))
  | tree {hierarchy : Hierarchy} {uid : String} (idle : b.isIdle = true)
      (selected : e.selectedTree? = some (hierarchy, uid)) :
      Entered t b e ({ b with tree := some (.new hierarchy uid) }.enter .tree)
  | path {frame frame' : TreeFrame} {found : List Diagnostic} (tree : b.tree = some frame)
      (kind : e.kind = .entity ∨ e.kind = .object)
      (made : frame.openPath t.types e = .ok (some (frame', found))) :
      Entered t b e (({ b with tree := some frame' }.note found).enter .path)
  | node {frame frame' : TreeFrame} {level : Level} {id : Nat} (tree : b.tree = some frame)
      (levelled : e.kind.level? = some level)
      (attached : frame.openNode level e = .ok (id, frame')) :
      Entered t b e ({ b with tree := some frame' }.enter (.node id))
  | other (plain : e.kind.isPlain = true) : Entered t b e (b.enter .other)

/-- The ways in which the innermost element is left. -/
inductive Left (t : NameTables) (ceiling : Nat) (b : Builder) : Builder → Prop
  | outside (opened : b.opened = []) : Left t ceiling b b
  | other {rest : List OpenElement} (opened : b.opened = .other :: rest) :
      Left t ceiling b { b with opened := rest }
  | row {rest : List OpenElement} {e : Element} {frame frame' : TypeFrame}
      {found : List Diagnostic} (opened : b.opened = .row e :: rest)
      (current : b.current = some frame) (added : frame.addRow t e = .ok (frame', found)) :
      Left t ceiling b ({ b with opened := rest, current := some frame' }.note found)
  | enumeration {rest : List OpenElement} {type : Enumeration} {scope types : NameScope}
      {parts : List Enumeration} (opened : b.opened = .type :: rest)
      (current : b.current = some (.enumeration type scope))
      (split : type.split ceiling b.types = .ok (parts, types)) :
      Left t ceiling b { b with
        opened := rest
        current := none
        types
        model := { b.model with enumerations := b.model.enumerations ++ parts } }
  | bitfield {rest : List OpenElement} {type : Bitfield} {scope : NameScope}
      (opened : b.opened = .type :: rest) (current : b.current = some (.bitfield type scope)) :
      Left t ceiling b ({ b with
        opened := rest
        current := none
        model := { b.model with bitfields := b.model.bitfields ++ [type] } }.note type.findings)
  | dictionary {rest : List OpenElement} {type : Dictionary} {scope : NameScope}
      (opened : b.opened = .type :: rest) (current : b.current = some (.dictionary type scope)) :
      Left t ceiling b { b with
        opened := rest
        current := none
        model := { b.model with dictionaries := b.model.dictionaries ++ [type] } }
  | node {rest : List OpenElement} {id : Nat} {frame frame' : TreeFrame} {found : List Diagnostic}
      (opened : b.opened = .node id :: rest) (tree : b.tree = some frame)
      (named : frame.leave.nameNode t.overrides id = .ok (frame', found)) :
      Left t ceiling b ({ b with opened := rest, tree := some frame' }.note found)
  | path {rest : List OpenElement} {frame : TreeFrame} (opened : b.opened = .path :: rest)
      (tree : b.tree = some frame) :
      Left t ceiling b { b with opened := rest, tree := some frame.leave }
  | tree {rest : List OpenElement} {frame : TreeFrame} (opened : b.opened = .tree :: rest)
      (tree : b.tree = some frame) :
      Left t ceiling b { b with
        opened := rest
        tree := none
        model := { b.model with trees := b.model.trees ++ [frame.tree] } }
  /-- No type is open for a row or a type to be left. -/
  | noType {rest : List OpenElement} {o : OpenElement} (opened : b.opened = o :: rest)
      (inType : o = .type ∨ ∃ e, o = .row e) (current : b.current = none) :
      Left t ceiling b { b with opened := rest }
  /-- No tree is open for a node, a path or a tree to be left. -/
  | noTree {rest : List OpenElement} {o : OpenElement} (opened : b.opened = o :: rest)
      (inTree : o = .tree ∨ o = .path ∨ ∃ id, o = .node id) (tree : b.tree = none) :
      Left t ceiling b { b with opened := rest }

theorem startType_eq_ok {t : NameTables} {b : Builder} {e : Element} {r : Option Builder}
    (h : b.startType t e = .ok r) :
    (r = none ∧ (b.isIdle = false ∨ e.uid? = none ∨
      ∃ uid, e.uid? = some uid ∧ (t.types.name? uid = none ∨ b.emitted.contains uid = true))) ∨
    ∃ uid name frame, b.isIdle = true ∧ e.uid? = some uid ∧ t.types.name? uid = some name ∧
      b.emitted.contains uid = false ∧ TypeFrame.open? e uid name = .ok frame ∧
      r = some ({ b with emitted := b.emitted.insert uid, current := some frame }.enter .type) := by
  unfold startType at h
  cases idle : b.isIdle with
  | false =>
    simp only [idle, Bool.not_false, ↓reduceIte, pure_eq_ok, Except.ok.injEq] at h
    exact .inl ⟨h.symm, .inl rfl⟩
  | true =>
    simp only [idle, Bool.not_true, Bool.false_eq_true, ↓reduceIte] at h
    cases identified : e.uid? with
    | none =>
      simp only [identified, pure_eq_ok, Except.ok.injEq] at h
      exact .inl ⟨h.symm, .inr (.inl rfl)⟩
    | some uid =>
      simp only [identified] at h
      cases named : t.types.name? uid with
      | none =>
        simp only [named, pure_eq_ok, Except.ok.injEq] at h
        exact .inl ⟨h.symm, .inr (.inr ⟨uid, rfl, .inl named⟩)⟩
      | some name =>
        simp only [named] at h
        cases fresh : b.emitted.contains uid with
        | true =>
          simp only [fresh, ↓reduceIte, pure_eq_ok, Except.ok.injEq] at h
          exact .inl ⟨h.symm, .inr (.inr ⟨uid, rfl, .inr fresh⟩)⟩
        | false =>
          simp only [fresh, Bool.false_eq_true, ↓reduceIte, bind_eq_ok, ofRegistry_eq_ok,
            pure_eq_ok, Except.ok.injEq] at h
          obtain ⟨frame, opens, rfl⟩ := h
          exact .inr ⟨uid, name, frame, rfl, rfl, named, fresh, opens, rfl⟩

theorem startType_entered {t : NameTables} {b b' : Builder} {e : Element}
    (declares : e.kind.declaresType = true) (h : b.startType t e = .ok (some b')) :
    Entered t b e b' := by
  rcases startType_eq_ok h with ⟨left, -⟩ |
    ⟨uid, name, frame, idle, identified, named, fresh, opens, entered⟩
  · cases left
  · cases entered
    exact .type idle declares identified named fresh opens

theorem startRow_entered {t : NameTables} {b b' : Builder} {e : Element}
    (h : b.startRow e = some b') : Entered t b e b' := by
  unfold startRow at h
  split at h
  · rename_i accepts
    obtain ⟨frame, current, accepts⟩ := (Option.any_eq_true _ _).mp accepts
    cases h
    exact .row current accepts
  · cases h

theorem startTree_entered {t : NameTables} {b b' : Builder} {e : Element} {hierarchy : Hierarchy}
    {uid : String} (selected : e.selectedTree? = some (hierarchy, uid))
    (h : b.startTree hierarchy uid = some b') : Entered t b e b' := by
  unfold startTree at h
  split at h
  · rename_i idle
    cases h
    exact .tree idle selected
  · cases h

theorem startSelected_entered {t : NameTables} {b b' : Builder} {e : Element}
    {hierarchy : Hierarchy} {uid : String}
    (selects : e.uid? = some uid → e.selectedTree? = some (hierarchy, uid))
    (h : b.startSelected e hierarchy uid = some b') : Entered t b e b' := by
  unfold startSelected at h
  split at h
  · rename_i same
    exact startTree_entered (selects (by simpa using same)) h
  · cases h

theorem startPath_entered {t : NameTables} {b b' : Builder} {e : Element}
    (kind : e.kind = .entity ∨ e.kind = .object) (h : b.startPath t e = .ok (some b')) :
    Entered t b e b' := by
  unfold startPath at h
  cases tree : b.tree with
  | none => simp [tree] at h
  | some frame =>
    simp only [tree, bind_eq_ok] at h
    obtain ⟨made, hmade, hb⟩ := h
    cases made with
    | none => simp at hb
    | some made =>
      simp only [pure_eq_ok, Except.ok.injEq, Option.some.injEq] at hb
      exact hb ▸ .path tree kind hmade

theorem startNode_entered {t : NameTables} {b b' : Builder} {e : Element} {level : Level}
    (levelled : e.kind.level? = some level) (h : b.startNode level e = .ok (some b')) :
    Entered t b e b' := by
  unfold startNode at h
  cases tree : b.tree with
  | none => simp [tree] at h
  | some frame =>
    simp only [tree, bind_eq_ok, Prod.exists, pure_eq_ok, Except.ok.injEq, Option.some.injEq] at h
    obtain ⟨id, frame', attached, rfl⟩ := h
    exact .node tree levelled attached

theorem start_entered {t : NameTables} {b b' : Builder} {e : Element}
    (h : b.start t e = .ok (some b')) : Entered t b e b' := by
  unfold start at h
  split at h
  · exact startType_entered (by simp_all [ElementKind.declaresType]) h
  · exact startType_entered (by simp_all [ElementKind.declaresType]) h
  · exact startType_entered (by simp_all [ElementKind.declaresType]) h
  · exact startRow_entered (Except.ok.inj h)
  · exact startRow_entered (Except.ok.inj h)
  · exact startRow_entered (Except.ok.inj h)
  · exact startRow_entered (Except.ok.inj h)
  · exact startSelected_entered (by simp_all [Element.selectedTree?]) (Except.ok.inj h)
  · exact startSelected_entered (by simp_all [Element.selectedTree?]) (Except.ok.inj h)
  · exact startTree_entered (by simp_all [Element.selectedTree?]) (Except.ok.inj h)
  · exact startPath_entered (.inl ‹_›) h
  · exact startPath_entered (.inr ‹_›) h
  · split at h
    · exact startNode_entered ‹_› h
    · simp only [Except.ok.injEq, Option.some.injEq] at h
      refine h ▸ .other ?_
      cases kind : e.kind <;> simp_all [ElementKind.isPlain, ElementKind.level?]

theorem finish_left {t : NameTables} {ceiling : Nat} {b b' : Builder}
    (h : b.finish t ceiling = .ok b') : Left t ceiling b b' := by
  unfold finish at h
  split at h
  · cases h
    exact .outside ‹_›
  · rename_i o rest opened
    dsimp only at h
    cases o with
    | other => cases h; exact .other opened
    | row e =>
      simp only [finishRow] at h
      cases current : b.current with
      | none =>
        simp only [current, pure_eq_ok, Except.ok.injEq] at h
        exact h ▸ current ▸ .noType opened (.inr ⟨e, rfl⟩) current
      | some frame =>
        simp only [current, bind_eq_ok, Prod.exists, pure_eq_ok, Except.ok.injEq] at h
        obtain ⟨frame', found, added, rfl⟩ := h
        exact .row opened current added
    | type =>
      simp only [finishType] at h
      cases current : b.current with
      | none =>
        simp only [current, pure_eq_ok, Except.ok.injEq] at h
        exact h ▸ current ▸ .noType opened (.inl rfl) current
      | some frame =>
        cases frame with
        | enumeration type scope =>
          simp only [current, bind_eq_ok, ofScope_eq_ok, Prod.exists, pure_eq_ok,
            Except.ok.injEq] at h
          obtain ⟨parts, types, split, rfl⟩ := h
          exact .enumeration opened current split
        | bitfield type scope =>
          simp only [current, pure_eq_ok, Except.ok.injEq] at h
          exact h ▸ .bitfield opened current
        | dictionary type scope =>
          simp only [current, pure_eq_ok, Except.ok.injEq] at h
          exact h ▸ .dictionary opened current
    | node id =>
      simp only [finishNode] at h
      cases tree : b.tree with
      | none =>
        simp only [tree, pure_eq_ok, Except.ok.injEq] at h
        exact h ▸ tree ▸ .noTree opened (.inr (.inr ⟨id, rfl⟩)) tree
      | some frame =>
        simp only [tree, bind_eq_ok, Prod.exists, pure_eq_ok, Except.ok.injEq] at h
        obtain ⟨frame', found, named, rfl⟩ := h
        exact .node opened tree named
    | path =>
      cases tree : b.tree with
      | none =>
        simp only [tree, Option.map_none, Except.ok.injEq] at h
        exact h ▸ tree ▸ .noTree opened (.inr (.inl rfl)) tree
      | some frame =>
        simp only [tree, Option.map_some, Except.ok.injEq] at h
        exact h ▸ .path opened tree
    | tree =>
      simp only [finishTree] at h
      cases tree : b.tree with
      | none =>
        simp only [tree, Except.ok.injEq] at h
        exact h ▸ tree ▸ .noTree opened (.inl rfl) tree
      | some frame =>
        simp only [tree, Except.ok.injEq] at h
        exact h ▸ .tree opened tree

/-- Leaving an element closes the innermost one. -/
theorem left_opened {t : NameTables} {ceiling : Nat} {b b' : Builder} (h : Left t ceiling b b') :
    b'.opened = b.opened.drop 1 := by
  cases h with
  | outside opened =>
    rw [opened]
    rfl
  | other opened | row opened | enumeration opened | bitfield opened | dictionary opened
  | node opened | path opened | tree opened | noType opened | noTree opened =>
    rw [opened]
    rfl

/-- The walk keeps what entering and leaving elements keeps. -/
theorem walk_keeps {t : NameTables} {ceiling : Nat} {P : Builder → Prop}
    (entered : ∀ {b b' e}, e.isDeprecated = false → P b → Entered t b e b' → P b')
    (left : ∀ {b b'}, P b → Left t ceiling b b' → P b') : (walk t ceiling).Keeps P where
  start current hb h := entered current hb (start_entered h)
  finish hb h := left hb (finish_left h)

end Builder

end EnumRegistry
