import EnumRegistry.Proofs.Building.Step
import EnumRegistry.Proofs.Registry.Position

/-!
Positions in a survey and in the building of a model. Neither keeps more of an element than it says
without its position, except for the rows that are open.
-/

namespace EnumRegistry

namespace Survey

variable (overrides : Overrides)

theorem declare_maps (s : Survey) (uid : String) (e : Element) :
    Maps GenerationError.unplaced id (declare overrides s uid e)
      (declare overrides s uid e.unplaced) := by
  have base : typeBase overrides uid e.unplaced = typeBase overrides uid e := rfl
  unfold declare
  simp only [base]
  split
  · exact .ok _
  · refine (Maps.ofScope _).bind fun ⟨name, types⟩ => ?_
    exact .ok _

theorem startType_maps (s : Survey) (e : Element) :
    Maps GenerationError.unplaced id (startType overrides s e)
      (startType overrides s e.unplaced) := by
  have identified : e.unplaced.uid? = e.uid? := rfl
  unfold startType
  rw [identified]
  cases e.uid? with
  | none => exact .ok s
  | some uid =>
    dsimp only
    split
    · exact .ok _
    · refine (declare_maps overrides s uid e).bind fun s' => ?_
      have kind : e.unplaced.kind = e.kind := rfl
      simp only [id, kind]
      split
      · exact .ok _
      · exact .ok s'

theorem startRow_maps (s : Survey) (e : Element) :
    Maps GenerationError.unplaced id (startRow overrides s e)
      (startRow overrides s e.unplaced) := by
  unfold startRow
  cases s.lookup with
  | none => exact .ok s
  | some rows =>
    refine e.value_maps.ofRegistry.bind fun value => ?_
    refine (Maps.ofScope _).bind fun ⟨resolved, scope⟩ => ?_
    exact .ok _

theorem start_maps (s : Survey) (e : Element) :
    Maps GenerationError.unplaced id (start overrides s e) (start overrides s e.unplaced) := by
  have kind : e.unplaced.kind = e.kind := rfl
  simp only [start, kind]
  split
  · exact .ok _
  · exact startType_maps overrides s e
  · exact startType_maps overrides s e
  · exact startType_maps overrides s e
  · exact startRow_maps overrides s e
  · exact startRow_maps overrides s e
  · exact .ok s

theorem walk_unplaces : (walk overrides).Unplaces id where
  start s e := (start_maps overrides s e).some
  finish _ _ := .ok _

end Survey

namespace TypeFrame

variable (t : NameTables) (e : Element)

theorem open?_maps (uid name : String) : Maps RegistryError.unplaced id
    (TypeFrame.open? e uid name) (TypeFrame.open? e.unplaced uid name) := by
  have kind : e.unplaced.kind = e.kind := rfl
  simp only [TypeFrame.open?, kind]
  split
  · exact (e.int?_maps "size").bind fun size => .ok _
  · exact (e.requiredInt_maps "size").bind fun size => .ok _
  · exact .ok _

theorem addRow_maps (frame : TypeFrame) : Maps GenerationError.unplaced id (frame.addRow t e)
    (frame.addRow t e.unplaced) := by
  cases frame with
  | enumeration type scope =>
    have ended : Maps RegistryError.unplaced id
        (if (e.attr? "value").isSome then .ok none else e.int? "value_max")
        (if (e.unplaced.attr? "value").isSome then .ok none else e.unplaced.int? "value_max") := by
      have value : e.unplaced.attr? "value" = e.attr? "value" := rfl
      rw [value]
      split
      · exact .ok none
      · exact e.int?_maps "value_max"
    refine e.value_maps.ofRegistry.bind fun value => ?_
    refine ended.ofRegistry.bind fun rangeEnd => ?_
    exact (Maps.ofScope _).bind fun ⟨resolved, scope⟩ => .ok _
  | bitfield type scope =>
    refine (Maps.ofScope _).bind fun ⟨resolved, scope⟩ => ?_
    refine (e.requiredInt_maps "bit_position").ofRegistry.bind fun position => ?_
    exact (e.int?_maps "length").ofRegistry.bind fun length => .ok _
  | dictionary type scope =>
    refine (e.required_maps "value").ofRegistry.bind fun code => ?_
    exact (Maps.ofScope _).bind fun ⟨resolved, scope⟩ => .ok _

end TypeFrame

namespace TreeFrame

variable (e : Element)

theorem pathSteps_maps (hierarchy : Hierarchy) : Maps RegistryError.unplaced id
    (pathSteps hierarchy e) (pathSteps hierarchy e.unplaced) := by
  refine (e.requiredInt_maps "kind").bind fun kind => ?_
  refine (e.requiredInt_maps "domain").bind fun domain => ?_
  cases hierarchy with
  | entityTypes => exact (e.requiredInt_maps "country").bind fun country => .ok _
  | objectTypes | jammerTechniques => exact .ok _

theorem pathNode_maps (types : TypeTable) (f : TreeFrame) (parent : Option Nat) (step : PathStep) :
    Maps GenerationError.unplaced id (pathNode types f parent step)
      (pathNode types f parent step) := by
  unfold pathNode
  dsimp only
  split
  · exact .ok _
  · refine (Maps.ofTree _).bind fun ⟨id, tree⟩ => ?_
    refine (Maps.ofScope _).bind fun ⟨name, scope⟩ => ?_
    exact (Maps.ofTree _).bind fun tree => .ok _

theorem pathNodes_maps (types : TypeTable) (f : TreeFrame) (parent : Option Nat)
    (steps : List PathStep) : Maps GenerationError.unplaced id (pathNodes types f parent steps)
      (pathNodes types f parent steps) := by
  induction steps generalizing f parent with
  | nil => exact .ok _
  | cons step steps ih =>
    refine (pathNode_maps types f parent step).bind fun ⟨id, f, found⟩ => ?_
    exact (ih f (some id)).bind fun ⟨last, f, more⟩ => .ok _

theorem openPath_maps (types : TypeTable) (f : TreeFrame) : Maps GenerationError.unplaced id
    (f.openPath types e) (f.openPath types e.unplaced) := by
  unfold openPath
  split
  · exact .ok none
  · refine (pathSteps_maps e f.tree.hierarchy).ofRegistry.bind fun steps => ?_
    cases steps with
    | none => exact .ok none
    | some steps => exact (pathNodes_maps types f none steps).bind fun ⟨last, f, found⟩ => .ok _

theorem openNode_maps (f : TreeFrame) (level : Level) : Maps GenerationError.unplaced id
    (f.openNode level e) (f.openNode level e.unplaced) := by
  refine e.value_maps.ofRegistry.bind fun value => ?_
  exact (Maps.ofTree _).bind fun ⟨id, tree⟩ => .ok _

theorem nameNode_maps (overrides : Overrides) (f : TreeFrame) (node : Nat) :
    Maps GenerationError.unplaced id (f.nameNode overrides node)
      (f.nameNode overrides node) := by
  unfold nameNode
  split
  · exact .error _
  · refine (Maps.ofScope _).bind fun ⟨resolved, scope⟩ => ?_
    exact (Maps.ofTree _).bind fun tree => .ok _

end TreeFrame

/-- An open element without the position of a row. -/
def OpenElement.unplaced : OpenElement → OpenElement
  | row e => row e.unplaced
  | type => type
  | tree => tree
  | node id => node id
  | path => path
  | other => other

namespace Builder

/-- A builder without the positions of the rows that are open. -/
def unplaced (b : Builder) : Builder := { b with opened := b.opened.map (·.unplaced) }

variable (t : NameTables) (b : Builder) (e : Element)

theorem startType_maps : Maps GenerationError.unplaced (Option.map unplaced)
    (b.startType t e) (b.unplaced.startType t e.unplaced) := by
  have idle : b.unplaced.isIdle = b.isIdle := rfl
  have identified : e.unplaced.uid? = e.uid? := rfl
  have emitted : b.unplaced.emitted = b.emitted := rfl
  simp only [startType, idle, identified, emitted]
  split
  · exact .ok none
  · cases e.uid? with
    | none => exact .ok none
    | some uid =>
      dsimp only
      cases t.types.name? uid with
      | none => exact .ok none
      | some name =>
        dsimp only
        split
        · exact .ok none
        · exact (TypeFrame.open?_maps e uid name).ofRegistry.bind fun frame => .ok _

theorem startRow_unplaced : b.unplaced.startRow e.unplaced = (b.startRow e).map unplaced := by
  have accepts : b.unplaced.current.any (·.accepts e.unplaced.kind) =
      b.current.any (·.accepts e.kind) := rfl
  unfold startRow
  rw [accepts]
  split <;> rfl

theorem startTree_unplaced (hierarchy : Hierarchy) (uid : String) :
    b.unplaced.startTree hierarchy uid = (b.startTree hierarchy uid).map unplaced := by
  have idle : b.unplaced.isIdle = b.isIdle := rfl
  unfold startTree
  rw [idle]
  split <;> rfl

theorem startSelected_unplaced (hierarchy : Hierarchy) (uid : String) :
    b.unplaced.startSelected e.unplaced hierarchy uid =
      (b.startSelected e hierarchy uid).map unplaced := by
  have identified : e.unplaced.uid? = e.uid? := rfl
  unfold startSelected
  rw [identified]
  split
  · exact b.startTree_unplaced hierarchy uid
  · rfl

theorem startPath_maps : Maps GenerationError.unplaced (Option.map unplaced)
    (b.startPath t e) (b.unplaced.startPath t e.unplaced) := by
  have tree : b.unplaced.tree = b.tree := rfl
  unfold startPath
  rw [tree]
  cases b.tree with
  | none => exact .ok none
  | some frame =>
    refine (frame.openPath_maps e t.types).bind fun made => ?_
    cases made with
    | none => exact .ok none
    | some made => exact .ok _

theorem startNode_maps (level : Level) : Maps GenerationError.unplaced (Option.map unplaced)
    (b.startNode level e) (b.unplaced.startNode level e.unplaced) := by
  have tree : b.unplaced.tree = b.tree := rfl
  unfold startNode
  rw [tree]
  cases b.tree with
  | none => exact .ok none
  | some frame => exact (frame.openNode_maps e level).bind fun ⟨id, frame⟩ => .ok _

theorem start_maps : Maps GenerationError.unplaced (Option.map unplaced)
    (b.start t e) (b.unplaced.start t e.unplaced) := by
  have kind : e.unplaced.kind = e.kind := rfl
  have identified : e.unplaced.uid? = e.uid? := rfl
  simp only [start, kind, identified, startRow_unplaced, startTree_unplaced,
    startSelected_unplaced]
  split
  · exact startType_maps t b e
  · exact startType_maps t b e
  · exact startType_maps t b e
  · exact .ok _
  · exact .ok _
  · exact .ok _
  · exact .ok _
  · exact .ok _
  · exact .ok _
  · exact .ok _
  · exact startPath_maps t b e
  · exact startPath_maps t b e
  · split
    · exact startNode_maps b e _
    · exact .ok _

theorem finishRow_maps : Maps GenerationError.unplaced unplaced
    (b.finishRow t e) (b.unplaced.finishRow t e.unplaced) := by
  have current : b.unplaced.current = b.current := rfl
  unfold finishRow
  rw [current]
  cases b.current with
  | none => exact .ok b
  | some frame => exact (frame.addRow_maps t e).bind fun ⟨frame, found⟩ => .ok _

theorem finishType_maps (ceiling : Nat) : Maps GenerationError.unplaced unplaced
    (b.finishType ceiling) (b.unplaced.finishType ceiling) := by
  have current : b.unplaced.current = b.current := rfl
  unfold finishType
  dsimp only
  rw [current]
  cases b.current with
  | none => exact .ok b
  | some frame =>
    cases frame with
    | enumeration type scope => exact (Maps.ofScope _).bind fun ⟨parts, types⟩ => .ok _
    | bitfield type scope | dictionary type scope => exact .ok _

theorem finishNode_maps (id : Nat) : Maps GenerationError.unplaced unplaced
    (b.finishNode t id) (b.unplaced.finishNode t id) := by
  have tree : b.unplaced.tree = b.tree := rfl
  unfold finishNode
  rw [tree]
  cases b.tree with
  | none => exact .ok b
  | some frame =>
    exact (frame.leave.nameNode_maps t.overrides id).bind fun ⟨frame, found⟩ => .ok _

theorem finishTree_unplaced : b.unplaced.finishTree = b.finishTree.unplaced := by
  have tree : b.unplaced.tree = b.tree := rfl
  unfold finishTree
  rw [tree]
  cases b.tree <;> rfl

theorem finish_maps (ceiling : Nat) : Maps GenerationError.unplaced unplaced
    (b.finish t ceiling) (b.unplaced.finish t ceiling) := by
  have opened : b.unplaced.opened = b.opened.map (·.unplaced) := rfl
  unfold finish
  rw [opened]
  cases b.opened with
  | nil => exact .ok b
  | cons o rest =>
    cases o with
    | other => exact .ok _
    | row e => exact finishRow_maps t { b with opened := rest } e
    | type => exact finishType_maps { b with opened := rest } ceiling
    | node id => exact finishNode_maps t { b with opened := rest } id
    | path => exact .ok _
    | tree =>
      have same := finishTree_unplaced { b with opened := rest }
      exact congrArg Except.ok same

theorem walk_unplaces (ceiling : Nat) : (walk t ceiling).Unplaces unplaced where
  start b e := start_maps t b e
  finish b _ := finish_maps t b ceiling

end Builder

end EnumRegistry
