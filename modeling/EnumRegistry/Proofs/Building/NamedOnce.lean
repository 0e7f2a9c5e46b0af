import EnumRegistry.Proofs.Building.TreesInOrder
import EnumRegistry.Proofs.Registry.Element
import EnumRegistry.Proofs.Survey
import EnumRegistry.Resolution

/-!
No node is named twice. A path segment is named right when it is attached, and any other node when
its element ends, which it does once; so the error of a node that has a name already never ends a
resolution.
-/

namespace EnumRegistry

open ClassificationTree

/-- The error of a node that has a name already. -/
def GenerationError.namesTwice : GenerationError → Prop
  | registry (.tree (.nameAlreadySet _)) => True
  | _ => False

theorem avoids_registry {α : Type} {x : Except RegistryError α}
    (h : Avoids RegistryError.concernsTree x) :
    Avoids GenerationError.namesTwice (ofRegistry x) := by
  apply avoids_ofRegistry
  intro err herr twice
  apply h err herr
  cases err <;> trivial

theorem avoids_scope {α : Type} (x : Except Exhausted α) :
    Avoids GenerationError.namesTwice (ofScope x) :=
  avoids_ofScope x fun _ h => h

theorem avoids_attach (t : ClassificationTree) (parent : Option Nat) (node : ClassificationNode) :
    Avoids GenerationError.namesTwice (ofTree (t.attach parent node)) := by
  apply avoids_ofTree
  intro err herr
  rcases attach_eq_error herr with ⟨p, rfl⟩ | ⟨above, child, rfl⟩ <;> exact fun h => h

/-- A node that has no name can be named. -/
theorem avoids_setName {t : ClassificationTree} {id : Nat} (name : String)
    (unnamed : t.name? id = none) :
    Avoids GenerationError.namesTwice (ofTree (t.setName id name)) := by
  apply avoids_ofTree
  intro err herr
  unfold setName at herr
  split at herr
  · cases herr
    intro h
    exact h
  · rename_i node hnode
    have : node.name = none := by simpa [name?, hnode] using unnamed
    simp [this] at herr

theorem Survey.start_avoids (overrides : Overrides) (s : Survey) (e : Element) :
    Avoids GenerationError.namesTwice (start overrides s e) := by
  have type : Avoids GenerationError.namesTwice (startType overrides s e) := by
    unfold startType
    split
    · split
      · exact avoids_ok _
      · refine avoids_bind ?_ ?_
        · unfold declare
          dsimp only
          split
          · exact avoids_ok _
          · exact avoids_bind (avoids_scope _) fun _ _ => avoids_ok _
        · intro t _
          split <;> exact avoids_ok _
    · exact avoids_ok _
  have row : Avoids GenerationError.namesTwice (startRow overrides s e) := by
    unfold startRow
    split
    · exact avoids_bind (avoids_registry e.value_avoids) fun _ _ =>
        avoids_bind (avoids_scope _) fun _ _ => avoids_ok _
    · exact avoids_ok _
  unfold start
  split
  · exact avoids_ok _
  · exact type
  · exact type
  · exact type
  · exact row
  · exact row
  · exact avoids_ok _

/-- Reading the rows of a type goes wrong with their attributes only. -/
theorem TypeFrame.addRow_avoids (t : NameTables) (e : Element) (frame : TypeFrame) :
    Avoids GenerationError.namesTwice (frame.addRow t e) := by
  cases frame with
  | enumeration type scope =>
    refine avoids_bind (avoids_registry e.value_avoids) fun _ _ => avoids_bind ?_ fun _ _ =>
      avoids_bind (avoids_scope _) fun _ _ => avoids_ok _
    split
    · exact avoids_registry (avoids_ok _)
    · exact avoids_registry (e.int?_avoids _)
  | bitfield type scope =>
    exact avoids_bind (avoids_scope _) fun _ _ =>
      avoids_bind (avoids_registry (e.requiredInt_avoids _)) fun _ _ =>
      avoids_bind (avoids_registry (e.int?_avoids _)) fun _ _ => avoids_ok _
  | dictionary type scope =>
    exact avoids_bind (avoids_registry (e.required_avoids _)) fun _ _ =>
      avoids_bind (avoids_scope _) fun _ _ => avoids_ok _

theorem TypeFrame.open?_avoids (e : Element) (uid name : String) :
    Avoids RegistryError.concernsTree (TypeFrame.open? e uid name) := by
  unfold TypeFrame.open?
  split
  · exact avoids_bind (e.int?_avoids _) fun _ _ => avoids_ok _
  · exact avoids_bind (e.requiredInt_avoids _) fun _ _ => avoids_ok _
  · exact avoids_ok _

namespace TreeFrame

theorem pathNode_avoids (types : TypeTable) (f : TreeFrame) (parent : Option Nat)
    (step : PathStep) : Avoids GenerationError.namesTwice (pathNode types f parent step) := by
  unfold pathNode
  dsimp only
  split
  · exact avoids_ok _
  · apply avoids_bind (avoids_attach _ _ _)
    intro attached hattached
    apply avoids_bind (avoids_scope _)
    intro claimed _
    refine avoids_bind ?_ fun _ _ => avoids_ok _
    rw [ofTree_eq_ok] at hattached
    obtain ⟨hid, htree, valid, -⟩ := attach_eq_ok hattached
    rw [hid, htree]
    exact avoids_setName _ (by simp [name?, getElem?_append_size valid])

theorem pathNodes_avoids (types : TypeTable) (f : TreeFrame) (parent : Option Nat)
    (steps : List PathStep) :
    Avoids GenerationError.namesTwice (pathNodes types f parent steps) := by
  induction steps generalizing f parent with
  | nil => exact avoids_ok _
  | cons step steps ih =>
    apply avoids_bind (pathNode_avoids _ _ _ _)
    intro first _
    apply avoids_bind (ih _ _)
    intro rest _
    exact avoids_ok _

theorem openPath_avoids (types : TypeTable) (f : TreeFrame) (e : Element) :
    Avoids GenerationError.namesTwice (f.openPath types e) := by
  unfold openPath
  split
  · exact avoids_ok _
  · refine avoids_bind (avoids_registry ?_) ?_
    · apply avoids_bind (e.requiredInt_avoids _)
      intro kind _
      apply avoids_bind (e.requiredInt_avoids _)
      intro domain _
      split
      · exact avoids_bind (e.requiredInt_avoids _) fun _ _ => avoids_ok _
      · exact avoids_ok _
      · exact avoids_ok _
    · intro steps _
      cases steps with
      | none => exact avoids_ok _
      | some steps => exact avoids_bind (pathNodes_avoids _ _ _ _) fun _ _ => avoids_ok _

theorem openNode_avoids (f : TreeFrame) (level : Level) (e : Element) :
    Avoids GenerationError.namesTwice (f.openNode level e) := by
  apply avoids_bind (avoids_registry e.value_avoids)
  intro value _
  apply avoids_bind (avoids_attach _ _ _)
  intro attached _
  exact avoids_ok _

/-- The node whose element ends waits for its name. -/
theorem nameNode_avoids {t : NameTables} {f : TreeFrame} {id : Nat} {pending : List Nat}
    (h : f.Sound t (id :: pending)) :
    Avoids GenerationError.namesTwice (f.leave.nameNode t.overrides id) := by
  have unnamed := (h.settled.unnamed (h.settled.pending_lt id (List.mem_cons_self ..))).mpr
    (List.mem_cons_self ..)
  unfold nameNode
  split
  · exact avoids_error fun h => h
  · apply avoids_bind (avoids_scope _)
    intro resolved _
    apply avoids_bind (avoids_setName _ unnamed)
    intro tree _
    exact avoids_ok _

end TreeFrame

namespace Builder

theorem start_avoids (t : NameTables) (b : Builder) (e : Element) :
    Avoids GenerationError.namesTwice (b.start t e) := by
  have type : Avoids GenerationError.namesTwice (b.startType t e) := by
    unfold startType
    split
    · exact avoids_ok _
    · split
      · split
        · split
          · exact avoids_ok _
          · apply avoids_bind (avoids_registry (TypeFrame.open?_avoids _ _ _))
            intro frame _
            exact avoids_ok _
        · exact avoids_ok _
      · exact avoids_ok _
  have path : Avoids GenerationError.namesTwice (b.startPath t e) := by
    unfold startPath
    split
    · apply avoids_bind (TreeFrame.openPath_avoids _ _ _)
      intro made _
      cases made <;> exact avoids_ok _
    · exact avoids_ok _
  have node (level : Level) : Avoids GenerationError.namesTwice (b.startNode level e) := by
    unfold startNode
    split
    · exact avoids_bind (TreeFrame.openNode_avoids _ _ _) fun _ _ => avoids_ok _
    · exact avoids_ok _
  unfold start
  split
  any_goals exact avoids_ok _
  · exact type
  · exact type
  · exact type
  · exact path
  · exact path
  · split
    · exact node _
    · exact avoids_ok _

theorem finish_avoids {t : NameTables} {ceiling : Nat} {b : Builder} (hb : b.TreesInOrder t) :
    Avoids GenerationError.namesTwice (b.finish t ceiling) := by
  have row (b : Builder) (e : Element) : Avoids GenerationError.namesTwice (b.finishRow t e) := by
    unfold finishRow
    split
    · exact avoids_bind (TypeFrame.addRow_avoids _ _ _) fun _ _ => avoids_ok _
    · exact avoids_ok _
  have type (b : Builder) : Avoids GenerationError.namesTwice (b.finishType ceiling) := by
    unfold finishType
    dsimp only
    split
    · exact avoids_ok _
    · exact avoids_bind (avoids_scope _) fun _ _ => avoids_ok _
    · exact avoids_ok _
    · exact avoids_ok _
  unfold finish
  cases hopened : b.opened with
  | nil => exact avoids_ok _
  | cons o rest =>
    cases o with
    | other | path | tree => exact avoids_ok _
    | row e => exact row _ e
    | type => exact type _
    | node id =>
      dsimp only
      unfold finishNode
      cases tree : b.tree with
      | none => exact avoids_ok _
      | some frame =>
        have sound := hb.growing frame tree
        rw [hopened] at sound
        exact avoids_bind (TreeFrame.nameNode_avoids sound) fun _ _ => avoids_ok _

end Builder

/-- No resolution ends because a node has a name already. -/
theorem Resolution.ofReader_avoids (overrides : Overrides) (ceiling : Nat) (r : Reader) :
    Avoids GenerationError.namesTwice (ofReader overrides ceiling r) := by
  have read (e : RegistryError) (he : r.events.2 = some e) :
      ¬ (GenerationError.registry e).namesTwice := by
    have apart := Reader.events_failure he
    cases e <;> first | exact fun h => h | exact absurd trivial apart
  have survey : Avoids GenerationError.namesTwice (Survey.ofReader overrides r) :=
    Walk.Keeps.through_avoids (P := fun _ => True) ⟨fun _ _ _ => trivial, fun _ _ => trivial⟩
      trivial (fun s e _ => avoids_map some (Survey.start_avoids overrides s e))
      (fun _ _ _ => avoids_ok _) read
  refine avoids_bind survey fun s _ => avoids_bind ?_ fun _ _ => avoids_ok _
  exact (Builder.walk_keeps (fun _ => Builder.entered_treesInOrder)
    Builder.left_treesInOrder).through_avoids (Builder.treesInOrder_ofTable ⟨s.table, overrides⟩)
    (fun b e _ => Builder.start_avoids _ b e) (fun _ _ hb => Builder.finish_avoids hb) read

end EnumRegistry
