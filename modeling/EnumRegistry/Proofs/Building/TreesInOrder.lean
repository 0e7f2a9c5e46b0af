import EnumRegistry.Proofs.Building.Shape

/-!
The trees of a builder at every event: the open one is sound, the nodes whose elements are open
waiting for their names, and in the finished ones nothing waits.
-/

namespace EnumRegistry

open ClassificationTree

namespace Builder

/-- The names in the open tree and in the finished ones are in order. -/
structure TreesInOrder (t : NameTables) (b : Builder) : Prop where
  nested : b.Nested
  growing : ∀ f, b.tree = some f → f.Sound t (openNodes b.opened)
  finished : ∀ tree ∈ b.model.trees, ∃ scope, Settled t tree scope []

theorem treesInOrder_ofTable (t : NameTables) : TreesInOrder t (ofTable t.types) where
  nested := nested_ofTable t.types
  growing f h := by simp [ofTable] at h
  finished := by simp [ofTable]

theorem entered_treesInOrder {t : NameTables} {b b' : Builder} {e : Element}
    (hb : b.TreesInOrder t) (h : Entered t b e b') : b'.TreesInOrder t := by
  refine ⟨nested_entered hb.nested h, ?_, ?_⟩
  · intro f hf
    cases h with
    | type idle =>
      cases (isIdle_eq_true.mp idle).2.symm.trans hf
    | row current =>
      cases (hb.nested.inType current).2.symm.trans hf
    | tree idle =>
      cases hf
      change TreeFrame.Sound t _ (openNodes b.opened)
      rw [openNodes_plain (hb.nested.plain_of_idle idle)]
      exact TreeFrame.sound_new t _ _
    | path tree kind made =>
      cases hf
      exact TreeFrame.sound_openPath (hb.growing _ tree) made
    | node tree levelled attached =>
      cases hf
      exact TreeFrame.sound_openNode (hb.growing _ tree)
        (ElementKind.isPathOnly_of_level? levelled) attached
    | other => exact hb.growing f hf
  · cases h <;> exact hb.finished

theorem left_treesInOrder {t : NameTables} {ceiling : Nat} {b b' : Builder}
    (hb : b.TreesInOrder t) (h : Left t ceiling b b') : b'.TreesInOrder t := by
  refine ⟨nested_left hb.nested h, ?_, ?_⟩
  · intro f hf
    cases h with
    | outside => exact hb.growing f hf
    | other opened =>
      have sound := hb.growing f hf
      rwa [opened] at sound
    | row opened current | enumeration opened current | bitfield opened current
    | dictionary opened current =>
      cases (hb.nested.inType current).2.symm.trans hf
    | node opened tree named =>
      cases hf
      have sound := hb.growing _ tree
      rw [opened] at sound
      obtain ⟨cursor, hcursor, -⟩ := hb.nested.node_cursor opened tree
      exact TreeFrame.sound_nameNode sound hcursor named
    | path opened tree =>
      cases hf
      have sound := hb.growing _ tree
      obtain ⟨last, hcursor, inside⟩ := hb.nested.path_cursor opened tree
      have nothing := List.sublist_nil.mp inside.openNodes_sublist
      rw [opened, openNodes_cons_path, nothing] at sound
      change TreeFrame.Sound t _ (openNodes _)
      rw [nothing]
      exact TreeFrame.sound_leave sound hcursor
    | tree => cases hf
    | noType opened inType none => exact absurd none (hb.nested.current_of_opened opened inType)
    | noTree opened inTree none => exact absurd none (hb.nested.tree_of_opened opened inTree)
  · cases h with
    | tree opened tree =>
      have sound := hb.growing _ tree
      have nothing := List.sublist_nil.mp ((hb.nested.tree_cursor opened tree).1 ▸ sound.waiting)
      rw [nothing] at sound
      intro finished hmem
      rcases List.mem_append.mp hmem with hmem | hmem
      · exact hb.finished finished hmem
      · obtain rfl := List.mem_singleton.mp hmem
        exact ⟨_, sound.settled⟩
    | _ => exact hb.finished

theorem ofReader_treesInOrder {t : NameTables} {ceiling : Nat} {r : Reader} {b : Builder}
    (h : ofReader t ceiling r = .ok b) : b.TreesInOrder t :=
  (walk_keeps (fun _ => entered_treesInOrder) left_treesInOrder).run
    (treesInOrder_ofTable t) (Walk.through_eq_ok.mp h).2

end Builder

end EnumRegistry
