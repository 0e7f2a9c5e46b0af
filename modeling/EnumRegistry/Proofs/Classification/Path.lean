import EnumRegistry.Classification.Path
import EnumRegistry.Proofs.Classification.Tree

/-!
Paths in a classification tree. The way down to a node is the way down to its parent and the node
itself, so paths, codes and namespaces grow by one entry from each node to its children.
-/

namespace EnumRegistry.ClassificationTree

variable {t : ClassificationTree} {id p : Nat}

theorem ancestors_of_root (hp : t.parent? id = none) : t.ancestors id = [] := by
  change t.climb t.size (t.parent? id) = []
  rw [hp]
  cases t.size <;> rfl

/-- Above a node stand its parent and what stands above that. -/
theorem ancestors_of_child (h : t.WellFormed) (hp : t.parent? id = some p) :
    t.ancestors id = p :: t.ancestors p := by
  obtain ⟨below, inside⟩ := parent?_lt h hp
  obtain ⟨steps, size⟩ : ∃ n, t.size = n + 1 := ⟨t.size - 1, by omega⟩
  have above (q : Nat) (hq : t.parent? p = some q) : q < p := (parent?_lt h hq).1
  calc t.ancestors id
      = t.climb (steps + 1) (some p) := by rw [← hp, ← size]; rfl
    _ = p :: t.climb steps (t.parent? p) := rfl
    _ = p :: t.climb t.size (t.parent? p) := by
      congr 1
      exact climb_enough h (fun q hq => by have := above q hq; omega)
        (fun q hq => by have := above q hq; omega)

theorem trail_of_root (hp : t.parent? id = none) : t.trail id = [id] := by
  rw [trail, ancestors_of_root hp]
  rfl

theorem trail_of_child (h : t.WellFormed) (hp : t.parent? id = some p) :
    t.trail id = t.trail p ++ [id] := by
  rw [trail, ancestors_of_child h hp, List.reverse_cons, trail]

theorem depth_of_root (hp : t.parent? id = none) : t.depth id = 1 := by
  rw [depth, ancestors_of_root hp]
  rfl

theorem depth_of_child (h : t.WellFormed) (hp : t.parent? id = some p) :
    t.depth id = t.depth p + 1 := by
  rw [depth, ancestors_of_child h hp]
  rfl

theorem path_of_root (hp : t.parent? id = none) : t.path id = [t.segment id] := by
  rw [path, trail_of_root hp]
  rfl

theorem path_of_child (h : t.WellFormed) (hp : t.parent? id = some p) :
    t.path id = t.path p ++ [t.segment id] := by
  rw [path, trail_of_child h hp, List.map_append]
  rfl

theorem length_path (t : ClassificationTree) (id : Nat) : (t.path id).length = t.depth id := by
  rw [path, List.length_map, trail, List.length_reverse, List.length_cons, depth]

theorem codes_of_root (hp : t.parent? id = none) : t.codes id = [t.code id] := by
  rw [codes, trail_of_root hp]
  rfl

theorem codes_of_child (h : t.WellFormed) (hp : t.parent? id = some p) :
    t.codes id = t.codes p ++ [t.code id] := by
  rw [codes, trail_of_child h hp, List.map_append]
  rfl

theorem length_codes (t : ClassificationTree) (id : Nat) : (t.codes id).length = t.depth id := by
  rw [codes, List.length_map, trail, List.length_reverse, List.length_cons, depth]

theorem path_ne_nil (t : ClassificationTree) (id : Nat) : t.path id ≠ [] := by
  rw [path, trail, ne_eq, List.map_eq_nil_iff, List.reverse_eq_nil_iff]
  exact List.cons_ne_nil _ _

/-- The path of the parent; nothing stands above a root. -/
def pathAbove (t : ClassificationTree) (id : Nat) : List String :=
  match t.parent? id with
  | some p => t.path p
  | none => []

theorem path_eq_pathAbove (h : t.WellFormed) (id : Nat) :
    t.path id = t.pathAbove id ++ [t.segment id] := by
  rw [pathAbove]
  cases hp : t.parent? id with
  | none => rw [path_of_root hp, List.nil_append]
  | some p => rw [path_of_child h hp]

theorem namespaceOf_eq_pathAbove (h : t.WellFormed) (id : Nat) :
    t.namespaceOf id = t.hierarchy.package :: t.pathAbove id := by
  rw [namespaceOf, path_eq_pathAbove h, List.dropLast_concat]

/-- Paths, codes and namespaces that grow with the way down from a root. -/
structure PathsGrow (t : ClassificationTree) : Prop where
  path_length : ∀ id < t.size, (t.path id).length = t.depth id
  codes_length : ∀ id < t.size, (t.codes id).length = t.depth id
  root : ∀ (id : Nat) (n : ClassificationNode), t.nodes[id]? = some n → n.parent = none →
    t.depth id = 1 ∧ t.path id = [t.segment id] ∧ t.codes id = [n.value] ∧
      t.namespaceOf id = [t.hierarchy.package]
  child : ∀ (id p : Nat) (n : ClassificationNode), t.nodes[id]? = some n → n.parent = some p →
    t.depth id = t.depth p + 1 ∧ t.path id = t.path p ++ [t.segment id] ∧
      t.codes id = t.codes p ++ [n.value] ∧ t.namespaceOf id = t.hierarchy.package :: t.path p

theorem WellFormed.pathsGrow (h : t.WellFormed) : t.PathsGrow where
  path_length id _ := length_path t id
  codes_length id _ := length_codes t id
  root id n hn top := by
    have hp : t.parent? id = none := by rw [parent?, hn, Option.bind_some, top]
    have value : t.code id = n.value := by rw [code, hn]; rfl
    refine ⟨depth_of_root hp, path_of_root hp, value ▸ codes_of_root hp, ?_⟩
    rw [namespaceOf_eq_pathAbove h, pathAbove, hp]
  child id p n hn above := by
    have hp : t.parent? id = some p := by rw [parent?, hn, Option.bind_some, above]
    have value : t.code id = n.value := by rw [code, hn]; rfl
    refine ⟨depth_of_child h hp, path_of_child h hp, value ▸ codes_of_child h hp, ?_⟩
    rw [namespaceOf_eq_pathAbove h, pathAbove, hp]

end EnumRegistry.ClassificationTree
