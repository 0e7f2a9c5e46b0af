import Mathlib.Data.List.Nodup
import Mathlib.Data.Option.Basic
import EnumRegistry.Proofs.Building.SiblingNames
import EnumRegistry.Proofs.Classification.Path

/-!
Nodes with one path. Siblings are told apart before their names lose the underscores, so two names
may become one segment. Just below such siblings two nodes can have one path, or their children one
namespace.
-/

namespace EnumRegistry

namespace ClassificationTree

variable {t : NameTables} {tree : ClassificationTree} {scope : Option Nat → NameScope}

/-- A name as it stands in a path. -/
def bare (name : String) : List Char := name.toList.filter (· != '_')

/-- Siblings whose names differ, also where case does not count, but are one without underscores. -/
structure Resemble (tree : ClassificationTree) (x y : Nat) : Prop where
  siblings : tree.parent? x = tree.parent? y
  named : ∃ first second, tree.name? x = some first ∧ tree.name? y = some second ∧
    lookupKey first ≠ lookupKey second ∧ bare first = bare second

/-! ## Siblings -/

theorem segment_of_name {x : Nat} {name : String} (named : tree.name? x = some name) :
    tree.segment x = String.ofList (bare name) := by
  obtain ⟨n, hn, own⟩ := Option.bind_eq_some_iff.mp named
  rw [segment, hn, Option.map_some, Option.getD_some, nodeSegment, own]
  rfl

/-- Where no node waits for its name, siblings have names that differ by more than case. -/
theorem Settled.names_apart (h : Settled t tree scope []) {x y : Nat} (hx : x < tree.size)
    (hy : y < tree.size) (siblings : tree.parent? x = tree.parent? y) (apart : x ≠ y) :
    ∃ first second, tree.name? x = some first ∧ tree.name? y = some second ∧
      lookupKey first ≠ lookupKey second := by
  obtain ⟨names, taken, claims, named⟩ := h.namedInOrder (tree.parent? x)
  have inFamily : x ∈ tree.childrenOf (tree.parent? x) := mem_childrenOf_parent? h.wellFormed hx
  have inFamily' : y ∈ tree.childrenOf (tree.parent? x) :=
    siblings ▸ mem_childrenOf_parent? h.wellFormed hy
  have given {z : Nat} (hz : z ∈ tree.childrenOf (tree.parent? x)) :
      ∃ name, tree.name? z = some name := by
    have member : tree.name? z ∈ names.map some := named ▸ List.mem_map_of_mem hz
    obtain ⟨name, -, own⟩ := List.mem_map.mp member
    exact ⟨name, own.symm⟩
  have keys : ((tree.childrenOf (tree.parent? x)).map
      fun z => (tree.name? z).map lookupKey).Nodup := by
    have same := congrArg (List.map (Option.map lookupKey)) named
    simp only [List.map_map, Function.comp_def, Option.map_some] at same
    rw [same, ← Function.comp_def some lookupKey, ← List.map_map]
    exact (NameScope.claimAll_nodup claims).map (Option.some_injective _)
  obtain ⟨first, hfirst⟩ := given inFamily
  obtain ⟨second, hsecond⟩ := given inFamily'
  refine ⟨first, second, hfirst, hsecond, fun same => apart ?_⟩
  apply List.inj_on_of_nodup_map keys inFamily inFamily'
  rw [hfirst, hsecond, Option.map_some, Option.map_some, same]

/-- Siblings with one segment resemble each other. -/
theorem Settled.resemble (h : Settled t tree scope []) {x y : Nat} (hx : x < tree.size)
    (hy : y < tree.size) (siblings : tree.parent? x = tree.parent? y) (apart : x ≠ y)
    (same : tree.segment x = tree.segment y) : tree.Resemble x y := by
  obtain ⟨first, second, hfirst, hsecond, keys⟩ := h.names_apart hx hy siblings apart
  rw [segment_of_name hfirst, segment_of_name hsecond, String.ofList_inj] at same
  exact ⟨siblings, first, second, hfirst, hsecond, keys, same⟩

theorem Resemble.lt_size {x y : Nat} (h : tree.Resemble x y) : x < tree.size := by
  obtain ⟨first, -, hfirst, -⟩ := h.named
  obtain ⟨n, hn, -⟩ := Option.bind_eq_some_iff.mp hfirst
  exact lt_size_of_getElem? hn

theorem Resemble.symm {x y : Nat} (h : tree.Resemble x y) : tree.Resemble y x := by
  obtain ⟨first, second, hfirst, hsecond, keys, same⟩ := h.named
  exact ⟨h.siblings.symm, second, first, hsecond, hfirst, keys.symm, same.symm⟩

theorem Resemble.apart {x y : Nat} (h : tree.Resemble x y) : x ≠ y := by
  rintro rfl
  obtain ⟨first, second, hfirst, hsecond, keys, -⟩ := h.named
  cases hfirst.symm.trans hsecond
  exact keys rfl

/-- Siblings that resemble each other have one path. -/
theorem Resemble.path_eq (wellFormed : tree.WellFormed) {x y : Nat} (h : tree.Resemble x y) :
    tree.path x = tree.path y := by
  obtain ⟨first, second, hfirst, hsecond, -, same⟩ := h.named
  have segments : tree.segment x = tree.segment y := by
    rw [segment_of_name hfirst, segment_of_name hsecond, same]
  have above : tree.pathAbove x = tree.pathAbove y := by
    rw [pathAbove, pathAbove, h.siblings]
  rw [path_eq_pathAbove wellFormed, path_eq_pathAbove wellFormed, above, segments]

/-! ## Nodes anywhere in a tree -/

theorem mem_trail_self (tree : ClassificationTree) (id : Nat) : id ∈ tree.trail id := by
  rw [trail, List.mem_reverse]
  exact List.mem_cons_self

theorem mem_trail_of_parent (wellFormed : tree.WellFormed) {id p x : Nat}
    (hp : tree.parent? id = some p) (hx : x ∈ tree.trail p) : x ∈ tree.trail id := by
  rw [trail_of_child wellFormed hp]
  exact List.mem_append_left _ hx

/-- What stands above two nodes that are not siblings has one path just if their parents have. -/
theorem parents_of_pathAbove_eq {a b : Nat} (apart : tree.parent? a ≠ tree.parent? b)
    (same : tree.pathAbove a = tree.pathAbove b) :
    ∃ p q, tree.parent? a = some p ∧ tree.parent? b = some q ∧ p ≠ q ∧
      tree.path p = tree.path q := by
  unfold pathAbove at same
  cases hp : tree.parent? a with
  | none =>
    cases hq : tree.parent? b with
    | none => exact absurd (hp.trans hq.symm) apart
    | some q =>
      rw [hp, hq] at same
      exact absurd same.symm (path_ne_nil tree q)
  | some p =>
    cases hq : tree.parent? b with
    | none =>
      rw [hp, hq] at same
      exact absurd same (path_ne_nil tree p)
    | some q =>
      rw [hp, hq] at same apart
      exact ⟨p, q, rfl, rfl, fun one => apart (congrArg some one), same⟩

/-- Two nodes with one path are two that resemble each other, or stand below two. -/
theorem Settled.exists_resemble (h : Settled t tree scope []) {a b : Nat} (ha : a < tree.size)
    (hb : b < tree.size) (apart : a ≠ b) (same : tree.path a = tree.path b) :
    ∃ x ∈ tree.trail a, ∃ y ∈ tree.trail b, tree.Resemble x y := by
  have wellFormed := h.wellFormed
  induction a using Nat.strongRecOn generalizing b with
  | ind a ih =>
    rw [path_eq_pathAbove wellFormed a, path_eq_pathAbove wellFormed b] at same
    obtain ⟨above, own⟩ := List.append_inj' same rfl
    by_cases siblings : tree.parent? a = tree.parent? b
    · exact ⟨a, mem_trail_self tree a, b, mem_trail_self tree b,
        h.resemble ha hb siblings apart (List.cons.inj own).1⟩
    · obtain ⟨p, q, hp, hq, other, paths⟩ := parents_of_pathAbove_eq siblings above
      have below := (parent?_lt wellFormed hp).1
      have below' := (parent?_lt wellFormed hq).1
      obtain ⟨x, hx, y, hy, resemble⟩ :=
        ih p below (Nat.lt_trans below ha) (Nat.lt_trans below' hb) other paths
      exact ⟨x, mem_trail_of_parent wellFormed hp hx, y, mem_trail_of_parent wellFormed hq hy,
        resemble⟩

end ClassificationTree

open ClassificationTree

/-- In a tree of a resolved registry two nodes have one path only where the ways down to them lead
through two siblings whose names differ, and not in case alone, but are one without underscores;
and such siblings have one path. So all paths differ just if there are no such siblings, and nodes
with different parents stand in one namespace only below two of them. -/
theorem paths_apart {overrides : Overrides} {ceiling : Nat} {document : List UInt8}
    {res : Resolution}
    (resolved : Resolution.ofReader overrides ceiling (.ofBytes document) = .ok res)
    {tree : ClassificationTree} (member : tree ∈ res.model.trees) :
    (∀ a < tree.size, ∀ b < tree.size, a ≠ b → tree.path a = tree.path b →
      ∃ x ∈ tree.trail a, ∃ y ∈ tree.trail b, tree.Resemble x y) ∧
    (∀ x y, tree.Resemble x y → x ≠ y ∧ tree.path x = tree.path y) ∧
    ((∀ a < tree.size, ∀ b < tree.size, tree.path a = tree.path b → a = b) ↔
      ∀ x y, ¬ tree.Resemble x y) ∧
    ∀ a < tree.size, ∀ b < tree.size, tree.parent? a ≠ tree.parent? b →
      tree.namespaceOf a = tree.namespaceOf b →
        ∃ x ∈ tree.ancestors a, ∃ y ∈ tree.ancestors b, tree.Resemble x y := by
  obtain ⟨scope, settled⟩ := Resolution.settled_trees resolved tree member
  have wellFormed := settled.wellFormed
  have collide (x y : Nat) (h : tree.Resemble x y) : x ≠ y ∧ tree.path x = tree.path y :=
    ⟨h.apart, h.path_eq wellFormed⟩
  refine ⟨fun a ha b hb => settled.exists_resemble ha hb, collide, ⟨?_, ?_⟩, ?_⟩
  · intro injective x y h
    exact h.apart (injective x h.lt_size y h.symm.lt_size (h.path_eq wellFormed))
  · intro none a ha b hb same
    by_contra apart
    obtain ⟨x, -, y, -, h⟩ := settled.exists_resemble ha hb apart same
    exact none x y h
  · intro a ha b hb apart same
    rw [namespaceOf_eq_pathAbove wellFormed, namespaceOf_eq_pathAbove wellFormed] at same
    obtain ⟨p, q, hp, hq, other, paths⟩ := parents_of_pathAbove_eq apart (List.cons.inj same).2
    have below := (parent?_lt wellFormed hp).1
    have below' := (parent?_lt wellFormed hq).1
    have found :=
      settled.exists_resemble (Nat.lt_trans below ha) (Nat.lt_trans below' hb) other paths
    simpa only [ancestors_of_child wellFormed hp, ancestors_of_child wellFormed hq, trail,
      List.mem_reverse] using found

/-- Two categories whose names differ in a blank, each with one subcategory. -/
def lightTanksDocument : String :=
  "<cet uid=\"30\"><entity country=\"5\" kind=\"1\" domain=\"1\">" ++
    "<category value=\"1\" name=\"Light Tank\">" ++
    "<subcategory value=\"1\" name=\"Scout\"/></category>" ++
    "<category value=\"2\" name=\"LightTank\">" ++
    "<subcategory value=\"2\" name=\"Scout\"/></category></entity></cet>"

theorem light_tanks_resolved : ∃ res tree,
    Resolution.ofString {} 4096 lightTanksDocument = .ok res ∧ tree ∈ res.model.trees ∧
    tree.size = 7 ∧ tree.parent? 4 = some 3 ∧ tree.parent? 6 = some 5 ∧
    tree.path 3 = tree.path 5 ∧ tree.path 4 = tree.path 6 ∧
    tree.namespaceOf 4 = tree.namespaceOf 6 := by
  have run : (Resolution.ofString {} 4096 lightTanksDocument).toOption.map (fun res =>
      res.model.trees.map fun tree =>
        (tree.size, [3, 5, 4, 6].map fun id => (tree.parent? id, tree.name? id))) =
      some [(7, [(some 2, some "Light_Tank"), (some 2, some "LightTank"),
        (some 3, some "Scout"), (some 5, some "Scout")])] := by decide +kernel
  obtain ⟨res, resolved, facts⟩ := exists_ok_of_map run
  obtain ⟨tree, single, facts⟩ := List.map_eq_singleton_iff.mp facts
  simp only [List.map_cons, List.map_nil, Prod.mk.injEq, List.cons.injEq, and_true] at facts
  obtain ⟨size, ⟨first, firstName⟩, ⟨second, secondName⟩, ⟨below, name⟩, below', name'⟩ := facts
  have member : tree ∈ res.model.trees := by simp [single]
  obtain ⟨scope, settled⟩ := Resolution.settled_trees resolved tree member
  have wellFormed := settled.wellFormed
  have resemble : tree.Resemble 3 5 :=
    ⟨first.trans second.symm, _, _, firstName, secondName, by decide, by decide⟩
  have paths := resemble.path_eq wellFormed
  refine ⟨res, tree, resolved, member, size, below, below', paths, ?_, ?_⟩
  · rw [path_of_child wellFormed below, path_of_child wellFormed below', paths,
      segment_of_name name, segment_of_name name']
  · rw [namespaceOf_eq_pathAbove wellFormed, namespaceOf_eq_pathAbove wellFormed, pathAbove, below,
      pathAbove, below']
    exact congrArg _ paths

/-- Two categories have one path, and so have the nodes below them, which stand in one namespace
though their parents differ. -/
theorem light_tanks_share_path : ∃ res tree,
    Resolution.ofString {} 4096 lightTanksDocument = .ok res ∧ tree ∈ res.model.trees ∧
    (∃ a < tree.size, ∃ b < tree.size, a ≠ b ∧ tree.path a = tree.path b) ∧
    ∃ a < tree.size, ∃ b < tree.size, tree.parent? a ≠ tree.parent? b ∧
      tree.namespaceOf a = tree.namespaceOf b := by
  obtain ⟨res, tree, resolved, member, size, first, second, above, -, placed⟩ :=
    light_tanks_resolved
  refine ⟨res, tree, resolved, member, ⟨3, by omega, 5, by omega, by decide, above⟩,
    4, by omega, 6, by omega, ?_, placed⟩
  rw [first, second]
  decide

theorem light_tanks_resemble : ∃ res tree,
    Resolution.ofString {} 4096 lightTanksDocument = .ok res ∧ tree ∈ res.model.trees ∧
    4 < tree.size ∧ 6 < tree.size ∧ tree.path 4 = tree.path 6 ∧
    (∃ x ∈ tree.trail 4, ∃ y ∈ tree.trail 6, tree.Resemble x y) ∧
    tree.parent? 4 ≠ tree.parent? 6 ∧ tree.namespaceOf 4 = tree.namespaceOf 6 ∧
    ∃ x ∈ tree.ancestors 4, ∃ y ∈ tree.ancestors 6, tree.Resemble x y := by
  obtain ⟨res, tree, resolved, member, size, first, second, -, paths, placed⟩ :=
    light_tanks_resolved
  have others : tree.parent? 4 ≠ tree.parent? 6 := by
    rw [first, second]
    decide
  have resolved' : Resolution.ofReader {} 4096 (.ofBytes lightTanksDocument.toUTF8.toList) =
      .ok res := resolved
  obtain ⟨resemble, -, -, resemble_above⟩ := paths_apart resolved' member
  exact ⟨res, tree, resolved, member, by omega, by omega, paths,
    resemble 4 (by omega) 6 (by omega) (by decide) paths, others, placed,
    resemble_above 4 (by omega) 6 (by omega) others placed⟩

end EnumRegistry
