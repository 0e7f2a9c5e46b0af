import Mathlib.Data.List.Count
import EnumRegistry.Symbol
import EnumRegistry.Proofs.Classification.Path
import EnumRegistry.Proofs.Classification.PreOrder

/-!
Symbols of a model. Types come first, then tree by tree the nodes that have a symbol, each once and
behind those above it; and every symbol is placed where its node's parent is.
-/

namespace EnumRegistry

/-! ## What comes before what -/

/-- In a list without repetition, what comes before a second comes before all behind that. -/
theorem pair_sublist_trans {α : Type} {l : List α} {a b c : α} (nodup : l.Nodup)
    (first : [a, b].Sublist l) (second : [b, c].Sublist l) : [a, c].Sublist l := by
  obtain ⟨before, behind, rfl, ha, hb⟩ := List.cons_sublist_iff.mp first
  obtain ⟨before', behind', same, hb', hc⟩ := List.cons_sublist_iff.mp second
  have apart : before.Disjoint behind := List.disjoint_of_nodup_append nodup
  rcases List.append_eq_append_iff.mp same with ⟨more, rfl, rfl⟩ | ⟨more, rfl, rfl⟩
  · rw [← List.append_assoc]
    exact (List.singleton_sublist.mpr (List.mem_append_left _ ha)).append hc
  · exact absurd (List.singleton_sublist.mp hb) (apart (List.mem_append_left _ hb'))

namespace ClassificationTree

variable {t : ClassificationTree}

namespace Linked

theorem nodup_preOrder (h : t.Linked) : t.preOrder.Nodup :=
  h.preOrder_perm.nodup_iff.mpr List.nodup_range

/-- The walk down comes to a node after all that stand above it. -/
theorem ancestor_sublist (h : t.Linked) {id a : Nat} (above : a ∈ t.ancestors id) :
    [a, id].Sublist t.preOrder := by
  induction id using Nat.strongRecOn with
  | ind id ih =>
    cases hp : t.parent? id with
    | none =>
      rw [ancestors_of_root hp] at above
      cases above
    | some p =>
      obtain ⟨below, inside⟩ := parent?_lt h.toWellFormed hp
      have child : id ∈ t.childrenOf (some p) := hp ▸ mem_childrenOf_parent? h.toWellFormed inside
      have last : [p, id].Sublist t.preOrder :=
        ((List.singleton_sublist.mpr child).cons_cons p).trans
          (h.family_sublist (Nat.lt_trans below inside))
      rw [ancestors_of_child h.toWellFormed hp] at above
      rcases List.mem_cons.mp above with rfl | above
      · exact last
      · exact pair_sublist_trans h.nodup_preOrder (ih p below above) last

end Linked

/-- A tree as attaching and naming nodes can make it, whichever nodes have names. -/
def Built (t : ClassificationTree) : Prop :=
  ∃ hierarchy uid changes, t = after { hierarchy, uid } changes

theorem Built.linked (h : t.Built) : t.Linked := by
  obtain ⟨hierarchy, uid, changes, rfl⟩ := h
  exact linked_after (linked_new hierarchy uid) changes

/-- A node that has a symbol of its own. -/
def hasSymbol (t : ClassificationTree) (id : Nat) : Bool :=
  t.nodes[id]?.any fun n => !n.level.isPathOnly

end ClassificationTree

/-! ## Symbols -/

/-- The namespace that a body belongs in. -/
def SymbolBody.segments : SymbolBody → List String
  | enumeration _ => ["enumerations"]
  | bitfield _ => ["bitfields"]
  | dictionary _ => ["dictionaries"]
  | classification t id => t.hierarchy.package :: t.pathAbove id

namespace Symbol

variable {t : ClassificationTree}

theorem ofNode?_body (t : ClassificationTree) (id : Nat) :
    (ofNode? t id).map (·.body) = if t.hasSymbol id then some (.classification t id) else none := by
  unfold ofNode? ClassificationTree.hasSymbol
  cases t.nodes[id]? with
  | none => rfl
  | some n =>
    change Option.map _ (if n.level.isPathOnly then none else some _) =
      if !n.level.isPathOnly then _ else _
    cases n.level.isPathOnly <;> rfl

/-- The symbols of a tree are those of its nodes, in the order of the walk down. -/
theorem ofTree_bodies (t : ClassificationTree) :
    (ofTree t).map (·.body) = (t.preOrder.filter t.hasSymbol).map (.classification t) := by
  rw [ofTree, List.map_filterMap, ← List.filterMap_eq_map, List.filterMap_filter]
  apply List.filterMap_congr
  intro id _
  exact ofNode?_body t id

theorem ofTree_count (h : t.Linked) (id : Nat) :
    ((ofTree t).map (·.body)).count (.classification t id) = if t.hasSymbol id then 1 else 0 := by
  have injective : Function.Injective (SymbolBody.classification t) := by
    intro a b same
    exact (SymbolBody.classification.inj same).2
  rw [ofTree_bodies, List.count_map_of_injective _ _ injective]
  cases shown : t.hasSymbol id with
  | true =>
    have inside : id < t.size := by
      obtain ⟨n, hn, -⟩ := (Option.any_eq_true _ _).mp shown
      exact ClassificationTree.lt_size_of_getElem? hn
    rw [List.count_filter shown, h.count_preOrder, if_pos inside, if_pos rfl]
  | false =>
    rw [if_neg Bool.false_ne_true, List.count_eq_zero]
    intro member
    rw [(List.mem_filter.mp member).2] at shown
    cases shown

theorem segments_of_mem_ofTree (h : t.WellFormed) {s : Symbol} (hs : s ∈ ofTree t) :
    s.segments = s.body.segments := by
  obtain ⟨id, -, made⟩ := List.mem_filterMap.mp hs
  obtain ⟨n, -, made⟩ := Option.bind_eq_some_iff.mp made
  split at made
  · cases made
  · cases made
    exact ClassificationTree.namespaceOf_eq_pathAbove h id

end Symbol

/-- The symbols of a model in their order and in their namespaces. -/
structure Model.Listed (m : Model) : Prop where
  /-- The types come first, each once, and then the trees one after the other. -/
  order : ∃ types, m.symbols = types ++ m.trees.flatMap Symbol.ofTree ∧
    types.map (·.body) = m.enumerations.map .enumeration ++ m.bitfields.map .bitfield ++
      m.dictionaries.map .dictionary
  nodes : ∀ t ∈ m.trees,
    (Symbol.ofTree t).map (·.body) = (t.preOrder.filter t.hasSymbol).map (.classification t)
  /-- A node that gives more than a path segment has one symbol, any other none. -/
  once : ∀ t ∈ m.trees, ∀ (id : Nat) (n : ClassificationNode), t.nodes[id]? = some n →
    ((Symbol.ofTree t).map (·.body)).count (.classification t id) =
      if n.level.isPathOnly then 0 else 1
  above_first : ∀ t ∈ m.trees, ∀ id, ∀ a ∈ t.ancestors id, ∀ s s', Symbol.ofNode? t a = some s →
    Symbol.ofNode? t id = some s' → [s, s'].Sublist (Symbol.ofTree t)
  namespaces : ∀ s ∈ m.symbols, s.segments = s.body.segments

/-- In every tree the path of a node, its codes and its namespace are those of its parent with the
node's own behind them, whichever nodes have names. In every model each type has one symbol, in the
order of the model, and behind the types each node that is no mere path segment has one, tree by
tree in the order of the walk down and so behind those above it, all of them in these namespaces. -/
theorem symbols_follow_paths :
    (∀ t : ClassificationTree, t.Built → t.PathsGrow) ∧
      ∀ m : Model, (∀ t ∈ m.trees, t.Built) → m.Listed := by
  refine ⟨fun t built => built.linked.pathsGrow, fun m built => ?_⟩
  constructor
  · refine ⟨_, rfl, ?_⟩
    simp only [List.map_append, List.map_map]
    rfl
  · exact fun t _ => Symbol.ofTree_bodies t
  · intro t ht id n hn
    rw [Symbol.ofTree_count (built t ht).linked, ClassificationTree.hasSymbol, hn, Option.any_some]
    cases n.level.isPathOnly <;> rfl
  · intro t ht id a above s s' first second
    have listed := ((built t ht).linked.ancestor_sublist above).filterMap (Symbol.ofNode? t)
    simpa [Symbol.ofTree, first, second] using listed
  · intro s hs
    simp only [Model.symbols, List.mem_append, List.mem_map, List.mem_flatMap] at hs
    rcases hs with ((⟨e, -, rfl⟩ | ⟨b, -, rfl⟩) | ⟨d, -, rfl⟩) | ⟨t, ht, hs⟩
    · rfl
    · rfl
    · rfl
    · exact Symbol.segments_of_mem_ofTree (built t ht).linked.toWellFormed hs

/-- A tree in which three of six nodes have names, and one attachment was refused. -/
def fleet : ClassificationTree :=
  .after { hierarchy := .entityTypes, uid := "30" } [
    .attach none { level := .country, value := 225, description := "United States" },
    .name 0 "United_States",
    .attach (some 0) { level := .kind, value := 1, description := "Platform" },
    .attach (some 0) { level := .category, value := 1, description := "Tank" },
    .attach (some 1) { level := .domain, value := 3, description := "Surface" },
    .attach (some 2) { level := .category, value := 1, description := "Carrier" },
    .attach (some 2) { level := .category, value := 2, description := "Cruiser" },
    .name 4 "Cruiser",
    .attach (some 3) { level := .subCategory, value := 7, description := "Nimitz", uid := "9" },
    .name 5 "Nimitz_Class"]

def fleetModel : Model where
  dictionaries := [⟨"8", "Flags", "Flags", []⟩]
  trees := [fleet]

theorem fleet_listed : fleet.Built ∧ fleet.PathsGrow ∧ (∀ t ∈ fleetModel.trees, t.Built) ∧
    fleetModel.Listed ∧ fleetModel.symbols.map (fun s => (s.segments, s.name)) =
      [(["dictionaries"], "Flags"),
        (["entities", "UnitedStates", "Kind1", "Domain3"], "Category1"),
        (["entities", "UnitedStates", "Kind1", "Domain3", "Category1"], "Nimitz_Class"),
        (["entities", "UnitedStates", "Kind1", "Domain3"], "Cruiser")] := by
  have built : fleet.Built := ⟨_, _, _, rfl⟩
  have all : ∀ t ∈ fleetModel.trees, t.Built := by
    intro t ht
    exact List.mem_singleton.mp ht ▸ built
  exact ⟨built, symbols_follow_paths.1 fleet built, all, symbols_follow_paths.2 fleetModel all,
    by decide +kernel⟩

end EnumRegistry
