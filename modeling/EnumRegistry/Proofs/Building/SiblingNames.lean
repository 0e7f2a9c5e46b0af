import EnumRegistry.Proofs.Building.NamedOnce
import EnumRegistry.Proofs.Resolution

/-!
Sibling names of a resolved registry. In every tree and under every parent, the children have the
names that their base names claim in order in an empty scope, so the names under one parent do not
depend on what stands under another.
-/

namespace EnumRegistry

namespace ClassificationTree

/-- What a node says, apart from its name and its place. -/
def outline (t : ClassificationTree) (id : Nat) : Option (Level × Int × String) :=
  t.nodes[id]?.map fun n => (n.level, n.value, n.description)

/-- A node with all above it, nearest first. -/
def standing (t : ClassificationTree) (id : Nat) : List (Option (Level × Int × String)) :=
  (id :: t.ancestors id).map t.outline

theorem ancestry_eq (t : ClassificationTree) (id : Nat) :
    TreeFrame.ancestry t id =
      ((t.ancestors id).map t.outline).filterMap fun o => o.map fun (_, _, text) => text := by
  rw [TreeFrame.ancestry, List.filterMap_map]
  apply List.filterMap_congr
  intro a _
  simp [outline, Option.map_map, Function.comp_def]

theorem code_eq (t : ClassificationTree) (id : Nat) :
    t.code id = ((t.outline id).map fun (_, value, _) => value).getD 0 := by
  simp [code, outline, Option.map_map, Function.comp_def]

theorem head?_ancestors {t : ClassificationTree} {id : Nat} (hid : id < t.size) :
    (t.ancestors id).head? = t.parent? id := by
  obtain ⟨size, hsize⟩ : ∃ k, t.size = k + 1 := ⟨t.size - 1, by omega⟩
  change (t.climb t.size (t.parent? id)).head? = _
  rw [hsize]
  cases t.parent? id <;> rfl

/-- Lists that look alike through one pair of functions do so through any pair it decides. -/
theorem map_eq_map_of {α β γ δ : Type} {f : α → γ} {g : β → γ} {F : α → δ} {G : β → δ}
    {xs : List α} {ys : List β} (h : xs.map f = ys.map g)
    (decides : ∀ x ∈ xs, ∀ y ∈ ys, f x = g y → F x = G y) : xs.map F = ys.map G := by
  induction xs generalizing ys with
  | nil =>
    cases ys with
    | nil => rfl
    | cons y ys => simp at h
  | cons x xs ih =>
    cases ys with
    | nil => simp at h
    | cons y ys =>
      simp only [List.map_cons, List.cons.injEq] at h ⊢
      obtain ⟨head, tail⟩ := h
      refine ⟨decides x (List.mem_cons_self ..) y (List.mem_cons_self ..) head, ih tail ?_⟩
      intro a ha b hb
      exact decides a (List.mem_cons_of_mem _ ha) b (List.mem_cons_of_mem _ hb)

/-- The base name of a node is decided by the node, the nodes above it and the tables. -/
theorem baseName_congr {t t' : NameTables} {tree tree' : ClassificationTree} {id id' : Nat}
    (hid : id < tree.size) (hid' : id' < tree'.size) (labels : t'.types.label? = t.types.label?)
    (overrides : t'.overrides = t.overrides) (hierarchy : tree'.hierarchy = tree.hierarchy)
    (uid : tree'.uid = tree.uid) (same : tree'.standing id' = tree.standing id) :
    baseName t' tree' id' = baseName t tree id := by
  obtain ⟨n, hn⟩ := getElem?_of_lt_size hid
  obtain ⟨n', hn'⟩ := getElem?_of_lt_size hid'
  simp only [standing, List.map_cons, List.cons.injEq] at same
  obtain ⟨here, above⟩ := same
  have parents : n'.parent.map tree'.code = n.parent.map tree.code := by
    have top {t : ClassificationTree} {id : Nat} {n : ClassificationNode} (hid : id < t.size)
        (hn : t.nodes[id]? = some n) : n.parent.map t.code =
          (((t.ancestors id).map t.outline).head?).map fun o =>
            (o.map fun (_, value, _) => value).getD 0 := by
      rw [List.head?_map, head?_ancestors hid, parent?, hn, Option.map_map]
      apply Option.map_congr
      intro p _
      exact code_eq t p
    rw [top hid hn, top hid' hn', above]
  have outlines : n'.level = n.level ∧ n'.value = n.value ∧ n'.description = n.description := by
    simpa [outline, hn, hn'] using here
  obtain ⟨level, value, description⟩ := outlines
  simp only [baseName, hn, hn', level, value, description, hierarchy, uid, overrides, parents,
    segmentBase, labels, ancestry_eq, above]

end ClassificationTree

open ClassificationTree

/-- In a resolved registry no node waits for its name. -/
theorem Resolution.settled_trees {overrides : Overrides} {ceiling : Nat} {r : Reader}
    {res : Resolution} (h : ofReader overrides ceiling r = .ok res) :
    ∀ tree ∈ res.model.trees, ∃ scope, Settled ⟨res.table, overrides⟩ tree scope [] := by
  obtain ⟨survey, builder, -, hbuilder, rfl⟩ := ofReader_eq_ok h
  exact (Builder.ofReader_treesInOrder hbuilder).finished

theorem namedInOrder_congr {t t' : NameTables} {tree tree' : ClassificationTree}
    {p p' : Option Nat} (h : NamedInOrder t tree p) (h' : NamedInOrder t' tree' p')
    (bases : (tree'.childrenOf p').map (baseName t' tree') =
      (tree.childrenOf p).map (baseName t tree)) :
    (tree'.childrenOf p').map tree'.name? = (tree.childrenOf p).map tree.name? := by
  obtain ⟨names, scope, hclaims, hnames⟩ := h
  obtain ⟨names', scope', hclaims', hnames'⟩ := h'
  rw [bases, hclaims, Except.ok.injEq, Prod.mk.injEq] at hclaims'
  rw [hnames, hnames', hclaims'.1]

/-- Children are named by claiming their base names in order in an empty scope, whatever stands
elsewhere in the registry, and no node is named twice. -/
theorem siblings_named_in_order (overrides : Overrides) (ceiling : Nat) (r : Reader) :
    (∀ id, Resolution.ofReader overrides ceiling r ≠
      .error (.registry (.tree (.nameAlreadySet id)))) ∧
    ∀ res, Resolution.ofReader overrides ceiling r = .ok res → ∀ tree ∈ res.model.trees,
      (∀ p, ∃ names scope,
        NameScope.claimAll {}
          ((tree.childrenOf p).map (baseName ⟨res.table, overrides⟩ tree)) = .ok (names, scope) ∧
        (tree.childrenOf p).map tree.name? = names.map some ∧ (names.map lookupKey).Nodup) ∧
      ∀ ceiling' r' res', Resolution.ofReader overrides ceiling' r' = .ok res' →
        res'.table.label? = res.table.label? → ∀ tree' ∈ res'.model.trees,
        tree'.hierarchy = tree.hierarchy → tree'.uid = tree.uid → ∀ p p',
        (tree'.childrenOf p').map tree'.standing = (tree.childrenOf p).map tree.standing →
        (tree'.childrenOf p').map tree'.name? = (tree.childrenOf p).map tree.name? := by
  refine ⟨fun id h => Resolution.ofReader_avoids _ _ _ _ h trivial, ?_⟩
  intro res h tree htree
  obtain ⟨scope, settled⟩ := Resolution.settled_trees h tree htree
  refine ⟨?_, ?_⟩
  · intro p
    obtain ⟨names, taken, hclaims, hnames⟩ := settled.namedInOrder p
    exact ⟨names, taken, hclaims, hnames, NameScope.claimAll_nodup hclaims⟩
  · intro ceiling' r' res' h' labels tree' htree' hierarchy uid p p' same
    obtain ⟨scope', settled'⟩ := Resolution.settled_trees h' tree' htree'
    apply namedInOrder_congr (settled.namedInOrder p) (settled'.namedInOrder p')
    exact map_eq_map_of same fun i hi j hj => baseName_congr
      (lt_size_of_mem_childrenOf settled.wellFormed hj)
      (lt_size_of_mem_childrenOf settled'.wellFormed hi) labels rfl hierarchy uid

/-- A registry with two categories that are called alike. -/
def tanksDocument : String :=
  "<r><cet uid=\"30\"><entity country=\"5\" kind=\"1\" domain=\"1\">" ++
    "<category value=\"1\" name=\"Tank\"/><category value=\"2\" name=\"TANK\"/></entity></cet></r>"

theorem tanks_named_in_order :
    ∃ res, Resolution.ofString {} 4096 tanksDocument = .ok res ∧
      res.model.trees.map (fun tree => (tree.childrenOf (some 2)).map tree.name?) =
        [[some "Tank", some "TANK1"]] ∧
      ∀ tree ∈ res.model.trees, ∀ p, ∃ names scope,
        NameScope.claimAll {} ((tree.childrenOf p).map (baseName ⟨res.table, {}⟩ tree)) =
          .ok (names, scope) ∧
        (tree.childrenOf p).map tree.name? = names.map some ∧ (names.map lookupKey).Nodup := by
  have run : (Resolution.ofString {} 4096 tanksDocument).toOption.map (fun res =>
      res.model.trees.map fun tree => (tree.childrenOf (some 2)).map tree.name?) =
        some [[some "Tank", some "TANK1"]] := by decide +kernel
  obtain ⟨res, hres, names⟩ := exists_ok_of_map run
  exact ⟨res, hres, names, fun tree htree =>
    ((siblings_named_in_order {} 4096 (.ofString tanksDocument)).2 res hres tree htree).1⟩

end EnumRegistry
