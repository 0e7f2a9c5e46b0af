import EnumRegistry.Proofs.Building.Drawing
import EnumRegistry.Proofs.Building.Visit
import EnumRegistry.Proofs.Resolution

/-!
The trees of a registry mirror its document. A walk over what a tree holds takes the elements in one
by one and stands afterwards where it stood before; and the trees of the model are those of the
document, in its order.
-/

namespace EnumRegistry

open ClassificationTree

/-- A tree of the model and the tree of a document that it was made of. -/
structure Mirrors (declared : (Hierarchy × String) × Forest) (t : ClassificationTree) : Prop where
  hierarchy : t.hierarchy = declared.1.1
  uid : t.uid = declared.1.2
  nodes : List.Forall₂ t.Represents
    ((declared.2.taken t.hierarchy []).filter (·.2.kind.isNode)) t.symbolNodes
  paths : ∀ place ∈ declared.2.taken t.hierarchy [], place.2.kind.opensPath = true →
    ∃ last, t.OpensAt place.2 last
  segments : ∀ id, t.isPath id = true → ∀ a ∈ t.trail id, t.isPath a = true
  apart : ∀ parent, (((t.childrenOf parent).filter t.isPath).map t.code).Nodup
  shared : ∀ {e e' : Element} {codes codes' : List Int} {last last' : Nat}, t.OpensAt e last →
    t.OpensAt e' last' → t.hierarchy.pathCodes e = .ok codes →
    t.hierarchy.pathCodes e' = .ok codes' → ∀ k < t.hierarchy.pathAttributes.length,
      ((t.trail last)[k]? = (t.trail last')[k]? ↔ codes.take (k + 1) = codes'.take (k + 1))

theorem ClassificationTree.Draws.mirrors {declared : (Hierarchy × String) × Forest}
    {t : ClassificationTree} (draws : t.Draws (declared.2.taken t.hierarchy []))
    (h : t.WellFormed) (hierarchy : t.hierarchy = declared.1.1) (uid : t.uid = declared.1.2) :
    Mirrors declared t where
  hierarchy := hierarchy
  uid := uid
  nodes := draws.nodes
  paths := draws.paths
  segments _ path _ ha := draws.pathed.isPath_of_mem_trail h path ha
  apart := draws.pathed.apart
  shared {e e' codes codes' last last'} opens opens' own own' k hk := by
    obtain rfl := Except.ok.inj (own.symm.trans opens.codes)
    obtain rfl := Except.ok.inj (own'.symm.trans opens'.codes)
    exact draws.pathed.shared h opens.path opens'.path (length_of_mapM own ▸ hk)
      (length_of_mapM own' ▸ hk)

namespace Builder

/-! ## Inside a tree -/

/-- A builder inside a tree that holds what it has taken in. -/
structure Drawing (t : NameTables) (b : Builder) (f : TreeFrame) (way : List Element)
    (places : List (List Element × Element)) : Prop where
  inOrder : b.TreesInOrder t
  tree : b.tree = some f
  stands : f.StandsAt way
  draws : f.tree.Draws places

/-- A walk over a forest inside a tree adds what the tree takes in of it, and stands afterwards
where it stood before. -/
def Adds (t : NameTables) (ceiling : Nat) (forest : Forest) : Prop :=
  ∀ {b b' : Builder} {f : TreeFrame} {way : List Element} {places : List (List Element × Element)},
    b.Drawing t f way places → (walk t ceiling).visit forest b = .ok b' →
    ∃ f', b'.Drawing t f' way (places ++ forest.taken f.tree.hierarchy way) ∧
      f'.cursor = f.cursor ∧ f.tree.Extends f'.tree ∧ b'.model = b.model

variable {t : NameTables} {ceiling : Nat}

theorem Drawing.wellFormed {b : Builder} {f : TreeFrame} {way : List Element}
    {places : List (List Element × Element)} (d : b.Drawing t f way places) : f.tree.WellFormed :=
  (d.inOrder.growing f d.tree).settled.wellFormed

theorem through_adds {inside : Forest} (adds : Adds t ceiling inside)
    {b entered left between : Builder} {f : TreeFrame} {way : List Element}
    {places : List (List Element × Element)} {e : Element} (d : b.Drawing t f way places)
    (current : e.isDeprecated = false) (start : Entered t b e entered)
    (visited : (walk t ceiling).visit inside entered = .ok left)
    (finish : left.finish t ceiling = .ok between) :
    f.tree.hierarchy.takes way e = true ∧ ∃ g,
      between.Drawing t g way
        (places ++ (way, e) :: inside.taken f.tree.hierarchy (way ++ [e])) ∧
      g.cursor = f.cursor ∧ f.tree.Extends g.tree ∧ between.model = b.model := by
  have inOrder := entered_treesInOrder d.inOrder start
  have inOrder' := left_treesInOrder (visit_treesInOrder inOrder visited) (finish_left finish)
  have opened := visit_opened visited
  -- After the element the builder stands where it stood before.
  have stood {g : TreeFrame} {more : List (List Element × Element)} (tree : between.tree = some g)
      (cursor : g.cursor = f.cursor) (larger : f.tree.Extends g.tree) (draws : g.tree.Draws more) :
      between.Drawing t g way more :=
    ⟨inOrder', tree, d.stands.extends d.wellFormed (inOrder'.growing g tree).settled.wellFormed
      larger cursor, draws⟩
  cases start with
  | type idle | tree idle => cases (isIdle_eq_true.mp idle).2.symm.trans d.tree
  | row current => cases (d.inOrder.nested.inType current).2.symm.trans d.tree
  | @path frame frame' found tree kind made =>
    cases d.tree.symm.trans tree
    have opensPath : e.kind.opensPath = true := by
      rcases kind with kind | kind <;> rw [kind] <;> rfl
    obtain ⟨attributes, plain, stands, draws⟩ :=
      TreeFrame.openPath_draws d.wellFormed d.stands d.draws opensPath made
    obtain ⟨-, grows, -⟩ := TreeFrame.openPath_located d.wellFormed made
    obtain ⟨empty, last, cursor⟩ := TreeFrame.openPath_cursor made
    obtain ⟨g, d', cursor', larger, model⟩ := adds ⟨inOrder, rfl, stands, draws⟩ visited
    have finished : between = { left with opened := b.opened, tree := some g.leave } := by
      simpa [Builder.finish, opened, enter, note, d'.tree] using finish.symm
    have left : g.leave.cursor = f.cursor := by
      rw [TreeFrame.leave, cursor', cursor, empty]
      rfl
    rw [grows.larger.hierarchy, List.append_assoc] at d'
    refine ⟨by simp [Hierarchy.takes, current, opensPath, attributes, plain], g.leave, ?_, left,
      grows.larger.trans larger, by rw [finished]; exact model⟩
    exact stood (by rw [finished]) left (grows.larger.trans larger) d'.draws
  | @node frame frame' level id tree levelled attached =>
    cases d.tree.symm.trans tree
    have isNode : e.kind.isNode = true := by simp [ElementKind.isNode, levelled]
    obtain ⟨cursor, stands, draws⟩ :=
      TreeFrame.openNode_draws d.wellFormed d.stands d.draws levelled attached
    have grows := TreeFrame.openNode_grows attached
    obtain ⟨f', d', cursor', larger, model⟩ := adds ⟨inOrder, rfl, stands, draws⟩ visited
    simp only [Builder.finish, opened, enter, finishNode, d'.tree, bind_eq_ok, Prod.exists,
      pure_eq_ok, Except.ok.injEq] at finish
    obtain ⟨g, found, named, rfl⟩ := finish
    obtain ⟨named_cursor, drawn⟩ :=
      TreeFrame.nameNode_draws (f := f'.leave) d'.wellFormed d'.draws named
    have back : g.cursor = f.cursor := by
      rw [named_cursor, TreeFrame.leave, cursor', cursor]
      rfl
    have larger' := grows.larger.trans (larger.trans (TreeFrame.nameNode_grows named).larger)
    rw [grows.larger.hierarchy, List.append_assoc] at drawn
    exact ⟨by simp [Hierarchy.takes, current, isNode], g, stood rfl back larger' drawn, back,
      larger', model⟩
  | other plain =>
    obtain ⟨g, d', cursor, larger, model⟩ :=
      adds ⟨inOrder, d.tree, d.stands.plain plain, d.draws.plain way plain⟩ visited
    obtain rfl := finish_plain finish opened
    rw [List.append_assoc] at d'
    refine ⟨by simp [Hierarchy.takes, current, plain], g, ?_, cursor, larger, model⟩
    exact stood d'.tree cursor larger d'.draws

theorem visit_adds (forest : Forest) : Adds t ceiling forest := by
  induction forest with
  | nil =>
    intro b b' f way places d walked
    cases walked
    exact ⟨f, by simpa [Forest.taken] using d, rfl, .refl _, rfl⟩
  | node e inside behind ih_inside ih_behind =>
    intro b b' f way places d walked
    obtain ⟨between, passes, rest⟩ := Walk.visit_node _ walked
    cases passes with
    | deprecated deprecated =>
      have out : f.tree.hierarchy.takes way e = false := by simp [Hierarchy.takes, deprecated]
      simpa [Forest.taken, out] using ih_behind d rest
    | out current start =>
      have out : f.tree.hierarchy.takes way e = false := by
        obtain ⟨noPlain, -, inTree⟩ := start_eq_none start
        obtain ⟨noNode, noPath⟩ := inTree f d.tree
        cases asks : e.kind.opensPath with
        | false => simp [Hierarchy.takes, noPlain, noNode, asks]
        | true =>
          rcases TreeFrame.openPath_eq_none (noPath asks) with inside | attributes
          · have mixed : way.all (·.kind.isPlain) = false :=
              Bool.eq_false_iff.mpr fun plain => inside (d.stands.outside.mpr plain)
            simp [Hierarchy.takes, noPlain, noNode, mixed]
          · simp [Hierarchy.takes, noPlain, noNode, attributes]
      simpa [Forest.taken, out] using ih_behind d rest
    | through current start visited finish =>
      obtain ⟨taken, g, d', cursor, larger, model⟩ :=
        through_adds ih_inside d current (start_entered start) visited finish
      obtain ⟨g', d'', cursor', larger', model'⟩ := ih_behind d' rest
      rw [larger.hierarchy, List.append_assoc] at d''
      refine ⟨g', ?_, cursor'.trans cursor, larger.trans larger', model'.trans model⟩
      rw [Forest.taken, if_pos taken]
      exact d''

/-! ## Outside the trees -/

/-- Leaving a type changes none of the trees. -/
theorem left_type_trees {b b' : Builder} {rest : List OpenElement} (h : Left t ceiling b b')
    (opened : b.opened = .type :: rest) : b'.model.trees = b.model.trees := by
  cases h with
  | tree closed => cases closed.symm.trans opened
  | _ => rfl

theorem visit_idle {forest : Forest} {b b' : Builder} (inOrder : b.TreesInOrder t)
    (idle : b.isIdle = true) (walked : (walk t ceiling).visit forest b = .ok b') :
    ∃ drawn, b'.model.trees = b.model.trees ++ drawn ∧
      List.Forall₂ Mirrors forest.trees drawn := by
  induction forest generalizing b b' with
  | nil =>
    cases walked
    exact ⟨[], by simp, .nil⟩
  | node e inside behind ih_inside ih_behind =>
    obtain ⟨between, passes, rest⟩ := Walk.visit_node _ walked
    have plain := inOrder.nested.plain_of_idle idle
    suffices h : between.TreesInOrder t ∧ between.isIdle = true ∧
        ∃ own, between.model.trees = b.model.trees ++ own ∧
          List.Forall₂ Mirrors (if e.isDeprecated then []
            else if e.kind.isPlain then inside.trees
            else e.selectedTree?.toList.map (·, inside)) own by
      obtain ⟨inOrder', idle', own, trees, mirrored⟩ := h
      obtain ⟨more, trees', mirrored'⟩ := ih_behind inOrder' idle' rest
      exact ⟨own ++ more, by rw [trees', trees, List.append_assoc],
        List.rel_append mirrored mirrored'⟩
    cases passes with
    | deprecated deprecated =>
      rw [if_pos deprecated]
      exact ⟨inOrder, idle, [], by simp, .nil⟩
    | out current start =>
      obtain ⟨noPlain, quiet, -⟩ := start_eq_none start
      rw [if_neg (by simp [current]), if_neg (by simp [noPlain]), quiet idle]
      exact ⟨inOrder, idle, [], by simp, .nil⟩
    | @through entered left _ current start visited finish =>
      rw [if_neg (by simp [current])]
      have start := start_entered start
      have inOrder' := entered_treesInOrder inOrder start
      have ended := left_treesInOrder (visit_treesInOrder inOrder' visited) (finish_left finish)
      have opened := visit_opened visited
      replace finish : left.finish t ceiling = .ok between := finish
      have idle' : between.isIdle = true := ended.nested.isIdle_of_plain
        (through_opened start opened (finish_left finish) ▸ plain)
      refine ⟨ended, idle', ?_⟩
      cases start with
      | row current => cases (isIdle_eq_true.mp idle).1.symm.trans current
      | path tree | node tree => cases (isIdle_eq_true.mp idle).2.symm.trans tree
      | type _ declares =>
        obtain ⟨noPlain, quiet⟩ := Element.selectedTree?_of_declaresType declares
        obtain ⟨-, model, -⟩ := visit_busy rfl visited
        rw [if_neg (by simp [noPlain]), quiet]
        refine ⟨[], ?_, .nil⟩
        rw [left_type_trees (finish_left finish) opened, model, List.append_nil]
        rfl
      | @tree hierarchy uid _ selected =>
        rw [if_neg (by simp [(Element.isPlain_of_selectedTree? selected).1]), selected]
        obtain ⟨g, d, -, larger, model⟩ := visit_adds inside
          ⟨inOrder', rfl, TreeFrame.standsAt_new hierarchy uid, draws_new hierarchy uid⟩ visited
        have finished : between = { left with
            opened := b.opened
            tree := none
            model := { left.model with trees := left.model.trees ++ [g.tree] } } := by
          simpa [Builder.finish, opened, enter, finishTree, d.tree] using finish.symm
        refine ⟨[g.tree], by rw [finished, model]; rfl, .cons ?_ .nil⟩
        have drawn := d.draws
        rw [← larger.hierarchy] at drawn
        exact drawn.mirrors d.wellFormed larger.hierarchy larger.uid
      | other isPlain =>
        rw [if_pos isPlain]
        obtain ⟨drawn, trees, mirrored⟩ := ih_inside inOrder' idle visited
        obtain rfl := finish_plain finish opened
        exact ⟨drawn, trees, mirrored⟩

end Builder

/-- The trees of a registry are those of its document. Their nodes with a symbol stand one by one
for the elements taken in, with the codes declared on the way down to each, and paths share their
nodes just as far as their codes agree. -/
theorem trees_mirror_document (overrides : Overrides) (ceiling : Nat) (document : List UInt8)
    (res : Resolution)
    (resolved : Resolution.ofReader overrides ceiling (.ofBytes document) = .ok res) :
    ∃ f : Forest, (Reader.ofBytes document).events = (f.events, none) ∧
      List.Forall₂ Mirrors f.trees res.model.trees := by
  obtain ⟨survey, b, -, built, rfl⟩ := Resolution.ofReader_eq_ok resolved
  obtain ⟨f, events, walked⟩ := Walk.through_ofBytes _ built
  obtain ⟨drawn, trees, mirrored⟩ :=
    Builder.visit_idle (Builder.treesInOrder_ofTable _) rfl walked
  refine ⟨f, events, ?_⟩
  rw [trees]
  exact mirrored

/-- Two entities share a kind, and a third comes back to the first one's domain. -/
def returningDocument : String :=
  "<cet uid=\"30\"><entity country=\"5\" kind=\"1\" domain=\"1\"><category value=\"3\">" ++
    "<subcategory_range value_min=\"7\" value_max=\"9\"/></category></entity>" ++
    "<entity country=\"5\" kind=\"1\" domain=\"2\"><category value=\"3\"/></entity>" ++
    "<entity country=\"5\" kind=\"1\" domain=\"1\"><category value=\"4\"/></entity></cet>"

theorem returning_trees_mirror : ∃ (res : Resolution) (f : Forest),
    Resolution.ofString {} 4096 returningDocument = .ok res ∧
    (Reader.ofString returningDocument).events = (f.events, none) ∧
    List.Forall₂ Mirrors f.trees res.model.trees ∧
    res.model.trees.map (fun t => t.symbolNodes.map t.codes) =
      [[[5, 1, 1, 3], [5, 1, 1, 3, 7], [5, 1, 2, 3], [5, 1, 1, 4]]] ∧
    res.model.trees.map (fun t => t.symbolNodes.map t.trail) =
      [[[0, 1, 2, 3], [0, 1, 2, 3, 4], [0, 1, 5, 6], [0, 1, 2, 7]]] := by
  have run : (Resolution.ofString {} 4096 returningDocument).toOption.map (fun res =>
      (res.model.trees.map (fun t => t.symbolNodes.map t.codes),
        res.model.trees.map (fun t => t.symbolNodes.map t.trail))) =
      some ([[[5, 1, 1, 3], [5, 1, 1, 3, 7], [5, 1, 2, 3], [5, 1, 1, 4]]],
        [[[0, 1, 2, 3], [0, 1, 2, 3, 4], [0, 1, 5, 6], [0, 1, 2, 7]]]) := by
    decide +kernel
  obtain ⟨res, resolved, facts⟩ := exists_ok_of_map run
  obtain ⟨codes, trails⟩ := Prod.mk.inj facts
  obtain ⟨f, events, mirrored⟩ :=
    trees_mirror_document {} 4096 _ res resolved
  exact ⟨res, f, resolved, events, mirrored, codes, trails⟩

end EnumRegistry
