import EnumRegistry.Proofs.Building.Ways
import Mathlib.Data.List.Forall2

/-!
Trees are drawn after their elements. Every node with a symbol of its own stands for one element
that the tree takes in, in the order of the start tags, and its codes are those declared on the way
down to the element; the path of an entity or object ends at the node with the path's codes.
-/

namespace EnumRegistry

open ClassificationTree

namespace ClassificationTree

variable {t t' : ClassificationTree}

/-- The path that an element asks for ends at a node. -/
structure OpensAt (t : ClassificationTree) (e : Element) (last : Nat) : Prop where
  path : t.isPath last = true
  codes : t.hierarchy.pathCodes e = .ok (t.codes last)

/-- A node stands for an element inside others. -/
structure Represents (t : ClassificationTree) (place : List Element × Element) (id : Nat) :
    Prop where
  node : ∃ n, t.nodes[id]? = some n ∧ place.2.kind.level? = some n.level ∧
    place.2.value = .ok n.value ∧ n.uid = place.2.uid? ∧ n.description = place.2.description
  codes : t.hierarchy.codesAlong (place.1 ++ [place.2]) = .ok (t.codes id)
  path : ∀ opener, place.1.find? (·.kind.opensPath) = some opener →
    ∃ last, t.OpensAt opener last ∧ t.trail last <+: t.trail id

/-- A tree holds the elements that it has taken in so far. -/
structure Draws (t : ClassificationTree) (places : List (List Element × Element)) : Prop where
  pathed : t.Pathed
  nodes : List.Forall₂ t.Represents (places.filter (·.2.kind.isNode)) t.symbolNodes
  paths : ∀ place ∈ places, place.2.kind.opensPath = true → ∃ last, t.OpensAt place.2 last

theorem OpensAt.extends {e : Element} {last : Nat} (opens : t.OpensAt e last) (h : t.WellFormed)
    (h' : t'.WellFormed) (larger : t.Extends t') : t'.OpensAt e last where
  path := (isPath_extends larger (lt_size_of_isPath opens.path)).trans opens.path
  codes := by
    rw [larger.hierarchy, codes_extends h h' larger (lt_size_of_isPath opens.path)]
    exact opens.codes

theorem Represents.extends {place : List Element × Element} {id : Nat}
    (represents : t.Represents place id) (h : t.WellFormed) (h' : t'.WellFormed)
    (larger : t.Extends t') : t'.Represents place id := by
  obtain ⟨⟨n, hn, facts⟩, codes, path⟩ := represents
  have hid := lt_size_of_getElem? hn
  obtain ⟨n', hn', same⟩ := larger.node hn
  refine ⟨⟨n', hn', by rw [same]; exact facts⟩, ?_, ?_⟩
  · rw [larger.hierarchy, codes_extends h h' larger hid]
    exact codes
  · intro opener first
    obtain ⟨last, opens, above⟩ := path opener first
    refine ⟨last, opens.extends h h' larger, ?_⟩
    rwa [trail_extends h h' larger (lt_size_of_isPath opens.path), trail_extends h h' larger hid]

/-- What is drawn stays drawn in a larger tree that has the same symbols. -/
theorem Draws.extends {places : List (List Element × Element)} (draws : t.Draws places)
    (h : t.WellFormed) (h' : t'.WellFormed) (larger : t.Extends t') (pathed : t'.Pathed)
    (same : t'.symbolNodes = t.symbolNodes) : t'.Draws places where
  pathed := pathed
  nodes := same ▸ draws.nodes.imp fun _ _ represents => represents.extends h h' larger
  paths place hplace path := by
    obtain ⟨last, opens⟩ := draws.paths place hplace path
    exact ⟨last, opens.extends h h' larger⟩

theorem draws_new (hierarchy : Hierarchy) (uid : String) : Draws { hierarchy, uid } [] where
  pathed := pathed_new hierarchy uid
  nodes := .nil
  paths := nofun

/-- A plain element adds nothing that is drawn. -/
theorem Draws.plain {places : List (List Element × Element)} (draws : t.Draws places)
    (way : List Element) {e : Element} (plain : e.kind.isPlain = true) :
    t.Draws (places ++ [(way, e)]) := by
  obtain ⟨noPath, noNode⟩ := ElementKind.opensPath_of_isPlain plain
  refine ⟨draws.pathed, by simpa [noNode] using draws.nodes, ?_⟩
  intro place hplace asks
  rcases List.mem_append.mp hplace with hplace | hplace
  · exact draws.paths place hplace asks
  · obtain rfl := List.mem_singleton.mp hplace
    simp [noPath] at asks

end ClassificationTree

namespace TreeFrame

/-! ## Paths -/

theorem pathNode_pathed {types : TypeTable} {f f' : TreeFrame} {parent : Option Nat}
    {step : PathStep} {id : Nat} {found : List Diagnostic} (h : f.tree.WellFormed)
    (pathed : f.tree.Pathed) (root : parent = none → step.1.level = f.tree.hierarchy.rootLevel)
    (made : pathNode types f parent step = .ok (id, f', found)) :
    f'.tree.Pathed ∧ f'.tree.symbolNodes = f.tree.symbolNodes ∧ f'.tree.isPath id = true ∧
      f'.tree.codes id = f'.tree.codesTo parent ++ [step.2] := by
  obtain ⟨h', -, located⟩ := pathNode_located h made
  obtain ⟨n, hn, hparent, level, value⟩ := findChild?_eq_some h' located
  have path : f'.tree.isPath id = true := by rw [isPath_eq hn, level, isPathOnly_level]
  have codes := codes_eq h' hn
  rw [hparent, value] at codes
  have segment : (segmentNode types step).level.isPathOnly = true := isPathOnly_level step.1
  refine ⟨?_, ?_, path, codes⟩ <;>
    rcases pathNode_eq_ok made with ⟨-, rfl⟩ | ⟨name, taken, absent, rfl, valid, admitted, -, rfl⟩
  · exact pathed
  · exact (pathed.append h (segmentNode types step) valid admitted fun _ => ⟨root, absent⟩).named
      (wellFormed_append h valid) _ name
  · rfl
  · rw [tree_setScope, symbolNodes_named, symbolNodes_append valid, if_pos segment,
      List.append_nil]

theorem pathNodes_pathed {types : TypeTable} {steps : List PathStep} {f f' : TreeFrame}
    {parent last : Option Nat} {found : List Diagnostic} (h : f.tree.WellFormed)
    (pathed : f.tree.Pathed) (valid : ∀ p, parent = some p → f.tree.isPath p = true)
    (root : parent = none → ∀ step ∈ steps.head?, step.1.level = f.tree.hierarchy.rootLevel)
    (made : pathNodes types f parent steps = .ok (last, f', found)) :
    f'.tree.Pathed ∧ f'.tree.symbolNodes = f.tree.symbolNodes ∧
      (∀ p, last = some p → f'.tree.isPath p = true) ∧
      f'.tree.codesTo last = f'.tree.codesTo parent ++ steps.map (·.2) := by
  induction steps generalizing f parent found with
  | nil =>
    simp only [pathNodes, Except.ok.injEq, Prod.mk.injEq] at made
    obtain ⟨rfl, rfl, -⟩ := made
    exact ⟨pathed, rfl, valid, (List.append_nil _).symm⟩
  | cons step steps ih =>
    simp only [pathNodes, bind_eq_ok, Prod.exists, pure_eq_ok, Except.ok.injEq,
      Prod.mk.injEq] at made
    obtain ⟨id, g, _, first, _, _, _, rest, rfl, rfl, -⟩ := made
    obtain ⟨between, grows, -⟩ := pathNode_located h first
    obtain ⟨after, grows', -⟩ := pathNodes_located between rest
    obtain ⟨pathed', symbols, path, codes⟩ :=
      pathNode_pathed h pathed (fun none => root none step rfl) first
    obtain ⟨pathed'', symbols', ends, codes'⟩ :=
      ih between pathed' (fun p hp => Option.some.inj hp ▸ path)
        (fun none => by cases none) rest
    refine ⟨pathed'', symbols'.trans symbols, ends, ?_⟩
    have inside (p : Nat) (hp : parent = some p) : p < g.tree.size :=
      Nat.lt_of_lt_of_le (lt_size_of_isPath (valid p hp)) grows.larger.size_le
    rw [codes', codesTo, codes_extends between after grows'.larger (lt_size_of_isPath path), codes,
      codesTo_extends between after grows'.larger inside]
    simp

/-- Where a path was opened, the innermost open node has the codes that the element declares. -/
theorem openPath_pathed {types : TypeTable} {f f' : TreeFrame} {e : Element}
    {found : List Diagnostic} (h : f.tree.WellFormed) (pathed : f.tree.Pathed)
    (made : f.openPath types e = .ok (some (f', found))) :
    f'.tree.Pathed ∧ f'.tree.symbolNodes = f.tree.symbolNodes ∧
      f.tree.hierarchy.pathAttributes ≠ [] ∧ f.cursor = [] ∧
      ∃ last, f'.cursor = [last] ∧ f'.tree.OpensAt e last := by
  obtain ⟨empty, last, cursor⟩ := openPath_cursor made
  obtain ⟨-, steps, end?, g, hsteps, hpath, rfl⟩ := openPath_eq_ok made
  obtain ⟨declared, attributes, root⟩ := pathSteps_codes hsteps
  obtain ⟨pathed', symbols, path, codes⟩ :=
    pathNodes_pathed h pathed (by simp) (fun _ => root) hpath
  obtain ⟨-, grows, -⟩ := pathNodes_located h hpath
  have ends : end? = some last := by
    rw [(pathNodes_cursor hpath).1, empty, List.append_nil] at cursor
    exact Option.toList_eq_singleton_iff.mp cursor
  refine ⟨pathed', symbols, attributes, empty, last, cursor, path last ends, ?_⟩
  rw [grows.larger.hierarchy, declared]
  rw [ends] at codes
  exact congrArg Except.ok codes.symm

/-! ## Where the cursor stands -/

/-- The open nodes are those of the elements that the walk is inside of. -/
structure StandsAt (f : TreeFrame) (way : List Element) : Prop where
  inside : ∀ id ∈ f.cursor, id < f.tree.size
  outside : f.cursor = [] ↔ way.all (·.kind.isPlain) = true
  codes : f.tree.hierarchy.codesAlong way = .ok (f.tree.codesTo f.cursor.head?)
  path : ∀ opener, way.find? (·.kind.opensPath) = some opener →
    ∃ last, f.tree.OpensAt opener last ∧ f.tree.trail last <+: f.tree.trailTo f.cursor.head?

theorem standsAt_new (hierarchy : Hierarchy) (uid : String) : (new hierarchy uid).StandsAt [] where
  inside := nofun
  outside := ⟨fun _ => rfl, fun _ => rfl⟩
  codes := rfl
  path := nofun

theorem StandsAt.head_lt {f : TreeFrame} {way : List Element} (stands : f.StandsAt way) (p : Nat)
    (hp : f.cursor.head? = some p) : p < f.tree.size :=
  stands.inside p (List.mem_of_mem_head? hp)

theorem StandsAt.extends {f f' : TreeFrame} {way : List Element} (stands : f.StandsAt way)
    (h : f.tree.WellFormed) (h' : f'.tree.WellFormed) (larger : f.tree.Extends f'.tree)
    (cursor : f'.cursor = f.cursor) : f'.StandsAt way where
  inside id hid := Nat.lt_of_lt_of_le (stands.inside id (cursor ▸ hid)) larger.size_le
  outside := cursor ▸ stands.outside
  codes := by
    rw [cursor, larger.hierarchy, codesTo_extends h h' larger stands.head_lt]
    exact stands.codes
  path opener first := by
    obtain ⟨last, opens, above⟩ := stands.path opener first
    refine ⟨last, opens.extends h h' larger, ?_⟩
    rwa [trail_extends h h' larger (lt_size_of_isPath opens.path), cursor,
      trailTo_extends h h' larger stands.head_lt]

theorem StandsAt.plain {f : TreeFrame} {way : List Element} (stands : f.StandsAt way) {e : Element}
    (plain : e.kind.isPlain = true) : f.StandsAt (way ++ [e]) where
  inside := stands.inside
  outside := by simpa [plain] using stands.outside
  codes := (Hierarchy.codesAlong_plain plain).trans stands.codes
  path opener first := by
    have noPath := (ElementKind.opensPath_of_isPlain plain).1
    exact stands.path opener (by simpa [noPath] using first)

/-- Opening a path takes the element in, and the walk stands inside of it. -/
theorem openPath_draws {types : TypeTable} {f f' : TreeFrame} {e : Element} {way : List Element}
    {places : List (List Element × Element)} {found : List Diagnostic} (h : f.tree.WellFormed)
    (stands : f.StandsAt way) (draws : f.tree.Draws places) (kind : e.kind.opensPath = true)
    (made : f.openPath types e = .ok (some (f', found))) :
    f.tree.hierarchy.pathAttributes ≠ [] ∧ way.all (·.kind.isPlain) = true ∧
      f'.StandsAt (way ++ [e]) ∧ f'.tree.Draws (places ++ [(way, e)]) := by
  obtain ⟨h', grows, -⟩ := openPath_located h made
  obtain ⟨pathed, symbols, attributes, empty, last, cursor, opens⟩ :=
    openPath_pathed h draws.pathed made
  obtain ⟨noNode, noPlain⟩ := ElementKind.isNode_of_opensPath kind
  have plain := stands.outside.mp empty
  have drawn := draws.extends h h' grows.larger pathed symbols
  refine ⟨attributes, plain, ⟨?_, ?_, ?_, ?_⟩, ⟨pathed, by simpa [noNode] using drawn.nodes, ?_⟩⟩
  · intro id hid
    obtain rfl : id = last := by simpa [cursor] using hid
    exact lt_size_of_isPath opens.path
  · simp [cursor, noPlain]
  · rw [Hierarchy.codesAlong_path plain kind, cursor]
    exact opens.codes
  · intro opener first
    have quiet : way.find? (·.kind.opensPath) = none := by
      rw [List.find?_eq_none]
      intro above habove
      simp [ElementKind.opensPath_of_isPlain (List.all_eq_true.mp plain above habove)]
    obtain rfl : e = opener := by
      rw [List.find?_append, quiet, Option.none_or, List.find?_cons_of_pos (by simpa using kind)]
        at first
      exact Option.some.inj first
    exact ⟨last, opens, by rw [cursor]; exact List.prefix_refl _⟩
  · intro place hplace path
    rcases List.mem_append.mp hplace with hplace | hplace
    · exact drawn.paths place hplace path
    · obtain rfl := List.mem_singleton.mp hplace
      exact ⟨last, opens⟩

theorem openNode_adds {f f' : TreeFrame} {level : Level} {e : Element} {id : Nat}
    (h : f.tree.WellFormed) (pathed : f.tree.Pathed) (derived : level.isPathOnly = false)
    (made : f.openNode level e = .ok (id, f')) :
    f'.cursor = id :: f.cursor ∧ f'.tree.WellFormed ∧ f'.tree.Pathed ∧
      f'.tree.symbolNodes = f.tree.symbolNodes ++ [id] ∧
      ∃ n, f'.tree.nodes[id]? = some n ∧ n.parent = f.cursor.head? ∧ n.level = level ∧
        e.value = .ok n.value ∧ n.uid = e.uid? ∧ n.description = e.description := by
  obtain ⟨rfl, valid, value, hvalue, admitted, rfl⟩ := openNode_eq_ok made
  have symbol : (elementNode level value e).level.isPathOnly = false := derived
  refine ⟨rfl, wellFormed_append h valid, ?_, ?_, _, getElem?_append_size valid, rfl, rfl, hvalue,
    rfl, rfl⟩
  · exact pathed.append h (elementNode level value e) valid admitted
      fun path => absurd (symbol.symm.trans path) Bool.false_ne_true
  · rw [symbolNodes_append valid, symbol]
    rfl

/-- Opening a node takes the element in, and the walk stands inside of it. -/
theorem openNode_draws {f f' : TreeFrame} {level : Level} {e : Element} {id : Nat}
    {way : List Element} {places : List (List Element × Element)} (h : f.tree.WellFormed)
    (stands : f.StandsAt way) (draws : f.tree.Draws places) (levelled : e.kind.level? = some level)
    (made : f.openNode level e = .ok (id, f')) :
    f'.cursor = id :: f.cursor ∧ f'.StandsAt (way ++ [e]) ∧
      f'.tree.Draws (places ++ [(way, e)]) := by
  have isNode : e.kind.isNode = true := by simp [ElementKind.isNode, levelled]
  obtain ⟨noPath, noPlain⟩ := ElementKind.opensPath_of_isNode isNode
  have larger := (openNode_grows made).larger
  obtain ⟨cursor, h', pathed, symbols, n, hn, parent, rfl, value, facts⟩ :=
    openNode_adds h draws.pathed (ElementKind.isPathOnly_of_level? levelled) made
  have codes : f'.tree.hierarchy.codesAlong (way ++ [e]) = .ok (f'.tree.codes id) := by
    rw [larger.hierarchy, codes_eq h' hn, parent, codesTo_extends h h' larger stands.head_lt]
    exact Hierarchy.codesAlong_node isNode stands.codes value
  have path (opener : Element) (first : way.find? (·.kind.opensPath) = some opener) :
      ∃ last, f'.tree.OpensAt opener last ∧ f'.tree.trail last <+: f'.tree.trail id := by
    obtain ⟨last, opens, above⟩ := stands.path opener first
    refine ⟨last, opens.extends h h' larger, ?_⟩
    rw [trail_extends h h' larger (lt_size_of_isPath opens.path), trail_eq h' hn, parent,
      trailTo_extends h h' larger stands.head_lt]
    exact above.trans (List.prefix_append ..)
  have head : f'.cursor.head? = some id := by rw [cursor, List.head?_cons]
  have stands' : f'.StandsAt (way ++ [e]) := by
    refine ⟨?_, by simp [cursor, noPlain], by rw [head]; exact codes, ?_⟩
    · intro a ha
      rw [cursor, List.mem_cons] at ha
      rcases ha with rfl | ha
      · exact lt_size_of_getElem? hn
      · exact Nat.lt_of_lt_of_le (stands.inside a ha) larger.size_le
    · intro opener first
      rw [head]
      exact path opener (by simpa [noPath] using first)
  have represents : f'.tree.Represents (way, e) id :=
    ⟨⟨n, hn, levelled, value, facts⟩, codes, path⟩
  refine ⟨cursor, stands', pathed, ?_, ?_⟩
  · rw [symbols, List.filter_append, List.filter_cons_of_pos (by simpa using isNode)]
    exact List.rel_append (draws.nodes.imp fun _ _ r => r.extends h h' larger)
      (.cons represents .nil)
  · intro place hplace asks
    rcases List.mem_append.mp hplace with hplace | hplace
    · obtain ⟨last, opens⟩ := draws.paths place hplace asks
      exact ⟨last, opens.extends h h' larger⟩
    · obtain rfl := List.mem_singleton.mp hplace
      simp [noPath] at asks

/-- Naming a node changes nothing that is drawn. -/
theorem nameNode_draws {o : Overrides} {f f' : TreeFrame} {id : Nat} {found : List Diagnostic}
    {places : List (List Element × Element)} (h : f.tree.WellFormed) (draws : f.tree.Draws places)
    (made : f.nameNode o id = .ok (f', found)) :
    f'.cursor = f.cursor ∧ f'.tree.Draws places := by
  obtain ⟨node, name, taken, -, -, rfl⟩ := nameNode_eq_ok made
  refine ⟨rfl, draws.extends h (wellFormed_named h id name) (extends_named f.tree id name)
    (draws.pathed.named h id name) (symbolNodes_named f.tree id name)⟩

end TreeFrame

end EnumRegistry
