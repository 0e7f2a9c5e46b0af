import EnumRegistry.Proofs.Building.Step
import EnumRegistry.Proofs.Building.TreeFrame

/-!
How elements stand inside each other while a model is built. Types and trees are only opened when
neither is open, rows only inside a type, paths and nodes only inside a tree; so the open elements
always tell what is being filled, and the open path and nodes are the cursor of the open tree.
-/

namespace EnumRegistry

/-- Rows inside a type, among elements that mean nothing. -/
inductive InType : List OpenElement → Prop
  | type {outer : List OpenElement} (plain : ∀ o ∈ outer, o = .other) : InType (.type :: outer)
  | row {opened : List OpenElement} (e : Element) : InType opened → InType (.row e :: opened)
  | other {opened : List OpenElement} : InType opened → InType (.other :: opened)

/-- A path and nodes inside a tree, among elements that mean nothing, and the cursor they make. -/
inductive InTree : List OpenElement → List Nat → Prop
  | tree {outer : List OpenElement} (plain : ∀ o ∈ outer, o = .other) : InTree (.tree :: outer) []
  | path {opened : List OpenElement} (last : Nat) :
      InTree opened [] → InTree (.path :: opened) [last]
  | node {opened : List OpenElement} {cursor : List Nat} (id : Nat) :
      InTree opened cursor → InTree (.node id :: opened) (id :: cursor)
  | other {opened : List OpenElement} {cursor : List Nat} :
      InTree opened cursor → InTree (.other :: opened) cursor

/-- The nodes whose elements are open, innermost first. -/
def openNodes (opened : List OpenElement) : List Nat :=
  opened.filterMap fun
    | .node id => some id
    | _ => none

@[simp] theorem openNodes_cons_node (id : Nat) (opened : List OpenElement) :
    openNodes (.node id :: opened) = id :: openNodes opened := rfl

@[simp] theorem openNodes_cons_tree (opened : List OpenElement) :
    openNodes (.tree :: opened) = openNodes opened := rfl

@[simp] theorem openNodes_cons_other (opened : List OpenElement) :
    openNodes (.other :: opened) = openNodes opened := rfl

@[simp] theorem openNodes_cons_path (opened : List OpenElement) :
    openNodes (.path :: opened) = openNodes opened := rfl

theorem openNodes_plain {opened : List OpenElement} (plain : ∀ o ∈ opened, o = .other) :
    openNodes opened = [] := by
  simp only [openNodes, List.filterMap_eq_nil_iff]
  intro o ho
  rw [plain o ho]

/-- Where the cursor is empty no node is open. -/
theorem InTree.openNodes_sublist {opened : List OpenElement} {cursor : List Nat}
    (h : InTree opened cursor) : (openNodes opened).Sublist cursor := by
  induction h with
  | tree plain => rw [openNodes_cons_tree, openNodes_plain plain]
  | path last _ ih => exact ih.trans (List.nil_sublist _)
  | node id _ ih => exact ih.cons_cons id
  | other _ ih => exact ih

theorem isIdle_eq_true {b : Builder} : b.isIdle = true ↔ b.current = none ∧ b.tree = none := by
  simp [Builder.isIdle, Option.isNone_iff_eq_none]

namespace Builder

/-- The open elements and what is being filled. -/
inductive Nested (b : Builder) : Prop
  | idle (plain : ∀ o ∈ b.opened, o = .other) (current : b.current = none)
      (tree : b.tree = none)
  | type {frame : TypeFrame} (inside : InType b.opened) (current : b.current = some frame)
      (tree : b.tree = none)
  | tree {frame : TreeFrame} (inside : InTree b.opened frame.cursor) (current : b.current = none)
      (tree : b.tree = some frame)

theorem nested_ofTable (t : TypeTable) : Nested (ofTable t) := by
  refine .idle ?_ rfl rfl
  simp [ofTable]

theorem Nested.plain_of_idle {b : Builder} (h : b.Nested) (idle : b.isIdle = true) :
    ∀ o ∈ b.opened, o = .other := by
  obtain ⟨noCurrent, noTree⟩ := isIdle_eq_true.mp idle
  cases h with
  | idle plain => exact plain
  | type _ current => simp [noCurrent] at current
  | tree _ _ tree => simp [noTree] at tree

theorem Nested.inType {b : Builder} (h : b.Nested) {frame : TypeFrame}
    (current : b.current = some frame) : InType b.opened ∧ b.tree = none := by
  cases h with
  | idle _ none => simp [current] at none
  | type inside _ tree => exact ⟨inside, tree⟩
  | tree _ none => simp [current] at none

theorem Nested.inTree {b : Builder} (h : b.Nested) {frame : TreeFrame}
    (tree : b.tree = some frame) : InTree b.opened frame.cursor ∧ b.current = none := by
  cases h with
  | idle _ _ none => simp [tree] at none
  | type _ _ none => simp [tree] at none
  | tree inside current same => exact ⟨Option.some.inj (tree.symm.trans same) ▸ inside, current⟩

theorem Nested.node_cursor {b : Builder} (h : b.Nested) {f : TreeFrame} {id : Nat}
    {rest : List OpenElement} (opened : b.opened = .node id :: rest) (tree : b.tree = some f) :
    ∃ cursor, f.cursor = id :: cursor ∧ InTree rest cursor := by
  have inside := (h.inTree tree).1
  rw [opened] at inside
  generalize hcursor : f.cursor = cursor at inside
  cases inside with
  | node _ inside => exact ⟨_, rfl, inside⟩

theorem Nested.path_cursor {b : Builder} (h : b.Nested) {f : TreeFrame}
    {rest : List OpenElement} (opened : b.opened = .path :: rest) (tree : b.tree = some f) :
    ∃ last, f.cursor = [last] ∧ InTree rest [] := by
  have inside := (h.inTree tree).1
  rw [opened] at inside
  generalize hcursor : f.cursor = cursor at inside
  cases inside with
  | path last inside => exact ⟨last, rfl, inside⟩

theorem Nested.tree_cursor {b : Builder} (h : b.Nested) {f : TreeFrame}
    {rest : List OpenElement} (opened : b.opened = .tree :: rest) (tree : b.tree = some f) :
    f.cursor = [] ∧ ∀ o ∈ rest, o = .other := by
  have inside := (h.inTree tree).1
  rw [opened] at inside
  generalize hcursor : f.cursor = cursor at inside
  cases inside with
  | tree plain => exact ⟨rfl, plain⟩

/-- A type is open as long as a row or the type itself is. -/
theorem Nested.current_of_opened {b : Builder} (h : b.Nested) {o : OpenElement}
    {rest : List OpenElement} (opened : b.opened = o :: rest)
    (inType : o = .type ∨ ∃ e, o = .row e) : b.current ≠ none := by
  cases h with
  | idle plain =>
    have := plain o (opened ▸ List.mem_cons_self ..)
    rcases inType with rfl | ⟨e, rfl⟩ <;> cases this
  | type _ current => simp [current]
  | tree inside =>
    rw [opened] at inside
    rcases inType with rfl | ⟨e, rfl⟩ <;> cases inside

/-- A tree is open as long as a node, a path or the tree itself is. -/
theorem Nested.tree_of_opened {b : Builder} (h : b.Nested) {o : OpenElement}
    {rest : List OpenElement} (opened : b.opened = o :: rest)
    (inTree : o = .tree ∨ o = .path ∨ ∃ id, o = .node id) : b.tree ≠ none := by
  cases h with
  | idle plain =>
    have := plain o (opened ▸ List.mem_cons_self ..)
    rcases inTree with rfl | rfl | ⟨id, rfl⟩ <;> cases this
  | type inside =>
    rw [opened] at inside
    rcases inTree with rfl | rfl | ⟨id, rfl⟩ <;> cases inside
  | tree _ _ tree => simp [tree]

theorem nested_entered {t : NameTables} {b b' : Builder} {e : Element} (hb : b.Nested)
    (h : Entered t b e b') : b'.Nested := by
  cases h with
  | type idle =>
    exact .type (.type (hb.plain_of_idle idle)) rfl (isIdle_eq_true.mp idle).2
  | row current =>
    obtain ⟨inside, tree⟩ := hb.inType current
    exact .type (inside.row e) current tree
  | tree idle =>
    refine .tree ?_ (isIdle_eq_true.mp idle).1 rfl
    exact .tree (hb.plain_of_idle idle)
  | path tree kind made =>
    obtain ⟨inside, current⟩ := hb.inTree tree
    obtain ⟨empty, last, cursor⟩ := TreeFrame.openPath_cursor made
    refine .tree ?_ current rfl
    rw [cursor]
    exact .path last (empty ▸ inside)
  | node tree levelled attached =>
    obtain ⟨inside, current⟩ := hb.inTree tree
    obtain ⟨-, -, value, -, -, rfl⟩ := TreeFrame.openNode_eq_ok attached
    refine .tree ?_ current rfl
    exact .node _ inside
  | other =>
    cases hb with
    | idle plain current tree => exact .idle (by simpa [enter] using plain) current tree
    | type inside current tree => exact .type inside.other current tree
    | tree inside current tree => exact .tree inside.other current tree

theorem nested_left {t : NameTables} {ceiling : Nat} {b b' : Builder} (hb : b.Nested)
    (h : Left t ceiling b b') : b'.Nested := by
  cases h with
  | outside => exact hb
  | other opened =>
    cases hb with
    | idle plain current tree =>
      refine .idle ?_ current tree
      intro o ho
      exact plain o (opened ▸ List.mem_cons_of_mem _ ho)
    | type inside current tree =>
      rw [opened] at inside
      cases inside with
      | other inside => exact .type inside current tree
    | tree inside current tree =>
      rw [opened] at inside
      cases inside with
      | other inside => exact .tree inside current tree
  | row opened current =>
    obtain ⟨inside, tree⟩ := hb.inType current
    rw [opened] at inside
    cases inside with
    | row _ inside => exact .type inside rfl tree
  | enumeration opened current | bitfield opened current | dictionary opened current =>
    obtain ⟨inside, tree⟩ := hb.inType current
    rw [opened] at inside
    cases inside with
    | type plain => exact .idle plain rfl tree
  | node opened tree named =>
    obtain ⟨cursor, hcursor, inside⟩ := hb.node_cursor opened tree
    obtain ⟨node, name, taken, -, -, rfl⟩ := TreeFrame.nameNode_eq_ok named
    refine .tree ?_ (hb.inTree tree).2 rfl
    change InTree _ (List.drop 1 _)
    rw [hcursor]
    exact inside
  | path opened tree =>
    obtain ⟨last, hcursor, inside⟩ := hb.path_cursor opened tree
    refine .tree ?_ (hb.inTree tree).2 rfl
    change InTree _ (List.drop 1 _)
    rw [hcursor]
    exact inside
  | tree opened tree => exact .idle (hb.tree_cursor opened tree).2 (hb.inTree tree).2 rfl
  | noType opened inType none => exact absurd none (hb.current_of_opened opened inType)
  | noTree opened inTree none => exact absurd none (hb.tree_of_opened opened inTree)

theorem ofReader_nested {t : NameTables} {ceiling : Nat} {r : Reader} {b : Builder}
    (h : ofReader t ceiling r = .ok b) : b.Nested :=
  (walk_keeps (fun _ => nested_entered) nested_left).run (nested_ofTable t.types)
    (Walk.through_eq_ok.mp h).2

end Builder

end EnumRegistry
