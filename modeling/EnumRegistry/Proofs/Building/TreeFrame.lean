import EnumRegistry.Proofs.Building.Settled

/-!
The operations on a tree that is being assembled keep its names in order. A path only opens when
nothing waits for a name; a node opens below the innermost open one, which is younger than all
others, so no sibling of it waits; and the node that is named is the youngest that waits.
-/

namespace EnumRegistry.TreeFrame

open ClassificationTree

@[simp] theorem tree_setScope (f : TreeFrame) (p : Option Nat) (s : NameScope) :
    (f.setScope p s).tree = f.tree := rfl

@[simp] theorem cursor_setScope (f : TreeFrame) (p : Option Nat) (s : NameScope) :
    (f.setScope p s).cursor = f.cursor := rfl

theorem scope_setScope (f : TreeFrame) (p : Option Nat) (s : NameScope) :
    (f.setScope p s).scope = fun q => if p = q then s else f.scope q := by
  funext q
  simp only [scope, setScope, Std.TreeMap.getElem?_insert, Std.LawfulEqCmp.compare_eq_iff_eq]
  split <;> rfl

/-! ## What the operations do -/

/-- The node of an element, before it has a name. -/
def elementNode (level : Level) (value : Int) (e : Element) : ClassificationNode where
  level := level
  value := value
  uid := e.uid?
  description := e.description

theorem openNode_eq_ok {f f' : TreeFrame} {level : Level} {e : Element} {id : Nat}
    (h : f.openNode level e = .ok (id, f')) :
    id = f.tree.size ∧ (∀ p, f.cursor.head? = some p → p < f.tree.size) ∧
      ∃ value, e.value = .ok value ∧
        admits (f.cursor.head?.bind fun p => f.tree.nodes[p]?.map (·.level)) level = true ∧
        f' = { f with
          tree := f.tree.append f.cursor.head? (elementNode level value e)
          cursor := id :: f.cursor } := by
  simp only [openNode, bind_eq_ok, ofRegistry_eq_ok, ofTree_eq_ok, Prod.exists, pure_eq_ok,
    Except.ok.injEq, Prod.mk.injEq] at h
  obtain ⟨value, hvalue, _, tree, attached, rfl, rfl⟩ := h
  obtain ⟨rfl, rfl, valid, admitted⟩ := attach_eq_ok attached
  exact ⟨rfl, valid, value, hvalue, admitted, rfl⟩

theorem nameNode_eq_ok {o : Overrides} {f f' : TreeFrame} {id : Nat} {found : List Diagnostic}
    (h : f.nameNode o id = .ok (f', found)) :
    ∃ node name taken, f.tree.nodes[id]? = some node ∧
      (f.scope node.parent).claim (naming o f.tree id node).base = .ok (name, taken) ∧
      f' = { f with tree := f.tree.named id name }.setScope node.parent taken := by
  unfold nameNode at h
  cases hnode : f.tree.nodes[id]? with
  | none => simp [hnode] at h
  | some node =>
    simp only [hnode, bind_eq_ok, ofScope_eq_ok, ofTree_eq_ok, Naming.resolve, Prod.exists,
      pure_eq_ok, Except.ok.injEq, Prod.mk.injEq] at h
    obtain ⟨_, _, ⟨name, taken, claimed, rfl, rfl⟩, tree, named, rfl, -⟩ := h
    obtain ⟨-, -, rfl⟩ := setName_eq_ok named
    exact ⟨node, name, taken, rfl, claimed, rfl⟩

/-- The node of a path segment, before it has a name. -/
def segmentNode (types : TypeTable) (step : PathStep) : ClassificationNode where
  level := step.1.level
  value := step.2
  description := segmentBase types step.1 step.1.level step.2

theorem pathLabel_fst (types : TypeTable) (uid : String) (step : PathStep) :
    (pathLabel types uid step).1 = segmentBase types step.1 step.1.level step.2 := by
  unfold pathLabel segmentBase
  dsimp only
  split <;> simp_all

theorem pathNode_eq_ok {types : TypeTable} {f f' : TreeFrame} {parent : Option Nat}
    {step : PathStep} {id : Nat} {found : List Diagnostic}
    (h : pathNode types f parent step = .ok (id, f', found)) :
    (f.tree.findChild? parent step.1.level step.2 = some id ∧ f' = f) ∨
    ∃ name taken, f.tree.findChild? parent step.1.level step.2 = none ∧ id = f.tree.size ∧
      (∀ p, parent = some p → p < f.tree.size) ∧
      admits (parent.bind fun p => f.tree.nodes[p]?.map (·.level)) step.1.level = true ∧
      (f.scope parent).claim (segmentBase types step.1 step.1.level step.2) = .ok (name, taken) ∧
      f' = { f with tree := (f.tree.append parent (segmentNode types step)).named id name }.setScope
        parent taken := by
  unfold pathNode at h
  dsimp only at h
  cases hfound : f.tree.findChild? parent step.1.level step.2 with
  | some child =>
    simp only [hfound, pure_eq_ok, Except.ok.injEq, Prod.mk.injEq] at h
    obtain ⟨rfl, rfl, -⟩ := h
    exact .inl ⟨rfl, rfl⟩
  | none =>
    simp only [hfound, pathLabel_fst, bind_eq_ok, ofScope_eq_ok, ofTree_eq_ok, Prod.exists,
      pure_eq_ok, Except.ok.injEq, Prod.mk.injEq] at h
    obtain ⟨_, _, attached, name, taken, claimed, tree, named, rfl, rfl, -⟩ := h
    obtain ⟨rfl, rfl, valid, admitted⟩ := attach_eq_ok attached
    obtain ⟨-, -, rfl⟩ := setName_eq_ok named
    exact .inr ⟨name, taken, rfl, rfl, valid, admitted, claimed, rfl⟩

theorem openPath_eq_ok {types : TypeTable} {f f' : TreeFrame} {e : Element}
    {found : List Diagnostic} (h : f.openPath types e = .ok (some (f', found))) :
    f.cursor = [] ∧ ∃ steps last g, pathSteps f.tree.hierarchy e = .ok (some steps) ∧
      pathNodes types f none steps = .ok (last, g, found) ∧
      f' = { g with cursor := last.toList ++ g.cursor } := by
  unfold openPath at h
  cases hempty : f.cursor.isEmpty with
  | false => simp [hempty] at h
  | true =>
    simp only [hempty, Bool.not_true, Bool.false_eq_true, ↓reduceIte, bind_eq_ok,
      ofRegistry_eq_ok] at h
    obtain ⟨steps, hsteps, h⟩ := h
    cases steps with
    | none => simp at h
    | some steps =>
      simp only [bind_eq_ok, Prod.exists, pure_eq_ok, Except.ok.injEq, Option.some.injEq,
        Prod.mk.injEq] at h
      obtain ⟨last, g, _, hpath, rfl, rfl⟩ := h
      exact ⟨List.isEmpty_iff.mp hempty, steps, last, g, hsteps, hpath, rfl⟩

theorem pathNode_cursor {types : TypeTable} {f f' : TreeFrame} {parent : Option Nat}
    {step : PathStep} {id : Nat} {found : List Diagnostic}
    (h : pathNode types f parent step = .ok (id, f', found)) : f'.cursor = f.cursor := by
  rcases pathNode_eq_ok h with ⟨-, rfl⟩ | ⟨name, taken, -, -, -, -, -, rfl⟩ <;> rfl

theorem pathNodes_cursor {types : TypeTable} {steps : List PathStep} {f f' : TreeFrame}
    {parent last : Option Nat} {found : List Diagnostic}
    (h : pathNodes types f parent steps = .ok (last, f', found)) :
    f'.cursor = f.cursor ∧ (parent ≠ none ∨ steps ≠ [] → last ≠ none) := by
  induction steps generalizing f parent found with
  | nil =>
    simp only [pathNodes, Except.ok.injEq, Prod.mk.injEq] at h
    obtain ⟨rfl, rfl, -⟩ := h
    exact ⟨rfl, by simp⟩
  | cons step steps ih =>
    simp only [pathNodes, bind_eq_ok, Prod.exists, pure_eq_ok, Except.ok.injEq,
      Prod.mk.injEq] at h
    obtain ⟨id, g, _, first, _, _, _, rest, rfl, rfl, -⟩ := h
    obtain ⟨cursor, ends⟩ := ih rest
    exact ⟨cursor.trans (pathNode_cursor first), fun _ => ends (.inl (by simp))⟩

/-! ## The tables of a path -/

/-- Each step looks its label up where the hierarchy and the code before it say. -/
def Follows (hierarchy : Hierarchy) : Option Int → List PathStep → Prop
  | _, [] => True
  | above, step :: steps =>
    step.1 = tableAt hierarchy step.1.level above ∧ Follows hierarchy (some step.2) steps

theorem pathSteps_follows {hierarchy : Hierarchy} {e : Element} {steps : List PathStep}
    (h : pathSteps hierarchy e = .ok (some steps)) :
    Follows hierarchy none steps ∧ steps ≠ [] := by
  simp only [pathSteps, bind_eq_ok] at h
  obtain ⟨kind, -, domain, -, h⟩ := h
  cases hierarchy with
  | entityTypes =>
    simp only [bind_eq_ok, pure_eq_ok, Except.ok.injEq, Option.some.injEq] at h
    obtain ⟨country, -, rfl⟩ := h
    have level : (LookupTable.domainOf kind).level = .domain := by
      unfold LookupTable.domainOf
      split
      · rfl
      · split <;> rfl
    exact ⟨⟨rfl, rfl, by rw [level]; rfl, trivial⟩, by simp⟩
  | objectTypes =>
    simp only [pure_eq_ok, Except.ok.injEq, Option.some.injEq] at h
    obtain rfl := h
    exact ⟨⟨rfl, rfl, trivial⟩, by simp⟩
  | jammerTechniques => simp at h

/-- A path opens where nothing is open, and its last node is open then. -/
theorem openPath_cursor {types : TypeTable} {f f' : TreeFrame} {e : Element}
    {found : List Diagnostic} (h : f.openPath types e = .ok (some (f', found))) :
    f.cursor = [] ∧ ∃ last, f'.cursor = [last] := by
  obtain ⟨empty, steps, last, g, hsteps, hpath, rfl⟩ := openPath_eq_ok h
  obtain ⟨cursor, ends⟩ := pathNodes_cursor hpath
  obtain ⟨last, rfl⟩ := Option.ne_none_iff_exists'.mp (ends (.inr (pathSteps_follows hsteps).2))
  exact ⟨empty, last, by simp [cursor, empty]⟩

theorem isPathOnly_level (table : LookupTable) : table.level.isPathOnly = true := by
  cases table <;> rfl

/-! ## What the operations keep -/

/-- A tree in which all nodes that wait for a name are open, none of them a path segment. -/
structure Sound (t : NameTables) (f : TreeFrame) (pending : List Nat) : Prop where
  settled : Settled t f.tree f.scope pending
  cursor_lt : ∀ id ∈ f.cursor, id < f.tree.size
  descending : f.cursor.Pairwise (· > ·)
  waiting : pending.Sublist f.cursor
  derived : ∀ id ∈ pending, ∀ n, f.tree.nodes[id]? = some n → n.level.isPathOnly = false

theorem sound_new (t : NameTables) (hierarchy : Hierarchy) (uid : String) :
    Sound t (new hierarchy uid) [] where
  settled := settled_new t hierarchy uid fun p => by simp [scope, new]
  cursor_lt := by simp [new]
  descending := .nil
  waiting := List.nil_sublist _
  derived := by simp

/-- The base name of a node that is no path segment is the one its naming gives. -/
theorem naming_base {t : NameTables} {tree : ClassificationTree} {id : Nat}
    {n : ClassificationNode} (hn : tree.nodes[id]? = some n)
    (derived : n.level.isPathOnly = false) :
    (naming t.overrides tree id n).base = baseName t tree id := by
  simp only [Naming.base, naming, baseName, hn, derived]
  cases t.overrides.specialCase? tree.uid n.description <;> rfl

theorem baseName_append {t : NameTables} {tree : ClassificationTree} {parent : Option Nat}
    {node : ClassificationNode} (valid : ∀ p, parent = some p → p < tree.size)
    (segment : node.level.isPathOnly = true) :
    baseName t (tree.append parent node) tree.size =
      segmentBase t.types (tableAt tree.hierarchy node.level (parent.map tree.code)) node.level
        node.value := by
  have larger := extends_append tree parent node
  have above := map_code_extends larger valid
  simp only [baseName, getElem?_append_size valid, segment, ↓reduceIte, larger.hierarchy, above]

theorem settled_pathNode {t : NameTables} {f f' : TreeFrame} {parent : Option Nat}
    {step : PathStep} {id : Nat} {found : List Diagnostic} (h : Settled t f.tree f.scope [])
    (valid : ∀ p, parent = some p → p < f.tree.size)
    (table : step.1 = tableAt f.tree.hierarchy step.1.level (parent.map f.tree.code))
    (made : pathNode t.types f parent step = .ok (id, f', found)) :
    Settled t f'.tree f'.scope [] ∧ f.tree.Extends f'.tree ∧ id < f'.tree.size ∧
      f'.tree.code id = step.2 := by
  rcases pathNode_eq_ok made with ⟨hfound, rfl⟩ | ⟨name, taken, -, rfl, -, -, claimed, rfl⟩
  · have hmem := List.mem_of_find?_eq_some hfound
    obtain ⟨n, hn, -⟩ := h.wellFormed.mem_childrenOf.mp hmem
    have same := List.find?_some hfound
    simp only [hn, Option.any_some, Bool.and_eq_true, beq_iff_eq] at same
    exact ⟨h, .refl _, lt_size_of_getElem? hn, by simp [code, hn, same.2]⟩
  · have attached := h.append (segmentNode t.types step) valid (by simp)
    have parent_new : (f.tree.append parent (segmentNode t.types step)).parent? f.tree.size =
        parent := by
      simp [parent?, getElem?_append_size valid]
    have base : baseName t (f.tree.append parent (segmentNode t.types step)) f.tree.size =
        segmentBase t.types step.1 step.1.level step.2 := by
      rw [baseName_append valid (isPathOnly_level step.1)]
      change segmentBase _ (tableAt _ step.1.level _) step.1.level step.2 = _
      rw [← table]
    have named := attached.named (by rw [parent_new, base]; exact claimed)
    rw [parent_new] at named
    have larger := (extends_append f.tree parent (segmentNode t.types step)).trans
      (extends_named _ f.tree.size name)
    refine ⟨?_, larger, ?_, ?_⟩
    · rw [scope_setScope]
      exact named
    · simp [size_append]
    · simp [code, getElem?_named, getElem?_append_size valid, segmentNode]

theorem settled_pathNodes {t : NameTables} {steps : List PathStep} {f f' : TreeFrame}
    {parent last : Option Nat} {found : List Diagnostic} (h : Settled t f.tree f.scope [])
    (valid : ∀ p, parent = some p → p < f.tree.size)
    (follows : Follows f.tree.hierarchy (parent.map f.tree.code) steps)
    (made : pathNodes t.types f parent steps = .ok (last, f', found)) :
    Settled t f'.tree f'.scope [] ∧ (∀ p, last = some p → p < f'.tree.size) := by
  induction steps generalizing f parent found with
  | nil =>
    simp only [pathNodes, Except.ok.injEq, Prod.mk.injEq] at made
    obtain ⟨rfl, rfl, -⟩ := made
    exact ⟨h, valid⟩
  | cons step steps ih =>
    simp only [pathNodes, bind_eq_ok, Prod.exists, pure_eq_ok, Except.ok.injEq,
      Prod.mk.injEq] at made
    obtain ⟨id, g, _, first, _, _, _, rest, rfl, rfl, -⟩ := made
    obtain ⟨table, follows⟩ := follows
    obtain ⟨settled, larger, hid, code⟩ := settled_pathNode h valid table first
    rw [← larger.hierarchy, ← code] at follows
    have inside (p : Nat) (hp : some id = some p) : p < g.tree.size := Option.some.inj hp ▸ hid
    exact ih settled inside follows rest

theorem sound_openPath {t : NameTables} {f f' : TreeFrame} {e : Element}
    {pending : List Nat} {found : List Diagnostic} (h : Sound t f pending)
    (made : f.openPath t.types e = .ok (some (f', found))) : Sound t f' pending := by
  obtain ⟨empty, last, single⟩ := openPath_cursor made
  obtain rfl : pending = [] := List.sublist_nil.mp (empty ▸ h.waiting)
  obtain ⟨-, steps, last', g, hsteps, hpath, rfl⟩ := openPath_eq_ok made
  have follows : Follows f.tree.hierarchy ((none : Option Nat).map f.tree.code) steps :=
    (pathSteps_follows hsteps).1
  obtain ⟨settled, hlast⟩ := settled_pathNodes h.settled (by simp) follows hpath
  have cursor : last'.toList ++ g.cursor = last'.toList := by
    rw [(pathNodes_cursor hpath).1, empty, List.append_nil]
  have single : last'.toList = [last] := cursor.symm.trans single
  refine ⟨settled, ?_, ?_, List.nil_sublist _, by simp⟩
  · intro id hid
    exact hlast id (Option.mem_toList.mp (cursor ▸ hid))
  · change (last'.toList ++ g.cursor).Pairwise (· > ·)
    rw [cursor, single]
    exact List.pairwise_singleton _ _

theorem sound_openNode {t : NameTables} {f f' : TreeFrame} {level : Level} {e : Element} {id : Nat}
    {pending : List Nat} (h : Sound t f pending) (derived : level.isPathOnly = false)
    (made : f.openNode level e = .ok (id, f')) :
    Sound t f' (id :: pending) := by
  obtain ⟨rfl, valid, value, -, -, rfl⟩ := openNode_eq_ok made
  -- Whatever waits stands in the cursor, so none of it is younger than the new node's parent.
  have clear (q : Nat) (hq : q ∈ pending) : f.tree.parent? q ≠ f.cursor.head? := by
    intro hparent
    have hmem := h.waiting.subset hq
    cases hcursor : f.cursor with
    | nil => simp [hcursor] at hmem
    | cons c rest =>
      rw [hcursor] at hmem hparent
      have below := (parent?_lt h.settled.wellFormed hparent).1
      have order := h.descending
      rw [hcursor, List.pairwise_cons] at order
      rcases List.mem_cons.mp hmem with rfl | hmem
      · exact Nat.lt_irrefl _ below
      · exact Nat.lt_asymm below (order.1 q hmem)
  refine ⟨h.settled.append (elementNode level value e) valid clear, ?_, ?_,
    h.waiting.cons_cons _, ?_⟩
  · intro i hi
    rw [size_append]
    rcases List.mem_cons.mp hi with rfl | hi
    · exact Nat.lt_succ_self _
    · exact Nat.lt_succ_of_lt (h.cursor_lt i hi)
  · exact List.pairwise_cons.mpr ⟨h.cursor_lt, h.descending⟩
  · intro i hi n hn
    rcases List.mem_cons.mp hi with rfl | hi
    · rw [getElem?_append_size valid, Option.some.injEq] at hn
      exact hn ▸ derived
    · obtain ⟨m, hm⟩ := getElem?_of_lt_size (h.settled.pending_lt i hi)
      obtain ⟨n', hn', same⟩ :=
        (extends_append f.tree f.cursor.head? (elementNode level value e)).node hm
      obtain rfl := Option.some.inj (hn'.symm.trans hn)
      rw [same]
      exact h.derived i hi m hm

theorem sound_nameNode {t : NameTables} {f f' : TreeFrame} {id : Nat} {rest pending : List Nat}
    {found : List Diagnostic} (h : Sound t f (id :: pending)) (cursor : f.cursor = id :: rest)
    (made : f.leave.nameNode t.overrides id = .ok (f', found)) : Sound t f' pending := by
  obtain ⟨n, name, taken, hn, claimed, rfl⟩ := nameNode_eq_ok made
  have derived := h.derived id (List.mem_cons_self ..) n hn
  have parent : f.tree.parent? id = n.parent := by
    change f.tree.nodes[id]? = some n at hn
    simp [parent?, hn]
  rw [naming_base hn derived] at claimed
  have settled := h.settled.named (parent.symm ▸ claimed)
  have left : f.leave.cursor = rest := by simp [leave, cursor]
  have order := h.descending
  rw [cursor, List.pairwise_cons] at order
  refine ⟨?_, ?_, ?_, ?_, ?_⟩
  · rw [scope_setScope, ← parent]
    exact settled
  · intro i hi
    rw [tree_setScope, size_named]
    exact h.cursor_lt i (cursor ▸ List.mem_cons_of_mem _ (left ▸ hi))
  · rw [cursor_setScope]
    exact left.symm ▸ order.2
  · rw [cursor_setScope]
    exact left.symm ▸ List.cons_sublist_cons.mp (cursor ▸ h.waiting)
  · intro i hi m hm
    rw [tree_setScope, getElem?_named] at hm
    obtain ⟨m', hm', rfl⟩ := Option.map_eq_some_iff.mp hm
    have level := h.derived i (List.mem_cons_of_mem _ hi) m' hm'
    split <;> exact level

theorem sound_leave {t : NameTables} {f : TreeFrame} {last : Nat} (h : Sound t f [])
    (cursor : f.cursor = [last]) : Sound t f.leave [] := by
  have left : f.leave.cursor = [] := by simp [leave, cursor]
  refine ⟨h.settled, ?_, ?_, List.nil_sublist _, h.derived⟩ <;> simp [left]

end EnumRegistry.TreeFrame
