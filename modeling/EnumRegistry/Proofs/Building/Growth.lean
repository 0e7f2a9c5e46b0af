import EnumRegistry.Proofs.Building.TreeFrame

/-!
Trees that grow while they are assembled. New children stand behind the old ones, so a search by
level and value finds what it found before; the nodes of a path, found or made once, are found again
at any later time.
-/

namespace EnumRegistry

namespace ClassificationTree

/-- The one tree is a stage of the other: nothing is lost, and new children stand behind. -/
structure Grows (t t' : ClassificationTree) : Prop where
  larger : t.Extends t'
  children : ∀ p, t.childrenOf p <+: t'.childrenOf p

theorem Grows.refl (t : ClassificationTree) : t.Grows t := ⟨.refl t, fun _ => List.prefix_refl _⟩

theorem Grows.trans {t u v : ClassificationTree} (htu : t.Grows u) (huv : u.Grows v) :
    t.Grows v :=
  ⟨htu.larger.trans huv.larger, fun p => (htu.children p).trans (huv.children p)⟩

theorem grows_append (t : ClassificationTree) {parent : Option Nat} (node : ClassificationNode)
    (valid : ∀ p, parent = some p → p < t.size) : t.Grows (t.append parent node) where
  larger := extends_append t parent node
  children p := by
    rw [childrenOf_append valid]
    exact List.prefix_append ..

theorem grows_named (t : ClassificationTree) (id : Nat) (name : String) :
    t.Grows (t.named id name) where
  larger := extends_named t id name
  children p := (childrenOf_named t id name p).symm ▸ List.prefix_refl _

/-- Whether a node has a level and a value. -/
def fits (t : ClassificationTree) (level : Level) (value : Int) (id : Nat) : Bool :=
  t.nodes[id]?.any fun n => n.level == level && n.value == value

theorem findChild?_eq (t : ClassificationTree) (parent : Option Nat) (level : Level)
    (value : Int) : t.findChild? parent level value =
      (t.childrenOf parent).find? (t.fits level value) := rfl

theorem fits_extends {t t' : ClassificationTree} (e : t.Extends t') {id : Nat} (hid : id < t.size)
    (level : Level) (value : Int) : t'.fits level value id = t.fits level value id := by
  obtain ⟨n, hn⟩ := getElem?_of_lt_size hid
  obtain ⟨n', hn', same⟩ := e.node hn
  rw [fits, fits, hn, hn', Option.any_some, Option.any_some, same]

/-- Among the old children a search finds what it found before. -/
theorem find?_extends {t t' : ClassificationTree} (h : t.WellFormed) (e : t.Extends t')
    (parent : Option Nat) (level : Level) (value : Int) :
    (t.childrenOf parent).find? (t'.fits level value) = t.findChild? parent level value := by
  have fits : ∀ id ∈ t.childrenOf parent, t'.fits level value id = t.fits level value id :=
    fun id hid => fits_extends e (lt_size_of_mem_childrenOf h hid) level value
  rw [findChild?_eq, ← List.head?_filter, ← List.head?_filter, List.filter_congr fits]

theorem findChild?_grows {t t' : ClassificationTree} (h : t.WellFormed) (grows : t.Grows t')
    {parent : Option Nat} {level : Level} {value : Int} {id : Nat}
    (found : t.findChild? parent level value = some id) :
    t'.findChild? parent level value = some id := by
  obtain ⟨more, children⟩ := grows.children parent
  rw [findChild?_eq, ← children, List.find?_append, find?_extends h grows.larger, found,
    Option.some_or]

theorem findChild?_eq_some {t : ClassificationTree} (h : t.WellFormed) {parent : Option Nat}
    {level : Level} {value : Int} {id : Nat} (found : t.findChild? parent level value = some id) :
    ∃ n, t.nodes[id]? = some n ∧ n.parent = parent ∧ n.level = level ∧ n.value = value := by
  obtain ⟨n, hn, parent⟩ := h.mem_childrenOf.mp (List.mem_of_find?_eq_some found)
  have fit := List.find?_some found
  simp only [hn, Option.any_some, Bool.and_eq_true, beq_iff_eq] at fit
  exact ⟨n, hn, parent, fit⟩

/-- The node that steps of level and value lead to below a node, by the first child that fits. -/
def locate (t : ClassificationTree) : Option Nat → List (Level × Int) → Option Nat
  | parent, [] => parent
  | parent, (level, value) :: steps =>
    (t.findChild? parent level value).bind fun id => t.locate (some id) steps

theorem locate_grows {t t' : ClassificationTree} (h : t.WellFormed) (grows : t.Grows t')
    {parent : Option Nat} {steps : List (Level × Int)} {id : Nat}
    (found : t.locate parent steps = some id) : t'.locate parent steps = some id := by
  induction steps generalizing parent with
  | nil => exact found
  | cons step steps ih =>
    obtain ⟨child, first, rest⟩ := Option.bind_eq_some_iff.mp found
    rw [locate, findChild?_grows h grows first]
    exact ih rest

end ClassificationTree

namespace TreeFrame

open ClassificationTree

/-- The levels and values of the path that an element asks for. -/
def stepsOf (hierarchy : Hierarchy) (e : Element) : List (Level × Int) :=
  match pathSteps hierarchy e with
  | .ok (some steps) => steps.map fun step => (step.1.level, step.2)
  | _ => []

/-- A node of a path, found or made, is found from then on. -/
theorem pathNode_located {types : TypeTable} {f f' : TreeFrame} {parent : Option Nat}
    {step : PathStep} {id : Nat} {found : List Diagnostic} (h : f.tree.WellFormed)
    (made : pathNode types f parent step = .ok (id, f', found)) :
    f'.tree.WellFormed ∧ f.tree.Grows f'.tree ∧
      f'.tree.findChild? parent step.1.level step.2 = some id := by
  rcases pathNode_eq_ok made with ⟨found, rfl⟩ | ⟨name, taken, absent, rfl, valid, -, -, rfl⟩
  · exact ⟨h, .refl _, found⟩
  · have grows := (grows_append f.tree (segmentNode types step) valid).trans
      (grows_named _ f.tree.size name)
    refine ⟨wellFormed_named (wellFormed_append h valid) _ _, grows, ?_⟩
    have new : ((f.tree.append parent (segmentNode types step)).named f.tree.size name).fits
        step.1.level step.2 f.tree.size = true := by
      simp [fits, getElem?_named, getElem?_append_size valid, segmentNode]
    rw [tree_setScope, findChild?_eq, childrenOf_named, childrenOf_append valid, if_pos rfl,
      List.find?_append, find?_extends h grows.larger, absent, Option.none_or,
      List.find?_cons_of_pos new]

theorem pathNodes_located {types : TypeTable} {steps : List PathStep} {f f' : TreeFrame}
    {parent last : Option Nat} {found : List Diagnostic} (h : f.tree.WellFormed)
    (made : pathNodes types f parent steps = .ok (last, f', found)) :
    f'.tree.WellFormed ∧ f.tree.Grows f'.tree ∧
      f'.tree.locate parent (steps.map fun step => (step.1.level, step.2)) = last := by
  induction steps generalizing f parent found with
  | nil =>
    simp only [pathNodes, Except.ok.injEq, Prod.mk.injEq] at made
    obtain ⟨rfl, rfl, -⟩ := made
    exact ⟨h, .refl _, rfl⟩
  | cons step steps ih =>
    simp only [pathNodes, bind_eq_ok, Prod.exists, pure_eq_ok, Except.ok.injEq,
      Prod.mk.injEq] at made
    obtain ⟨id, g, _, first, _, _, _, rest, rfl, rfl, -⟩ := made
    obtain ⟨between, grows, at_first⟩ := pathNode_located h first
    obtain ⟨after, grows', located⟩ := ih between rest
    refine ⟨after, grows.trans grows', ?_⟩
    rw [List.map_cons, locate, findChild?_grows between grows' at_first]
    exact located

/-- Where a path was opened, its steps lead to the innermost open node. -/
theorem openPath_located {types : TypeTable} {f f' : TreeFrame} {e : Element}
    {found : List Diagnostic} (h : f.tree.WellFormed)
    (made : f.openPath types e = .ok (some (f', found))) :
    f'.tree.WellFormed ∧ f.tree.Grows f'.tree ∧
      f'.tree.locate none (stepsOf f'.tree.hierarchy e) = f'.cursor.head? := by
  obtain ⟨empty, steps, last, g, hsteps, hpath, rfl⟩ := openPath_eq_ok made
  obtain ⟨wellFormed, grows, located⟩ := pathNodes_located h hpath
  refine ⟨wellFormed, grows, ?_⟩
  have cursor : last.toList ++ g.cursor = last.toList := by
    rw [(pathNodes_cursor hpath).1, empty, List.append_nil]
  simp only [stepsOf, grows.larger.hierarchy, hsteps, located, cursor]
  cases last <;> rfl

theorem openNode_grows {f f' : TreeFrame} {level : Level} {e : Element} {id : Nat}
    (made : f.openNode level e = .ok (id, f')) : f.tree.Grows f'.tree := by
  obtain ⟨rfl, valid, value, -, -, rfl⟩ := openNode_eq_ok made
  exact grows_append f.tree _ valid

theorem nameNode_grows {o : Overrides} {f f' : TreeFrame} {id : Nat} {found : List Diagnostic}
    (made : f.nameNode o id = .ok (f', found)) : f.tree.Grows f'.tree := by
  obtain ⟨node, name, taken, -, -, rfl⟩ := nameNode_eq_ok made
  exact grows_named f.tree id name

end TreeFrame

end EnumRegistry
