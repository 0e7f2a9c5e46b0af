import EnumRegistry.Proofs.Building.Stack
import EnumRegistry.Proofs.Building.Ways

/-!
The builder's walk over a forest of elements. Whatever it enters it leaves again, so the same
elements are open afterwards; inside a type or a tree no other is begun, and the model stays as it
is until the type or tree ends.
-/

namespace EnumRegistry

theorem Element.selectedTree?_of_declaresType {e : Element}
    (declares : e.kind.declaresType = true) :
    e.kind.isPlain = false ∧ e.selectedTree? = none := by
  cases kind : e.kind <;> simp_all [ElementKind.declaresType, ElementKind.isPlain, selectedTree?]

theorem Element.isPlain_of_selectedTree? {e : Element} {selected : Hierarchy × String}
    (h : e.selectedTree? = some selected) :
    e.kind.isPlain = false ∧ e.kind.declaresType = false := by
  cases kind : e.kind <;> simp_all [ElementKind.declaresType, ElementKind.isPlain, selectedTree?]

namespace Builder

variable {t : NameTables} {ceiling : Nat}

/-- What is known of an element that is not entered. -/
theorem start_eq_none {b : Builder} {e : Element}
    (h : b.start t e = .ok none) : e.kind.isPlain = false ∧
      (b.isIdle = true → e.selectedTree? = none) ∧
      ∀ f, b.tree = some f → e.kind.isNode = false ∧
        (e.kind.opensPath = true → f.openPath t.types e = .ok none) := by
  cases kind : e.kind with
  | enumeration | bitfield | dictionary | enumerationRow | enumerationRange | bitfieldRow
  | dictionaryRow =>
    exact ⟨rfl, fun _ => by simp [Element.selectedTree?, kind],
      fun _ _ => ⟨rfl, fun asks => by cases asks⟩⟩
  | entityTree | objectTree | jammerTree =>
    refine ⟨rfl, fun idle => ?_, fun _ _ => ⟨rfl, fun asks => by cases asks⟩⟩
    simp only [start, kind, startSelected, startTree, idle, Element.selectedTree?] at h ⊢
    simp_all
  | entity | object =>
    refine ⟨rfl, fun _ => by simp [Element.selectedTree?, kind], fun f tree => ⟨rfl, fun _ => ?_⟩⟩
    simp only [start, kind, startPath, tree, bind_eq_ok] at h
    obtain ⟨made, hmade, h⟩ := h
    cases made with
    | none => exact hmade
    | some made => cases h
  | revision | other => simp [start, kind, ElementKind.level?] at h
  | category | subCategory | subCategoryRange | specific | extra | jammerKind | jammerCategory
  | jammerSubCategory | jammerSpecific =>
    refine ⟨rfl, fun _ => by simp [Element.selectedTree?, kind], fun f tree => ?_⟩
    simp only [start, kind, ElementKind.level?, startNode, tree, bind_eq_ok, Prod.exists] at h
    obtain ⟨id, frame, -, h⟩ := h
    cases h

/-- Once an element is left, the same elements are open as before it. -/
theorem through_opened {b entered left between : Builder}
    {e : Element} (start : Entered t b e entered) (opened : left.opened = entered.opened)
    (finish : Left t ceiling left between) : between.opened = b.opened := by
  obtain ⟨o, pushed, -⟩ := entered_completes start
  rw [left_opened finish, opened, pushed, List.drop_one, List.tail_cons]

/-- Leaving a plain element changes nothing but what is open. -/
theorem finish_plain {left between : Builder} {rest : List OpenElement}
    (finish : left.finish t ceiling = .ok between) (opened : left.opened = .other :: rest) :
    between = { left with opened := rest } := by
  simpa [Builder.finish, opened] using finish.symm

/-- A walk over a forest leaves whatever it enters. -/
theorem visit_opened {forest : Forest} {b b' : Builder}
    (walked : (walk t ceiling).visit forest b = .ok b') : b'.opened = b.opened := by
  induction forest generalizing b b' with
  | nil =>
    cases walked
    rfl
  | node e inside behind ih_inside ih_behind =>
    obtain ⟨between, passes, rest⟩ := Walk.visit_node _ walked
    rw [ih_behind rest]
    cases passes with
    | deprecated | out => rfl
    | through current start visited finish =>
      exact through_opened (start_entered start) (ih_inside visited) (finish_left finish)

theorem visit_treesInOrder {forest : Forest} {b b' : Builder}
    (inOrder : b.TreesInOrder t) (walked : (walk t ceiling).visit forest b = .ok b') :
    b'.TreesInOrder t :=
  (walk_keeps (fun _ => entered_treesInOrder) left_treesInOrder).visit inOrder walked

/-- Leaving what is neither a type nor a tree adds nothing to the model and ends neither. -/
theorem left_quiet {b b' : Builder} {o : OpenElement} {rest : List OpenElement}
    (h : Left t ceiling b b') (opened : b.opened = o :: rest) (noType : o ≠ .type)
    (noTree : o ≠ .tree) :
    b'.isIdle = b.isIdle ∧ b'.model = b.model ∧ b'.emitted = b.emitted := by
  cases h with
  | outside closed =>
    rw [closed] at opened
    cases opened
  | other | noType | noTree => exact ⟨rfl, rfl, rfl⟩
  | row closed current => exact ⟨by simp [isIdle, current, note], rfl, rfl⟩
  | node closed tree => exact ⟨by simp [isIdle, tree, note], rfl, rfl⟩
  | path closed tree => exact ⟨by simp [isIdle, tree], rfl, rfl⟩
  | enumeration closed | bitfield closed | dictionary closed | tree closed =>
    obtain ⟨rfl, -⟩ := List.cons_eq_cons.mp (closed.symm.trans opened)
    contradiction

/-- Inside a type or a tree no other is begun. -/
theorem visit_busy {forest : Forest} {b b' : Builder} (busy : b.isIdle = false)
    (walked : (walk t ceiling).visit forest b = .ok b') :
    b'.isIdle = false ∧ b'.model = b.model ∧ b'.emitted = b.emitted := by
  induction forest generalizing b b' with
  | nil =>
    cases walked
    exact ⟨busy, rfl, rfl⟩
  | node e inside behind ih_inside ih_behind =>
    obtain ⟨between, passes, rest⟩ := Walk.visit_node _ walked
    suffices h : between.isIdle = false ∧ between.model = b.model ∧ between.emitted = b.emitted by
      obtain ⟨busy', model, emitted⟩ := h
      obtain ⟨busy'', model', emitted'⟩ := ih_behind busy' rest
      exact ⟨busy'', model'.trans model, emitted'.trans emitted⟩
    cases passes with
    | deprecated | out => exact ⟨busy, rfl, rfl⟩
    | @through entered left _ _ start visited finish =>
      have opened := visit_opened visited
      suffices h : entered.isIdle = false ∧ entered.model = b.model ∧
          entered.emitted = b.emitted ∧ ∃ o, entered.opened = o :: b.opened ∧ o ≠ .type ∧
            o ≠ .tree by
        obtain ⟨busy', model, emitted, o, pushed, noType, noTree⟩ := h
        obtain ⟨busy'', model', emitted'⟩ := ih_inside busy' visited
        obtain ⟨same, model'', emitted''⟩ :=
          left_quiet (finish_left finish) (opened.trans pushed) noType noTree
        exact ⟨same.trans busy'', model''.trans (model'.trans model),
          emitted''.trans (emitted'.trans emitted)⟩
      cases start_entered start with
      | type idle | tree idle => cases busy.symm.trans idle
      | row | other => exact ⟨busy, rfl, rfl, _, rfl, by simp, by simp⟩
      | path | node => exact ⟨by simp [isIdle, enter, note], rfl, rfl, _, rfl, by simp, by simp⟩

/-- Where only plain elements are open, neither a type nor a tree is. -/
theorem Nested.isIdle_of_plain {b : Builder} (nested : b.Nested)
    (plain : ∀ o ∈ b.opened, o = .other) : b.isIdle = true := by
  obtain ⟨types, trees⟩ := nested.countP
  obtain ⟨noType, noTree⟩ := countP_plain plain
  rw [noType] at types
  rw [noTree] at trees
  rw [isIdle_eq_true]
  constructor
  · simpa using types
  · simpa using trees

end Builder

end EnumRegistry
