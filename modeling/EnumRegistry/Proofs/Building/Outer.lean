import EnumRegistry.Proofs.Building.Visit

/-!
What is open around elements. A builder closes only what it has opened, so it does with the elements
inside the same whatever else is open; and a plain element does nothing.
-/

namespace EnumRegistry.Builder

variable {t : NameTables} {ceiling : Nat}

/-- A builder with further elements open around those that are. -/
def around (outer : List OpenElement) (b : Builder) : Builder :=
  { b with opened := b.opened ++ outer }

section
variable (outer : List OpenElement) (b : Builder) (e : Element)

theorem startType_around :
    Maps id (Option.map (around outer)) (b.startType t e) ((b.around outer).startType t e) := by
  have idle : (b.around outer).isIdle = b.isIdle := rfl
  have emitted : (b.around outer).emitted = b.emitted := rfl
  simp only [startType, idle, emitted]
  split
  · exact .ok none
  · cases e.uid? with
    | none => exact .ok none
    | some uid =>
      dsimp only
      cases t.types.name? uid with
      | none => exact .ok none
      | some name =>
        dsimp only
        split
        · exact .ok none
        · exact (Maps.refl _).bind fun frame => .ok _

theorem startRow_around : (b.around outer).startRow e = (b.startRow e).map (around outer) := by
  have current : (b.around outer).current = b.current := rfl
  unfold startRow
  rw [current]
  split <;> rfl

theorem startTree_around (hierarchy : Hierarchy) (uid : String) :
    (b.around outer).startTree hierarchy uid = (b.startTree hierarchy uid).map (around outer) := by
  have idle : (b.around outer).isIdle = b.isIdle := rfl
  unfold startTree
  rw [idle]
  split <;> rfl

theorem startSelected_around (hierarchy : Hierarchy) (uid : String) :
    (b.around outer).startSelected e hierarchy uid =
      (b.startSelected e hierarchy uid).map (around outer) := by
  unfold startSelected
  split
  · exact startTree_around outer b hierarchy uid
  · rfl

theorem startPath_around :
    Maps id (Option.map (around outer)) (b.startPath t e) ((b.around outer).startPath t e) := by
  have tree : (b.around outer).tree = b.tree := rfl
  unfold startPath
  rw [tree]
  cases b.tree with
  | none => exact .ok none
  | some frame =>
    refine (Maps.refl _).bind fun made => ?_
    cases made with
    | none => exact .ok none
    | some made => exact .ok _

theorem startNode_around (level : Level) : Maps id (Option.map (around outer))
    (b.startNode level e) ((b.around outer).startNode level e) := by
  have tree : (b.around outer).tree = b.tree := rfl
  unfold startNode
  rw [tree]
  cases b.tree with
  | none => exact .ok none
  | some frame => exact (Maps.refl _).bind fun ⟨id, frame⟩ => .ok _

theorem start_around :
    Maps id (Option.map (around outer)) (b.start t e) ((b.around outer).start t e) := by
  simp only [start, startRow_around, startTree_around, startSelected_around]
  split
  · exact startType_around outer b e
  · exact startType_around outer b e
  · exact startType_around outer b e
  · exact .ok _
  · exact .ok _
  · exact .ok _
  · exact .ok _
  · exact .ok _
  · exact .ok _
  · exact .ok _
  · exact startPath_around outer b e
  · exact startPath_around outer b e
  · split
    · exact startNode_around outer b e _
    · exact .ok _

theorem finishRow_around :
    Maps id (around outer) (b.finishRow t e) ((b.around outer).finishRow t e) := by
  have current : (b.around outer).current = b.current := rfl
  unfold finishRow
  rw [current]
  cases b.current with
  | none => exact .ok b
  | some frame => exact (Maps.refl _).bind fun ⟨frame, found⟩ => .ok _

theorem finishType_around :
    Maps id (around outer) (b.finishType ceiling) ((b.around outer).finishType ceiling) := by
  have current : (b.around outer).current = b.current := rfl
  unfold finishType
  dsimp only
  rw [current]
  cases b.current with
  | none => exact .ok b
  | some frame =>
    cases frame with
    | enumeration type scope => exact (Maps.refl _).bind fun ⟨parts, types⟩ => .ok _
    | bitfield type scope | dictionary type scope => exact .ok _

theorem finishNode_around (id' : Nat) :
    Maps id (around outer) (b.finishNode t id') ((b.around outer).finishNode t id') := by
  have tree : (b.around outer).tree = b.tree := rfl
  unfold finishNode
  rw [tree]
  cases b.tree with
  | none => exact .ok b
  | some frame => exact (Maps.refl _).bind fun ⟨frame, found⟩ => .ok _

theorem finishTree_around : (b.around outer).finishTree = b.finishTree.around outer := by
  have tree : (b.around outer).tree = b.tree := rfl
  unfold finishTree
  rw [tree]
  cases b.tree <;> rfl

/-- The innermost element is left alike, if it is not one of those around. -/
theorem finish_around {o : OpenElement} {rest : List OpenElement} (opened : b.opened = o :: rest) :
    Maps id (around outer) (b.finish t ceiling) ((b.around outer).finish t ceiling) := by
  have opened' : (b.around outer).opened = o :: (rest ++ outer) := by
    rw [around, opened, List.cons_append]
  unfold finish
  rw [opened, opened']
  cases o with
  | other => exact .ok _
  | row e => exact finishRow_around outer { b with opened := rest } e
  | type => exact finishType_around outer { b with opened := rest }
  | node id => exact finishNode_around outer { b with opened := rest } id
  | path => exact .ok _
  | tree =>
    have same := finishTree_around outer { b with opened := rest }
    exact congrArg Except.ok same

end

/-- A walk over a forest does not see what is open around it. -/
theorem visit_around (f : Forest) (outer : List OpenElement) (b : Builder) :
    Maps id (around outer) ((walk t ceiling).visit f b)
      ((walk t ceiling).visit f (b.around outer)) := by
  induction f generalizing b with
  | nil => exact .ok b
  | node e inside behind ih_inside ih_behind =>
    unfold Walk.visit
    split
    · exact ih_behind b
    · refine (start_around outer b e).bind_ok fun entered hstart => ?_
      cases entered with
      | none => exact ih_behind b
      | some entered =>
        refine (ih_inside entered).bind_ok fun left visited => ?_
        obtain ⟨o, pushed, -⟩ := entered_completes (start_entered hstart)
        have opened : left.opened = o :: b.opened := (visit_opened visited).trans pushed
        exact (finish_around outer left opened).bind ih_behind

theorem start_plain {x : Element} (plain : x.kind.isPlain = true) (b : Builder) :
    b.start t x = .ok (some (b.enter .other)) := by
  cases kind : x.kind with
  | revision | other =>
    rw [start, kind]
    rfl
  | _ => rw [kind] at plain; cases plain

/-- A plain element does nothing to the walk over what it holds. -/
theorem visit_plain {x : Element} (plain : x.kind.isPlain = true)
    (current : x.isDeprecated = false) (f : Forest) (b : Builder) :
    (walk t ceiling).visit (.node x f .nil) b = (walk t ceiling).visit f b := by
  -- With nothing open the walk over the forest is one and the same with and without the element.
  let bare : Builder := { b with opened := [] }
  have started : b.start t x = .ok (some (bare.around (.other :: b.opened))) := start_plain plain b
  have within : Maps id (around (.other :: b.opened)) ((walk t ceiling).visit f bare) _ :=
    visit_around f _ bare
  have alone : Maps id (around b.opened) ((walk t ceiling).visit f bare)
      ((walk t ceiling).visit f b) := visit_around f b.opened bare
  rw [Walk.visit, if_neg (by rw [current]; exact Bool.false_ne_true)]
  change (b.start t x >>= _) = _
  rw [started]
  change ((walk t ceiling).visit f (bare.around (.other :: b.opened)) >>= _) = _
  rw [within, alone]
  cases visited : (walk t ceiling).visit f bare with
  | error err => rfl
  | ok left =>
    have opened : left.opened = [] := visit_opened visited
    change (left.around (.other :: b.opened)).finish t ceiling >>= _ = .ok (left.around b.opened)
    have closed : (left.around (.other :: b.opened)).finish t ceiling =
        .ok (left.around b.opened) := by
      simp only [finish, around, opened, List.nil_append]
    rw [closed]
    rfl

end EnumRegistry.Builder
