import EnumRegistry.Proofs.Building.Declarations
import EnumRegistry.Proofs.Building.Outer

/-!
The builder inside a type. It adds the rows, as they end, to the type that is open, and does nothing
else.
-/

namespace EnumRegistry

namespace TypeFrame

variable {t : NameTables} {frame frame' : TypeFrame} {found : List Diagnostic}

/-- Adds the rows of elements one after the other, with what was found. -/
def addRows (t : NameTables) (frame : TypeFrame) :
    List Element → Except GenerationError (TypeFrame × List Diagnostic)
  | [] => .ok (frame, [])
  | e :: rest => do
    let (frame, found) ← frame.addRow t e
    let (last, more) ← addRows t frame rest
    return (last, found ++ more)

theorem addRows_append (first second : List Element) :
    frame.addRows t (first ++ second) = (do
      let (between, found) ← frame.addRows t first
      let (last, more) ← between.addRows t second
      return (last, found ++ more)) := by
  induction first generalizing frame with
  | nil =>
    rw [List.nil_append, addRows]
    change _ = frame.addRows t second >>= _
    cases frame.addRows t second <;> rfl
  | cons e rest ih =>
    rw [List.cons_append, addRows, addRows]
    cases frame.addRow t e with
    | error err => rfl
    | ok added =>
      obtain ⟨frame, found⟩ := added
      change frame.addRows t (rest ++ second) >>= _ = (frame.addRows t rest >>= _) >>= _
      rw [ih]
      cases frame.addRows t rest with
      | error err => rfl
      | ok rows =>
        obtain ⟨between, more⟩ := rows
        change (between.addRows t second >>= _) >>= _ = between.addRows t second >>= _
        cases between.addRows t second with
        | error err => rfl
        | ok last =>
          change Except.ok _ = Except.ok _
          rw [List.append_assoc]

theorem addRows_gains {elements : List Element}
    (h : frame.addRows t elements = .ok (frame', found)) : frame.Gains t elements frame' := by
  induction elements generalizing frame found with
  | nil =>
    cases h
    exact .nil _
  | cons e rest ih =>
    obtain ⟨⟨between, _⟩, added, h⟩ := bind_eq_ok.mp h
    obtain ⟨⟨last, _⟩, behind, h⟩ := bind_eq_ok.mp h
    cases h
    exact .cons (addRow_added added) (ih behind)

end TypeFrame

namespace Builder

variable {t : NameTables} {ceiling : Nat} {b b' : Builder}

/-- Puts the open type as it is with further rows. -/
def withRows (b : Builder) (rows : TypeFrame × List Diagnostic) : Builder :=
  { b with current := some rows.1 }.note rows.2

theorem withRows_nil {frame : TypeFrame} (current : b.current = some frame) :
    Maps id b.withRows (frame.addRows t [])
      (.ok b : Except GenerationError Builder) := by
  have same : b.withRows (frame, []) = b := by
    rw [withRows, note, List.append_nil, ← current]
  exact congrArg Except.ok same.symm

theorem withRows_append (first last : TypeFrame) (found more : List Diagnostic) :
    (b.withRows (first, found)).withRows (last, more) = b.withRows (last, found ++ more) := by
  simp only [withRows, note, List.append_assoc]

/-- Rows that are put behind others stand in the type with them. -/
theorem withRows_behind {x : Except GenerationError (TypeFrame × List Diagnostic)}
    {y : Except GenerationError Builder} {rows : TypeFrame × List Diagnostic}
    (h : Maps id (b.withRows rows).withRows x y) :
    Maps id b.withRows (do
        let (last, more) ← x
        return (last, rows.2 ++ more)) y := by
  subst h
  cases x with
  | error err => rfl
  | ok behind => exact congrArg Except.ok (withRows_append rows.1 behind.1 rows.2 behind.2)

/-- Inside a type nothing is entered but plain elements and rows. -/
theorem start_otherwise {frame : TypeFrame} {e : Element} (current : b.current = some frame)
    (noTree : b.tree = none) (noPlain : ¬ e.kind.isPlain = true)
    (noRow : frame.accepts e.kind = false) : b.start t e = .ok none := by
  have busy : b.isIdle = false := by rw [isIdle, current]; rfl
  have left : b.startRow e = none := by
    rw [startRow, current, Option.any_some, noRow, if_neg Bool.false_ne_true]
  have noTrees (hierarchy : Hierarchy) (uid : String) : b.startTree hierarchy uid = none := by
    rw [startTree, busy, if_neg Bool.false_ne_true]
  unfold start
  cases kind : e.kind with
  | revision | other => rw [kind] at noPlain; exact absurd rfl noPlain
  | enumeration | bitfield | dictionary =>
    simp only [startType, busy]
    rfl
  | enumerationRow | enumerationRange | bitfieldRow | dictionaryRow =>
    simp only [left]
  | entityTree | objectTree => simp only [startSelected, noTrees, ite_self]
  | jammerTree => simp only [noTrees]
  | entity | object =>
    simp only [startPath, noTree]
    rfl
  | _ =>
    simp only [ElementKind.level?, startNode, noTree]
    rfl

theorem start_row {frame : TypeFrame} {e : Element} (current : b.current = some frame)
    (accepts : frame.accepts e.kind = true) : b.start t e = .ok (some (b.enter (.row e))) := by
  have row := TypeFrame.isRow_of_accepts accepts
  have entered : b.startRow e = some (b.enter (.row e)) := by
    rw [startRow, current, Option.any_some, if_pos accepts]
  rw [← entered]
  unfold start
  cases kind : e.kind with
  | enumerationRow | enumerationRange | bitfieldRow | dictionaryRow => rfl
  | _ => rw [kind] at row; cases row

/-- The end of a row adds it behind those that it holds. -/
theorem finish_row (e : Element) (frame : TypeFrame) (found : List Diagnostic) :
    Maps id b.withRows (do
        let (last, more) ← frame.addRows t [e]
        return (last, found ++ more))
      (((b.enter (.row e)).withRows (frame, found)).finish t ceiling >>=
        (walk t ceiling).visit .nil) := by
  change Maps id b.withRows ((frame.addRow t e >>= _) >>= _) ((frame.addRow t e >>= _) >>= _)
  cases frame.addRow t e with
  | error err => rfl
  | ok added =>
    obtain ⟨last, more⟩ := added
    change Except.ok ((b.withRows (frame, found)).withRows (last, more)) =
      .ok (b.withRows (last, found ++ (more ++ [])))
    rw [withRows_append, List.append_nil]

/-- An element that stands in a type is plain or a row, or is left out. -/
theorem visit_row {frame : TypeFrame} (current : b.current = some frame) (noTree : b.tree = none)
    (e : Element) (inside : Forest)
    (within : ∀ b : Builder, b.current = some frame → b.tree = none →
      Maps id b.withRows (frame.addRows t (inside.rowsOf fun kind => frame.accepts kind))
        ((walk t ceiling).visit inside b)) :
    Maps id b.withRows
      (frame.addRows t ((Forest.node e inside .nil).rowsOf fun kind => frame.accepts kind))
      ((walk t ceiling).visit (.node e inside .nil) b) := by
  rw [Forest.rowsOf, Forest.rowsOf, List.append_nil]
  cases deprecated : e.isDeprecated with
  | true =>
    rw [if_pos rfl, Walk.visit, if_pos deprecated]
    exact withRows_nil current
  | false =>
    rw [if_neg Bool.false_ne_true]
    by_cases plain : e.kind.isPlain = true
    · rw [if_pos plain, visit_plain plain deprecated]
      exact within b current noTree
    · rw [if_neg plain, Walk.visit, deprecated, if_neg Bool.false_ne_true]
      cases accepts : frame.accepts e.kind with
      | false =>
        rw [if_neg Bool.false_ne_true]
        change Maps id b.withRows _ (b.start t e >>= _)
        rw [start_otherwise current noTree plain accepts]
        exact withRows_nil current
      | true =>
        rw [if_pos rfl, TypeFrame.addRows_append]
        change Maps id b.withRows _ (b.start t e >>= _)
        rw [start_row current accepts]
        refine (within (b.enter (.row e)) current noTree).bind fun rows => ?_
        exact finish_row e rows.1 rows.2

/-- Inside a type the builder adds its rows and does nothing else. -/
theorem visit_rows {frame : TypeFrame} (current : b.current = some frame)
    (noTree : b.tree = none) (f : Forest) :
    Maps id b.withRows (frame.addRows t (f.rowsOf fun kind => frame.accepts kind))
      ((walk t ceiling).visit f b) := by
  induction f generalizing b frame with
  | nil => exact withRows_nil current
  | node e inside behind ih_inside ih_behind =>
    rw [Walk.visit_behind, Forest.rowsOf_behind, TypeFrame.addRows_append]
    refine (visit_row current noTree e inside fun b => ih_inside).bind_ok fun rows added => ?_
    have accepts (kind : ElementKind) : rows.1.accepts kind = frame.accepts kind :=
      TypeFrame.accepts_congr (TypeFrame.addRows_gains added).kind kind
    have after := ih_behind (b := b.withRows rows) rfl noTree
    simp only [accepts] at after
    exact withRows_behind after

end Builder

end EnumRegistry
