import EnumRegistry.Proofs.Building.TypeFrame
import EnumRegistry.Proofs.Building.Visit
import EnumRegistry.Proofs.Registry.Exposure

/-!
Declarations one after the other. Where neither a type nor a tree is open, what a walk does to the
types is what it does at the declarations that stand inside plain elements only: it leaves one out
with all it holds, or opens a type, adds the rows inside it as they end, and adds the type to the
model.
-/

namespace EnumRegistry

namespace Forest

/-- The current rows of a kind that stand inside plain elements and such rows only, in the order of
their end tags. -/
def rowsOf (p : ElementKind → Bool) : Forest → List Element
  | nil => []
  | node e inside behind =>
    (if e.isDeprecated then []
      else if e.kind.isPlain then inside.rowsOf p
      else if p e.kind then inside.rowsOf p ++ [e]
      else []) ++ behind.rowsOf p

theorem rowsOf_behind (p : ElementKind → Bool) (e : Element) (inside behind : Forest) :
    (node e inside behind).rowsOf p = (node e inside nil).rowsOf p ++ behind.rowsOf p := by
  rw [rowsOf, rowsOf, rowsOf, List.append_nil]

theorem rowsOf_isEnumerationRow (f : Forest) : f.rowsOf (·.isEnumerationRow) = f.rowsEnded := by
  induction f with
  | nil => rfl
  | node e inside behind ih_inside ih_behind => rw [rowsOf, rowsEnded, ih_inside, ih_behind]

end Forest

namespace TypeFrame

theorem accepts_enumeration (type : Enumeration) (scope : NameScope) (kind : ElementKind) :
    (enumeration type scope).accepts kind = kind.isEnumerationRow := by
  cases kind <;> rfl

/-- The ends of some rows, one after the other. -/
inductive Gains (t : NameTables) : List Element → TypeFrame → TypeFrame → Prop
  | nil (frame : TypeFrame) : Gains t [] frame frame
  | cons {e : Element} {rest : List Element} {frame between frame' : TypeFrame}
      (added : frame.Added t e between) (behind : Gains t rest between frame') :
      Gains t (e :: rest) frame frame'

namespace Gains

variable {t : NameTables} {first second : List Element} {frame frame' frame'' : TypeFrame}

theorem append (h : Gains t first frame frame') (h' : Gains t second frame' frame'') :
    Gains t (first ++ second) frame frame'' := by
  induction h with
  | nil => exact h'
  | cons added behind ih => exact .cons added (ih h')

theorem kind (h : Gains t first frame frame') : frame'.kind = frame.kind := by
  induction h with
  | nil => rfl
  | cons added behind ih => exact ih.trans added.kind

end Gains

/-- The end of a type, which adds it to the model; an oversized enumeration is split. -/
inductive Ends (ceiling : Nat) (m : Model) : TypeFrame → Model → Prop
  | enumeration {type : Enumeration} {scope types types' : NameScope} {parts : List Enumeration}
      (split : type.split ceiling types = .ok (parts, types')) :
      Ends ceiling m (.enumeration type scope) { m with enumerations := m.enumerations ++ parts }
  | bitfield (type : Bitfield) (scope : NameScope) :
      Ends ceiling m (.bitfield type scope) { m with bitfields := m.bitfields ++ [type] }
  | dictionary (type : Dictionary) (scope : NameScope) :
      Ends ceiling m (.dictionary type scope) { m with dictionaries := m.dictionaries ++ [type] }

end TypeFrame

namespace Builder

variable {t : NameTables} {ceiling : Nat}

/-! ## Inside a type -/

theorem accepts_of_start_eq_none {b : Builder} {e : Element} {frame : TypeFrame}
    (current : b.current = some frame) (h : b.start t e = .ok none) :
    frame.accepts e.kind = false := by
  rw [Bool.eq_false_iff]
  intro accepts
  have row := TypeFrame.isRow_of_accepts accepts
  have entered : b.startRow e = some (b.enter (.row e)) := by simp [startRow, current, accepts]
  unfold start at h
  cases kind : e.kind <;> simp_all [ElementKind.isRow]

/-- Inside a type its rows are added as they end. -/
theorem visit_inType {p : ElementKind → Bool} {forest : Forest} {b b' : Builder}
    {frame : TypeFrame} (inOrder : b.TreesInOrder t) (current : b.current = some frame)
    (rows : ∀ kind, frame.accepts kind = p kind)
    (walked : (walk t ceiling).visit forest b = .ok b') :
    ∃ frame', b'.current = some frame' ∧ frame.Gains t (forest.rowsOf p) frame' := by
  induction forest generalizing b b' frame with
  | nil =>
    cases walked
    exact ⟨frame, current, .nil frame⟩
  | node e inside behind ih_inside ih_behind =>
    obtain ⟨between, passes, rest⟩ := Walk.visit_node _ walked
    suffices h : between.TreesInOrder t ∧ ∃ frame', between.current = some frame' ∧
        frame.Gains t (if e.isDeprecated then []
          else if e.kind.isPlain then inside.rowsOf p
          else if p e.kind then inside.rowsOf p ++ [e]
          else []) frame' by
      obtain ⟨inOrder', frame', current', gains⟩ := h
      obtain ⟨frame'', current'', gains'⟩ := ih_behind inOrder' current'
        (fun kind => (TypeFrame.accepts_congr gains.kind kind).trans (rows kind)) rest
      exact ⟨frame'', current'', gains.append gains'⟩
    cases passes with
    | deprecated deprecated =>
      rw [if_pos deprecated]
      exact ⟨inOrder, frame, current, .nil frame⟩
    | out isCurrent start =>
      have noRow := accepts_of_start_eq_none current start
      rw [rows] at noRow
      rw [if_neg (by simp [isCurrent]), if_neg (by simp [(start_eq_none start).1]),
        if_neg (by simp [noRow])]
      exact ⟨inOrder, frame, current, .nil frame⟩
    | @through entered left _ isCurrent start visited finish =>
      have start := start_entered start
      have inOrder' := entered_treesInOrder inOrder start
      have opened := visit_opened visited
      refine ⟨left_treesInOrder (visit_treesInOrder inOrder' visited) (finish_left finish), ?_⟩
      replace finish : left.finish t ceiling = .ok between := finish
      have noTree := (inOrder.nested.inType current).2
      rw [if_neg (by simp [isCurrent])]
      cases start with
      | type idle | tree idle => cases (isIdle_eq_true.mp idle).1.symm.trans current
      | path tree | node tree => cases noTree.symm.trans tree
      | row same accepts =>
        obtain rfl := Option.some.inj (current.symm.trans same)
        obtain ⟨frame', current', gains⟩ := ih_inside inOrder' current rows visited
        simp only [Builder.finish, opened, enter, finishRow, current', bind_eq_ok, Prod.exists,
          pure_eq_ok, Except.ok.injEq] at finish
        obtain ⟨frame'', found, added, rfl⟩ := finish
        have noPlain : e.kind.isPlain = false := by
          have row := TypeFrame.isRow_of_accepts accepts
          cases kind : e.kind <;> simp_all [ElementKind.isRow, ElementKind.isPlain]
        rw [if_neg (by simp [noPlain]), if_pos (rows e.kind ▸ accepts)]
        exact ⟨frame'', rfl, gains.append (.cons (TypeFrame.addRow_added added) (.nil frame''))⟩
      | other plain =>
        obtain ⟨frame', current', gains⟩ := ih_inside inOrder' current rows visited
        obtain rfl := finish_plain finish opened
        rw [if_pos plain]
        exact ⟨frame', current', gains⟩

/-! ## Outside of types and trees -/

/-- The end of a type adds it to the model. -/
theorem left_ends {b b' : Builder} {frame : TypeFrame} {rest : List OpenElement}
    (h : Left t ceiling b b') (opened : b.opened = .type :: rest)
    (current : b.current = some frame) :
    b'.emitted = b.emitted ∧ frame.Ends ceiling b.model b'.model := by
  cases h with
  | enumeration closed same split =>
    cases current.symm.trans same
    exact ⟨rfl, .enumeration split⟩
  | bitfield closed same =>
    cases current.symm.trans same
    exact ⟨rfl, .bitfield _ _⟩
  | dictionary closed same =>
    cases current.symm.trans same
    exact ⟨rfl, .dictionary _ _⟩
  | outside closed | other closed | row closed | node closed | path closed | tree closed =>
    cases closed.symm.trans opened
  | noType closed inType none => cases none.symm.trans current
  | noTree closed inTree =>
    obtain ⟨rfl, -⟩ := List.cons_eq_cons.mp (closed.symm.trans opened)
    rcases inTree with same | same | ⟨id, same⟩ <;> cases same

/-- The end of a tree changes none of the types. -/
theorem left_tree {b b' : Builder} {rest : List OpenElement} (h : Left t ceiling b b')
    (opened : b.opened = .tree :: rest) :
    b'.emitted = b.emitted ∧ ∃ trees, b'.model = { b.model with trees } := by
  cases h with
  | enumeration closed | bitfield closed | dictionary closed => cases closed.symm.trans opened
  | _ => exact ⟨rfl, _, rfl⟩

theorem start_declaresType {b : Builder} {e : Element} (type : e.kind.declaresType = true) :
    b.start t e = b.startType t e := by
  unfold start
  cases kind : e.kind <;> first | rfl | simp [kind, ElementKind.declaresType] at type

/-- How a declaration is passed. One is left out whose UID has no name or has been built. -/
inductive Declares (t : NameTables) (ceiling : Nat) (b : Builder) (e : Element) (inside : Forest) :
    Builder → Prop
  | out (known : ∀ uid name, e.uid? = some uid → t.types.name? uid = some name →
      b.emitted.contains uid = true) : Declares t ceiling b e inside b
  | built {uid name : String} {frame frame' : TypeFrame} {b' : Builder}
      (identified : e.uid? = some uid) (named : t.types.name? uid = some name)
      (fresh : b.emitted.contains uid = false) (opens : frame.Opens e uid name)
      (rows : frame.Gains t (inside.rowsOf fun kind => frame.accepts kind) frame')
      (emitted : b'.emitted = b.emitted.insert uid) (ends : frame'.Ends ceiling b.model b'.model) :
      Declares t ceiling b e inside b'

theorem declares_out {b : Builder} {e : Element} (idle : b.isIdle = true)
    (type : e.kind.declaresType = true) (start : b.start t e = .ok none) (inside : Forest) :
    Declares t ceiling b e inside b := by
  refine .out fun uid name identified named => ?_
  rw [start_declaresType type] at start
  rcases startType_eq_ok start with
    ⟨-, busy | none | ⟨other, same, unnamed | built⟩⟩ | ⟨_, _, _, -, -, -, -, -, entered⟩
  · cases busy.symm.trans idle
  · cases none.symm.trans identified
  · cases same.symm.trans identified
    cases unnamed.symm.trans named
  · cases same.symm.trans identified
    exact built
  · cases entered

/-- A property of the declarations passed and of the builder that has passed them is kept by a
declaration, and does not depend on anything but the types that are built. -/
structure Follows (t : NameTables) (ceiling : Nat)
    (P : List (Element × Forest) → Builder → Prop) : Prop where
  keep : ∀ {done : List (Element × Forest)} {b b' : Builder}, P done b →
    b'.emitted = b.emitted → (∃ trees, b'.model = { b.model with trees }) → P done b'
  declare : ∀ {done : List (Element × Forest)} {b b' : Builder} {e : Element} {inside : Forest},
    P done b → e.kind.declaresType = true → Declares t ceiling b e inside b' →
      P (done ++ [(e, inside)]) b'

theorem Follows.visit {P : List (Element × Forest) → Builder → Prop} (follows : Follows t ceiling P)
    {forest : Forest} {done : List (Element × Forest)} {b b' : Builder}
    (inOrder : b.TreesInOrder t) (idle : b.isIdle = true) (start : P done b)
    (walked : (walk t ceiling).visit forest b = .ok b') : P (done ++ forest.declared) b' := by
  induction forest generalizing b b' done with
  | nil =>
    cases walked
    simpa [Forest.declared] using start
  | node e inside behind ih_inside ih_behind =>
    obtain ⟨between, passes, rest⟩ := Walk.visit_node _ walked
    have plain := inOrder.nested.plain_of_idle idle
    suffices h : between.TreesInOrder t ∧ between.isIdle = true ∧
        P (done ++ (if e.isDeprecated then []
          else if e.kind.isPlain then inside.declared
          else if e.kind.declaresType then [(e, inside)]
          else [])) between by
      obtain ⟨inOrder', idle', start'⟩ := h
      rw [Forest.declared, ← List.append_assoc]
      exact ih_behind inOrder' idle' start' rest
    cases passes with
    | deprecated deprecated =>
      rw [if_pos deprecated, List.append_nil]
      exact ⟨inOrder, idle, start⟩
    | out current left =>
      rw [if_neg (by simp [current]), if_neg (by simp [(start_eq_none left).1])]
      refine ⟨inOrder, idle, ?_⟩
      split
      · exact follows.declare start ‹_› (declares_out idle ‹_› left inside)
      · rwa [List.append_nil]
    | @through entered left _ current starts visited finish =>
      rw [if_neg (by simp [current])]
      have starts := start_entered starts
      have inOrder' := entered_treesInOrder inOrder starts
      have ended := left_treesInOrder (visit_treesInOrder inOrder' visited) (finish_left finish)
      have opened := visit_opened visited
      refine ⟨ended, ended.nested.isIdle_of_plain
        (through_opened starts opened (finish_left finish) ▸ plain), ?_⟩
      cases starts with
      | row current => cases (isIdle_eq_true.mp idle).1.symm.trans current
      | path tree | node tree => cases (isIdle_eq_true.mp idle).2.symm.trans tree
      | @type own name frame _ declares identified named fresh opens =>
        rw [if_neg (by simp [(Element.selectedTree?_of_declaresType declares).1]), if_pos declares]
        obtain ⟨frame', current', gains⟩ := visit_inType inOrder' rfl (fun _ => rfl) visited
        obtain ⟨-, model, emitted⟩ := visit_busy rfl visited
        obtain ⟨emitted', ends⟩ := left_ends (finish_left finish) opened current'
        rw [model] at ends
        exact follows.declare start declares (.built identified named fresh
          (TypeFrame.open?_opens opens) gains (emitted'.trans emitted) ends)
      | tree _ selected =>
        obtain ⟨noPlain, noType⟩ := Element.isPlain_of_selectedTree? selected
        rw [if_neg (by simp [noPlain]), if_neg (by simp [noType]), List.append_nil]
        obtain ⟨-, model, emitted⟩ := visit_busy (by simp [isIdle, enter]) visited
        obtain ⟨emitted', trees, model'⟩ := left_tree (finish_left finish) opened
        exact follows.keep start (emitted'.trans emitted) ⟨trees, by rw [model', model]; rfl⟩
      | other isPlain =>
        rw [if_pos isPlain]
        have start' := ih_inside inOrder' idle (follows.keep start rfl ⟨_, rfl⟩) visited
        obtain rfl := finish_plain finish opened
        exact follows.keep start' rfl ⟨_, rfl⟩

end Builder

end EnumRegistry
