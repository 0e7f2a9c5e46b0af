import EnumRegistry.Proofs.Building.References
import EnumRegistry.Proofs.Building.Shape
import EnumRegistry.Proofs.Building.TypeNames
import EnumRegistry.Proofs.Registry.Reader

/-!
Which declarations a model is built from. The survey names declarations wherever they stand; the
builder builds those that stand in nothing but current elements without a meaning of their own, and
of several with one UID the first. So the two agree on a UID just when it has such a declaration.
-/

namespace EnumRegistry

/-- The current declarations outside of everything that means something to a model, and outside of
so many elements to begin with. -/
def outermost : Nat → List Event → List Element
  | _, [] => []
  | 0, .start e :: rest =>
    if e.isDeprecated then outermost 1 rest
    else if e.kind.isPlain then outermost 0 rest
    else if e.kind.declaresType then e :: outermost 1 rest
    else outermost 1 rest
  | 0, .finish _ :: rest => outermost 0 rest
  | depth + 1, .start _ :: rest => outermost (depth + 2) rest
  | depth + 1, .finish _ :: rest => outermost depth rest

/-- The declarations of a document that a model is built from. -/
def Reader.declarations (r : Reader) : List Element := outermost 0 r.events.1

/-- How many elements are open down to a type or a tree; none if neither is open. -/
def enclosed : List OpenElement → Nat
  | [] => 0
  | .type :: _ | .tree :: _ => 1
  | .other :: rest => if enclosed rest = 0 then 0 else enclosed rest + 1
  | .row _ :: rest | .node _ :: rest | .path :: rest => enclosed rest + 1

theorem enclosed_plain {opened : List OpenElement} (plain : ∀ o ∈ opened, o = .other) :
    enclosed opened = 0 := by
  induction opened with
  | nil => rfl
  | cons o opened ih =>
    obtain rfl := plain o (List.mem_cons_self ..)
    simp [enclosed, ih fun o ho => plain o (List.mem_cons_of_mem _ ho)]

theorem InType.enclosed_pos {opened : List OpenElement} (h : InType opened) :
    0 < enclosed opened := by
  induction h with
  | type => simp [enclosed]
  | row => simp [enclosed]
  | other _ ih => simp [enclosed, Nat.ne_of_gt ih]

theorem InTree.enclosed_pos {opened : List OpenElement} {cursor : List Nat}
    (h : InTree opened cursor) : 0 < enclosed opened := by
  induction h with
  | tree => simp [enclosed]
  | path | node => simp [enclosed]
  | other _ ih => simp [enclosed, Nat.ne_of_gt ih]

namespace Builder

theorem Nested.enclosed_eq_zero {b : Builder} (h : b.Nested) :
    enclosed b.opened = 0 ↔ b.isIdle = true := by
  rw [isIdle_eq_true]
  cases h with
  | idle plain current tree => simp [enclosed_plain plain, current, tree]
  | type inside current => simp [Nat.ne_of_gt inside.enclosed_pos, current]
  | tree inside _ tree => simp [Nat.ne_of_gt inside.enclosed_pos, tree]

theorem left_enclosed {t : NameTables} {ceiling : Nat} {b b' : Builder} (hb : b.Nested)
    (h : Left t ceiling b b') :
    enclosed b'.opened = enclosed b.opened - 1 ∧ b'.emitted = b.emitted := by
  cases h with
  | outside opened => simp [opened, enclosed]
  | other opened =>
    rw [opened]
    simp only [enclosed]
    split <;> simp_all
  | row opened | node opened | path opened => simp [opened, enclosed, note]
  | enumeration opened current | bitfield opened current | dictionary opened current =>
    have inside := (hb.inType current).1
    rw [opened] at inside
    cases inside with
    | type plain => simp [opened, enclosed, enclosed_plain plain, note]
  | tree opened tree =>
    have plain := (hb.tree_cursor opened tree).2
    simp [opened, enclosed, enclosed_plain plain]
  | noType opened inType none => exact absurd none (hb.current_of_opened opened inType)
  | noTree opened inTree none => exact absurd none (hb.tree_of_opened opened inTree)

/-- Where no type and no tree is open, a declaration may open a type; what else is not plain opens a
tree or is left out. -/
theorem start_idle {t : NameTables} {b : Builder} {e : Element} {r : Option Builder}
    (idle : b.isIdle = true) (h : b.start t e = .ok r) :
    (e.kind.isPlain = true ∧ r = some (b.enter .other)) ∨
    (e.kind.isPlain = false ∧ e.kind.declaresType = true ∧ b.startType t e = .ok r) ∨
    (e.kind.isPlain = false ∧ e.kind.declaresType = false ∧
      (r = none ∨ ∃ frame, r = some ({ b with tree := some frame }.enter .tree))) := by
  obtain ⟨current, tree⟩ := isIdle_eq_true.mp idle
  have row : b.startRow e = none := by simp [startRow, current]
  have path : b.startPath t e = .ok none := by simp [startPath, tree]
  have node (level : Level) : b.startNode level e = .ok none := by simp [startNode, tree]
  have opens (hierarchy : Hierarchy) (uid : String) : b.startTree hierarchy uid =
      some ({ b with tree := some (.new hierarchy uid) }.enter .tree) := by
    simp [startTree, idle]
  have selected (hierarchy : Hierarchy) (uid : String) :
      b.startSelected e hierarchy uid = none ∨
        ∃ frame, b.startSelected e hierarchy uid =
          some ({ b with tree := some frame }.enter .tree) := by
    unfold startSelected
    split
    · exact .inr ⟨_, opens hierarchy uid⟩
    · exact .inl rfl
  unfold start at h
  split at h
  case h_1 kind | h_2 kind | h_3 kind =>
    exact .inr (.inl ⟨by rw [kind]; rfl, by rw [kind]; rfl, h⟩)
  case h_4 kind | h_5 kind | h_6 kind | h_7 kind =>
    exact .inr (.inr ⟨by rw [kind]; rfl, by rw [kind]; rfl, .inl (Except.ok.inj h ▸ row)⟩)
  case h_8 kind | h_9 kind =>
    exact .inr (.inr ⟨by rw [kind]; rfl, by rw [kind]; rfl, Except.ok.inj h ▸ selected _ _⟩)
  case h_10 kind =>
    exact .inr (.inr ⟨by rw [kind]; rfl, by rw [kind]; rfl,
      .inr ⟨_, Except.ok.inj h ▸ opens _ _⟩⟩)
  case h_11 kind | h_12 kind =>
    exact .inr (.inr ⟨by rw [kind]; rfl, by rw [kind]; rfl,
      .inl (Except.ok.inj (path.symm.trans h)).symm⟩)
  case h_13 =>
    split at h
    · rename_i level levelled
      refine .inr (.inr ⟨?_, ?_, .inl (Except.ok.inj ((node level).symm.trans h)).symm⟩) <;>
        cases kind : e.kind <;> simp_all [ElementKind.level?, ElementKind.isPlain,
          ElementKind.declaresType]
    · refine .inl ⟨?_, (Except.ok.inj h).symm⟩
      cases kind : e.kind <;> simp_all [ElementKind.level?, ElementKind.isPlain]

theorem start_busy {t : NameTables} {b b' : Builder} {e : Element} (hb : b.Nested)
    (busy : b.isIdle = false) (h : b.start t e = .ok (some b')) :
    enclosed b'.opened = enclosed b.opened + 1 ∧ b'.emitted = b.emitted := by
  cases start_entered h with
  | type idle | tree idle =>
    rw [busy] at idle
    cases idle
  | row | path | node => exact ⟨rfl, rfl⟩
  | other =>
    have : enclosed b.opened ≠ 0 := fun none => by
      rw [hb.enclosed_eq_zero, busy] at none
      cases none
    exact ⟨by simp [enter, enclosed, this], rfl⟩

theorem outermost_start {depth : Nat} {e : Element} {events : List Event}
    (outside : depth ≠ 0 ∨ e.isDeprecated = true) :
    outermost depth (.start e :: events) = outermost (depth + 1) events := by
  cases depth with
  | zero => simp [outermost, outside.resolve_left (by simp)]
  | succ depth => rfl

/-- A UID is built from if it is named and has an outermost declaration. -/
theorem run_emitted {t : NameTables} {ceiling depth : Nat} {b b' : Builder} {events : List Event}
    (hb : b.Nested) (h : (walk t ceiling).run depth b events = .ok b') (uid : String) :
    b'.emitted.contains uid = true ↔ b.emitted.contains uid = true ∨
      (t.types.name? uid).isSome = true ∧
        ∃ e ∈ outermost (depth + enclosed b.opened) events, e.uid? = some uid := by
  fun_induction Walk.run (walk t ceiling) depth b events with
  | case1 => cases h; simp [outermost]
  | case2 b e rest deprecated ih =>
    rw [ih hb h, outermost_start (.inr deprecated)]
    simp only [Nat.zero_add, Nat.add_comm 1]
  | case3 b e rest current ih_in ih_out =>
    rw [Bool.not_eq_true] at current
    obtain ⟨entered, hstart, hrest⟩ := bind_eq_ok.mp h
    cases idle : b.isIdle with
    | true =>
      have level := hb.enclosed_eq_zero.mpr idle
      simp only [level, Nat.zero_add, outermost, current, Bool.false_eq_true, ↓reduceIte]
      rcases start_idle idle hstart with ⟨plain, rfl⟩ | ⟨plain, declares, htype⟩ |
        ⟨plain, declares, left⟩
      · rw [ih_in _ (nested_entered hb (start_entered hstart)) hrest]
        simp [plain, enter, enclosed, level]
      · simp only [plain, declares, Bool.false_eq_true, ↓reduceIte, List.mem_cons,
          exists_eq_or_imp]
        rcases startType_eq_ok htype with ⟨rfl, why⟩ |
          ⟨other, name, frame, -, identified, named, fresh, opens, rfl⟩
        · have built (known : (t.types.name? uid).isSome = true) (same : e.uid? = some uid) :
              b.emitted.contains uid = true := by
            rcases why with busy | anonymous | ⟨other, identified, unnamed | emitted⟩
            · simp [idle] at busy
            · simp [anonymous] at same
            · obtain rfl := Option.some.inj (identified.symm.trans same)
              simp [unnamed] at known
            · exact Option.some.inj (identified.symm.trans same) ▸ emitted
          rw [ih_out hb hrest, level]
          constructor
          · rintro (old | ⟨known, later⟩)
            · exact .inl old
            · exact .inr ⟨known, .inr later⟩
          · rintro (old | ⟨known, same | later⟩)
            · exact .inl old
            · exact .inl (built known same)
            · exact .inr ⟨known, later⟩
        · have inserted : (b.emitted.insert other).contains uid = true ↔
              e.uid? = some uid ∨ b.emitted.contains uid = true := by
            simp [identified]
          have known (same : e.uid? = some uid) : (t.types.name? uid).isSome = true := by
            obtain rfl := Option.some.inj (identified.symm.trans same)
            simp [named]
          rw [ih_in _ (nested_entered hb (start_entered hstart)) hrest]
          change (b.emitted.insert other).contains uid = true ∨ _ ∧ (∃ e ∈ outermost 1 rest, _) ↔ _
          rw [inserted]
          constructor
          · rintro ((same | old) | ⟨known, later⟩)
            · exact .inr ⟨known same, .inl same⟩
            · exact .inl old
            · exact .inr ⟨known, .inr later⟩
          · rintro (old | ⟨known, same | later⟩)
            · exact .inl (.inr old)
            · exact .inl (.inl same)
            · exact .inr ⟨known, later⟩
      · simp only [plain, declares, Bool.false_eq_true, ↓reduceIte]
        rcases left with rfl | ⟨frame, rfl⟩
        · rw [ih_out hb hrest, level]
        · rw [ih_in _ (nested_entered hb (start_entered hstart)) hrest]
          rfl
    | false =>
      have busy : enclosed b.opened ≠ 0 := fun none => by
        rw [hb.enclosed_eq_zero, idle] at none
        cases none
      rw [Nat.zero_add, outermost_start (.inl busy)]
      cases entered with
      | some b₁ =>
        obtain ⟨level, emitted⟩ := start_busy hb idle hstart
        rw [ih_in b₁ (nested_entered hb (start_entered hstart)) hrest, level, emitted,
          Nat.zero_add]
      | none => rw [ih_out hb hrest, Nat.add_comm 1]
  | case4 b kind rest ih =>
    obtain ⟨b₁, hfinish, hrest⟩ := bind_eq_ok.mp h
    have left := finish_left hfinish
    obtain ⟨level, emitted⟩ := left_enclosed hb left
    rw [ih b₁ (nested_left hb left) hrest, level, emitted]
    cases enclosed b.opened <;> rfl
  | case5 depth b e rest ih =>
    rw [ih hb h, outermost_start (.inl (by omega)),
      show depth.succ + enclosed b.opened + 1 = depth + 2 + enclosed b.opened by omega]
  | case6 depth b kind rest ih =>
    rw [ih hb h, show depth.succ + enclosed b.opened = depth + enclosed b.opened + 1 by omega]
    rfl

theorem entered_opened {t : NameTables} {b b' : Builder} {e : Element} (h : Entered t b e b') :
    b'.opened.length = b.opened.length + 1 := by
  cases h <;> rfl

/-- No more elements are open at the end than the events leave open. -/
theorem run_opened {t : NameTables} {ceiling depth : Nat} {b b' : Builder} {events : List Event}
    (h : (walk t ceiling).run depth b events = .ok b') :
    b'.opened.length ≤ openAfter (depth + b.opened.length) events := by
  fun_induction Walk.run (walk t ceiling) depth b events with
  | case1 depth b => cases h; exact Nat.le_add_left ..
  | case2 b e rest deprecated ih =>
    have := ih h
    rwa [Nat.add_comm 1, ← Nat.zero_add b.opened.length] at this
  | case3 b e rest current ih_in ih_out =>
    obtain ⟨entered, hstart, hrest⟩ := bind_eq_ok.mp h
    cases entered with
    | some b₁ =>
      have := ih_in b₁ hrest
      rw [entered_opened (start_entered hstart), ← Nat.add_assoc] at this
      exact this
    | none =>
      have := ih_out hrest
      rwa [Nat.add_comm 1, ← Nat.zero_add b.opened.length] at this
  | case4 b kind rest ih =>
    obtain ⟨b₁, hfinish, hrest⟩ := bind_eq_ok.mp h
    have := ih b₁ hrest
    rw [left_opened (finish_left hfinish), List.length_drop, Nat.zero_add] at this
    rwa [Nat.zero_add]
  | case5 depth b e rest ih =>
    have := ih h
    rwa [show depth + 2 + b.opened.length = depth.succ + b.opened.length + 1 by omega] at this
  | case6 depth b kind rest ih =>
    have := ih h
    rwa [show depth + b.opened.length = depth.succ + b.opened.length - 1 by omega] at this

/-- Every type that was opened is in the model or still open, under the name of its UID. -/
structure Built (t : NameTables) (b : Builder) : Prop where
  inOrder : b.TypesInOrder t
  built : ∀ uid, b.emitted.contains uid = true → ∃ name, t.types.name? uid = some name ∧
    ((uid, name) ∈ b.model.types ∨ ∃ frame, b.current = some frame ∧ frame.uid = uid)

theorem entered_built {t : NameTables} {b b' : Builder} {e : Element} (hb : b.Built t)
    (h : Entered t b e b') : b'.Built t := by
  refine ⟨entered_typesInOrder hb.inOrder h, ?_⟩
  cases h with
  | type idle declares identified named fresh opens =>
    intro other hother
    change (b.emitted.insert _).contains other = true at hother
    rw [Std.TreeSet.contains_insert, Bool.or_eq_true, beq_iff_eq,
      Std.LawfulEqCmp.compare_eq_iff_eq] at hother
    rcases hother with rfl | hother
    · exact ⟨_, named, .inr ⟨_, rfl, (TypeFrame.open?_opens opens).named.1⟩⟩
    · obtain ⟨name, hname, old | ⟨frame, current, -⟩⟩ := hb.built other hother
      · exact ⟨name, hname, .inl old⟩
      · cases (isIdle_eq_true.mp idle).1.symm.trans current
  | row | tree | path | node | other => exact hb.built

theorem left_built {t : NameTables} {ceiling : Nat} {b b' : Builder}
    (apart : t.types.NamesApart) (hb : b.Built t) (h : Left t ceiling b b') : b'.Built t := by
  refine ⟨left_typesInOrder apart hb.inOrder h, ?_⟩
  intro uid huid
  -- The type that is finished has the name of its UID.
  have finished {frame : TypeFrame} {name : String} (current : b.current = some frame)
      (hname : t.types.name? uid = some name) {other : TypeFrame} (same : b.current = some other)
      (hother : other.uid = uid) : (frame.uid, frame.name) = (uid, name) := by
    obtain rfl := Option.some.inj (current.symm.trans same)
    have named := (hb.inOrder.current _ current).named
    rw [hother, hname, Option.some.injEq] at named
    rw [hother, named]
  cases h with
  | outside | other | node | path | tree | noType | noTree => exact hb.built uid huid
  | row opened current added =>
    obtain ⟨name, hname, old | ⟨frame, same, hframe⟩⟩ := hb.built uid huid
    · exact ⟨name, hname, .inl old⟩
    · obtain rfl := Option.some.inj (current.symm.trans same)
      have kept := (TypeFrame.addRow_added added).named
      exact ⟨name, hname, .inr ⟨_, rfl, kept.1.trans hframe⟩⟩
  | enumeration opened current split =>
    have perm := Model.types_enumerations b.model
    obtain ⟨name, hname, old | ⟨frame, same, hframe⟩⟩ := hb.built uid huid
    · exact ⟨name, hname, .inl ((perm _).mem_iff.mpr (List.mem_append_right _ old))⟩
    · obtain ⟨blocks, satellites, -, rfl⟩ := Enumeration.split_eq_ok split
      refine ⟨name, hname, .inl ((perm _).mem_iff.mpr (List.mem_append_left _ ?_))⟩
      rw [← finished current hname same hframe]
      exact List.mem_cons_self ..
  | bitfield opened current =>
    have perm := Model.types_bitfields b.model
    obtain ⟨name, hname, old | ⟨frame, same, hframe⟩⟩ := hb.built uid huid
    · exact ⟨name, hname, .inl ((perm _).mem_iff.mpr (List.mem_cons_of_mem _ old))⟩
    · refine ⟨name, hname, .inl ((perm _).mem_iff.mpr ?_)⟩
      rw [← finished current hname same hframe]
      exact List.mem_cons_self ..
  | dictionary opened current =>
    have perm := Model.types_dictionaries b.model
    obtain ⟨name, hname, old | ⟨frame, same, hframe⟩⟩ := hb.built uid huid
    · exact ⟨name, hname, .inl ((perm _).mem_iff.mpr (List.mem_cons_of_mem _ old))⟩
    · refine ⟨name, hname, .inl ((perm _).mem_iff.mpr ?_)⟩
      rw [← finished current hname same hframe]
      exact List.mem_cons_self ..

theorem ofReader_built {t : NameTables} {ceiling : Nat} {r : Reader} {b : Builder}
    (apart : t.types.NamesApart) (h : ofReader t ceiling r = .ok b) : b.Built t := by
  refine (walk_keeps (fun _ => entered_built) (left_built apart)).run ?_
    (Walk.through_eq_ok.mp h).2
  exact ⟨typesInOrder_ofTable t, by simp [ofTable]⟩

/-- At the end of a document no type and no tree is open. -/
theorem ofBytes_isIdle {t : NameTables} {ceiling : Nat} {document : List UInt8} {b : Builder}
    (h : ofReader t ceiling (.ofBytes document) = .ok b) : b.isIdle = true := by
  obtain ⟨complete, hrun⟩ := Walk.through_eq_ok.mp h
  have balanced := (Reader.ofBytes_balanced (Prod.ext rfl complete)).openAfter
  have bound := run_opened hrun
  have closed : b.opened = [] := by
    rw [← List.length_eq_zero_iff, ← Nat.le_zero, ← balanced]
    exact bound
  cases ofReader_nested h with
  | idle _ current tree => exact isIdle_eq_true.mpr ⟨current, tree⟩
  | type inside | tree inside =>
    rw [closed] at inside
    cases inside

/-- The UIDs built from are those that are named and have an outermost declaration. -/
theorem ofReader_emitted {t : NameTables} {ceiling : Nat} {r : Reader} {b : Builder}
    (h : ofReader t ceiling r = .ok b) {uid name : String} (named : t.types.name? uid = some name) :
    b.emitted.contains uid = true ↔ ∃ e ∈ r.declarations, e.uid? = some uid := by
  have scanned := run_emitted (nested_ofTable t.types) (Walk.through_eq_ok.mp h).2 uid
  have start : (ofTable t.types).emitted.contains uid = false := by simp [ofTable]
  simp only [start, named, Option.isSome_some, Bool.false_eq_true, false_or, true_and] at scanned
  exact scanned

theorem mem_types {t : NameTables} {ceiling : Nat} {document : List UInt8} {b : Builder}
    (apart : t.types.NamesApart) (h : ofReader t ceiling (.ofBytes document) = .ok b)
    {uid name : String} (named : t.types.name? uid = some name) :
    (uid, name) ∈ b.model.types ↔
      ∃ e ∈ (Reader.ofBytes document).declarations, e.uid? = some uid := by
  have complete := ofReader_built apart h
  rw [← ofReader_emitted h named]
  constructor
  · exact complete.inOrder.emitted uid name
  · intro emitted
    obtain ⟨other, hother, built | ⟨frame, current, -⟩⟩ := complete.built uid emitted
    · obtain rfl := Option.some.inj (named.symm.trans hother)
      exact built
    · rw [(isIdle_eq_true.mp (ofBytes_isIdle h)).1] at current
      cases current

end Builder

/-- A model has types of just the UIDs that are named and declared outermost. Every reference is
the one that the survey gives, and one with a name refers to a type of the model just when its UID
is declared outermost; so survey and model agree just when every named UID is. -/
theorem declared_types_built {overrides : Overrides} {ceiling : Nat} {document : List UInt8}
    {res : Resolution} (h : Resolution.ofReader overrides ceiling (.ofBytes document) = .ok res) :
    (∀ uid, (∃ name, (uid, name) ∈ res.model.types) ↔ (res.table.name? uid).isSome = true ∧
      ∃ e ∈ (Reader.ofBytes document).declarations, e.uid? = some uid) ∧
    (∀ reference ∈ res.model.references, reference = res.table.reference reference.uid) ∧
    (∀ uid name, .typed uid name ∈ res.model.references → res.table.name? uid = some name ∧
      ((uid, name) ∈ res.model.types ↔
        ∃ e ∈ (Reader.ofBytes document).declarations, e.uid? = some uid)) ∧
    ((∀ uid, (res.table.name? uid).isSome = true ↔ ∃ name, (uid, name) ∈ res.model.types) ↔
      ∀ uid, (res.table.name? uid).isSome = true →
        ∃ e ∈ (Reader.ofBytes document).declarations, e.uid? = some uid) := by
  obtain ⟨survey, builder, hsurvey, hbuilder, rfl⟩ := Resolution.ofReader_eq_ok h
  have apart := Survey.ofReader_namesApart hsurvey
  have inOrder := Builder.ofReader_typesInOrder apart hbuilder
  have types (uid : String) : (∃ name, (uid, name) ∈ builder.model.types) ↔
      (survey.table.name? uid).isSome = true ∧
        ∃ e ∈ (Reader.ofBytes document).declarations, e.uid? = some uid := by
    constructor
    · rintro ⟨name, hmem⟩
      obtain ⟨base, hbase⟩ : ∃ base, survey.table.name? uid = some base := by
        cases inOrder.settled.calls uid name hmem with
        | named hname => exact ⟨name, hname⟩
        | satellite _ hbase => exact ⟨_, hbase⟩
      exact ⟨by simp [hbase],
        (Builder.ofReader_emitted hbuilder hbase).mp (inOrder.emitted uid name hmem)⟩
    · rintro ⟨known, declared⟩
      obtain ⟨name, named⟩ := Option.isSome_iff_exists.mp known
      exact ⟨name, (Builder.mem_types apart hbuilder named).mpr declared⟩
  refine ⟨types, (Builder.ofReader_referring hbuilder).model, ?_, ?_⟩
  · intro uid name href
    have found := (Builder.ofReader_referring hbuilder).model _ href
    have named : survey.table.name? uid = some name := by
      simp only [CrossReference.IsFrom, CrossReference.uid, TypeTable.reference] at found
      split at found <;> cases found
      assumption
    exact ⟨named, Builder.mem_types apart hbuilder named⟩
  · constructor
    · intro agree uid known
      exact ((types uid).mp ((agree uid).mp known)).2
    · intro declared uid
      rw [types uid]
      exact ⟨fun known => ⟨known, declared uid known⟩, And.left⟩

/-- A type is declared inside a subtree that is not read, and a row refers to it. -/
def unreadDocument : String :=
  "<r><cet uid=\"31\"><enum uid=\"50\" name=\"Status\" size=\"8\"/></cet>" ++
    "<bitfield uid=\"60\" name=\"Flags\" size=\"8\">" ++
    "<bitfieldrow name=\"S\" bit_position=\"0\" xref=\"50\"/></bitfield></r>"

theorem unreadDocument_resolved :
    ∃ res, Resolution.ofReader {} 4096 (.ofString unreadDocument) = .ok res ∧
      res.table.name? "50" = some "Status" ∧ res.model.types = [("60", "Flags")] ∧
      res.model.references = [.typed "50" "Status"] := by
  have run : (Resolution.ofReader {} 4096 (.ofString unreadDocument)).toOption.map
      (fun res => (res.table.name? "50", res.model.types, res.model.references)) =
        some (some "Status", [("60", "Flags")], [.typed "50" "Status"]) := by decide +kernel
  obtain ⟨res, hres, facts⟩ := exists_ok_of_map run
  simp only [Prod.mk.injEq] at facts
  exact ⟨res, hres, facts⟩

/-- A UID can be named, and be referred to under its name, without its type being in the model. -/
theorem unread_declaration_named :
    ∃ res, Resolution.ofReader {} 4096 (.ofString unreadDocument) = .ok res ∧
      ¬ (∀ uid, (res.table.name? uid).isSome = true ↔ ∃ name, (uid, name) ∈ res.model.types) ∧
      ¬ ∀ uid name, .typed uid name ∈ res.model.references → (uid, name) ∈ res.model.types := by
  obtain ⟨res, hres, name, types, references⟩ := unreadDocument_resolved
  refine ⟨res, hres, ?_, ?_⟩
  · intro agree
    have built := (agree "50").mp (by simp [name])
    simp [types] at built
  · intro present
    have built := present "50" "Status" (by simp [references])
    simp [types] at built

theorem unread_declaration_unbuilt :
    ∃ res, Resolution.ofReader {} 4096 (.ofString unreadDocument) = .ok res ∧
      (res.table.name? "50").isSome = true ∧
      ¬ ∃ e ∈ (Reader.ofString unreadDocument).declarations, e.uid? = some "50" := by
  obtain ⟨res, hres, name, types, -⟩ := unreadDocument_resolved
  refine ⟨res, hres, by simp [name], ?_⟩
  intro declared
  obtain ⟨other, built⟩ := ((declared_types_built hres).1 "50").mpr ⟨by simp [name], declared⟩
  simp [types] at built

end EnumRegistry
