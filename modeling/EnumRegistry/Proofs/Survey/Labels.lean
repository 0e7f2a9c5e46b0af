import EnumRegistry.Proofs.Registry.Exposure
import EnumRegistry.Proofs.Survey

/-!
The labels that a survey gives. The rows of a lookup enumeration are named one after the other in a
scope of their own, and of rows with one value the last gives the label; an enumeration is read
where it is the first declaration of its UID.
-/

namespace EnumRegistry

/-- What a row of an enumeration is called before the scope tells it apart. -/
def rowBase (overrides : Overrides) (uid typeName : String) (value : Int) (e : Element) : String :=
  Naming.base
    { raw := e.description
      fixed := overrides.row? uid value e.description
      ancestors := [typeName]
      subject := "" }

/-- The values of rows, and the names that they claim one after the other. -/
def nameRows (overrides : Overrides) (uid typeName : String) (scope : NameScope) :
    List Element → Except GenerationError (List (Int × String) × NameScope)
  | [] => .ok ([], scope)
  | e :: rest => do
    let value ← ofRegistry e.value
    let (name, scope) ← ofScope (scope.claim (rowBase overrides uid typeName value e))
    let (others, scope) ← nameRows overrides uid typeName scope rest
    return ((value, name) :: others, scope)

section
variable {overrides : Overrides} {uid typeName : String}

theorem nameRows_singleton {scope scope' : NameScope} {e : Element} {value : Int} {name : String}
    (valued : e.value = .ok value)
    (claimed : scope.claim (rowBase overrides uid typeName value e) = .ok (name, scope')) :
    nameRows overrides uid typeName scope [e] = .ok ([(value, name)], scope') := by
  simp [nameRows, bind_eq_ok, valued, claimed]

theorem nameRows_append {scope between last : NameScope} {first second : List Element}
    {rows others : List (Int × String)}
    (before : nameRows overrides uid typeName scope first = .ok (rows, between))
    (after : nameRows overrides uid typeName between second = .ok (others, last)) :
    nameRows overrides uid typeName scope (first ++ second) = .ok (rows ++ others, last) := by
  induction first generalizing scope rows with
  | nil =>
    simp only [nameRows, Except.ok.injEq, Prod.mk.injEq] at before
    obtain ⟨rfl, rfl⟩ := before
    exact after
  | cons e first ih =>
    simp only [nameRows, List.cons_append, bind_eq_ok, Prod.exists, pure_eq_ok, Except.ok.injEq,
      Prod.mk.injEq] at before ⊢
    obtain ⟨value, valued, name, scope', claimed, more, _, rest, rfl, rfl⟩ := before
    exact ⟨value, valued, name, scope', claimed, _, _, ih rest, rfl, rfl⟩

end

/-- Labels with those of further rows. -/
def withLabels (labels : Std.TreeMap Int String) (rows : List (Int × String)) :
    Std.TreeMap Int String :=
  rows.foldl (fun labels row => labels.insert row.1 row.2) labels

theorem withLabels_append (labels : Std.TreeMap Int String) (rows others : List (Int × String)) :
    withLabels labels (rows ++ others) = withLabels (withLabels labels rows) others :=
  List.foldl_append

/-- Of rows with one value the last gives the label. -/
theorem getElem?_withLabels (labels : Std.TreeMap Int String) (rows : List (Int × String))
    (value : Int) : (withLabels labels rows)[value]? =
      ((rows.reverse.find? (·.1 == value)).map (·.2)).or labels[value]? := by
  induction rows generalizing labels with
  | nil => rfl
  | cons row rows ih =>
    change (withLabels (labels.insert row.1 row.2) rows)[value]? = _
    rw [ih, List.reverse_cons, List.find?_append, Std.TreeMap.getElem?_insert]
    cases rows.reverse.find? (·.1 == value) with
    | some last => simp
    | none =>
      by_cases same : row.1 = value
      · simp [same]
      · simp [same, Std.LawfulEqCmp.compare_eq_iff_eq]

theorem ElementKind.ne_enumeration {kind : ElementKind} (noType : kind.declaresType = false) :
    kind ≠ .enumeration := by
  rintro rfl
  cases noType

theorem LookupTable.ofUid?_uid (t : LookupTable) : ofUid? t.uid = some t := by
  cases t <;> decide

theorem LookupTable.uid_of_ofUid? {uid : String} {t : LookupTable} (h : ofUid? uid = some t) :
    t.uid = uid := by
  simpa using List.find?_some h

namespace Survey

variable {overrides : Overrides}

/-! ## Inside a declaration -/

/-- Rows are read into the open lookup enumeration, and nothing is declared. -/
structure Reads (overrides : Overrides) (elements : List Element) (s s' : Survey) : Prop where
  labels : s'.table.labels = s.table.labels
  declared : ∀ uid, s'.table.isDeclared uid = s.table.isDeclared uid
  closed : s.lookup = none → s'.lookup = none
  rows : ∀ lookup, s.lookup = some lookup → ∃ named scope,
    nameRows overrides lookup.table.uid lookup.typeName lookup.scope elements =
      .ok (named, scope) ∧
    s'.lookup = some { lookup with scope, labels := withLabels lookup.labels named }

theorem Reads.same {s s' : Survey} (lookup : s'.lookup = s.lookup)
    (labels : s'.table.labels = s.table.labels)
    (declared : ∀ uid, s'.table.isDeclared uid = s.table.isDeclared uid) :
    Reads overrides [] s s' :=
  ⟨labels, declared, lookup.trans, fun rows h => ⟨[], rows.scope, rfl, lookup.trans h⟩⟩

theorem Reads.nil (s : Survey) : Reads overrides [] s s := .same rfl rfl fun _ => rfl

theorem Reads.append {first second : List Element} {s s' s'' : Survey}
    (h : Reads overrides first s s') (h' : Reads overrides second s' s'') :
    Reads overrides (first ++ second) s s'' where
  labels := h'.labels.trans h.labels
  declared uid := (h'.declared uid).trans (h.declared uid)
  closed none := h'.closed (h.closed none)
  rows lookup isOpen := by
    obtain ⟨named, scope, before, between⟩ := h.rows lookup isOpen
    obtain ⟨others, last, after, closed⟩ := h'.rows _ between
    exact ⟨named ++ others, last, nameRows_append before after, by rw [closed, withLabels_append]⟩

theorem noteRevision_reads (s : Survey) (e : Element) :
    Reads overrides [] s (s.noteRevision e) := by
  unfold noteRevision
  split
  · exact .nil s
  · exact .same rfl rfl fun _ => rfl

theorem startRow_reads {s s' : Survey} {e : Element} (h : startRow overrides s e = .ok s') :
    Reads overrides [e] s s' := by
  unfold startRow at h
  cases isOpen : s.lookup with
  | none =>
    simp only [isOpen, pure_eq_ok, Except.ok.injEq] at h
    exact h ▸ ⟨rfl, fun _ => rfl, id, fun lookup same => by simp [isOpen] at same⟩
  | some lookup =>
    simp only [isOpen, bind_eq_ok, ofRegistry_eq_ok, ofScope_eq_ok, Naming.resolve, Prod.exists,
      pure_eq_ok, Except.ok.injEq, Prod.mk.injEq] at h
    obtain ⟨value, valued, _, _, ⟨name, scope, claimed, rfl, rfl⟩, rfl⟩ := h
    refine ⟨rfl, fun _ => rfl, fun closed => by simp [isOpen] at closed, fun other same => ?_⟩
    obtain rfl := Option.some.inj (isOpen.symm.trans same)
    exact ⟨[(value, name)], scope, nameRows_singleton valued claimed, rfl⟩

theorem start_reads {s s' : Survey} {e : Element} (noType : e.kind.declaresType = false)
    (h : start overrides s e = .ok s') :
    Reads overrides (if e.kind.isEnumerationRow then [e] else []) s s' := by
  unfold start at h
  split at h
  case h_1 kind =>
    cases h
    rw [kind]
    exact noteRevision_reads s e
  case h_2 kind | h_3 kind | h_4 kind => simp [kind, ElementKind.declaresType] at noType
  case h_5 kind | h_6 kind =>
    rw [kind]
    exact startRow_reads h
  case h_7 =>
    cases h
    rw [if_neg]
    · exact .nil s
    · cases kind : e.kind <;> simp_all [ElementKind.isEnumerationRow]

theorem finish_eq {s : Survey} {kind : ElementKind}
    (h : kind ≠ .enumeration ∨ s.lookup = none) : s.finish kind = s := by
  unfold finish
  split
  · rename_i rows isOpen
    rcases h with h | h
    · exact absurd rfl h
    · simp [isOpen] at h
  · rfl

/-- A survey enters every element that is current. -/
theorem visit_node {s : Survey} {e : Element} {inside behind : Forest}
    (current : e.isDeprecated = false) :
    (walk overrides).visit (.node e inside behind) s = (do
      let entered ← start overrides s e
      let left ← (walk overrides).visit inside entered
      (walk overrides).visit behind (left.finish e.kind)) := by
  rw [Walk.visit, if_neg (by rw [current]; exact Bool.false_ne_true)]
  change (some <$> start overrides s e) >>= _ = _
  cases start overrides s e <;> rfl

theorem visit_node_eq_ok {s s' : Survey} {e : Element} {inside behind : Forest}
    (h : (walk overrides).visit (.node e inside behind) s = .ok s') :
    (e.isDeprecated = true ∧ (walk overrides).visit behind s = .ok s') ∨
      ∃ entered left, e.isDeprecated = false ∧ start overrides s e = .ok entered ∧
        (walk overrides).visit inside entered = .ok left ∧
        (walk overrides).visit behind (left.finish e.kind) = .ok s' := by
  cases current : e.isDeprecated with
  | true =>
    rw [Walk.visit, if_pos current] at h
    exact .inl ⟨rfl, h⟩
  | false =>
    rw [visit_node current] at h
    obtain ⟨entered, started, h⟩ := bind_eq_ok.mp h
    obtain ⟨left, visited, rest⟩ := bind_eq_ok.mp h
    exact .inr ⟨entered, left, rfl, started, visited, rest⟩

theorem visit_reads {f : Forest} {s s' : Survey} (noTypes : f.lacks (·.declaresType) = true)
    (walked : (walk overrides).visit f s = .ok s') : Reads overrides f.rowsStarted s s' := by
  induction f generalizing s s' with
  | nil =>
    cases walked
    exact .nil s
  | node e inside behind ih_inside ih_behind =>
    obtain ⟨own, others⟩ := Forest.lacks_node noTypes
    rw [Forest.rowsStarted]
    rcases visit_node_eq_ok walked with
      ⟨deprecated, rest⟩ | ⟨entered, left, current, start, visited, rest⟩
    · rw [if_pos deprecated]
      exact ih_behind others rest
    · obtain ⟨noType, noTypes⟩ := own current
      rw [finish_eq (.inl (ElementKind.ne_enumeration noType))] at rest
      rw [if_neg (by simp [current])]
      exact ((start_reads noType start).append (ih_inside noTypes visited)).append
        (ih_behind others rest)

/-! ## Declarations -/

/-- Whether a declaration has a UID. -/
def declares (uid : String) (declared : Element × Forest) : Bool := declared.1.uid? == some uid

/-- A survey that has read some declarations has the labels of a lookup enumeration if it is the
first declaration of its UID. -/
structure Covers (overrides : Overrides) (t : LookupTable) (done : List (Element × Forest))
    (s : Survey) : Prop where
  closed : s.lookup = none
  seen : s.table.isDeclared t.uid = done.any (declares t.uid)
  labels : ∀ e inside, done.find? (declares t.uid) = some (e, inside) → e.kind = .enumeration →
    ∃ named scope, nameRows overrides t.uid e.rawName {} inside.rowsStarted = .ok (named, scope) ∧
      s.table.labels.lookup t = some (withLabels {} named)

variable {t : LookupTable} {done : List (Element × Forest)}

theorem Covers.reads {elements : List Element} {s s' : Survey} (covers : Covers overrides t done s)
    (reads : Reads overrides elements s s') : Covers overrides t done s' where
  closed := reads.closed covers.closed
  seen := (reads.declared t.uid).trans covers.seen
  labels := reads.labels ▸ covers.labels

/-- A declaration that is not the first of the UID asked for changes nothing. -/
theorem Covers.skip {s s' : Survey} {e : Element} {inside : Forest}
    (covers : Covers overrides t done s) (closed : s'.lookup = none)
    (labels : s'.table.labels.lookup t = s.table.labels.lookup t)
    (seen : s'.table.isDeclared t.uid = s.table.isDeclared t.uid)
    (other : declares t.uid (e, inside) = false ∨ s.table.isDeclared t.uid = true) :
    Covers overrides t (done ++ [(e, inside)]) s' := by
  have find : (done ++ [(e, inside)]).find? (declares t.uid) = done.find? (declares t.uid) := by
    rw [List.find?_append]
    rcases other with other | known
    · simp [other]
    · obtain ⟨first, found⟩ := List.find?_isSome.mpr
        (List.any_eq_true.mp (covers.seen.symm.trans known)) |> Option.isSome_iff_exists.mp
      rw [found, Option.some_or]
  refine ⟨closed, ?_, by rw [find, labels]; exact covers.labels⟩
  rw [seen, List.any_append]
  rcases other with other | known
  · simp [other, covers.seen]
  · simp [← covers.seen, known]

/-- The first declaration of the UID asked for gives the labels if it is an enumeration. -/
theorem Covers.first {s s' : Survey} {e : Element} {inside : Forest}
    (covers : Covers overrides t done s) (unseen : s.table.isDeclared t.uid = false)
    (own : declares t.uid (e, inside) = true) (closed : s'.lookup = none)
    (seen : s'.table.isDeclared t.uid = true)
    (labels : e.kind = .enumeration → ∃ named scope,
      nameRows overrides t.uid e.rawName {} inside.rowsStarted = .ok (named, scope) ∧
        s'.table.labels.lookup t = some (withLabels {} named)) :
    Covers overrides t (done ++ [(e, inside)]) s' := by
  have before : done.find? (declares t.uid) = none := by
    rw [covers.seen, List.any_eq_false] at unseen
    exact List.find?_eq_none.mpr unseen
  refine ⟨closed, by simp [seen, own], ?_⟩
  intro first held found
  rw [List.find?_append, before, Option.none_or, List.find?_cons_of_pos own] at found
  cases found
  exact labels

theorem declare_declared {s s' : Survey} {uid : String} {e : Element}
    (h : declare overrides s uid e = .ok s') :
    s'.table.labels = s.table.labels ∧
      ∀ other, s'.table.isDeclared other = (uid == other || s.table.isDeclared other) := by
  have same (other : String) : (compare uid other == .eq) = (uid == other) := by
    rw [Bool.eq_iff_iff]
    simp
  rcases declare_eq_ok h with ⟨-, message, rfl⟩ | ⟨-, name, types, -, rfl⟩
  · refine ⟨rfl, fun other => ?_⟩
    simp [TypeTable.isDeclared, TypeTable.isMissing, Bool.or_left_comm, same]
  · refine ⟨rfl, fun other => ?_⟩
    simp [TypeTable.isDeclared, TypeTable.isMissing, Bool.or_assoc, same]

theorem lookupAfter_eq {s : Survey} (uid : String) (e : Element) (closed : s.lookup = none) :
    (s.lookupAfter uid e = none ∧ (uid = t.uid → e.kind ≠ .enumeration)) ∨
      ∃ table, e.kind = .enumeration ∧ table.uid = uid ∧
        s.lookupAfter uid e = some { table, typeName := e.rawName } := by
  unfold lookupAfter
  split
  · rename_i kind
    cases found : LookupTable.ofUid? uid with
    | none =>
      refine .inl ⟨rfl, ?_⟩
      rintro rfl
      simp [LookupTable.ofUid?_uid] at found
    | some table =>
      exact .inr ⟨table, by simpa using kind, LookupTable.uid_of_ofUid? found, rfl⟩
  · rename_i kind
    exact .inl ⟨closed, fun _ => by simpa using kind⟩

theorem start_declaresType {s : Survey} {e : Element} (type : e.kind.declaresType = true) :
    start overrides s e = startType overrides s e := by
  unfold start
  cases kind : e.kind <;> first | rfl | simp [kind, ElementKind.declaresType] at type

theorem Covers.declaration {s entered left : Survey} {e : Element} {inside : Forest}
    (covers : Covers overrides t done s) (start : startType overrides s e = .ok entered)
    (reads : Reads overrides inside.rowsStarted entered left) :
    Covers overrides t (done ++ [(e, inside)]) (left.finish e.kind) := by
  have closed := covers.closed
  rcases startType_eq_ok start with
    ⟨none, rfl⟩ | ⟨uid, identified, ⟨seen, message, rfl⟩ | ⟨unseen, named, hdeclare, rfl⟩⟩
  · rw [finish_eq (.inr (reads.closed closed))]
    exact covers.skip (reads.closed closed) (by rw [reads.labels]) (reads.declared t.uid)
      (.inl (by simp [declares, none]))
  · rw [finish_eq (.inr (reads.closed closed))]
    refine covers.skip (reads.closed closed) (by rw [reads.labels]; rfl) (reads.declared t.uid) ?_
    by_cases same : uid = t.uid
    · exact .inr (same ▸ seen)
    · exact .inl (by simp [declares, identified, same])
  · obtain ⟨labels, declared⟩ := declare_declared hdeclare
    have declared_left (other : String) :
        left.table.isDeclared other = (uid == other || s.table.isDeclared other) :=
      (reads.declared other).trans (declared other)
    have labels_left : left.table.labels = s.table.labels := reads.labels.trans labels
    rcases lookupAfter_eq (t := t) uid e closed with
      ⟨noLookup, quiet⟩ | ⟨table, kind, rfl, opened⟩
    · rw [finish_eq (.inr (reads.closed noLookup))]
      by_cases same : uid = t.uid
      · subst same
        exact covers.first unseen (by simp [declares, identified]) (reads.closed noLookup)
          (by simp [declared_left]) fun kind => absurd kind (quiet rfl)
      · exact covers.skip (reads.closed noLookup) (by rw [labels_left])
          (by simp [declared_left, same]) (.inl (by simp [declares, identified, same]))
    · obtain ⟨rows, scope, hrows, lookup⟩ := reads.rows _ opened
      have finished : left.finish e.kind = { left with
          table := { left.table with
            labels := (table, withLabels {} rows) :: left.table.labels }
          lookup := none } := by
        simp only [finish, kind, lookup]
      rw [finished]
      by_cases same : table = t
      · subst same
        refine covers.first unseen (by simp [declares, identified]) rfl (by
          exact (declared_left table.uid).trans (by simp)) fun _ => ⟨rows, scope, hrows, ?_⟩
        simp
      · have apart : table.uid ≠ t.uid := fun h =>
          same (Option.some.inj (by rw [← LookupTable.ofUid?_uid, h, LookupTable.ofUid?_uid]))
        refine covers.skip rfl ?_ ?_ (.inl (by simp [declares, identified, apart]))
        · have differs : (t == table) = false := beq_eq_false_iff_ne.mpr (Ne.symm same)
          simp [List.lookup_cons, differs, labels_left]
        · exact (declared_left t.uid).trans (by simp [apart])

theorem covers_new (overrides : Overrides) (t : LookupTable) : Covers overrides t [] {} where
  closed := rfl
  seen := by simp [TypeTable.isDeclared, TypeTable.isMissing]
  labels := nofun

theorem visit_covers {f : Forest} {s s' : Survey} (exposed : f.exposes (·.declaresType) = true)
    (covers : Covers overrides t done s) (walked : (walk overrides).visit f s = .ok s') :
    Covers overrides t (done ++ f.declared) s' := by
  induction f generalizing s s' done with
  | nil =>
    cases walked
    simpa [Forest.declared] using covers
  | node e inside behind ih_inside ih_behind =>
    obtain ⟨own, others⟩ := Forest.exposes_node exposed
    rcases visit_node_eq_ok walked with
      ⟨deprecated, rest⟩ | ⟨entered, left, current, start, visited, rest⟩
    · rw [Forest.declared, if_pos deprecated]
      exact ih_behind others covers rest
    · have own := own current
      rw [Forest.declared, if_neg (by simp [current]), ← List.append_assoc]
      refine ih_behind others ?_ rest
      cases plain : e.kind.isPlain with
      | true =>
        rw [plain, if_pos rfl] at own
        have noType : e.kind.declaresType = false := ElementKind.declaresType_of_isPlain plain
        rw [if_pos rfl, finish_eq (.inl (ElementKind.ne_enumeration noType))]
        exact ih_inside own (covers.reads (start_reads noType start)) visited
      | false =>
        rw [plain, if_neg Bool.false_ne_true] at own
        rw [if_neg Bool.false_ne_true]
        have reads := visit_reads own visited
        cases type : e.kind.declaresType with
        | true => exact covers.declaration (start_declaresType type ▸ start) reads
        | false =>
          rw [if_neg Bool.false_ne_true, List.append_nil,
            finish_eq (.inl (ElementKind.ne_enumeration type))]
          exact (covers.reads (start_reads type start)).reads reads

end Survey

end EnumRegistry
