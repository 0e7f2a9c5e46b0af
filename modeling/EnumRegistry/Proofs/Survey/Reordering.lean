import EnumRegistry.Proofs.Registry.Reordering

/-!
Surveys of declarations whose UIDs and base names all differ. Each type is then called what its base
name is, whatever else is declared, and what goes well or wrong inside a declaration does not
depend on what was declared before.
-/

namespace EnumRegistry

namespace Survey

variable {overrides : Overrides} {s s' t : Survey}

/-- Types that differ by UID and, ignoring case, by base name. -/
structure Apart (given : List (String × String)) : Prop where
  uids : (given.map (·.1)).Nodup
  bases : (given.map fun d => lookupKey d.2).Nodup

theorem Apart.sublist {given others : List (String × String)} (h : Apart given)
    (sub : others.Sublist given) : Apart others where
  uids := h.uids.sublist (sub.map _)
  bases := h.bases.sublist (sub.map _)

theorem Apart.left {given others : List (String × String)} (h : Apart (given ++ others)) :
    Apart given := h.sublist (List.sublist_append_left given others)

theorem Apart.perm {given others : List (String × String)} (h : Apart given)
    (permuted : others.Perm given) : Apart others where
  uids := (permuted.map _).nodup_iff.mpr h.uids
  bases := (permuted.map _).nodup_iff.mpr h.bases

/-- A survey that knows some types calls each by its base name, or has found it to have none. -/
structure Knows (given : List (String × String)) (s : Survey) : Prop where
  named : ∀ uid name, s.table.name? uid = some name ↔
    name ≠ Name.undefined ∧ (uid, name) ∈ given
  missing : ∀ uid, s.table.isMissing uid = true ↔ (uid, Name.undefined) ∈ given
  taken : ∀ name, s.table.types.contains name = true →
    ∃ d ∈ given, lookupKey d.2 = lookupKey name

theorem knows_new : Knows [] {} where
  named uid name := by simp [TypeTable.name?]
  missing uid := by simp [TypeTable.isMissing]
  taken name h := by simp at h

variable {given : List (String × String)} {uid base : String}

theorem Knows.same (h : Knows given s) (same : SameNames s s') : Knows given s' where
  named uid name := by
    rw [TypeTable.name?, same.names]
    exact h.named uid name
  missing uid := by
    rw [TypeTable.isMissing, same.missing]
    exact h.missing uid
  taken name := by
    rw [same.types]
    exact h.taken name

/-- What is known is a matter of which types are known, not of their order. -/
theorem Knows.perm {others : List (String × String)} (h : Knows given s)
    (permuted : others.Perm given) : Knows others s where
  named uid name := by simp only [h.named, permuted.mem_iff]
  missing uid := by simp only [h.missing, permuted.mem_iff]
  taken name taken := by simpa only [permuted.mem_iff] using h.taken name taken

/-- Surveys that know the same types have the same names for them. -/
theorem Knows.alike (h : Knows given s) (h' : Knows given s') (uid : String) :
    s'.table.name? uid = s.table.name? uid ∧ s'.table.isMissing uid = s.table.isMissing uid := by
  constructor
  · refine Option.ext fun name => ?_
    rw [h'.named, h.named]
  · rw [Bool.eq_iff_iff, h'.missing, h.missing]

/-! ## One declaration -/

/-- The last of some types that are apart is a new one. -/
theorem Apart.fresh (h : Apart (given ++ [(uid, base)])) :
    (∀ other, (uid, other) ∉ given) ∧ ∀ d ∈ given, lookupKey d.2 ≠ lookupKey base := by
  obtain ⟨uids, bases⟩ := h
  rw [List.map_append, List.map_singleton, List.nodup_append] at uids bases
  constructor
  · intro other member
    exact uids.2.2 uid (List.mem_map.mpr ⟨_, member, rfl⟩) uid (List.mem_singleton_self _) rfl
  · intro d member
    exact bases.2.2 _ (List.mem_map.mpr ⟨d, member, rfl⟩) _ (List.mem_singleton_self _)

theorem Knows.unseen (h : Knows given s) (absent : ∀ other, (uid, other) ∉ given) :
    s.table.isDeclared uid = false := by
  rw [TypeTable.isDeclared, Bool.or_eq_false_iff, Bool.eq_false_iff, Bool.eq_false_iff]
  constructor
  · intro named
    rw [Std.TreeMap.contains_eq_isSome_getElem?] at named
    obtain ⟨name, hname⟩ := Option.isSome_iff_exists.mp named
    exact absent name ((h.named uid name).mp hname).2
  · intro missing
    exact absent _ ((h.missing uid).mp missing)

/-- A type without a usable name is found to be missing. -/
theorem Knows.unnamed (h : Knows given s) (names : s'.table.names = s.table.names)
    (missing : s'.table.missing = s.table.missing.insert uid)
    (types : s'.table.types = s.table.types) :
    Knows (given ++ [(uid, Name.undefined)]) s' where
  named other name := by
    rw [TypeTable.name?, names]
    refine (h.named other name).trans (and_congr_right fun usable => ?_)
    simp [usable]
  missing other := by
    have own : (compare uid other == .eq) = true ↔ other = uid := by
      rw [eq_comm (a := other)]
      simp
    rw [TypeTable.isMissing, missing, Std.TreeSet.contains_insert, Bool.or_eq_true, own]
    have before := h.missing other
    rw [TypeTable.isMissing] at before
    rw [before, List.mem_append, List.mem_singleton, Prod.mk.injEq, and_iff_left rfl, or_comm]
  taken name taken := by
    rw [types] at taken
    obtain ⟨d, member, same⟩ := h.taken name taken
    exact ⟨d, List.mem_append_left _ member, same⟩

/-- A type with a usable name is called by it. -/
theorem Knows.called (h : Knows given s) (absent : ∀ other, (uid, other) ∉ given)
    (usable : base ≠ Name.undefined) (names : s'.table.names = s.table.names.insert uid base)
    (missing : s'.table.missing = s.table.missing)
    (types : s'.table.types = s.table.types.insert base) :
    Knows (given ++ [(uid, base)]) s' where
  named other name := by
    rw [TypeTable.name?, names, Std.TreeMap.getElem?_insert]
    by_cases own : uid = other
    · subst own
      rw [if_pos (by simp), Option.some.injEq]
      simp only [List.mem_append, List.mem_singleton, absent, Prod.mk.injEq, true_and, false_or]
      constructor
      · rintro rfl
        exact ⟨usable, rfl⟩
      · rintro ⟨-, rfl⟩
        rfl
    · rw [if_neg (by simpa using own)]
      refine (h.named other name).trans (and_congr_right fun _ => ?_)
      simp [Ne.symm own]
  missing other := by
    rw [TypeTable.isMissing, missing]
    refine (h.missing other).trans ?_
    simp [Ne.symm usable]
  taken name taken := by
    rw [types, NameScope.contains_insert, Bool.or_eq_true, beq_iff_eq] at taken
    rcases taken with same | taken
    · exact ⟨(uid, base), List.mem_append_right _ (List.mem_singleton_self _), same⟩
    · obtain ⟨d, member, same⟩ := h.taken name taken
      exact ⟨d, List.mem_append_left _ member, same⟩

theorem Knows.declare (h : Knows given s) {e : Element}
    (apart : Apart (given ++ [(uid, typeBase overrides uid e)])) :
    ∃ s', Survey.declare overrides s uid e = .ok s' ∧ s'.lookup = s.lookup ∧
      Knows (given ++ [(uid, typeBase overrides uid e)]) s' := by
  obtain ⟨absent, fresh⟩ := apart.fresh
  by_cases unusable : typeBase overrides uid e = Name.undefined
  · rw [Survey.declare, unusable, if_pos BEq.rfl]
    exact ⟨_, rfl, rfl, h.unnamed rfl rfl rfl⟩
  · have free : s.table.types.contains (typeBase overrides uid e) = false := by
      rw [Bool.eq_false_iff]
      intro taken
      obtain ⟨d, member, same⟩ := h.taken _ taken
      exact fresh d member same
    simp only [Survey.declare, beq_eq_false_iff_ne.mpr unusable, NameScope.claim_free free]
    exact ⟨_, rfl, rfl, h.called absent unusable rfl rfl rfl⟩

/-- A declaration of a new type goes well. -/
theorem Knows.startType (h : Knows given s) {e : Element} (identified : e.uid? = some uid)
    (apart : Apart (given ++ [(uid, typeBase overrides uid e)])) :
    ∃ s', Survey.startType overrides s e = .ok s' ∧ s'.lookup = s.lookupAfter uid e ∧
      Knows (given ++ [(uid, typeBase overrides uid e)]) s' := by
  obtain ⟨named, declared, lookup, knows⟩ := h.declare apart
  have unseen := h.unseen apart.fresh.1
  simp only [Survey.startType, identified, unseen, declared, lookupAfter, ← lookup]
  by_cases kind : (e.kind == .enumeration) = true
  · rw [if_pos kind]
    exact ⟨_, if_pos kind, rfl, knows.same ⟨rfl, rfl, rfl, rfl⟩⟩
  · rw [if_neg kind]
    exact ⟨named, if_neg kind, rfl, knows⟩

/-! ## Two surveys of the same elements -/

/-- Two surveys that know types of their own and have the same rows to name. -/
structure Alike (given given' : List (String × String)) (s s' : Survey) : Prop where
  knows : Knows given s
  knows' : Knows given' s'
  lookup : s'.lookup = s.lookup

theorem startRow_alike {e : Element} (lookup : s'.lookup = s.lookup)
    (started : startRow overrides s e = .ok t) :
    ∃ t', startRow overrides s' e = .ok t' ∧ t'.lookup = t.lookup := by
  unfold startRow at started ⊢
  rw [lookup]
  cases isOpen : s.lookup with
  | none =>
    rw [isOpen] at started
    obtain rfl : s = t := Except.ok.inj started
    exact ⟨s', rfl, lookup⟩
  | some rows =>
    simp only [isOpen, bind_eq_ok, Prod.exists, pure_eq_ok, Except.ok.injEq] at started ⊢
    obtain ⟨value, valued, resolved, scope, claimed, rfl⟩ := started
    exact ⟨_, ⟨value, valued, resolved, scope, claimed, rfl⟩, rfl⟩

theorem noteRevision_lookup (s : Survey) (e : Element) :
    (s.noteRevision e).lookup = s.lookup := by
  unfold noteRevision
  split <;> rfl

theorem finish_lookup (s : Survey) (kind : ElementKind) :
    (s.finish kind).lookup = if kind = .enumeration then none else s.lookup := by
  unfold finish
  split
  · rw [if_pos rfl]
  · rename_i noRows
    split
    · cases isOpen : s.lookup with
      | none => rfl
      | some rows => exact absurd isOpen (noRows rows ‹_›)
    · rfl

/-- An element that declares no type is started alike. -/
theorem start_alike {e : Element} (noType : e.kind.declaresType = false)
    (lookup : s'.lookup = s.lookup) (started : start overrides s e = .ok t) :
    ∃ t', start overrides s' e = .ok t' ∧ t'.lookup = t.lookup := by
  unfold start at started ⊢
  split at started
  case h_1 =>
    obtain rfl := Except.ok.inj started
    exact ⟨_, rfl, by rw [noteRevision_lookup, noteRevision_lookup, lookup]⟩
  case h_2 kind | h_3 kind | h_4 kind => simp [kind, ElementKind.declaresType] at noType
  case h_5 | h_6 => exact startRow_alike lookup started
  case h_7 =>
    obtain rfl := Except.ok.inj started
    exact ⟨s', rfl, lookup⟩

theorem startType_unidentified {e : Element} (identified : e.uid? = none) :
    startType overrides s e = .ok s := by
  rw [startType, identified]
  rfl

variable {given' : List (String × String)}

theorem Alike.start {e : Element} (alike : Alike given given' s s')
    (apart : Apart (given ++ e.given overrides)) (apart' : Apart (given' ++ e.given overrides))
    (started : start overrides s e = .ok t) :
    ∃ t', Survey.start overrides s' e = .ok t' ∧
      Alike (given ++ e.given overrides) (given' ++ e.given overrides) t t' := by
  have none_given (none : e.typeUid? = none) : e.given overrides = [] := by
    rw [Element.given, none]
    rfl
  cases type : e.kind.declaresType with
  | false =>
    have none : e.typeUid? = none := if_neg (by rw [type]; exact Bool.false_ne_true)
    obtain ⟨t', started', lookup⟩ := start_alike type alike.lookup started
    have same := start_declares started
    have same' := start_declares started'
    rw [none] at same same'
    rw [none_given none, List.append_nil, List.append_nil]
    exact ⟨t', started', alike.knows.same same, alike.knows'.same same', lookup⟩
  | true =>
    rw [start_declaresType type] at started ⊢
    cases identified : e.uid? with
    | none =>
      have none : e.typeUid? = none := (if_pos type).trans identified
      rw [startType_unidentified identified] at started
      obtain rfl := Except.ok.inj started
      rw [none_given none, List.append_nil, List.append_nil, startType_unidentified identified]
      exact ⟨s', rfl, alike⟩
    | some uid =>
      have own : e.given overrides = [(uid, typeBase overrides uid e)] := by
        rw [Element.given, Element.typeUid?, if_pos type, identified]
        rfl
      rw [own] at apart apart' ⊢
      obtain ⟨named, typed, lookup, knows⟩ := alike.knows.startType identified apart
      obtain ⟨t', started', lookup', knows'⟩ := alike.knows'.startType identified apart'
      obtain rfl := Except.ok.inj (typed.symm.trans started)
      refine ⟨t', started', knows, knows', ?_⟩
      rw [lookup, lookup', lookupAfter, lookupAfter, alike.lookup]

theorem Alike.finish (alike : Alike given given' s s') (kind : ElementKind) :
    Alike given given' (s.finish kind) (s'.finish kind) where
  knows := alike.knows.same (finish_sameNames s kind)
  knows' := alike.knows'.same (finish_sameNames s' kind)
  lookup := by rw [finish_lookup, finish_lookup, alike.lookup]

/-- A forest is surveyed alike from surveys to which all its types are new. -/
theorem Alike.visit {f : Forest} (alike : Alike given given' s s')
    (apart : Apart (given ++ f.bases overrides)) (apart' : Apart (given' ++ f.bases overrides))
    (walked : (walk overrides).visit f s = .ok t) :
    ∃ t', (walk overrides).visit f s' = .ok t' ∧
      Alike (given ++ f.bases overrides) (given' ++ f.bases overrides) t t' := by
  induction f generalizing s s' given given' t with
  | nil =>
    obtain rfl := Except.ok.inj walked
    rw [Forest.bases, List.append_nil, List.append_nil]
    exact ⟨s', rfl, alike⟩
  | node e inside behind ih_inside ih_behind =>
    cases current : e.isDeprecated with
    | true =>
      have skip (s : Survey) : (walk overrides).visit (.node e inside behind) s =
          (walk overrides).visit behind s := by
        rw [Walk.visit, if_pos current]
      rw [Forest.bases, if_pos current, List.nil_append] at apart apart' ⊢
      rw [skip] at walked ⊢
      exact ih_behind alike apart apart' walked
    | false =>
      rw [Forest.bases_current current given] at apart ⊢
      rw [Forest.bases_current current given'] at apart' ⊢
      rw [visit_node current] at walked ⊢
      obtain ⟨entered, started, walked⟩ := bind_eq_ok.mp walked
      obtain ⟨left, visited, walked⟩ := bind_eq_ok.mp walked
      obtain ⟨entered', started', alike⟩ := alike.start apart.left.left apart'.left.left started
      obtain ⟨left', visited', alike⟩ := ih_inside alike apart.left apart'.left visited
      obtain ⟨t', walked', alike⟩ := ih_behind (alike.finish e.kind) apart apart' walked
      refine ⟨t', ?_, alike⟩
      rw [started', ← walked']
      change (walk overrides).visit inside entered' >>= _ = _
      rw [visited']
      rfl

/-- After the elements of a document a survey knows their types. -/
theorem Knows.visit {f : Forest} (knows : Knows given s)
    (apart : Apart (given ++ f.bases overrides)) (walked : (walk overrides).visit f s = .ok t) :
    Knows (given ++ f.bases overrides) t := by
  obtain ⟨t', -, alike⟩ := Alike.visit ⟨knows, knows, rfl⟩ apart apart walked
  exact alike.knows

/-- No lookup enumeration stays open. -/
theorem visit_closed {f : Forest} (closed : s.lookup = none)
    (walked : (walk overrides).visit f s = .ok t) : t.lookup = none := by
  induction f generalizing s t with
  | nil =>
    obtain rfl := Except.ok.inj walked
    exact closed
  | node e inside behind ih_inside ih_behind =>
    rcases visit_node_eq_ok walked with
      ⟨-, rest⟩ | ⟨entered, left, -, started, visited, rest⟩
    · exact ih_behind closed rest
    · refine ih_behind ?_ rest
      rw [finish_lookup]
      split
      · rfl
      · rename_i noEnumeration
        refine ih_inside ?_ visited
        cases start_started started with
        | passed | repeated => exact closed
        | revision => rw [noteRevision_lookup, closed]
        | unnamed | named =>
          exact (if_neg (by simpa using noEnumeration)).trans closed
        | row isOpen => cases isOpen.symm.trans closed

/-! ## Declarations in any order -/

/-- A declaration can be surveyed by itself. -/
def Alone (overrides : Overrides) (d : Element × Forest) : Prop :=
  ∃ t, (walk overrides).visit (.node d.1 d.2 .nil) {} = .ok t

/-- A declaration of new types can be surveyed if it can be by itself. -/
theorem Knows.alone_iff {e : Element} {inside : Forest} (knows : Knows given s)
    (closed : s.lookup = none)
    (apart : Apart (given ++ (Forest.node e inside .nil).bases overrides)) :
    (∃ t, (walk overrides).visit (.node e inside .nil) s = .ok t) ↔
      Alone overrides (e, inside) := by
  have own : Apart ([] ++ (Forest.node e inside .nil).bases overrides) :=
    apart.sublist (List.sublist_append_right _ _)
  constructor
  · rintro ⟨t, walked⟩
    obtain ⟨t', walked', -⟩ := Alike.visit ⟨knows, knows_new, closed.symm⟩ apart own walked
    exact ⟨t', walked'⟩
  · rintro ⟨t, walked⟩
    obtain ⟨t', walked', -⟩ := Alike.visit ⟨knows_new, knows, closed⟩ own apart walked
    exact ⟨t', walked'⟩

/-- A plain element does nothing to types and rows. -/
theorem start_plain {e : Element} (plain : e.kind.isPlain = true) :
    ∃ t, start overrides s e = .ok t ∧ SameNames s t ∧ t.lookup = s.lookup := by
  cases kind : e.kind with
  | revision =>
    refine ⟨s.noteRevision e, ?_, noteRevision_sameNames s e, noteRevision_lookup s e⟩
    rw [start, kind]
  | other =>
    refine ⟨s, ?_, ⟨rfl, rfl, rfl, rfl⟩, rfl⟩
    rw [start, kind]
  | _ => rw [kind] at plain; cases plain

/-- An element that stands in a document of declarations only can be surveyed if the declarations
can of which it is made. -/
theorem Knows.first {e : Element} {inside : Forest}
    (only : (Forest.node e inside .nil).declaresOnly = true) (knows : Knows given s)
    (closed : s.lookup = none)
    (apart : Apart (given ++ (Forest.node e inside .nil).bases overrides))
    (within : ∀ {s : Survey}, inside.declaresOnly = true → Knows given s → s.lookup = none →
      Apart (given ++ inside.bases overrides) →
      ((∃ t, (walk overrides).visit inside s = .ok t) ↔
        ∀ d ∈ inside.declared, Alone overrides d)) :
    (∃ t, (walk overrides).visit (.node e inside .nil) s = .ok t) ↔
      ∀ d ∈ (Forest.node e inside .nil).declared, Alone overrides d := by
  cases current : e.isDeprecated with
  | true =>
    rw [Walk.visit, if_pos current, Forest.declared, if_pos current]
    exact ⟨fun _ => List.forall_mem_nil _, fun _ => ⟨s, rfl⟩⟩
  | false =>
    have own := (Forest.declaresOnly_node only).1 current
    have notDeprecated : ¬ e.isDeprecated = true := by
      rw [current]
      exact Bool.false_ne_true
    rw [Forest.declared, if_neg notDeprecated, Forest.declared, List.append_nil]
    by_cases plain : e.kind.isPlain = true
    · rw [if_pos plain] at own ⊢
      obtain ⟨entered, started, same, lookup⟩ :
          ∃ t, Survey.start overrides s e = .ok t ∧ SameNames s t ∧ t.lookup = s.lookup :=
        start_plain plain
      rw [Forest.bases_current current, Element.given_of_isPlain plain, List.append_nil,
        Forest.bases, List.append_nil] at apart
      have walks : (walk overrides).visit (.node e inside .nil) s =
          (walk overrides).visit inside entered >>= fun left => .ok (left.finish e.kind) := by
        rw [visit_node current, started]
        rfl
      rw [walks, ← within own (knows.same same) (lookup.trans closed) apart]
      constructor
      · rintro ⟨t, walked⟩
        obtain ⟨left, visited, -⟩ := bind_eq_ok.mp walked
        exact ⟨left, visited⟩
      · rintro ⟨left, visited⟩
        exact ⟨left.finish e.kind, bind_eq_ok.mpr ⟨left, visited, rfl⟩⟩
    · rw [if_neg plain] at own ⊢
      rw [if_pos own, List.forall_mem_singleton]
      exact knows.alone_iff closed apart

/-- Declarations can be surveyed together if each can be by itself. -/
theorem Knows.declarations {f : Forest} (only : f.declaresOnly = true) (knows : Knows given s)
    (closed : s.lookup = none) (apart : Apart (given ++ f.bases overrides)) :
    (∃ t, (walk overrides).visit f s = .ok t) ↔ ∀ d ∈ f.declared, Alone overrides d := by
  induction f generalizing s given with
  | nil => exact ⟨fun _ => List.forall_mem_nil _, fun _ => ⟨s, rfl⟩⟩
  | node e inside behind ih_inside ih_behind =>
    obtain ⟨head, others⟩ := Forest.declaresOnly_behind.mp only
    rw [Forest.bases_behind, ← List.append_assoc] at apart
    have first := knows.first head closed apart.left fun only knows closed apart =>
      ih_inside only knows closed apart
    have after {left : Survey}
        (visited : (walk overrides).visit (.node e inside .nil) s = .ok left) :=
      ih_behind others (knows.visit apart.left visited) (visit_closed closed visited) apart
    rw [Forest.declared_behind, List.forall_mem_append, ← first]
    rw [Walk.visit_behind _ e inside behind s]
    constructor
    · rintro ⟨t, walked⟩
      obtain ⟨left, visited, walked⟩ := bind_eq_ok.mp walked
      exact ⟨⟨left, visited⟩, (after visited).mp ⟨t, walked⟩⟩
    · rintro ⟨⟨left, visited⟩, alone⟩
      obtain ⟨t, walked⟩ := (after visited).mpr alone
      exact ⟨t, bind_eq_ok.mpr ⟨left, visited, walked⟩⟩

/-- Declarations are surveyed alike in any order. -/
theorem visit_reordered {f f' : Forest} (only : f.declaresOnly = true)
    (only' : f'.declaresOnly = true) (permuted : f'.declared.Perm f.declared)
    (apart : Apart (f.bases overrides)) (walked : (walk overrides).visit f {} = .ok t) :
    ∃ t', (walk overrides).visit f' {} = .ok t' ∧ ∀ uid,
      t'.table.name? uid = t.table.name? uid ∧ t'.table.isMissing uid = t.table.isMissing uid := by
  have types : (f'.bases overrides).Perm (f.bases overrides) :=
    Forest.bases_perm only only' permuted
  have apart' := apart.perm types
  have alone := (knows_new.declarations only rfl apart).mp ⟨t, walked⟩
  obtain ⟨t', walked'⟩ := (knows_new.declarations only' rfl apart').mpr fun d member =>
    alone d (permuted.mem_iff.mp member)
  have knows : Knows (f.bases overrides) t := knows_new.visit apart walked
  have knows' : Knows (f'.bases overrides) t' := knows_new.visit apart' walked'
  exact ⟨t', walked', knows.alike (knows'.perm types.symm)⟩

end Survey

end EnumRegistry
