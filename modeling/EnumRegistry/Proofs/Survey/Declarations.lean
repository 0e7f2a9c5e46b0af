import Mathlib.Data.List.Dedup
import EnumRegistry.Proofs.Registry.Deletion
import EnumRegistry.Proofs.Survey.Labels

/-!
A survey by what it makes of declarations. It follows the UIDs of the current types in the order of
their declarations, and at each of them there are three cases: the UID was declared before, it gets
no name, or it gets the first free spelling of one.
-/

namespace EnumRegistry

/-- The UID that a type declaration gives. -/
def Element.typeUid? (e : Element) : Option String := if e.kind.declaresType then e.uid? else none

/-- The UID that an event declares. -/
def Event.typeUid? : Event → Option String
  | .start e => e.typeUid?
  | .finish _ => none

/-- The UIDs of all type declarations that are not deprecated and stand inside nothing deprecated,
in document order. A UID declared twice is there twice. -/
def Reader.typeUids (r : Reader) : List String :=
  (keptEvents (·.isDeprecated) 0 r.events.1).filterMap Event.typeUid?

theorem Diagnostic.count_concat (kind : DiagnosticKind) (found : List Diagnostic) (d : Diagnostic) :
    count kind (found ++ [d]) = count kind found + if d.kind = kind then 1 else 0 := by
  simp [count, List.countP_append, List.countP_cons]

namespace Survey

/-- Two surveys between which nothing is declared. -/
structure SameNames (s s' : Survey) : Prop where
  names : s'.table.names = s.table.names
  missing : s'.table.missing = s.table.missing
  types : s'.table.types = s.table.types
  found : s'.found = s.found

/-- What a survey makes of the declaration of a UID. -/
inductive Declares (overrides : Overrides) (s : Survey) (uid : String) (s' : Survey) : Prop
  | again {d : Diagnostic} (seen : s.table.isDeclared uid = true)
      (names : s'.table.names = s.table.names) (missing : s'.table.missing = s.table.missing)
      (types : s'.table.types = s.table.types) (kind : d.kind = .duplicateUid)
      (found : s'.found = s.found ++ [d])
  | unnamed {e : Element} {d : Diagnostic} (unseen : s.table.isDeclared uid = false)
      (unusable : typeBase overrides uid e = Name.undefined)
      (names : s'.table.names = s.table.names)
      (missing : s'.table.missing = s.table.missing.insert uid)
      (types : s'.table.types = s.table.types) (kind : d.kind = .missingName)
      (found : s'.found = s.found ++ [d])
  | named {e : Element} {name : String} (unseen : s.table.isDeclared uid = false)
      (usable : typeBase overrides uid e ≠ Name.undefined)
      (claimed : s.table.types.claim (typeBase overrides uid e) = .ok (name, s'.table.types))
      (names : s'.table.names = s.table.names.insert uid name)
      (missing : s'.table.missing = s.table.missing) (found : s'.found = s.found)

variable {overrides : Overrides} {s s' : Survey}

theorem finish_sameNames (s : Survey) (kind : ElementKind) : SameNames s (s.finish kind) := by
  unfold finish
  split <;> exact ⟨rfl, rfl, rfl, rfl⟩

theorem startRow_sameNames {e : Element} (h : startRow overrides s e = .ok s') :
    SameNames s s' := by
  unfold startRow at h
  cases isOpen : s.lookup with
  | none =>
    simp only [isOpen, pure_eq_ok, Except.ok.injEq] at h
    exact h ▸ ⟨rfl, rfl, rfl, rfl⟩
  | some rows =>
    simp only [isOpen, bind_eq_ok, Prod.exists, pure_eq_ok, Except.ok.injEq] at h
    obtain ⟨_, -, _, _, -, rfl⟩ := h
    exact ⟨rfl, rfl, rfl, rfl⟩

theorem noteRevision_sameNames (s : Survey) (e : Element) : SameNames s (s.noteRevision e) := by
  unfold noteRevision
  split <;> exact ⟨rfl, rfl, rfl, rfl⟩

theorem startType_declares {e : Element} {uid : String} (declares : e.uid? = some uid)
    (h : startType overrides s e = .ok s') : Declares overrides s uid s' := by
  rcases startType_eq_ok h with ⟨none, -⟩ | ⟨_, some, h⟩
  · cases declares.symm.trans none
  · cases declares.symm.trans some
    rcases h with ⟨seen, message, rfl⟩ | ⟨unseen, named, hdeclare, rfl⟩
    · exact .again seen rfl rfl rfl rfl rfl
    · rcases declare_eq_ok hdeclare with
        ⟨unusable, message, rfl⟩ | ⟨usable, name, types, claimed, rfl⟩
      · exact .unnamed unseen unusable rfl rfl rfl rfl rfl
      · exact .named unseen usable claimed rfl rfl rfl

/-- A start tag declares the UID of its type, if it is a type and has one. -/
theorem start_declares {e : Element} (h : start overrides s e = .ok s') :
    match e.typeUid? with
    | none => SameNames s s'
    | some uid => Declares overrides s uid s' := by
  unfold Element.typeUid?
  cases type : e.kind.declaresType with
  | true =>
    rw [start_declaresType type] at h
    cases declares : e.uid? with
    | some uid => exact startType_declares declares h
    | none =>
      rcases startType_eq_ok h with ⟨-, rfl⟩ | ⟨uid, some, -⟩
      · exact ⟨rfl, rfl, rfl, rfl⟩
      · cases declares.symm.trans some
  | false =>
    unfold start at h
    split at h
    case h_1 => exact Except.ok.inj h ▸ noteRevision_sameNames s e
    case h_2 kind | h_3 kind | h_4 kind => simp [kind, ElementKind.declaresType] at type
    case h_5 | h_6 => exact startRow_sameNames h
    case h_7 => exact Except.ok.inj h ▸ ⟨rfl, rfl, rfl, rfl⟩

theorem SameNames.isDeclared (same : SameNames s s') (uid : String) :
    s'.table.isDeclared uid = s.table.isDeclared uid := by
  rw [TypeTable.isDeclared, TypeTable.isMissing, same.names, same.missing]
  rfl

/-- After its declaration a UID is declared, and of the others those that were. -/
theorem Declares.isDeclared {uid : String} (declares : Declares overrides s uid s')
    (other : String) : s'.table.isDeclared other = (uid == other || s.table.isDeclared other) := by
  have same : (compare uid other == .eq) = (uid == other) := by
    rw [Bool.eq_iff_iff]
    simp
  cases declares with
  | again seen names missing =>
    simp only [TypeTable.isDeclared, TypeTable.isMissing, names, missing] at seen ⊢
    by_cases own : uid = other
    · simpa [own] using seen
    · simp [own]
  | unnamed _ _ names missing =>
    simp [TypeTable.isDeclared, TypeTable.isMissing, names, missing, Bool.or_left_comm, same]
  | named _ _ _ names missing =>
    simp [TypeTable.isDeclared, TypeTable.isMissing, names, missing, Bool.or_assoc, same]

/-! ## The run -/

/-- The declared UIDs are those that a survey has read. -/
def Seen (done : List String) (s : Survey) : Prop :=
  ∀ uid, s.table.isDeclared uid = true ↔ uid ∈ done

theorem seen_new : Seen [] {} := by
  simp [Seen, TypeTable.isDeclared, TypeTable.isMissing]

theorem Declares.seen {done : List String} {uid : String} (h : Seen done s)
    (declares : Declares overrides s uid s') : Seen (done ++ [uid]) s' := by
  intro other
  rw [declares.isDeclared, Bool.or_eq_true, h other, beq_iff_eq, List.mem_append,
    List.mem_singleton, or_comm, eq_comm (a := uid)]

theorem walk_start_eq_ok {e : Element} {entered : Option Survey} :
    (walk overrides).start s e = .ok entered ↔
      ∃ s', start overrides s e = .ok s' ∧ some s' = entered := map_eq_ok

/-- What holds of no declarations and is kept by each holds of all UIDs after a survey. -/
theorem ofReader_follows {P : List String → Survey → Prop} {r : Reader} {last : Survey}
    (new : P [] {}) (same : ∀ {done s s'}, P done s → SameNames s s' → P done s')
    (declared : ∀ {done s s' uid}, Seen done s → P done s → Declares overrides s uid s' →
      P (done ++ [uid]) s')
    (h : ofReader overrides r = .ok last) : P r.typeUids last := by
  have keep {done : List String} {s s' : Survey} (hs : Seen done s ∧ P done s)
      (h : SameNames s s') : Seen done s' ∧ P done s' :=
    ⟨fun uid => by rw [h.isDeclared]; exact hs.1 uid, same hs.2 h⟩
  have followed := Walk.run_follows (w := walk overrides)
    (P := fun done s => Seen (done.filterMap Event.typeUid?) s ∧
      P (done.filterMap Event.typeUid?) s)
    ?_ ?_ ?_ [] ⟨seen_new, new⟩ (Walk.through_eq_ok.mp h).2
  · exact followed.2
  · rintro s e hstart
    obtain ⟨_, -, none⟩ := walk_start_eq_ok.mp hstart
    cases none
  · intro done s s' e hs hstart
    obtain ⟨_, hstart, entered⟩ := walk_start_eq_ok.mp hstart
    cases entered
    have declares := start_declares hstart
    simp only [List.filterMap_append, List.filterMap_cons, List.filterMap_nil, Event.typeUid?]
    cases uid : e.typeUid? with
    | none =>
      rw [uid] at declares
      simpa using keep hs declares
    | some uid' =>
      rw [uid] at declares
      exact ⟨declares.seen hs.1, declared hs.1 hs.2 declares⟩
  · intro done s s' kind hs hfinish
    cases hfinish
    simpa [List.filterMap_cons, Event.typeUid?] using keep hs (finish_sameNames s kind)

/-! ## Findings -/

/-- What a survey has found about declarations: each but the first of a UID, and each UID that got
no name. -/
structure Tallies (done : List String) (s : Survey) : Prop where
  again : Diagnostic.count .duplicateUid s.found + done.dedup.length = done.length
  unnamed : Diagnostic.count .missingName s.found = s.table.missing.size
  others : ∀ d ∈ s.found, d.kind = .duplicateUid ∨ d.kind = .missingName

theorem length_dedup_concat (done : List String) (uid : String) :
    (done ++ [uid]).dedup.length = done.dedup.length + if uid ∈ done then 0 else 1 := by
  rw [(List.perm_append_singleton uid done).dedup.length_eq]
  split
  · rw [List.dedup_cons_of_mem ‹_›, Nat.add_zero]
  · rw [List.dedup_cons_of_notMem ‹_›, List.length_cons]

theorem Tallies.declared {done : List String} {uid : String} (h : Tallies done s)
    (seen : Seen done s) (declares : Declares overrides s uid s') :
    Tallies (done ++ [uid]) s' := by
  obtain ⟨again, unnamed, others⟩ := h
  have more {d : Diagnostic} (found : s'.found = s.found ++ [d])
      (kind : d.kind = .duplicateUid ∨ d.kind = .missingName) :
      ∀ d ∈ s'.found, d.kind = .duplicateUid ∨ d.kind = .missingName := by
    rw [found]
    simpa [or_imp, forall_and] using ⟨others, kind⟩
  have unread (unseen : s.table.isDeclared uid = false) : uid ∉ done := by
    rw [← seen uid, unseen]
    exact Bool.false_ne_true
  cases declares with
  | again known _ missing _ kind found =>
    refine ⟨?_, ?_, more found (.inl kind)⟩
    · rw [found, Diagnostic.count_concat, if_pos kind, length_dedup_concat,
        if_pos ((seen uid).mp known), List.length_append, List.length_singleton, ← again]
      omega
    · rw [found, Diagnostic.count_concat, kind, missing, unnamed]
      rfl
  | unnamed unseen _ _ missing _ kind found =>
    have new : s.table.missing.contains uid = false := (Bool.or_eq_false_iff.mp unseen).2
    refine ⟨?_, ?_, more found (.inr kind)⟩
    · rw [found, Diagnostic.count_concat, kind, length_dedup_concat, if_neg (unread unseen),
        List.length_append, List.length_singleton, ← again]
      rfl
    · rw [found, Diagnostic.count_concat, if_pos kind, missing, Std.TreeSet.size_insert, new,
        unnamed]
      rfl
  | named unseen _ _ _ missing found =>
    refine ⟨?_, by rw [found, missing, unnamed], found ▸ others⟩
    rw [found, length_dedup_concat, if_neg (unread unseen), List.length_append,
      List.length_singleton, ← again]
    omega

end Survey

end EnumRegistry
