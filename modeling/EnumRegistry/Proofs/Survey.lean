import EnumRegistry.Proofs.Name.Scope
import EnumRegistry.Proofs.Registry.Walk
import EnumRegistry.TypeTable

/-!
The survey of types by what one start tag can do. The names it gives to UIDs all stand in the
scope of types, each claimed there once, so no two of them differ by case alone.
-/

namespace EnumRegistry

namespace Survey

/-- The lookup enumeration that is open after a type declaration. -/
def lookupAfter (s : Survey) (uid : String) (e : Element) : Option LookupRows :=
  if e.kind == .enumeration then
    (LookupTable.ofUid? uid).map fun table => { table, typeName := e.rawName }
  else s.lookup

/-- What the row of an open lookup enumeration is named by. -/
def rowNaming (overrides : Overrides) (rows : LookupRows) (value : Int) (e : Element) : Naming where
  raw := e.description
  fixed := overrides.row? rows.table.uid value e.description
  ancestors := [rows.typeName]
  subject := ""

/-- What a start tag can do to a survey. -/
inductive Started (overrides : Overrides) (s : Survey) (e : Element) : Survey → Prop
  | passed : Started overrides s e s
  | revision : Started overrides s e (s.noteRevision e)
  | repeated {uid : String} (declares : e.uid? = some uid) (seen : s.table.isDeclared uid = true)
      (message : String) : Started overrides s e (s.note .duplicateUid e uid message)
  | unnamed {uid : String} (declares : e.uid? = some uid) (unseen : s.table.isDeclared uid = false)
      (unusable : typeBase overrides uid e = Name.undefined) (message : String) :
      Started overrides s e
        { s.note .missingName e uid message with
          table := { s.table with missing := s.table.missing.insert uid }
          lookup := s.lookupAfter uid e }
  | named {uid name : String} {types : NameScope} (declares : e.uid? = some uid)
      (unseen : s.table.isDeclared uid = false)
      (usable : typeBase overrides uid e ≠ Name.undefined)
      (claimed : s.table.types.claim (typeBase overrides uid e) = .ok (name, types)) :
      Started overrides s e
        { s with
          table := { s.table with names := s.table.names.insert uid name, types }
          lookup := s.lookupAfter uid e }
  | row {rows : LookupRows} {value : Int} {resolved : ResolvedName} {scope : NameScope}
      (isOpen : s.lookup = some rows) (valued : e.value = .ok value)
      (claimed : (rowNaming overrides rows value e).resolve rows.scope = .ok (resolved, scope)) :
      Started overrides s e
        { s with
          lookup := some { rows with scope, labels := rows.labels.insert value resolved.name } }

theorem declare_eq_ok {overrides : Overrides} {s s' : Survey} {uid : String} {e : Element}
    (h : declare overrides s uid e = .ok s') :
    (typeBase overrides uid e = Name.undefined ∧ ∃ message,
      s' = { s.note .missingName e uid message with
        table := { s.table with missing := s.table.missing.insert uid } }) ∨
    (typeBase overrides uid e ≠ Name.undefined ∧ ∃ name types,
      s.table.types.claim (typeBase overrides uid e) = .ok (name, types) ∧
      s' = { s with table := { s.table with names := s.table.names.insert uid name, types } }) := by
  unfold declare at h
  by_cases unusable : typeBase overrides uid e = Name.undefined
  · simp only [unusable, beq_self_eq_true, ↓reduceIte, pure_eq_ok, Except.ok.injEq] at h
    exact .inl ⟨unusable, _, h.symm⟩
  · simp only [beq_eq_false_iff_ne.mpr unusable, Bool.false_eq_true, ↓reduceIte, bind_eq_ok,
      ofScope_eq_ok, Prod.exists, pure_eq_ok, Except.ok.injEq] at h
    obtain ⟨name, types, claimed, rfl⟩ := h
    exact .inr ⟨unusable, name, types, claimed, rfl⟩

theorem startType_eq_ok {overrides : Overrides} {s s' : Survey} {e : Element}
    (h : startType overrides s e = .ok s') :
    (e.uid? = none ∧ s' = s) ∨ ∃ uid, e.uid? = some uid ∧
      ((s.table.isDeclared uid = true ∧ ∃ message, s' = s.note .duplicateUid e uid message) ∨
        s.table.isDeclared uid = false ∧ ∃ named, declare overrides s uid e = .ok named ∧
          s' = { named with lookup := s.lookupAfter uid e }) := by
  unfold startType at h
  cases declares : e.uid? with
  | none =>
    simp only [declares, pure_eq_ok, Except.ok.injEq] at h
    exact .inl ⟨rfl, h.symm⟩
  | some uid =>
    simp only [declares] at h
    refine .inr ⟨uid, rfl, ?_⟩
    split at h
    · rename_i seen
      simp only [pure_eq_ok, Except.ok.injEq] at h
      exact .inl ⟨seen, _, h.symm⟩
    · rename_i unseen
      obtain ⟨named, hdeclare, h⟩ := bind_eq_ok.mp h
      have lookup : named.lookup = s.lookup := by
        rcases declare_eq_ok hdeclare with ⟨-, _, rfl⟩ | ⟨-, _, _, -, rfl⟩ <;> rfl
      refine .inr ⟨by simpa using unseen, named, hdeclare, ?_⟩
      unfold lookupAfter
      rw [← lookup]
      split at h <;> simp_all

theorem startType_started {overrides : Overrides} {s s' : Survey} {e : Element}
    (h : startType overrides s e = .ok s') : Started overrides s e s' := by
  rcases startType_eq_ok h with
    ⟨-, rfl⟩ | ⟨uid, declares, ⟨seen, message, rfl⟩ | ⟨unseen, named, hdeclare, rfl⟩⟩
  · exact .passed
  · exact .repeated declares seen message
  · rcases declare_eq_ok hdeclare with
      ⟨unusable, message, rfl⟩ | ⟨usable, name, types, claimed, rfl⟩
    · exact .unnamed declares unseen unusable message
    · exact .named declares unseen usable claimed

theorem startRow_started {overrides : Overrides} {s s' : Survey} {e : Element}
    (h : startRow overrides s e = .ok s') : Started overrides s e s' := by
  unfold startRow at h
  cases isOpen : s.lookup with
  | none =>
    simp only [isOpen, pure_eq_ok, Except.ok.injEq] at h
    exact h ▸ .passed
  | some rows =>
    simp only [isOpen, bind_eq_ok, ofRegistry_eq_ok, ofScope_eq_ok, Prod.exists, pure_eq_ok,
      Except.ok.injEq] at h
    obtain ⟨value, valued, resolved, scope, claimed, rfl⟩ := h
    exact .row isOpen valued claimed

theorem start_started {overrides : Overrides} {s s' : Survey} {e : Element}
    (h : start overrides s e = .ok s') : Started overrides s e s' := by
  unfold start at h
  split at h
  · cases h; exact .revision
  · exact startType_started h
  · exact startType_started h
  · exact startType_started h
  · exact startRow_started h
  · exact startRow_started h
  · cases h; exact .passed

/-- The walk keeps what every start tag and every end tag keeps. -/
theorem walk_keeps {overrides : Overrides} {P : Survey → Prop}
    (started : ∀ {s s' e}, P s → Started overrides s e s' → P s')
    (finished : ∀ {s kind}, P s → P (s.finish kind)) : (walk overrides).Keeps P where
  start {s s' e} _ hs h := by
    simp only [walk, Functor.map, Except.map] at h
    cases hstart : start overrides s e with
    | error err => simp [hstart] at h
    | ok t =>
      simp only [hstart, Except.ok.injEq, Option.some.injEq] at h
      exact h ▸ started hs (start_started hstart)
  finish hs h := by
    simp only [walk, Except.ok.injEq] at h
    exact h ▸ finished hs

/-! ## Names of types -/

@[simp] theorem noteRevision_names (s : Survey) (e : Element) :
    (s.noteRevision e).table.names = s.table.names := by
  unfold noteRevision; split <;> rfl

@[simp] theorem noteRevision_types (s : Survey) (e : Element) :
    (s.noteRevision e).table.types = s.table.types := by
  unfold noteRevision; split <;> rfl

@[simp] theorem finish_names (s : Survey) (kind : ElementKind) :
    (s.finish kind).table.names = s.table.names := by
  unfold finish; split <;> rfl

@[simp] theorem finish_types (s : Survey) (kind : ElementKind) :
    (s.finish kind).table.types = s.table.types := by
  unfold finish; split <;> rfl

end Survey

/-- Every UID's name is taken, and no two UIDs have names that differ by case alone. -/
structure TypeTable.NamesApart (t : TypeTable) : Prop where
  taken : ∀ {uid name : String}, t.name? uid = some name → t.types.contains name = true
  apart : ∀ {uid other name otherName : String}, t.name? uid = some name →
    t.name? other = some otherName → lookupKey name = lookupKey otherName → uid = other

namespace Survey

theorem namesApart_congr {t u : TypeTable} (names : u.names = t.names) (types : u.types = t.types)
    (h : t.NamesApart) : u.NamesApart where
  taken hname := by
    rw [TypeTable.name?, names] at hname
    exact types ▸ h.taken hname
  apart hname hother hkey := by
    rw [TypeTable.name?, names] at hname hother
    exact h.apart hname hother hkey

/-- A claimed name keeps the names of all UIDs apart. -/
theorem namesApart_insert {t : TypeTable} {uid base name : String} {types : NameScope}
    (h : t.NamesApart) (claimed : t.types.claim base = .ok (name, types)) :
    TypeTable.NamesApart { t with names := t.names.insert uid name, types } := by
  obtain ⟨-, free, rfl⟩ := NameScope.claim_eq_ok claimed
  have look (other : String) : (t.names.insert uid name)[other]? =
      if uid = other then some name else t.name? other := by
    simp [Std.TreeMap.getElem?_insert, TypeTable.name?]
  have differs {other otherName : String} (hother : t.name? other = some otherName) :
      lookupKey name ≠ lookupKey otherName := by
    intro hkey
    have := h.taken hother
    simp [← NameScope.contains_congr t.types hkey, free] at this
  constructor
  · intro other otherName hother
    rw [TypeTable.name?, look] at hother
    split at hother
    · cases hother
      simp [NameScope.contains_insert]
    · exact NameScope.contains_insert_of_contains (h.taken hother)
  · intro a b nameA nameB ha hb hkey
    rw [TypeTable.name?, look] at ha hb
    split at ha <;> split at hb
    · simp_all
    · cases ha; exact absurd hkey (differs hb)
    · cases hb; exact absurd hkey.symm (differs ha)
    · exact h.apart ha hb hkey

theorem started_namesApart {overrides : Overrides} {s s' : Survey} {e : Element}
    (hs : s.table.NamesApart) (h : Started overrides s e s') : s'.table.NamesApart := by
  cases h with
  | passed | repeated | row => exact hs
  | revision => exact namesApart_congr (by simp) (by simp) hs
  | unnamed => exact namesApart_congr (t := s.table) rfl rfl hs
  | named _ _ _ claimed => exact namesApart_insert hs claimed

/-- The names that a survey gives to UIDs differ by more than case. -/
theorem ofReader_namesApart {overrides : Overrides} {r : Reader} {s : Survey}
    (h : ofReader overrides r = .ok s) : s.table.NamesApart := by
  have keeps : (walk overrides).Keeps (fun s => s.table.NamesApart) :=
    walk_keeps started_namesApart fun hs => namesApart_congr (by simp) (by simp) hs
  refine keeps.run ?_ (Walk.through_eq_ok.mp h).2
  constructor <;> intros <;> simp_all [TypeTable.name?]

end Survey

end EnumRegistry
