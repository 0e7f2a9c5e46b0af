import EnumRegistry.Generation
import EnumRegistry.Proofs.Building.TypeNames
import EnumRegistry.Proofs.Emission.Placement

/-!
The tables of a run. The registry of UIDs and the table of declared types are filled apart from each
other, and in both the first symbol with a UID counts. In a model types come before nodes, and an
enumeration comes before its satellites.
-/

namespace EnumRegistry

/-- A value is entered unless the table has one. -/
theorem getElem?_entered {α : Type} (t : Std.TreeMap String α) (key : String) (value : α)
    (other : String) : (if t.contains key then t else t.insert key value)[other]? =
      t[other]?.or (if key = other then some value else none) := by
  by_cases same : key = other
  · subst same
    cases known : t[key]? with
    | some old => simp [Std.TreeMap.contains_eq_isSome_getElem?, known]
    | none => simp [Std.TreeMap.contains_eq_isSome_getElem?, known]
  · rw [if_neg same, Option.or_none]
    split
    · rfl
    · simp [Std.TreeMap.getElem?_insert, same]

/-- Where each element is entered unless something stands there already, the first one counts. -/
theorem lookup_foldl {τ α β : Type} (lookup : τ → Option β) {step : τ → α → τ}
    {entry : α → Option β} (h : ∀ t a, lookup (step t a) = (lookup t).or (entry a)) (t : τ)
    (l : List α) : lookup (l.foldl step t) = (lookup t).or (l.findSome? entry) := by
  induction l generalizing t with
  | nil => simp
  | cons a l ih =>
    rw [List.foldl_cons, ih, h, Option.or_assoc, List.findSome?_cons]
    cases entry a <;> rfl

/-- What is found at the first element that fits, if there is something. -/
theorem findSome?_of_find? {α β : Type} {p : α → Bool} {f : α → Option β} {l : List α} {a : α}
    (only : ∀ a, p a = false → f a = none) (h : l.find? p = some a) {b : β} (found : f a = some b) :
    l.findSome? f = some b := by
  obtain ⟨-, before, after, rfl, earlier⟩ := List.find?_eq_some_iff_append.mp h
  have absent : before.findSome? f = none := by
    rw [List.findSome?_eq_none_iff]
    intro x hx
    exact only x (by simpa using earlier x hx)
  rw [List.findSome?_append, absent, Option.none_or, List.findSome?_cons, found]

namespace Emission

/-- The first symbol with a UID, and its place. -/
def holder? (e : Emission) (uid : String) : Option (Symbol × Placement) :=
  e.placed.find? (·.1.uid == some uid)

/-- What the registry of UIDs has of a symbol. -/
def nameUnder? (uid : String) (placed : Symbol × Placement) : Option String :=
  if placed.1.uid = some uid then some placed.2.qualified else none

theorem get?_recordPlaced (uid : String) (r : UidRegistry) (placed : Symbol × Placement) :
    (recordPlaced r placed).get? uid = (r.get? uid).or (nameUnder? uid placed) := by
  unfold recordPlaced nameUnder?
  cases placed.1.uid with
  | none => simp
  | some own =>
    simp only [UidRegistry.record, UidRegistry.get?, apply_ite UidRegistry.symbols,
      getElem?_entered, Option.some.injEq]

/-- The registry of UIDs has the fully-qualified name of the first symbol with each. -/
theorem uidRegistry_get? (e : Emission) (uid : String) :
    e.uidRegistry.get? uid = (e.holder? uid).map (·.2.qualified) := by
  rw [uidRegistry, lookup_foldl (UidRegistry.get? · uid) (get?_recordPlaced uid)]
  have empty : ∀ language root revision,
      UidRegistry.get? ⟨language, root, revision, {}⟩ uid = none := by simp [UidRegistry.get?]
  rw [empty, Option.none_or, holder?]
  cases h : e.placed.find? (·.1.uid == some uid) with
  | none =>
    simp only [List.find?_eq_none, beq_iff_eq] at h
    simpa [nameUnder?] using h
  | some placed =>
    have own : placed.1.uid = some uid := by simpa using List.find?_some h
    apply findSome?_of_find? _ h (by simp [nameUnder?, own])
    intro other another
    simpa [nameUnder?] using another

end Emission

/-- What the table of declared types has of a symbol. -/
def typeUnder? (uid : String) (placed : Symbol × Placement) : Option PlacedType :=
  if placed.1.uid = some uid then placed.1.body.typeKind?.map (⟨·, placed.2⟩) else none

theorem getElem?_notePlaced (uid : String) (types : PlacedTypes) (placed : Symbol × Placement) :
    (notePlaced types placed)[uid]? = types[uid]?.or (typeUnder? uid placed) := by
  unfold notePlaced typeUnder?
  cases placed.1.uid with
  | none => simp
  | some own =>
    cases placed.1.body.typeKind? with
    | none => simp
    | some kind => simp only [getElem?_entered, Option.some.injEq, Option.map_some]

theorem placedTypes_getElem? (placed : List (Symbol × Placement)) (uid : String) :
    (placedTypes placed)[uid]? = placed.findSome? (typeUnder? uid) := by
  rw [placedTypes, lookup_foldl (·[uid]?) (getElem?_notePlaced uid)]
  simp

/-- If the first symbol with a UID is a declared type, both tables have that one. -/
theorem Emission.placedTypes_holder {e : Emission} {uid : String} {s : Symbol} {p : Placement}
    {kind : TypeKind} (h : e.holder? uid = some (s, p)) (declared : s.body.typeKind? = some kind) :
    (placedTypes e.placed)[uid]? = some ⟨kind, p⟩ := by
  have own : s.uid = some uid := by simpa using List.find?_some h
  rw [placedTypes_getElem?]
  apply findSome?_of_find? _ h (by simp [typeUnder?, own, declared])
  intro other another
  simp only [beq_eq_false_iff_ne] at another
  rw [typeUnder?, if_neg another]

/-- What the table of declared types has is the place of a type with the UID. -/
theorem mem_of_placedTypes {placed : List (Symbol × Placement)} {uid : String} {type : PlacedType}
    (h : (placedTypes placed)[uid]? = some type) :
    ∃ s, (s, type.placement) ∈ placed ∧ s.uid = some uid ∧ s.body.typeKind? = some type.kind := by
  rw [placedTypes_getElem?] at h
  obtain ⟨⟨s, p⟩, hplaced, found⟩ := List.exists_of_findSome?_eq_some h
  unfold typeUnder? at found
  split at found
  · rename_i own
    obtain ⟨kind, hkind, rfl⟩ := Option.map_eq_some_iff.mp found
    exact ⟨s, hplaced, own, hkind⟩
  · cases found

/-! ## Symbols of a model -/

namespace Model

/-- The first type with a UID: an enumeration before its satellites, else a bitfield, else a
dictionary. -/
def typeOf? (m : Model) (uid : String) : Option Symbol :=
  ((m.enumerations.find? (·.uid == uid)).map Symbol.ofEnumeration).or
    (((m.bitfields.find? (·.uid == uid)).map Symbol.ofBitfield).or
      ((m.dictionaries.find? (·.uid == uid)).map Symbol.ofDictionary))

/-- No node has the place of a type. -/
theorem symbols_find? (m : Model) (uid : String) : m.symbols.find? (·.uid == some uid) =
    (m.typeOf? uid).or ((m.trees.flatMap Symbol.ofTree).find? (·.uid == some uid)) := by
  simp only [symbols, typeOf?, List.find?_append, List.find?_map, Option.or_assoc]
  rfl

/-- The first enumeration of a UID comes before all else that has it. -/
theorem typeOf?_enumeration {m : Model} {e : Enumeration} (h : e ∈ m.enumerations) :
    ∃ primary, m.enumerations.find? (·.uid == e.uid) = some primary ∧
      m.typeOf? e.uid = some (Symbol.ofEnumeration primary) := by
  have present : (m.enumerations.find? (·.uid == e.uid)).isSome :=
    List.find?_isSome.mpr ⟨e, h, beq_self_eq_true e.uid⟩
  obtain ⟨primary, first⟩ := Option.isSome_iff_exists.mp present
  exact ⟨primary, first, by simp [typeOf?, first]⟩

end Model

namespace Emission

variable {target : Target} {revision : Option Revision} {e : Emission}

/-- Of the symbols of a model the first type with a UID is the first that is placed. -/
theorem holder?_of_typeOf? {m : Model} (h : plan target revision m.symbols = .ok e) {uid : String}
    {s : Symbol} (first : m.typeOf? uid = some s) : ∃ p, e.holder? uid = some (s, p) := by
  have found : (e.holder? uid).map (·.1) = m.symbols.find? (·.uid == some uid) := by
    rw [← plan_symbols h, List.find?_map]
    rfl
  rw [m.symbols_find?, first, Option.some_or] at found
  obtain ⟨⟨_, p⟩, held, rfl⟩ := Option.map_eq_some_iff.mp found
  exact ⟨p, held⟩

end Emission

/-- The first enumeration of a UID has the name that the survey gave the UID. -/
theorem Resolution.primary_named {overrides : Overrides} {ceiling : Nat} {r : Reader}
    {res : Resolution} (h : ofReader overrides ceiling r = .ok res) {uid : String}
    {primary : Enumeration} (first : res.model.enumerations.find? (·.uid == uid) = some primary) :
    res.table.name? uid = some primary.name := by
  obtain ⟨survey, builder, hsurvey, hbuilder, rfl⟩ := ofReader_eq_ok h
  exact (Builder.ofReader_typesInOrder (Survey.ofReader_namesApart hsurvey) hbuilder).model.first
    uid primary first

end EnumRegistry
