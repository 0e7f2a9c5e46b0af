import EnumRegistry.Proofs.Building.Position
import EnumRegistry.Proofs.Registry.Deletion
import EnumRegistry.Proofs.Resolution

/-!
Deprecated elements. A resolution is that of the document from which they are deleted: a walk passes
them by as if they were not there, and nothing but what is said of an error depends on where the
elements behind them stand.
-/

namespace EnumRegistry

/-- Whether an element is marked as deprecated in one of some spellings. -/
def Element.marked (spelled : String → Bool) (e : Element) : Bool :=
  (e.attr? "deprecated").any spelled

section

variable {spelled : String → Bool}

theorem Element.isDeprecated_of_marked
    (marks : ∀ value, spelled value = true → (Text.trim value).map Char.toLower = "true")
    {e : Element} (marked : e.marked spelled = true) : e.isDeprecated = true := by
  obtain ⟨value, deprecated, spells⟩ := (Option.any_eq_true _ _).mp marked
  simp [isDeprecated, deprecated, marks value spells]

variable {p : Element → Bool} {document : List UInt8} {f : Forest}

/-- A walk over a document and over what a deletion leaves of it end alike, if what is deleted is
deprecated. -/
theorem Walk.Unplaces.through_deleteElements {σ : Type} {w : Walk GenerationError σ} {g : σ → σ}
    (unplaces : w.Unplaces g) (deprecated : ∀ e, p e = true → e.isDeprecated = true)
    (ignores : ∀ e : Element, p e.unplaced = p e)
    (read : (Reader.ofBytes document).events = (f.events, none)) (s : σ) :
    ∃ y, Maps GenerationError.unplaced g (w.through .registry s (.ofBytes document)) y ∧
      Maps GenerationError.unplaced g
        (w.through .registry s (.ofBytes (deleteElements p document))) y := by
  obtain ⟨complete, events⟩ := Reader.ofBytes_deleteElements ignores read
  have whole : w.through .registry s (.ofBytes document) = w.run 0 s (f.without p).events := by
    rw [w.through_events read, w.run_eq_visit, w.visit_without deprecated]
  have rest := unplaces.run 0 s (Reader.ofBytes (deleteElements p document)).events.1
  rw [events, ← Walk.through_eq_run complete] at rest
  exact ⟨_, whole ▸ unplaces.run 0 s (f.without p).events, rest⟩

variable {overrides : Overrides} {ceiling : Nat}

/-- Deprecated elements have no influence: a document that is read to its end is so without those
that are marked in some spellings of deprecation, and is resolved then as it is with them. -/
theorem deprecated_without_influence (spelled : String → Bool) (overrides : Overrides)
    (ceiling : Nat) (document : List UInt8)
    (marks : ∀ value, spelled value = true → (Text.trim value).map Char.toLower = "true")
    (wellFormed : (Reader.ofBytes document).events.2 = none) :
    (∃ f : Forest, (Reader.ofBytes document).events = (f.events, none) ∧
      (Reader.ofBytes (deleteElements (·.marked spelled) document)).events.2 = none ∧
      (Reader.ofBytes (deleteElements (·.marked spelled) document)).events.1.map (·.unplaced) =
        (f.without (·.marked spelled)).events.map (·.unplaced)) ∧
    ∀ res, Resolution.ofReader overrides ceiling
        (.ofBytes (deleteElements (·.marked spelled) document)) = .ok res ↔
      Resolution.ofReader overrides ceiling (.ofBytes document) = .ok res := by
  obtain ⟨f, read⟩ := Reader.exists_forest wellFormed
  have deprecated (e : Element) (marked : e.marked spelled = true) : e.isDeprecated = true :=
    e.isDeprecated_of_marked marks marked
  have ignores (e : Element) : e.unplaced.marked spelled = e.marked spelled := rfl
  obtain ⟨complete, events⟩ := Reader.ofBytes_deleteElements ignores read
  refine ⟨⟨f, read, complete, events⟩, fun res => ?_⟩
  obtain ⟨_, surveyed, surveyed'⟩ :=
    (Survey.walk_unplaces overrides).through_deleteElements deprecated ignores read {}
  have builds (t : NameTables) := (Builder.walk_unplaces t ceiling).through_deleteElements
    deprecated ignores read (Builder.ofTable t.types)
  constructor
  · refine Resolution.ofReader_of_walks (fun survey h => ?_) fun t b h => ?_
    · obtain ⟨_, found, rfl⟩ := surveyed'.exists_ok surveyed h
      exact found
    · obtain ⟨_, built, built'⟩ := builds t
      exact built'.exists_ok built h
  · refine Resolution.ofReader_of_walks (fun survey h => ?_) fun t b h => ?_
    · obtain ⟨_, found, rfl⟩ := surveyed.exists_ok surveyed' h
      exact found
    · obtain ⟨_, built, built'⟩ := builds t
      exact built.exists_ok built' h

/-- A deprecated row with a row inside it, and a deprecated declaration. -/
def forceDocument : String :=
  "<enum uid=\"6\" name=\"Force\" size=\"8\">" ++
    "<enumrow value=\"1\" description=\"Ally\" deprecated=\"true\">" ++
    "<enumrow value=\"2\"/></enumrow><enumrow value=\"3\" description=\"Ally\"/></enum>" ++
    "<dict uid=\"6\" deprecated=\"true\"/>"

def currentForceDocument : String :=
  "<enum uid=\"6\" name=\"Force\" size=\"8\">" ++
    "<enumrow value=\"3\" description=\"Ally\"/></enum>"

theorem force_deprecated_without_influence : ∃ res : Resolution,
    (Reader.ofString forceDocument).events.2 = none ∧
    deleteElements (·.marked (· == "true")) forceDocument.toUTF8.toList =
      currentForceDocument.toUTF8.toList ∧
    Resolution.ofString {} 4096 forceDocument = .ok res ∧
    Resolution.ofString {} 4096 currentForceDocument = .ok res ∧
    res.model.enumerations.flatMap (·.rows.map fun row => (row.value, row.name)) = [(3, "Ally")] ∧
    res.found = [] := by
  have marks (value : String) (h : (value == "true") = true) :
      (Text.trim value).map Char.toLower = "true" := by
    rw [eq_of_beq h]
    decide +kernel
  have wellFormed : (Reader.ofString forceDocument).events.2 = none :=
    Option.isNone_iff_eq_none.mp (by decide +kernel)
  have deleted : deleteElements (·.marked (· == "true")) forceDocument.toUTF8.toList =
      currentForceDocument.toUTF8.toList := by
    decide +kernel
  have run : (Resolution.ofString {} 4096 forceDocument).toOption.map (fun res =>
      (res.model.enumerations.flatMap (·.rows.map fun row => (row.value, row.name)),
        res.found)) = some ([(3, "Ally")], []) := by
    decide +kernel
  obtain ⟨res, resolved, facts⟩ := exists_ok_of_map run
  obtain ⟨rows, found⟩ := Prod.mk.inj facts
  obtain ⟨-, alike⟩ := deprecated_without_influence (· == "true") {} 4096 _ marks wellFormed
  have resolved' := (alike res).mpr resolved
  rw [deleted] at resolved'
  exact ⟨res, wellFormed, deleted, resolved, resolved', rows, found⟩

end

end EnumRegistry
