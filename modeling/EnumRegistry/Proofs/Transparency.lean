import EnumRegistry.Proofs.Building.Outer
import EnumRegistry.Proofs.Registry.Wrapping
import EnumRegistry.Proofs.Resolution
import EnumRegistry.Proofs.Survey.Labels

/-!
Unknown elements. Elements that stand beside each other are resolved alike whether or not an element
that means nothing is put around them, wherever in the document they stand.
-/

namespace EnumRegistry

/-- Of two documents that are read to their end, walks that do the same at their events without
positions correspond. -/
theorem Walk.Unplaces.through_alike {σ : Type} {w : Walk GenerationError σ} {g : σ → σ}
    (unplaces : w.Unplaces g) {r r' : Reader} (complete : r.events.2 = none)
    (complete' : r'.events.2 = none) {s : σ}
    (same : w.run 0 (g s) (r.events.1.map (·.unplaced)) =
      w.run 0 (g s) (r'.events.1.map (·.unplaced))) :
    ∃ y, Maps GenerationError.unplaced g (w.through .registry s r) y ∧
      Maps GenerationError.unplaced g (w.through .registry s r') y := by
  have read := unplaces.run 0 s r.events.1
  have read' := unplaces.run 0 s r'.events.1
  rw [← Walk.through_eq_run complete] at read
  rw [← Walk.through_eq_run complete', ← same] at read'
  exact ⟨_, read, read'⟩

/-- An element that means nothing does nothing to a survey. -/
theorem Survey.visit_other {overrides : Overrides} {x : Element} (unknown : x.kind = .other)
    (current : x.isDeprecated = false) (f : Forest) (s : Survey) :
    (walk overrides).visit (.node x f .nil) s = (walk overrides).visit f s := by
  have started : start overrides s x = .ok s := by
    rw [start, unknown]
  have left (s : Survey) : s.finish x.kind = s :=
    finish_eq (.inl (by rw [unknown]; decide))
  rw [visit_node current, started]
  change (walk overrides).visit f s >>= _ = _
  cases (walk overrides).visit f s with
  | error err => rfl
  | ok last => exact congrArg Except.ok (left last)

/-- Unknown elements are transparent: if elements that stand beside each other, anywhere in a
document that is read to its end, are wrapped in an element of no known tag that is not deprecated,
the document is read with one element more around them and is resolved as before. -/
theorem wrapper_without_influence (w : Wrapper) (overrides : Overrides) (ceiling : Nat)
    (before run behind : List UInt8)
    (wellFormed : (Reader.ofBytes (before ++ run ++ behind)).events.2 = none)
    (outside : Markup.endsOutside before = true)
    (siblings : (Reader.ofBytes run).events.2 = none) :
    (∃ (first last : List Event) (f : Forest),
      (Reader.ofBytes run).events.1.map (·.unplaced) = f.events ∧
      (Reader.ofBytes (before ++ run ++ behind)).events.1.map (·.unplaced) =
        first ++ (f.events ++ last) ∧
      (Reader.ofBytes (w.wrap before run behind)).events.2 = none ∧
      (Reader.ofBytes (w.wrap before run behind)).events.1.map (·.unplaced) =
        first ++ ((Forest.node w.element f .nil).events ++ last)) ∧
    ∀ res, Resolution.ofReader overrides ceiling (.ofBytes (w.wrap before run behind)) = .ok res ↔
      Resolution.ofReader overrides ceiling (.ofBytes (before ++ run ++ behind)) = .ok res := by
  have read := w.events_wrap wellFormed outside siblings
  refine ⟨read, fun res => ?_⟩
  obtain ⟨first, last, f, -, events, complete, events'⟩ := read
  have alike {σ : Type} {wk : Walk GenerationError σ} {g : σ → σ} (unplaces : wk.Unplaces g)
      (transparent : ∀ s, wk.visit (.node w.element f .nil) s = wk.visit f s) (s : σ) :
      ∃ y, Maps GenerationError.unplaced g
          (wk.through .registry s (.ofBytes (w.wrap before run behind))) y ∧
        Maps GenerationError.unplaced g
          (wk.through .registry s (.ofBytes (before ++ run ++ behind))) y := by
    apply unplaces.through_alike complete wellFormed
    rw [events, events', wk.run_wrap transparent]
  have surveys := alike (Survey.walk_unplaces overrides)
    (Survey.visit_other w.unknown w.current f) {}
  have builds (t : NameTables) := alike (Builder.walk_unplaces t ceiling)
    (Builder.visit_plain (by rw [w.unknown]; rfl) w.current f) (.ofTable t.types)
  constructor
  · exact Resolution.ofReader_of_maps surveys builds
  · obtain ⟨y, wrapped, unwrapped⟩ := surveys
    refine Resolution.ofReader_of_maps ⟨y, unwrapped, wrapped⟩ fun t => ?_
    obtain ⟨y, wrapped, unwrapped⟩ := builds t
    exact ⟨y, unwrapped, wrapped⟩

/-- What stands before two nodes below another. -/
def jammerBefore : List UInt8 :=
  "<jammer_technique><jammer_kind value=\"1\" name=\"Hum\">".toUTF8.toList

def jammerRun : List UInt8 :=
  ("<jammer_category value=\"1\" name=\"Hop\"/>" ++
    "<jammer_category value=\"2\" name=\"Hop\"/>").toUTF8.toList

def jammerBehind : List UInt8 := "</jammer_kind></jammer_technique>".toUTF8.toList

/-- The names of the nodes of all trees. -/
def Resolution.nodeNames (res : Resolution) : List (Option String) :=
  res.model.trees.flatMap fun tree => tree.nodes.toList.map (·.name)

theorem group_without_influence : ∃ (w : Wrapper) (res : Resolution),
    w.opening = "<group since=\"2\">".toUTF8.toList ∧ w.closing = "</group >".toUTF8.toList ∧
    (Reader.ofBytes (jammerBefore ++ jammerRun ++ jammerBehind)).events.2 = none ∧
    Markup.endsOutside jammerBefore = true ∧ (Reader.ofBytes jammerRun).events.2 = none ∧
    Resolution.ofReader {} 4096 (.ofBytes (jammerBefore ++ jammerRun ++ jammerBehind)) =
      .ok res ∧
    Resolution.ofReader {} 4096 (.ofBytes (w.wrap jammerBefore jammerRun jammerBehind)) =
      .ok res ∧
    res.nodeNames = [some "Hum", some "Hop", some "Hop1"] := by
  have unknown : (Element.ofTag 0 "group since=\"2\"".toUTF8.toList).toOption.map
      (fun e => (e.kind, e.isDeprecated)) = some (.other, false) := by
    decide +kernel
  obtain ⟨element, made, facts⟩ := exists_ok_of_map unknown
  obtain ⟨unknown, current⟩ := Prod.mk.inj facts
  let w : Wrapper := {
    opening := "<group since=\"2\">".toUTF8.toList
    closing := "</group >".toUTF8.toList
    content := "group since=\"2\"".toUTF8.toList
    element
    opens := by decide +kernel
    closes := by decide +kernel
    made, unknown, current }
  have wellFormed : (Reader.ofBytes (jammerBefore ++ jammerRun ++ jammerBehind)).events.2 = none :=
    Option.isNone_iff_eq_none.mp (by decide +kernel)
  have outside : Markup.endsOutside jammerBefore = true := by decide +kernel
  have siblings : (Reader.ofBytes jammerRun).events.2 = none :=
    Option.isNone_iff_eq_none.mp (by decide +kernel)
  have run : (Resolution.ofReader {} 4096
      (.ofBytes (jammerBefore ++ jammerRun ++ jammerBehind))).toOption.map (·.nodeNames) =
      some [some "Hum", some "Hop", some "Hop1"] := by
    decide +kernel
  obtain ⟨res, resolved, names⟩ := exists_ok_of_map run
  obtain ⟨-, alike⟩ := wrapper_without_influence w {} 4096 jammerBefore jammerRun jammerBehind
    wellFormed outside siblings
  exact ⟨w, res, rfl, rfl, wellFormed, outside, siblings, resolved, (alike res).mpr resolved, names⟩

end EnumRegistry
