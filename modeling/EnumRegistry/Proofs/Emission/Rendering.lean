import EnumRegistry.Generation
import EnumRegistry.Proofs.Emission.Placement

/-!
Placed symbols as they are rendered in a run: from the language and the revision of the run, the
place and the UID of the symbol, and the places of all types.
-/

namespace EnumRegistry

namespace Emission

/-- What a placed symbol is rendered from. -/
def contextOf (e : Emission) (placed : Symbol × Placement) : RenderContext :=
  ⟨e.target.language, placed.2, placed.1.uid, e.revision, placedTypes e.placed⟩

/-- The file of a symbol holds the lines that are rendered. -/
theorem symbolArtifact_eq_ok {e : Emission} {placed : Symbol × Placement} {file : Artifact} :
    e.symbolArtifact (placedTypes e.placed) placed = .ok file ↔
      ∃ lines, (e.contextOf placed).render placed.1.body = .ok lines ∧
        file = ⟨placed.2.file, Lines.text lines, placed.1.label⟩ := by
  have rendered : e.symbolArtifact (placedTypes e.placed) placed =
      (e.contextOf placed).render placed.1.body >>= fun lines =>
        .ok ⟨placed.2.file, Lines.text lines, placed.1.label⟩ := rfl
  rw [rendered, bind_eq_ok]
  simp only [Except.ok.injEq, eq_comm]

end Emission

/-- A run on a document without overrides, with the first symbol and its lines. -/
structure FirstRendered where
  resolution : Resolution
  emission : Emission
  placed : Symbol × Placement
  lines : Lines

namespace FirstRendered

def ofDocument? (target : Target) (document : String) : Option FirstRendered := do
  let res ← (Resolution.ofReader {} 4096 (.ofString document)).toOption
  let e ← (res.emission target).toOption
  let placed ← e.placed.head?
  let lines ← ((e.contextOf placed).render placed.1.body).toOption
  return ⟨res, e, placed, lines⟩

/-- The steps of a run that went well. -/
structure IsRun (target : Target) (document : String) (run : FirstRendered) : Prop where
  resolved : Resolution.ofReader {} 4096 (.ofString document) = .ok run.resolution
  planned : run.resolution.emission target = .ok run.emission
  placed : run.placed ∈ run.emission.placed
  known : run.placed.1 ∈ run.resolution.model.symbols
  rendered : (run.emission.contextOf run.placed).render run.placed.1.body = .ok run.lines
  written : run.emission.symbolArtifact (placedTypes run.emission.placed) run.placed =
    .ok ⟨run.placed.2.file, run.lines.text, run.placed.1.label⟩

theorem isRun_of_seen {target : Target} {document : String} {α : Type} {look : FirstRendered → α}
    {seen : α} (h : (ofDocument? target document).map look = some seen) :
    ∃ run, IsRun target document run ∧ look run = seen := by
  obtain ⟨run, made, same⟩ := Option.map_eq_some_iff.mp h
  simp only [ofDocument?, Option.bind_eq_bind, Option.bind_eq_some_iff, toOption_eq_some,
    pure, Option.some.injEq] at made
  obtain ⟨res, resolved, e, planned, placed, first, lines, rendered, rfl⟩ := made
  have inPlace : placed ∈ e.placed := List.mem_of_head? first
  have written := Emission.symbolArtifact_eq_ok.mpr ⟨lines, rendered, rfl⟩
  refine ⟨_, ⟨resolved, planned, inPlace, ?_, rendered, written⟩, same⟩
  exact Emission.plan_symbols planned ▸ List.mem_map.mpr ⟨placed, inPlace, rfl⟩

end FirstRendered

end EnumRegistry
