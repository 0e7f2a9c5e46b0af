import EnumRegistry.Proofs.Building.Position
import EnumRegistry.Proofs.Result
import EnumRegistry.Resolution

/-! A resolution taken apart into its two walks. -/

namespace EnumRegistry.Resolution

variable {overrides : Overrides} {ceiling : Nat} {r r' : Reader} {res : Resolution}

theorem ofReader_eq_ok (h : ofReader overrides ceiling r = .ok res) :
    ∃ survey builder, Survey.ofReader overrides r = .ok survey ∧
      Builder.ofReader ⟨survey.table, overrides⟩ ceiling r = .ok builder ∧
      res = ⟨survey.table, builder.model, survey.found ++ builder.found⟩ := by
  simp only [ofReader, bind_eq_ok, pure_eq_ok, Except.ok.injEq] at h
  obtain ⟨survey, hsurvey, builder, hbuilder, rfl⟩ := h
  exact ⟨survey, builder, hsurvey, hbuilder, rfl⟩

/-- Documents are resolved alike if both walks end alike, but for the rows that are open. -/
theorem ofReader_of_walks
    (surveys : ∀ survey, Survey.ofReader overrides r = .ok survey →
      Survey.ofReader overrides r' = .ok survey)
    (builds : ∀ t b, Builder.ofReader t ceiling r = .ok b →
      ∃ b', Builder.ofReader t ceiling r' = .ok b' ∧ b'.unplaced = b.unplaced)
    (h : ofReader overrides ceiling r = .ok res) : ofReader overrides ceiling r' = .ok res := by
  obtain ⟨survey, b, surveyed, built, rfl⟩ := ofReader_eq_ok h
  obtain ⟨b', built', same⟩ := builds _ b built
  have model : b'.model = b.model := congrArg (·.model) same
  have found : b'.found = b.found := congrArg (·.found) same
  simp only [ofReader, bind_eq_ok, surveys survey surveyed, pure_eq_ok, Except.ok.injEq]
  exact ⟨survey, rfl, b', built', by rw [model, found]⟩

/-- Documents are resolved alike if each walk over the one corresponds to one over the other. -/
theorem ofReader_of_maps
    (surveys : ∃ y, Maps GenerationError.unplaced id (Survey.ofReader overrides r) y ∧
      Maps GenerationError.unplaced id (Survey.ofReader overrides r') y)
    (builds : ∀ t, ∃ y,
      Maps GenerationError.unplaced Builder.unplaced (Builder.ofReader t ceiling r) y ∧
      Maps GenerationError.unplaced Builder.unplaced (Builder.ofReader t ceiling r') y)
    (h : ofReader overrides ceiling r = .ok res) : ofReader overrides ceiling r' = .ok res := by
  obtain ⟨_, surveyed, surveyed'⟩ := surveys
  refine ofReader_of_walks (fun survey hsurvey => ?_) (fun t b hb => ?_) h
  · obtain ⟨_, ended, rfl⟩ := surveyed.exists_ok surveyed' hsurvey
    exact ended
  · obtain ⟨_, built, built'⟩ := builds t
    exact built.exists_ok built' hb

end EnumRegistry.Resolution
