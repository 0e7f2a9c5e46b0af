import EnumRegistry.Proofs.Result
import EnumRegistry.Registry.Walk

/-!
Walks by what one event does. A property that the handling of every event keeps holds after a
whole run, and a run that fails does so at an event that it reached with the property.
-/

namespace EnumRegistry.Walk

variable {ε σ : Type} {w : Walk ε σ} {P : σ → Prop}

/-- Entering an element and leaving one both keep a property of the state. -/
structure Keeps (w : Walk ε σ) (P : σ → Prop) : Prop where
  start : ∀ {s s' : σ} {e : Element}, e.isDeprecated = false → P s →
    w.start s e = .ok (some s') → P s'
  finish : ∀ {s s' : σ} {kind : ElementKind}, P s → w.finish s kind = .ok s' → P s'

theorem Keeps.run (keeps : w.Keeps P) {depth : Nat} {s s' : σ} {events : List Event} (hs : P s)
    (h : w.run depth s events = .ok s') : P s' := by
  fun_induction Walk.run w depth s events with
  | case1 => cases h; exact hs
  | case2 s e rest deprecated ih => exact ih hs h
  | case3 s e rest current ih_in ih_out =>
    obtain ⟨entered, hstart, hrest⟩ := bind_eq_ok.mp h
    cases entered with
    | some t => exact ih_in t (keeps.start (by simpa using current) hs hstart) hrest
    | none => exact ih_out hs hrest
  | case4 s kind rest ih =>
    obtain ⟨t, hfinish, hrest⟩ := bind_eq_ok.mp h
    exact ih t (keeps.finish hs hfinish) hrest
  | case5 depth s e rest ih => exact ih hs h
  | case6 depth s kind rest ih => exact ih hs h

/-- A run that fails stands before the failing event in a state with every property it keeps. -/
theorem Keeps.run_error (keeps : w.Keeps P) {depth : Nat} {s : σ} {events : List Event} {err : ε}
    (hs : P s) (h : w.run depth s events = .error err) :
    ∃ t, P t ∧ ((∃ e, w.start t e = .error err) ∨ ∃ kind, w.finish t kind = .error err) := by
  fun_induction Walk.run w depth s events with
  | case1 => cases h
  | case2 s e rest deprecated ih => exact ih hs h
  | case3 s e rest current ih_in ih_out =>
    rcases bind_eq_error.mp h with hstart | ⟨entered, hstart, hrest⟩
    · exact ⟨s, hs, .inl ⟨e, hstart⟩⟩
    · cases entered with
      | some t => exact ih_in t (keeps.start (by simpa using current) hs hstart) hrest
      | none => exact ih_out hs hrest
  | case4 s kind rest ih =>
    rcases bind_eq_error.mp h with hfinish | ⟨t, hfinish, hrest⟩
    · exact ⟨s, hs, .inr ⟨kind, hfinish⟩⟩
    · exact ih t (keeps.finish hs hfinish) hrest
  | case5 depth s e rest ih => exact ih hs h
  | case6 depth s kind rest ih => exact ih hs h

/-- A walk through a document that can be read to its end is one over its events. -/
theorem through_eq_run {ofRead : RegistryError → ε} {s : σ} {r : Reader}
    (complete : r.events.2 = none) : w.through ofRead s r = w.run 0 s r.events.1 := by
  unfold through
  generalize r.events = read at complete ⊢
  obtain ⟨events, failure⟩ := read
  obtain rfl : failure = none := complete
  change w.run 0 s events >>= _ = w.run 0 s events
  cases w.run 0 s events <;> rfl

/-- A walk through a document ends well if the document can be read to its end. -/
theorem through_eq_ok {ofRead : RegistryError → ε} {s s' : σ} {r : Reader} :
    w.through ofRead s r = .ok s' ↔ r.events.2 = none ∧ w.run 0 s r.events.1 = .ok s' := by
  unfold through
  obtain ⟨events, failure⟩ := r.events
  cases failure <;> simp [bind_eq_ok]

theorem through_eq_error {ofRead : RegistryError → ε} {s : σ} {r : Reader} {err : ε}
    (h : w.through ofRead s r = .error err) :
    w.run 0 s r.events.1 = .error err ∨ ∃ e, r.events.2 = some e ∧ err = ofRead e := by
  unfold through at h
  generalize r.events = read at h ⊢
  obtain ⟨events, failure⟩ := read
  rcases bind_eq_error.mp h with hrun | ⟨t, -, hend⟩
  · exact .inl hrun
  · cases failure with
    | none => cases hend
    | some e =>
      obtain rfl : ofRead e = err := by simpa using hend
      exact .inr ⟨e, rfl, rfl⟩

/-- Errors that no event gives in a state with a kept property end no walk. -/
theorem Keeps.through_avoids (keeps : w.Keeps P) {bad : ε → Prop} {ofRead : RegistryError → ε}
    {s : σ} {r : Reader} (hs : P s) (start : ∀ t e, P t → Avoids bad (w.start t e))
    (finish : ∀ t kind, P t → Avoids bad (w.finish t kind))
    (read : ∀ e, r.events.2 = some e → ¬ bad (ofRead e)) : Avoids bad (w.through ofRead s r) := by
  intro err h
  rcases through_eq_error h with h | ⟨e, he, rfl⟩
  · obtain ⟨t, ht, ⟨e, h⟩ | ⟨kind, h⟩⟩ := keeps.run_error hs h
    · exact start t e ht err h
    · exact finish t kind ht err h
  · exact read e he

end EnumRegistry.Walk
