import EnumRegistry.Proofs.Registry.Reader
import EnumRegistry.Proofs.Registry.Walk

/-!
The trail of a walk: besides its state, the elements it is inside of and all those it has entered.
The elements that are open are the ones it is inside of and, further in, those of a subtree that it
leaves out.
-/

namespace EnumRegistry

/-- The elements open after events, innermost first, if some are before. -/
def openElements : List Element → List Event → List Element
  | opened, [] => opened
  | opened, .start e :: rest => openElements (e :: opened) rest
  | opened, .finish _ :: rest => openElements (opened.drop 1) rest

theorem Balanced.behind {opened : List Element} {before after : List Event}
    (h : Balanced (opened.map (·.kind)) (before ++ after)) :
    Balanced ((openElements opened before).map (·.kind)) after := by
  induction before generalizing opened with
  | nil => exact h
  | cons event before ih =>
    cases event with
    | start e => exact ih h
    | finish kind =>
      cases opened with
      | nil => cases h
      | cons e opened => exact ih h.2

structure Trail (σ : Type) where
  state : σ
  /-- The elements entered and not left, innermost first. -/
  inside : List Element := []
  /-- All elements entered so far, in their order. -/
  entered : List Element := []

namespace Walk

variable {ε σ : Type} (w : Walk ε σ)

/-- The walk that leaves a trail. -/
def trailed : Walk ε (Trail σ) where
  start s e := do
    match ← w.start s.state e with
    | some state => return some ⟨state, e :: s.inside, s.entered ++ [e]⟩
    | none => return none
  finish s kind := return { s with state := ← w.finish s.state kind, inside := s.inside.drop 1 }

variable {w}

theorem trailed_start_eq_ok {s : Trail σ} {e : Element} {r : Option (Trail σ)}
    (h : w.trailed.start s e = .ok r) :
    (w.start s.state e = .ok none ∧ r = none) ∨ ∃ state, w.start s.state e = .ok (some state) ∧
      r = some ⟨state, e :: s.inside, s.entered ++ [e]⟩ := by
  obtain ⟨entered, start, h⟩ := bind_eq_ok.mp h
  cases entered with
  | none => exact .inl ⟨start, (Except.ok.inj h).symm⟩
  | some state => exact .inr ⟨state, start, (Except.ok.inj h).symm⟩

theorem trailed_finish_eq_ok {s t : Trail σ} {kind : ElementKind}
    (h : w.trailed.finish s kind = .ok t) : w.finish s.state kind = .ok t.state ∧
      t.inside = s.inside.drop 1 ∧ t.entered = s.entered := by
  obtain ⟨state, finish, h⟩ := bind_eq_ok.mp h
  obtain rfl := Except.ok.inj h
  exact ⟨finish, rfl, rfl⟩

/-- The trail leads where the walk does. -/
theorem run_trailed {depth : Nat} {s s' : σ} {inside entered : List Element}
    {events : List Event} (h : w.run depth s events = .ok s') :
    ∃ inside' entered', w.trailed.run depth ⟨s, inside, entered⟩ events =
      .ok ⟨s', inside', entered'⟩ := by
  fun_induction Walk.run w depth s events generalizing inside entered with
  | case1 => cases h; exact ⟨inside, entered, rfl⟩
  | case2 s e rest deprecated ih =>
    rw [run, if_pos deprecated]
    exact ih h
  | case3 s e rest current ih_in ih_out =>
    obtain ⟨r, hstart, hrest⟩ := bind_eq_ok.mp h
    rw [run, if_neg current]
    simp only [trailed, hstart]
    cases r with
    | some t => exact ih_in t hrest
    | none => exact ih_out hrest
  | case4 s kind rest ih =>
    obtain ⟨t, hfinish, hrest⟩ := bind_eq_ok.mp h
    rw [run]
    simp only [trailed, hfinish]
    exact ih t hrest
  | case5 depth s e rest ih => exact ih h
  | case6 depth s kind rest ih => exact ih h

/-- An element that is left out is deprecated or is not entered. -/
def LeavesOut (w : Walk ε σ) (s : σ) (e : Element) : Prop :=
  e.isDeprecated = true ∨ w.start s e = .ok none

/-- Open are the elements that the walk is inside of and, in the innermost of them, one that is left
out with those inside it, if any. -/
theorem run_openElements {depth : Nat} {s t : Trail σ} {events : List Event}
    (h : w.trailed.run depth s events = .ok t) (skipped : List Element)
    (length : skipped.length = depth) (out : ∀ e ∈ skipped.getLast?, w.LeavesOut s.state e) :
    ∃ skipped', openElements (skipped ++ s.inside) events = skipped' ++ t.inside ∧
      ∀ e ∈ skipped'.getLast?, w.LeavesOut t.state e := by
  fun_induction Walk.run w.trailed depth s events generalizing skipped with
  | case1 => cases h; exact ⟨skipped, rfl, out⟩
  | case2 s e rest deprecated ih =>
    obtain rfl := List.length_eq_zero_iff.mp length
    exact ih h [e] rfl (by simp [LeavesOut, deprecated])
  | case3 s e rest current ih_in ih_out =>
    obtain rfl := List.length_eq_zero_iff.mp length
    obtain ⟨r, hstart, hrest⟩ := bind_eq_ok.mp h
    rcases trailed_start_eq_ok hstart with ⟨refused, rfl⟩ | ⟨state, -, rfl⟩
    · exact ih_out hrest [e] rfl (by simp [LeavesOut, refused])
    · exact ih_in _ hrest [] rfl (by simp)
  | case4 s kind rest ih =>
    obtain rfl := List.length_eq_zero_iff.mp length
    obtain ⟨t, hfinish, hrest⟩ := bind_eq_ok.mp h
    obtain ⟨-, inside, -⟩ := trailed_finish_eq_ok hfinish
    have left := ih t hrest [] rfl (by simp)
    rwa [List.nil_append, inside] at left
  | case5 depth s e rest ih =>
    refine ih h (e :: skipped) (congrArg (· + 1) length) ?_
    cases skipped with
    | nil => cases length
    | cons first skipped => simpa [List.getLast?_cons_cons] using out
  | case6 depth s kind rest ih =>
    cases skipped with
    | nil => cases length
    | cons first skipped =>
      refine ih h skipped (Nat.succ.inj length) ?_
      intro e he
      cases skipped with
      | nil => cases he
      | cons second skipped => exact out e he

end Walk

end EnumRegistry
