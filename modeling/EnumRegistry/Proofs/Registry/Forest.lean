import EnumRegistry.Proofs.Registry.Reader
import EnumRegistry.Proofs.Registry.Walk

/-!
Documents as forests. The events of a document that is read to its end are those of a forest of
elements, in which every end is that of the innermost open element; and a walk through them is a
recursion over the forest.
-/

namespace EnumRegistry

/-- Elements beside each other, each with what it holds. -/
inductive Forest
  | nil
  | node (e : Element) (inside behind : Forest)

namespace Forest

def events : Forest → List Event
  | nil => []
  | node e inside behind => .start e :: (inside.events ++ .finish e.kind :: behind.events)

/-- Balanced events are those of a forest up to where an element ends that was open before. -/
theorem exists_of_balanced {opened : List ElementKind} {events : List Event}
    (h : Balanced opened events) :
    ∃ f : Forest, match opened with
      | [] => events = f.events
      | kind :: outer =>
        ∃ rest, events = f.events ++ .finish kind :: rest ∧ Balanced outer rest := by
  generalize hlength : events.length = length
  induction length using Nat.strongRecOn generalizing opened events with
  | ind length ih =>
    cases events with
    | nil =>
      cases opened with
      | nil => exact ⟨nil, rfl⟩
      | cons => cases h
    | cons event rest =>
      subst hlength
      cases event with
      | finish kind =>
        cases opened with
        | nil => cases h
        | cons first outer =>
          obtain ⟨rfl, h⟩ := h
          exact ⟨nil, rest, rfl, h⟩
      | start e =>
        -- What is inside the element ends with it, and what is behind it is shorter still.
        obtain ⟨inside, behind, rfl, closed⟩ :=
          ih rest.length (by simp) (show Balanced (e.kind :: opened) rest from h) rfl
        obtain ⟨f, hf⟩ := ih behind.length (by simp; omega) closed rfl
        refine ⟨node e inside f, ?_⟩
        cases opened with
        | nil =>
          dsimp only at hf ⊢
          rw [hf, events]
        | cons kind outer =>
          obtain ⟨last, rfl, hlast⟩ := hf
          exact ⟨last, by simp [events], hlast⟩

/-- Behind a forest the same elements are open as in front of it. -/
theorem balanced_events (f : Forest) {opened : List ElementKind} {rest : List Event} :
    Balanced opened (f.events ++ rest) ↔ Balanced opened rest := by
  induction f generalizing opened rest with
  | nil => rfl
  | node e inside behind ih_inside ih_behind =>
    rw [events, List.cons_append, List.append_assoc, Balanced, ih_inside]
    exact (and_iff_right rfl).trans ih_behind

end Forest

/-- A document that is read to its end is a forest. -/
theorem Reader.exists_forest {document : List UInt8}
    (complete : (ofBytes document).events.2 = none) :
    ∃ f : Forest, (ofBytes document).events = (f.events, none) := by
  obtain ⟨f, hf⟩ := Forest.exists_of_balanced (ofBytes_balanced (Prod.ext rfl complete))
  exact ⟨f, Prod.ext hf complete⟩

namespace Walk

variable {ε σ : Type} (w : Walk ε σ)

/-- A walk over a forest. -/
def visit : Forest → σ → Except ε σ
  | .nil, s => .ok s
  | .node e inside behind, s =>
    if e.isDeprecated then visit behind s
    else do
      match ← w.start s e with
      | none => visit behind s
      | some entered => do
        let s ← w.finish (← visit inside entered) e.kind
        visit behind s

/-- Inside an element that is left out nothing is done. -/
theorem run_skip (f : Forest) (depth : Nat) (s : σ) (rest : List Event) :
    w.run (depth + 1) s (f.events ++ rest) = w.run (depth + 1) s rest := by
  induction f generalizing depth rest with
  | nil => rfl
  | node e inside behind ih_inside ih_behind =>
    simp only [Forest.events, List.cons_append, List.append_assoc, run]
    rw [ih_inside (depth + 1)]
    exact ih_behind depth rest

theorem run_events (f : Forest) (s : σ) (rest : List Event) :
    w.run 0 s (f.events ++ rest) = w.visit f s >>= fun s => w.run 0 s rest := by
  induction f generalizing s rest with
  | nil => rfl
  | node e inside behind ih_inside ih_behind =>
    simp only [Forest.events, List.cons_append, List.append_assoc, run, visit]
    have out : w.run 1 s (inside.events ++ .finish e.kind :: (behind.events ++ rest)) =
        w.visit behind s >>= fun s => w.run 0 s rest := by
      rw [run_skip]
      exact ih_behind s rest
    split
    · exact out
    · cases w.start s e with
      | error err => rfl
      | ok entered =>
        cases entered with
        | none => exact out
        | some entered =>
          change w.run 0 entered _ = (w.visit inside entered >>= _) >>= _
          rw [ih_inside]
          cases w.visit inside entered with
          | error err => rfl
          | ok left =>
            change w.finish left e.kind >>= _ = (w.finish left e.kind >>= _) >>= _
            cases w.finish left e.kind with
            | error err => rfl
            | ok s => exact ih_behind s rest

theorem run_eq_visit (f : Forest) (s : σ) : w.run 0 s f.events = w.visit f s := by
  have walked := w.run_events f s []
  rw [List.append_nil] at walked
  rw [walked]
  cases w.visit f s <;> rfl

/-- A walk through a document that is a forest is one over the forest. -/
theorem through_events {ofRead : RegistryError → ε} {s : σ} {r : Reader} {f : Forest}
    (h : r.events = (f.events, none)) : w.through ofRead s r = w.visit f s := by
  rw [through_eq_run (by rw [h]), h, run_eq_visit]

/-- A walk through a document that ends well is one over the document's forest. -/
theorem through_ofBytes {ofRead : RegistryError → ε} {s s' : σ} {document : List UInt8}
    (h : w.through ofRead s (.ofBytes document) = .ok s') :
    ∃ f : Forest, (Reader.ofBytes document).events = (f.events, none) ∧ w.visit f s = .ok s' := by
  obtain ⟨f, hf⟩ := Reader.exists_forest (through_eq_ok.mp h).1
  exact ⟨f, hf, (w.through_events hf).symm.trans h⟩

/-- How a walk passes an element. -/
inductive Passes (s : σ) (e : Element) (inside : Forest) : σ → Prop
  | deprecated (deprecated : e.isDeprecated = true) : Passes s e inside s
  | out (current : e.isDeprecated = false) (start : w.start s e = .ok none) : Passes s e inside s
  | through {entered left s' : σ} (current : e.isDeprecated = false)
      (start : w.start s e = .ok (some entered)) (visited : w.visit inside entered = .ok left)
      (finish : w.finish left e.kind = .ok s') : Passes s e inside s'

theorem visit_node {s s' : σ} {e : Element} {inside behind : Forest}
    (h : w.visit (.node e inside behind) s = .ok s') :
    ∃ between, w.Passes s e inside between ∧ w.visit behind between = .ok s' := by
  unfold visit at h
  split at h
  · exact ⟨s, .deprecated ‹_›, h⟩
  · rename_i current
    rw [Bool.not_eq_true] at current
    obtain ⟨entered, start, h⟩ := bind_eq_ok.mp h
    cases entered with
    | none => exact ⟨s, .out current start, h⟩
    | some entered =>
      obtain ⟨left, visited, h⟩ := bind_eq_ok.mp h
      obtain ⟨between, finish, h⟩ := bind_eq_ok.mp h
      exact ⟨between, .through current start visited finish, h⟩

/-- What stands behind an element is walked over after it. -/
theorem visit_behind (e : Element) (inside behind : Forest) (s : σ) :
    w.visit (.node e inside behind) s = w.visit (.node e inside .nil) s >>= w.visit behind := by
  rw [visit, visit]
  split
  · rfl
  · cases w.start s e with
    | error err => rfl
    | ok entered =>
      cases entered with
      | none => rfl
      | some entered =>
        change w.visit inside entered >>= _ = (w.visit inside entered >>= _) >>= _
        cases w.visit inside entered with
        | error err => rfl
        | ok left =>
          change w.finish left e.kind >>= _ = (w.finish left e.kind >>= _) >>= _
          cases w.finish left e.kind <;> rfl

/-- What every event keeps holds after a walk over a forest. -/
theorem Keeps.visit {w : Walk ε σ} {P : σ → Prop} (keeps : w.Keeps P) {f : Forest} {s s' : σ}
    (hs : P s) (h : w.visit f s = .ok s') : P s' := by
  induction f generalizing s s' with
  | nil =>
    cases h
    exact hs
  | node e inside behind ih_inside ih_behind =>
    obtain ⟨between, passes, rest⟩ := visit_node w h
    refine ih_behind ?_ rest
    cases passes with
    | deprecated | out => exact hs
    | through current start visited finish =>
      exact keeps.finish (ih_inside (keeps.start current hs start) visited) finish

end Walk

end EnumRegistry
