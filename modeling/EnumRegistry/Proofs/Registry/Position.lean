import EnumRegistry.Proofs.Result
import EnumRegistry.TypeTable

/-!
Positions. Where the elements of a document stand shows in what is said of errors and nowhere else:
whatever is read of an element without its position is what is read of the element, and so is the
end of a walk.
-/

namespace EnumRegistry

/-- An element without its position. -/
def Element.unplaced (e : Element) : Element := { e with position := 0 }

namespace RegistryError

/-- An error without the position that it tells. -/
def unplaced : RegistryError → RegistryError
  | markup _ fault => markup 0 fault
  | missingAttribute element name _ => missingAttribute element name 0
  | invalidNumber element name value _ => invalidNumber element name value 0
  | unopened path cause => unopened path cause
  | tree error => tree error
  | endedInside tag => endedInside tag

end RegistryError

def GenerationError.unplaced : GenerationError → GenerationError
  | registry error => registry error.unplaced
  | exhausted error => exhausted error
  | overrides error => overrides error
  | unwritten path symbol cause => unwritten path symbol cause

theorem Maps.ofRegistry {α β : Type} {f : α → β} {x : Except RegistryError α}
    {y : Except RegistryError β} (h : Maps RegistryError.unplaced f x y) :
    Maps GenerationError.unplaced f (ofRegistry x) (ofRegistry y) := by
  subst h
  cases x <;> rfl

theorem Maps.ofTree {α : Type} (x : Except TreeError α) :
    Maps GenerationError.unplaced id (ofTree x) (ofTree x) := by
  cases x <;> rfl

theorem Maps.ofScope {α : Type} (x : Except Exhausted α) :
    Maps GenerationError.unplaced id (ofScope x) (ofScope x) := by
  cases x <;> rfl

namespace Element

variable (e : Element) (name : String)

theorem int?_maps : Maps RegistryError.unplaced id (e.int? name) (e.unplaced.int? name) := by
  have same : e.unplaced.attr? name = e.attr? name := rfl
  unfold int?
  rw [same]
  cases e.attr? name with
  | none => exact .ok none
  | some text =>
    dsimp only
    cases number? text with
    | none => exact .error _
    | some value => exact .ok (some value)

theorem required_maps :
    Maps RegistryError.unplaced id (e.required name) (e.unplaced.required name) := by
  have same : e.unplaced.attr? name = e.attr? name := rfl
  unfold required
  rw [same]
  cases e.attr? name with
  | none => exact .error _
  | some value => exact .ok value

theorem requiredInt_maps :
    Maps RegistryError.unplaced id (e.requiredInt name) (e.unplaced.requiredInt name) := by
  refine (e.int?_maps name).bind fun value => ?_
  cases value with
  | none => exact .error _
  | some value => exact .ok value

theorem value_maps : Maps RegistryError.unplaced id e.value e.unplaced.value := by
  refine (e.int?_maps "value").bind fun value => ?_
  cases value with
  | none => exact e.requiredInt_maps "value_min"
  | some value => exact .ok value

end Element

def Event.unplaced : Event → Event
  | start e => start e.unplaced
  | finish kind => finish kind

namespace Walk

variable {σ : Type}

/-- A walk does the same at an element without its position, but for what its state keeps. -/
structure Unplaces (w : Walk GenerationError σ) (f : σ → σ) : Prop where
  start : ∀ s e,
    Maps GenerationError.unplaced (Option.map f) (w.start s e) (w.start (f s) e.unplaced)
  finish : ∀ s kind, Maps GenerationError.unplaced f (w.finish s kind) (w.finish (f s) kind)

theorem Unplaces.run {w : Walk GenerationError σ} {f : σ → σ} (h : w.Unplaces f) (depth : Nat)
    (s : σ) (events : List Event) : Maps GenerationError.unplaced f (w.run depth s events)
      (w.run depth (f s) (events.map (·.unplaced))) := by
  fun_induction Walk.run w depth s events with
  | case1 => exact .ok _
  | case2 s e rest deprecated ih =>
    have deprecated' : e.unplaced.isDeprecated = true := deprecated
    simp only [List.map_cons, Event.unplaced, Walk.run, deprecated', if_true]
    exact ih
  | case3 s e rest current ih_in ih_out =>
    have current' : e.unplaced.isDeprecated = false := Bool.not_eq_true _ |>.mp current
    simp only [List.map_cons, Event.unplaced, Walk.run, current', Bool.false_eq_true, if_false]
    refine (h.start s e).bind fun entered => ?_
    cases entered with
    | none => exact ih_out
    | some entered => exact ih_in entered
  | case4 s kind rest ih => exact (h.finish s kind).bind ih
  | case5 depth s e rest ih => exact ih
  | case6 depth s kind rest ih => exact ih

end Walk

end EnumRegistry
