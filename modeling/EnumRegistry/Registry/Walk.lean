import EnumRegistry.Registry.Reader

/-!
Walks over the events of a registry. An element that is deprecated, or that the walk does not
enter, is left out with all it holds.
-/

namespace EnumRegistry

/-- What a walk does at events, on a state `σ`. An element whose start gives no state is left
out. -/
structure Walk (ε σ : Type) where
  start : σ → Element → Except ε (Option σ)
  finish : σ → ElementKind → Except ε σ

namespace Walk

variable {ε σ : Type}

/-- Walks on inside so many elements that are left out. -/
def run (w : Walk ε σ) : Nat → σ → List Event → Except ε σ
  | _, s, [] => .ok s
  | 0, s, .start e :: rest =>
    if e.isDeprecated then w.run 1 s rest
    else do
      match ← w.start s e with
      | some s => w.run 0 s rest
      | none => w.run 1 s rest
  | 0, s, .finish kind :: rest => do w.run 0 (← w.finish s kind) rest
  | depth + 1, s, .start _ :: rest => w.run (depth + 2) s rest
  | depth + 1, s, .finish _ :: rest => w.run depth s rest

/-- Walks over a document; its own error comes after all events before it. -/
def through (w : Walk ε σ) (ofRead : RegistryError → ε) (s : σ) (r : Reader) : Except ε σ := do
  let (events, failure) := r.events
  let s ← w.run 0 s events
  match failure with
  | some e => throw (ofRead e)
  | none => return s

end Walk

end EnumRegistry
