import EnumRegistry.GenerationError

/-! Runs of steps that may fail, taken apart at their first step. -/

namespace EnumRegistry

theorem bind_eq_ok {ε α β : Type} {x : Except ε α} {f : α → Except ε β} {b : β} :
    x >>= f = .ok b ↔ ∃ a, x = .ok a ∧ f a = .ok b := by
  cases x with
  | ok a => simp [bind, Except.bind]
  | error e => simp [bind, Except.bind]

theorem bind_eq_error {ε α β : Type} {x : Except ε α} {f : α → Except ε β} {e : ε} :
    x >>= f = .error e ↔ x = .error e ∨ ∃ a, x = .ok a ∧ f a = .error e := by
  cases x with
  | ok a => simp [bind, Except.bind]
  | error d => simp [bind, Except.bind]

theorem map_eq_ok {ε α β : Type} {x : Except ε α} {f : α → β} {b : β} :
    x.map f = .ok b ↔ ∃ a, x = .ok a ∧ f a = b := by
  cases x with
  | ok a => simp [Except.map]
  | error e => simp [Except.map]

theorem toOption_eq_some {ε α : Type} {x : Except ε α} {a : α} :
    x.toOption = some a ↔ x = .ok a := by
  cases x with
  | ok b => exact ⟨fun h => congrArg _ (Option.some.inj h), fun h => congrArg _ (Except.ok.inj h)⟩
  | error e => exact ⟨nofun, nofun⟩

theorem exists_ok_of_map {ε α β : Type} {x : Except ε α} {f : α → β} {b : β}
    (h : x.toOption.map f = some b) : ∃ a, x = .ok a ∧ f a = b := by
  obtain ⟨a, made, same⟩ := Option.map_eq_some_iff.mp h
  exact ⟨a, toOption_eq_some.mp made, same⟩

theorem length_of_mapM {ε α β : Type} {f : α → Except ε β} {l : List α} {r : List β}
    (h : l.mapM f = .ok r) : r.length = l.length := by
  induction l generalizing r with
  | nil =>
    cases h
    rfl
  | cons a l ih =>
    rw [List.mapM_cons] at h
    obtain ⟨b, -, h⟩ := bind_eq_ok.mp h
    obtain ⟨rest, hrest, h⟩ := bind_eq_ok.mp h
    cases h
    rw [List.length_cons, List.length_cons, ih hrest]

@[simp] theorem pure_eq_ok {ε α : Type} (a : α) : (pure a : Except ε α) = .ok a := rfl

@[simp] theorem throw_eq_error {ε α : Type} (e : ε) : (throw e : Except ε α) = .error e := rfl

/-- What is said of an error does not change what goes well. -/
theorem mapError_eq_ok {ε δ α : Type} {f : ε → δ} {x : Except ε α} {a : α} :
    x.mapError f = .ok a ↔ x = .ok a := by
  cases x with
  | ok b =>
    change Except.ok b = .ok a ↔ Except.ok b = .ok a
    rw [Except.ok.injEq, Except.ok.injEq]
  | error e => exact ⟨nofun, nofun⟩

@[simp] theorem ofRegistry_eq_ok {α : Type} {x : Except RegistryError α} {a : α} :
    ofRegistry x = .ok a ↔ x = .ok a := mapError_eq_ok

@[simp] theorem ofTree_eq_ok {α : Type} {x : Except TreeError α} {a : α} :
    ofTree x = .ok a ↔ x = .ok a := mapError_eq_ok

@[simp] theorem ofScope_eq_ok {α : Type} {x : Except Exhausted α} {a : α} :
    ofScope x = .ok a ↔ x = .ok a := mapError_eq_ok

/-! ## Errors that do not happen -/

/-- Steps that do not end with an error of a sort. -/
def Avoids {ε α : Type} (bad : ε → Prop) (x : Except ε α) : Prop :=
  ∀ err, x = .error err → ¬ bad err

section
variable {ε α β : Type} {bad : ε → Prop}

theorem avoids_ok (a : α) : Avoids bad (.ok a) := by
  intro err h
  cases h

theorem avoids_error {err : ε} (h : ¬ bad err) : Avoids bad (.error err : Except ε α) := by
  intro err' h'
  cases h'
  exact h

theorem avoids_map {x : Except ε α} (f : α → β) (hx : Avoids bad x) : Avoids bad (f <$> x) := by
  cases x with
  | ok a => exact avoids_ok (f a)
  | error err => exact avoids_error (hx err rfl)

theorem avoids_bind {x : Except ε α} {f : α → Except ε β} (hx : Avoids bad x)
    (hf : ∀ a, x = .ok a → Avoids bad (f a)) : Avoids bad (x >>= f) := by
  intro err h
  rcases bind_eq_error.mp h with h | ⟨a, ha, h⟩
  · exact hx err h
  · exact hf a ha err h

theorem avoids_mapError {δ : Type} {worse : δ → Prop} {f : ε → δ} {x : Except ε α}
    (h : Avoids (fun e => worse (f e)) x) : Avoids worse (x.mapError f) := by
  cases x with
  | ok a => exact avoids_ok a
  | error e => exact avoids_error (h e rfl)

end

theorem avoids_ofRegistry {α : Type} {bad : GenerationError → Prop} {x : Except RegistryError α}
    (h : Avoids (fun e => bad (.registry e)) x) : Avoids bad (ofRegistry x) := avoids_mapError h

theorem avoids_ofTree {α : Type} {bad : GenerationError → Prop} {x : Except TreeError α}
    (h : Avoids (fun e => bad (.registry (.tree e))) x) : Avoids bad (ofTree x) := avoids_mapError h

theorem avoids_ofScope {α : Type} {bad : GenerationError → Prop} (x : Except Exhausted α)
    (h : ∀ e, ¬ bad (.exhausted e)) : Avoids bad (ofScope x) :=
  avoids_mapError fun e _ => h e

/-! ## Steps that correspond -/

/-- A step whose error and result are those of another, each seen through a function. -/
def Maps {ε δ α β : Type} (u : ε → δ) (f : α → β) (x : Except ε α) (y : Except δ β) : Prop :=
  y = (x.mapError u).map f

namespace Maps

variable {ε δ α β : Type} {u : ε → δ} {f : α → β}

theorem ok (a : α) : Maps u f (.ok a) (.ok (f a)) := rfl

theorem error (e : ε) : Maps u f (.error e) (.error (u e)) := rfl

theorem bind_ok {γ κ : Type} {h : γ → κ} {x : Except ε α} {y : Except δ β} {g : α → Except ε γ}
    {g' : β → Except δ κ} (first : Maps u f x y)
    (rest : ∀ a, x = .ok a → Maps u h (g a) (g' (f a))) : Maps u h (x >>= g) (y >>= g') := by
  subst first
  cases x with
  | ok a => exact rest a rfl
  | error e => rfl

theorem bind {γ κ : Type} {h : γ → κ} {x : Except ε α} {y : Except δ β} {g : α → Except ε γ}
    {g' : β → Except δ κ} (first : Maps u f x y) (rest : ∀ a, Maps u h (g a) (g' (f a))) :
    Maps u h (x >>= g) (y >>= g') :=
  first.bind_ok fun a _ => rest a

theorem refl (x : Except ε α) : Maps id id x x := by
  cases x <;> rfl

theorem some {x : Except ε α} {y : Except δ β} (h : Maps u f x y) :
    Maps u (Option.map f) (Option.some <$> x) (Option.some <$> y) := by
  subst h
  cases x <;> rfl

theorem eq_ok {x : Except ε α} {y : Except δ β} (h : Maps u f x y) {b : β} :
    y = .ok b ↔ ∃ a, x = .ok a ∧ f a = b := by
  subst h
  cases x with
  | ok a =>
    change Except.ok (f a) = .ok b ↔ _
    simp
  | error e =>
    change Except.error (u e) = .ok b ↔ _
    simp

/-- Of two steps that correspond to a third, one ends well if the other does. -/
theorem exists_ok {x x' : Except ε α} {y : Except δ β} (h : Maps u f x y) (h' : Maps u f x' y)
    {a : α} (ok : x = .ok a) : ∃ a', x' = .ok a' ∧ f a' = f a :=
  h'.eq_ok.mp (h.eq_ok.mpr ⟨a, ok, rfl⟩)

end Maps

end EnumRegistry
