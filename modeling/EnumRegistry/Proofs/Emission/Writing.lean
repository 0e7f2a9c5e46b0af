import EnumRegistry.Emission.Artifact
import EnumRegistry.Proofs.Result
import Mathlib.Data.List.Forall2

/-!
The course of writing. Files are written one after the other, until one cannot be made, one cannot
be written or none is left.
-/

namespace EnumRegistry

namespace Emission

/-- The paths of all files, in the order of writing. -/
def paths (e : Emission) : List String :=
  e.placed.map (·.2.file) ++ e.markers.map (·.path) ++ [uidRegistryPath]

theorem symbolArtifact_path {e : Emission} {types : PlacedTypes} {placed : Symbol × Placement}
    {a : Artifact} (h : e.symbolArtifact types placed = .ok a) : a.path = placed.2.file := by
  simp only [symbolArtifact, bind_eq_ok, pure_eq_ok, Except.ok.injEq] at h
  obtain ⟨lines, -, rfl⟩ := h
  rfl

/-- What can be made of a file has its path. -/
def Makes (x : Except Exhausted Artifact) (path : String) : Prop := ∀ a, x = .ok a → a.path = path

theorem makes_append {files : List Artifact} {rest : List (Except Exhausted Artifact)}
    {paths : List String} (h : List.Forall₂ Makes (files.map .ok ++ rest) paths) :
    ∃ others, paths = files.map (·.path) ++ others ∧ List.Forall₂ Makes rest others := by
  induction files generalizing paths with
  | nil => exact ⟨paths, rfl, h⟩
  | cons a files ih =>
    cases h with
    | cons first behind =>
      obtain rfl := first a rfl
      obtain ⟨others, rfl, unwritten⟩ := ih behind
      exact ⟨others, rfl, unwritten⟩

theorem artifacts_paths (e : Emission) : List.Forall₂ Makes e.artifacts e.paths := by
  refine List.rel_append (List.rel_append ?_ ?_) (.cons ?_ .nil)
  · rw [List.forall₂_map_left_iff, List.forall₂_map_right_iff, List.forall₂_same]
    intro placed _ a h
    exact symbolArtifact_path h
  · rw [List.forall₂_map_left_iff, List.forall₂_map_right_iff, List.forall₂_same]
    intro marker _ a h
    exact congrArg Artifact.path (Except.ok.inj h).symm
  · intro a h
    exact congrArg Artifact.path (Except.ok.inj h).symm

end Emission

/-! ## A run -/

section
variable {σ : Type}

/-- A store takes files into a directory, one after the other. -/
inductive FileStore.Takes (store : FileStore (StateM σ)) (dir : String) :
    σ → List Artifact → σ → Prop
  | nil (state : σ) : Takes store dir state [] state
  | cons {a : Artifact} {files : List Artifact} {before between after : σ}
      (written : (store.write (pathInside dir a.path) a.content).run before = (.ok (), between))
      (rest : Takes store dir between files after) : Takes store dir before (a :: files) after

/-- Nothing of a list of files is written: none is left, or the first cannot be made or written. -/
inductive FileStore.Stops (store : FileStore (StateM σ)) (dir : String) :
    σ → List (Except Exhausted Artifact) → Option GenerationError → σ → Prop
  | done (state : σ) : Stops store dir state [] none state
  | unmade (e : Exhausted) (rest : List (Except Exhausted Artifact)) (state : σ) :
      Stops store dir state (.error e :: rest) (some (.exhausted e)) state
  | refused {a : Artifact} {before after : σ} {cause : FileFailure}
      (rest : List (Except Exhausted Artifact))
      (refused : (store.write (pathInside dir a.path) a.content).run before =
        (.error cause, after)) :
      Stops store dir before (.ok a :: rest)
        (some (.unwritten (pathInside dir a.path) a.owner cause)) after

variable {store : FileStore (StateM σ)} {dir : String}

theorem FileStore.Stops.failure_eq_none {rest : List (Except Exhausted Artifact)}
    {failure : Option GenerationError} {before after : σ}
    (h : store.Stops dir before rest failure after) : failure = none ↔ rest = [] := by
  cases h <;> simp

variable (store dir)

theorem writeAll_cons (a : Artifact) (rest : List (Except Exhausted Artifact)) (state : σ) :
    (writeAll store dir (.ok a :: rest)).run state =
      match (store.write (pathInside dir a.path) a.content).run state with
      | (.error cause, after) =>
        (⟨[], some (.unwritten (pathInside dir a.path) a.owner cause)⟩, after)
      | (.ok (), between) =>
        let (w, after) := (writeAll store dir rest).run between
        (⟨a.path :: w.written, w.failure⟩, after) := by
  simp only [writeAll, StateT.run_bind]
  obtain ⟨result, between⟩ := (store.write (pathInside dir a.path) a.content).run state
  cases result <;> rfl

/-- A run takes the files up to the one that it stops at, whatever the store does. -/
theorem writeAll_run (artifacts : List (Except Exhausted Artifact)) (state : σ) :
    ∃ files rest between failure after,
      (writeAll store dir artifacts).run state = (⟨files.map (·.path), failure⟩, after) ∧
      artifacts = files.map .ok ++ rest ∧ store.Takes dir state files between ∧
      store.Stops dir between rest failure after := by
  induction artifacts generalizing state with
  | nil => exact ⟨[], [], state, none, state, rfl, rfl, .nil state, .done state⟩
  | cons x artifacts ih =>
    cases x with
    | error e => exact ⟨[], _, state, _, state, rfl, rfl, .nil state, .unmade e artifacts state⟩
    | ok a =>
      rw [writeAll_cons]
      cases write : (store.write (pathInside dir a.path) a.content).run state with
      | mk result between =>
        cases result with
        | error cause =>
          exact ⟨[], _, state, _, between, rfl, rfl, .nil state, .refused artifacts write⟩
        | ok =>
          obtain ⟨files, rest, last, failure, after, run, rfl, takes, stops⟩ := ih between
          refine ⟨a :: files, rest, last, failure, after, ?_, rfl, .cons write takes, stops⟩
          simp only [run, List.map_cons]

/-- Files are written in order up to the one that fails, whatever the store does. -/
theorem writeAll_written {artifacts : List (Except Exhausted Artifact)} {paths : List String}
    (h : List.Forall₂ Emission.Makes artifacts paths) (state : σ) :
    ((writeAll store dir artifacts).run state).1.written <+: paths ∧
      (((writeAll store dir artifacts).run state).1.failure = none →
        ((writeAll store dir artifacts).run state).1.written = paths) := by
  obtain ⟨files, rest, between, failure, after, run, rfl, -, stops⟩ :=
    writeAll_run store dir artifacts state
  obtain ⟨others, rfl, unwritten⟩ := Emission.makes_append h
  rw [run]
  refine ⟨List.prefix_append .., fun done => ?_⟩
  obtain rfl := stops.failure_eq_none.mp done
  cases unwritten
  exact (List.append_nil _).symm

end

end EnumRegistry
