import EnumRegistry.Generation
import EnumRegistry.Proofs.Emission.Placement
import EnumRegistry.Proofs.Emission.Writing

/-!
Files of a run. Symbols, package markers and the registry of UIDs are written to paths that all lead
to different places, so no file takes the place of another.
-/

namespace EnumRegistry

/-! ## Packages -/

theorem values_eq_map_toList (m : Std.TreeMap (List PathPart) String) :
    m.values = m.toList.map (·.2) := by
  change m.foldr (fun _ dir dirs => dir :: dirs) [] = _
  rw [Std.TreeMap.foldr_eq_foldr_toList, List.map_eq_foldr]

/-- Directories by their parts, some of the ones given. -/
def ByParts (dirs : List String) (found : Std.TreeMap (List PathPart) String) : Prop :=
  ∀ parts dir, found[parts]? = some dir → pathParts dir = parts ∧ dir ∈ dirs

theorem byParts_foldl {dirs more : List String} {found : Std.TreeMap (List PathPart) String}
    (h : ByParts dirs found) (sub : ∀ dir ∈ more, dir ∈ dirs) :
    ByParts dirs (more.foldl (fun found dir => found.insertIfNew (pathParts dir) dir) found) := by
  induction more generalizing found with
  | nil => exact h
  | cons first more ih =>
    refine ih ?_ fun d hd => sub d (List.mem_cons_of_mem _ hd)
    intro parts dir hdir
    rw [Std.TreeMap.getElem?_insertIfNew] at hdir
    split at hdir
    · rename_i new
      obtain rfl := Option.some.inj hdir
      exact ⟨Std.LawfulEqCmp.eq_of_compare new.1, sub _ (List.mem_cons_self ..)⟩
    · exact h parts dir hdir

theorem ByParts.nodup_values {dirs : List String} {found : Std.TreeMap (List PathPart) String}
    (h : ByParts dirs found) : (found.values.map pathParts).Nodup := by
  have keys : found.values.map pathParts = found.keys := by
    rw [values_eq_map_toList, List.map_map, ← Std.TreeMap.map_fst_toList_eq_keys]
    apply List.map_congr_left
    intro entry hentry
    exact (h _ _ (Std.TreeMap.mem_toList_iff_getElem?_eq_some.mp hentry)).1
  exact keys ▸ Std.TreeMap.nodup_keys

theorem ByParts.mem_values {dirs : List String} {found : Std.TreeMap (List PathPart) String}
    (h : ByParts dirs found) {dir : String} (hdir : dir ∈ found.values) : dir ∈ dirs := by
  rw [values_eq_map_toList] at hdir
  obtain ⟨⟨parts, dir⟩, hentry, rfl⟩ := List.mem_map.mp hdir
  exact (h _ _ (Std.TreeMap.mem_toList_iff_getElem?_eq_some.mp hentry)).2

/-- A package below a directory has more parts than the directory. -/
theorem parts_of_packagesBelow {dir package : String} {segments : List String}
    (h : ∀ s ∈ segments, IsPathName s) (hpackage : package ∈ packagesBelow dir segments) :
    pathParts package ≠ [] := by
  induction segments generalizing dir with
  | nil => cases hpackage
  | cons s segments ih =>
    rcases List.mem_cons.mp hpackage with rfl | hpackage
    · simp [pathParts_pathInside dir (h s (List.mem_cons_self ..))]
    · exact ih (fun x hx => h x (List.mem_cons_of_mem _ hx)) hpackage

theorem isPathName_packageMarker {l : Language} {marker : String}
    (h : l.packageMarker? = some marker) : IsPathName marker := by
  cases l <;> cases h
  exact ⟨by decide, by decide, by decide⟩

/-- No plain name begins like the marker of a package. -/
theorem fileName_ne_packageMarker {t : Target} {stem marker : String} (hstem : PlainName stem)
    (h : t.language.packageMarker? = some marker) : t.fileName stem ≠ marker := by
  intro same
  have fields := Placement.fields_fileName (t := t) hstem
  rw [same] at fields
  cases hl : t.language <;> rw [hl] at h <;> cases h
  have init : Text.fields isCut "__init__.py" = ["__init__", "py"] := by decide
  rw [init, List.cons.injEq] at fields
  exact hstem.start ⟨"init__".toList, by rw [← fields.1]; rfl⟩

namespace Emission

/-- The packages on the way down all namespaces of a run. -/
def packageDirectories (e : Emission) : List String :=
  e.placed.flatMap fun (_, p) => packagesBelow "" p.segments

theorem packages_byParts (e : Emission) :
    ∃ found, e.packages = found.values ∧ ByParts e.packageDirectories found :=
  ⟨_, rfl, byParts_foldl (by simp [ByParts]) fun _ h => h⟩

theorem markers_parts (e : Emission) : (e.markers.map (·.path)).map pathParts =
    match e.target.language.packageMarker? with
    | some marker => (e.packages.map pathParts).map (· ++ [.name marker])
    | none => [] := by
  unfold markers
  cases hmarker : e.target.language.packageMarker? with
  | none => rfl
  | some marker =>
    simp only [List.map_map, Function.comp_def,
      pathParts_pathInside _ (isPathName_packageMarker hmarker)]

theorem markers_nodup (e : Emission) : ((e.markers.map (·.path)).map pathParts).Nodup := by
  rw [markers_parts]
  split
  · obtain ⟨found, packages, byParts⟩ := e.packages_byParts
    rw [packages]
    exact byParts.nodup_values.map fun _ _ => List.append_cancel_right
  · exact .nil

/-- A run's placements, as claims in the directories of plain symbols. -/
structure ClaimedAt (e : Emission) (scopes : DirectoryScopes) (slots : List Placement.Slot) :
    Prop where
  initial : scopes = Placement.initialScopes e.target (slots.map (·.1))
  claimed : Placement.Claimed e.target scopes slots
  plain : ∀ slot ∈ slots, slot.1.Plain ∧ PlainName slot.2
  placed : e.placed = slots.map fun slot => (slot.1, e.target.placed slot.1 slot.2)

namespace ClaimedAt

variable {e : Emission} {scopes : DirectoryScopes} {slots : List Placement.Slot}

theorem files (h : e.ClaimedAt scopes slots) : (e.placed.map (·.2.file)).map pathParts =
    slots.map fun slot => pathParts (e.target.placed slot.1 slot.2).file := by
  rw [h.placed, List.map_map, List.map_map]
  rfl

theorem qualified_nodup (h : e.ClaimedAt scopes slots) : (e.placed.map (·.2.qualified)).Nodup := by
  rw [h.placed, List.map_map]
  exact h.claimed.nodup_of h.plain Placement.slotKey_of_qualified

theorem files_nodup (h : e.ClaimedAt scopes slots) :
    ((e.placed.map (·.2.file)).map pathParts).Nodup := by
  rw [h.files]
  exact h.claimed.nodup_of h.plain Placement.slotKey_of_file

theorem package_parts (h : e.ClaimedAt scopes slots) {dir : String} (hdir : dir ∈ e.packages) :
    pathParts dir ≠ [] := by
  obtain ⟨found, packages, byParts⟩ := e.packages_byParts
  have listed := byParts.mem_values (packages ▸ hdir)
  rw [packageDirectories, h.placed] at listed
  obtain ⟨placed, hplaced, hdir⟩ := List.mem_flatMap.mp listed
  obtain ⟨slot, hslot, rfl⟩ := List.mem_map.mp hplaced
  refine parts_of_packagesBelow ?_ hdir
  intro s hs
  rw [Target.placed_segments] at hs
  exact isPathName_of_isField (Target.namespaceOf_isField (h.plain slot hslot).1 s hs)

theorem mem_files (h : e.ClaimedAt scopes slots) {parts : List PathPart}
    (hparts : parts ∈ (e.placed.map (·.2.file)).map pathParts) :
    ∃ segments stem, segments ≠ [] ∧ PlainName stem ∧
      parts = segments.map .name ++ [.name (e.target.fileName stem)] := by
  rw [h.files] at hparts
  obtain ⟨slot, hslot, rfl⟩ := List.mem_map.mp hparts
  obtain ⟨symbol, stem⟩ := h.plain slot hslot
  exact ⟨_, _, Target.namespaceOf_ne_nil symbol, stem, Placement.pathParts_file symbol stem⟩

theorem mem_markers (h : e.ClaimedAt scopes slots) {parts : List PathPart}
    (hparts : parts ∈ (e.markers.map (·.path)).map pathParts) :
    ∃ dir marker, dir ≠ [] ∧ e.target.language.packageMarker? = some marker ∧
      parts = dir ++ [.name marker] := by
  rw [markers_parts] at hparts
  split at hparts
  · rename_i marker hmarker
    obtain ⟨_, hpackage, rfl⟩ := List.mem_map.mp hparts
    obtain ⟨dir, hdir, rfl⟩ := List.mem_map.mp hpackage
    exact ⟨_, marker, h.package_parts hdir, hmarker, rfl⟩
  · cases hparts

/-- A file of a symbol is no marker by its name, and the registry is neither by its place. -/
theorem paths_nodup (h : e.ClaimedAt scopes slots) : (e.paths.map pathParts).Nodup := by
  have registry : pathParts uidRegistryPath = [.name uidRegistryPath] :=
    pathParts_name ⟨by decide, by decide, by decide⟩
  rw [paths, List.map_append, List.map_append]
  refine (h.files_nodup.append e.markers_nodup ?_).append (List.nodup_singleton _) ?_
  · intro parts hfile hmarker
    obtain ⟨segments, stem, -, hstem, rfl⟩ := h.mem_files hfile
    obtain ⟨dir, marker, -, hl, same⟩ := h.mem_markers hmarker
    have last := List.singleton_inj.mp (List.append_inj' same rfl).2
    exact fileName_ne_packageMarker hstem hl (PathPart.name.inj last)
  · intro parts hother hregistry
    obtain rfl := List.mem_singleton.mp hregistry
    rw [registry] at hother
    rcases List.mem_append.mp hother with hfile | hmarker
    · obtain ⟨segments, stem, inside, -, same⟩ := h.mem_files hfile
      rw [← List.nil_append [_]] at same
      have outside := (List.append_inj' same rfl).1
      exact inside (List.map_eq_nil_iff.mp outside.symm)
    · obtain ⟨dir, marker, inside, -, same⟩ := h.mem_markers hmarker
      rw [← List.nil_append [_]] at same
      exact inside (List.append_inj' same rfl).1.symm

end ClaimedAt

end Emission

/-- What is planned for a registry without overrides are claims of plain names, one for each of its
symbols. -/
theorem Resolution.emission_claimedAt {ceiling : Nat} {r : Reader} {res : Resolution}
    (h : ofReader {} ceiling r = .ok res) {target : Target} {e : Emission}
    (planned : res.emission target = .ok e) :
    e.placed.map (·.1) = res.model.symbols ∧ ∃ scopes slots, e.ClaimedAt scopes slots := by
  obtain ⟨slots, claimed, symbols, rfl⟩ := Emission.plan_eq_ok planned
  have plain := symbols_plain h
  rw [← symbols] at plain claimed
  refine ⟨?_, _, slots, rfl, claimed, claimed.plain plain, rfl⟩
  rw [← symbols, List.map_map]
  rfl

/-- Without overrides every symbol has a fully-qualified name of its own, and no file is written in
the place of another, whatever the store does. A run that fails nowhere writes the files of all
symbols, then the markers of all packages, then the registry of UIDs. -/
theorem outputs_apart {ceiling : Nat} {r : Reader} {res : Resolution}
    (h : Resolution.ofReader {} ceiling r = .ok res) {target : Target} {e : Emission}
    (planned : res.emission target = .ok e) :
    e.placed.map (·.1) = res.model.symbols ∧ (e.placed.map (·.2.qualified)).Nodup ∧
    ∀ {σ : Type} (store : FileStore (StateM σ)) (out : String) (state : σ),
      let writing := ((writeAll store out e.artifacts).run state).1
      (writing.written.map pathParts).Nodup ∧
      (writing.failure = none → writing.written =
        e.placed.map (·.2.file) ++ e.markers.map (·.path) ++ [uidRegistryPath]) := by
  obtain ⟨symbols, scopes, slots, claimedAt⟩ := Resolution.emission_claimedAt h planned
  refine ⟨symbols, claimedAt.qualified_nodup, ?_⟩
  intro σ store out state
  obtain ⟨before, complete⟩ := writeAll_written store out e.artifacts_paths state
  have paths := claimedAt.paths_nodup
  exact ⟨paths.sublist (before.map pathParts).sublist, complete⟩

/-- Two dictionaries whose modules would be called alike. -/
def modulesDocument : String :=
  "<r><dict uid=\"1\" name=\"A1 B\"/><dict uid=\"2\" name=\"A1B\"/></r>"

/-- A store that has no file and takes every one. -/
def acceptingStore : FileStore (StateM Unit) where
  read _ := pure (.error .missing)
  write _ _ := pure (.ok ())

theorem modules_apart :
    ∃ res e, Resolution.ofReader {} 4096 (.ofString modulesDocument) = .ok res ∧
      res.emission ⟨.python, "a"⟩ = .ok e ∧
      (e.placed.map (·.2.qualified)).Nodup ∧
      let written := ((writeAll acceptingStore "out" e.artifacts).run ()).1.written
      written = ["a/dictionaries/a1_b.py", "a/dictionaries/a1_b1.py", "a/__init__.py",
        "a/dictionaries/__init__.py", uidRegistryPath] ∧ (written.map pathParts).Nodup := by
  have run : (Resolution.ofReader {} 4096 (.ofString modulesDocument)).toOption.map (fun res =>
      (res.emission ⟨.python, "a"⟩).toOption.map fun e =>
        ((writeAll acceptingStore "out" e.artifacts).run ()).1.written) =
      some (some ["a/dictionaries/a1_b.py", "a/dictionaries/a1_b1.py", "a/__init__.py",
        "a/dictionaries/__init__.py", uidRegistryPath]) := by decide +kernel
  obtain ⟨res, hres, planned⟩ := exists_ok_of_map run
  obtain ⟨e, he, written⟩ := exists_ok_of_map planned
  obtain ⟨-, qualified, files⟩ := outputs_apart hres he
  exact ⟨res, e, hres, he, qualified, written, (files acceptingStore "out" ()).1⟩

end EnumRegistry
