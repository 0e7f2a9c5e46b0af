import EnumRegistry.Proofs.Emission.FirstPlaced
import EnumRegistry.Proofs.Emission.Writing

/-!
The order of writing. What is written is the files of the symbols in their order, then the markers
of packages, then the registry of UIDs, up to the first that cannot be made or written; so the
registry names only symbols whose files are there.
-/

namespace EnumRegistry

namespace Language

theorem fileExtension_apart (l : Language) :
    ¬ l.fileExtension.toList <:+ uidRegistryPath.toList := by
  cases l <;> decide

theorem packageMarker_apart {l : Language} {marker : String}
    (h : l.packageMarker? = some marker) : ¬ marker.toList <:+ uidRegistryPath.toList := by
  cases l <;> cases h
  decide

end Language

namespace Emission

variable {target : Target} {revision : Option Revision} {symbols : List Symbol} {e : Emission}

/-- Symbols and markers have files of other sorts than the registry of UIDs. -/
theorem registry_apart (planned : plan target revision symbols = .ok e) :
    uidRegistryPath ∉ e.placed.map (·.2.file) ++ e.markers.map (·.path) := by
  obtain ⟨slots, -, -, rfl⟩ := plan_eq_ok planned
  intro registry
  rcases List.mem_append.mp registry with registry | registry
  · obtain ⟨placed, hplaced, same⟩ := List.mem_map.mp registry
    obtain ⟨slot, -, rfl⟩ := List.mem_map.mp hplaced
    apply target.language.fileExtension_apart
    have named : target.language.fileExtension.toList <:+ (target.fileName slot.2).toList :=
      ⟨_, String.toList_append.symm⟩
    rw [← same]
    exact named.trans (suffix_pathInside (target.directoryOf slot.1) _)
  · unfold markers at registry
    split at registry
    · rename_i marker hmarker
      simp only [List.map_map, List.mem_map] at registry
      obtain ⟨dir, -, same⟩ := registry
      exact Language.packageMarker_apart hmarker (same ▸ suffix_pathInside dir marker)
    · cases registry

/-- Files of a run in the order of writing: those of the symbols in their order, then the markers of
packages, then the registry of UIDs, up to some point. If the registry is among them, so is the file
of every symbol whose name it has, and before it. -/
structure InOrder (e : Emission) (files : List Artifact) : Prop where
  paths : files.map (·.path) <+:
    e.placed.map (·.2.file) ++ e.markers.map (·.path) ++ [uidRegistryPath]
  registry : uidRegistryPath ∈ files.map (·.path) →
    ∃ earlier, files = earlier ++ [e.registryArtifact] ∧
      ∀ uid name, e.uidRegistry.get? uid = some name → ∃ placed ∈ e.placed,
        placed.1.uid = some uid ∧ placed.2.qualified = name ∧
        ∃ file ∈ earlier, e.symbolArtifact (placedTypes e.placed) placed = .ok file

/-- A name of the registry is that of a symbol. -/
theorem exists_placed_of_get? {uid name : String} (h : e.uidRegistry.get? uid = some name) :
    ∃ placed ∈ e.placed, placed.1.uid = some uid ∧ placed.2.qualified = name := by
  rw [uidRegistry_get?] at h
  obtain ⟨placed, held, rfl⟩ := Option.map_eq_some_iff.mp h
  have own : placed.1.uid = some uid := by simpa using List.find?_some held
  exact ⟨placed, List.mem_of_find?_eq_some held, own, rfl⟩

/-- The registry of UIDs is the last file, so all others stand before it. -/
theorem all_of_registry {files : List Artifact} {rest : List (Except Exhausted Artifact)}
    (planned : plan target revision symbols = .ok e) (made : e.artifacts = files.map .ok ++ rest)
    (registry : uidRegistryPath ∈ files.map (·.path)) : e.artifacts = files.map .ok := by
  have paths := e.artifacts_paths
  rw [made] at paths
  obtain ⟨others, all, unwritten⟩ := makes_append paths
  have before : files.map (·.path) <+: e.paths := ⟨others, all.symm⟩
  rcases List.prefix_concat_iff.mp before with whole | short
  · change files.map (·.path) = e.paths at whole
    rw [whole] at all
    obtain rfl := List.self_eq_append_right.mp all
    cases unwritten
    rw [made, List.append_nil]
  · exact absurd (short.subset registry) (registry_apart planned)

theorem inOrder_of_artifacts {files : List Artifact} {rest : List (Except Exhausted Artifact)}
    (planned : plan target revision symbols = .ok e)
    (made : e.artifacts = files.map .ok ++ rest) : e.InOrder files where
  paths := by
    obtain ⟨others, all, -⟩ := makes_append (made ▸ e.artifacts_paths)
    exact ⟨others, all.symm⟩
  registry := by
    intro registry
    obtain ⟨earlier, last, rfl, symbolsAndMarkers, one⟩ :=
      List.map_eq_append_iff.mp (all_of_registry planned made registry).symm
    obtain ⟨file, rfl, same⟩ := List.map_eq_singleton_iff.mp one
    refine ⟨earlier, by rw [Except.ok.inj same], fun uid name recorded => ?_⟩
    obtain ⟨placed, hplaced, own, named⟩ := exists_placed_of_get? recorded
    have its : e.symbolArtifact (placedTypes e.placed) placed ∈ earlier.map .ok := by
      rw [symbolsAndMarkers]
      exact List.mem_append_left _ (List.mem_map.mpr ⟨placed, hplaced, rfl⟩)
    obtain ⟨file, hfile, ok⟩ := List.mem_map.mp its
    exact ⟨placed, hplaced, own, named, file, hfile, ok.symm⟩

end Emission

/-- Whatever a store does and wherever a run stops, it has written its files in their order, and so
the registry of UIDs behind the files of all symbols that it names. The registry has the UIDs of
all symbols, each with the name of its first symbol; in a model that is a type before any node, and
an enumeration before its satellites. -/
theorem registry_written_last {target : Target} {revision : Option Revision}
    {symbols : List Symbol} {e : Emission}
    (planned : Emission.plan target revision symbols = .ok e) :
    e.placed.map (·.1) = symbols ∧
    (∀ {σ : Type} (store : FileStore (StateM σ)) (out : String) (state : σ),
      ∃ files rest between failure after,
        (writeAll store out e.artifacts).run state = (⟨files.map (·.path), failure⟩, after) ∧
        e.artifacts = files.map .ok ++ rest ∧ store.Takes out state files between ∧
        store.Stops out between rest failure after ∧ e.InOrder files) ∧
    (∀ uid, e.uidRegistry.get? uid = (e.holder? uid).map (·.2.qualified)) ∧
    (∀ m : Model, symbols = m.symbols → ∀ uid s, m.typeOf? uid = some s →
      ∃ p, e.holder? uid = some (s, p)) ∧
    ∀ overrides ceiling r res, Resolution.ofReader overrides ceiling r = .ok res →
      symbols = res.model.symbols → ∀ type ∈ res.model.enumerations, ∃ primary p,
        e.holder? type.uid = some (Symbol.ofEnumeration primary, p) ∧
        res.table.name? type.uid = some primary.name := by
  refine ⟨Emission.plan_symbols planned, ?_, e.uidRegistry_get?, ?_, ?_⟩
  · intro σ store out state
    obtain ⟨files, rest, between, failure, after, run, made, takes, stops⟩ :=
      writeAll_run store out e.artifacts state
    exact ⟨files, rest, between, failure, after, run, made, takes, stops,
      Emission.inOrder_of_artifacts planned made⟩
  · rintro m rfl uid s first
    exact Emission.holder?_of_typeOf? planned first
  · rintro overrides ceiling r res resolved rfl type htype
    obtain ⟨primary, first, typeOf⟩ := Model.typeOf?_enumeration htype
    obtain ⟨p, held⟩ := Emission.holder?_of_typeOf? planned typeOf
    exact ⟨primary, p, held, Resolution.primary_named resolved first⟩

/-- A split enumeration, and a node that has its UID. -/
def sharedUidDocument : String :=
  "<r><cet uid=\"30\"><entity country=\"5\" kind=\"1\" domain=\"1\">" ++
    "<category value=\"1\" name=\"tank\" uid=\"1\"/></entity></cet>" ++
    "<enum uid=\"1\" name=\"Color\" size=\"8\"><enumrow value=\"1\" description=\"Red\"/>" ++
    "<enumrow value=\"2\" description=\"Green\"/></enum></r>"

/-- A store that has room for so many files. -/
def limitedStore : FileStore (StateM Nat) where
  read _ := pure (.error .missing)
  write _ _ := do
    match ← get with
    | 0 => return .error (.other "No space left on device (os error 28)")
    | room + 1 => set room; return .ok ()

theorem shared_uid_registered : ∃ (res : Resolution) (e : Emission),
    Resolution.ofString {} 1 sharedUidDocument = .ok res ∧ res.emission ⟨.java, "a"⟩ = .ok e ∧
    e.placed.map (·.1.uid) = [some "1", some "1", some "1"] ∧
    e.uidRegistry.get? "1" = some "a.enumerations.Color" ∧
    ((writeAll limitedStore "out" e.artifacts).run 2).1.written =
      ["a/enumerations/Color.java", "a/enumerations/ColorAdditional.java"] ∧
    ∃ files : List Artifact,
      ((writeAll limitedStore "out" e.artifacts).run 4).1.written = files.map (·.path) ∧
      files.map (·.path) = ["a/enumerations/Color.java", "a/enumerations/ColorAdditional.java",
        "a/entities/country5/kind1/domain1/tank.java", uidRegistryPath] ∧ e.InOrder files := by
  have run : (Resolution.ofString {} 1 sharedUidDocument).toOption.map (fun res =>
      (res.emission ⟨.java, "a"⟩).toOption.map fun e =>
        (e.placed.map (·.1.uid), e.uidRegistry.get? "1",
          ((writeAll limitedStore "out" e.artifacts).run 2).1.written,
          ((writeAll limitedStore "out" e.artifacts).run 4).1.written)) =
      some (some ([some "1", some "1", some "1"], some "a.enumerations.Color",
        ["a/enumerations/Color.java", "a/enumerations/ColorAdditional.java"],
        ["a/enumerations/Color.java", "a/enumerations/ColorAdditional.java",
          "a/entities/country5/kind1/domain1/tank.java", uidRegistryPath])) := by decide +kernel
  obtain ⟨res, hres, planned⟩ := exists_ok_of_map run
  obtain ⟨e, he, facts⟩ := exists_ok_of_map planned
  simp only [Prod.mk.injEq] at facts
  obtain ⟨uids, recorded, two, four⟩ := facts
  obtain ⟨-, runs, -⟩ := registry_written_last he
  obtain ⟨files, rest, between, failure, after, written, -, -, -, inOrder⟩ :=
    runs limitedStore "out" 4
  rw [written] at four
  exact ⟨res, e, hres, he, uids, recorded, two, files, by rw [written], four, inOrder⟩

end EnumRegistry
