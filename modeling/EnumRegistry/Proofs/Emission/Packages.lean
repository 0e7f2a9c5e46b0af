import EnumRegistry.Proofs.Emission.Files

/-!
Types beside namespaces. In Python the names of all packages are taken before a module is placed,
so no module is found under the name of a package. In the other languages a class can have the full
name of a namespace; only nodes of one hierarchy meet like that, and never a declared type.
-/

namespace EnumRegistry

namespace Placement

/-- What a symbol is found under: its module in Python, else its fully-qualified name. -/
def foundAs (l : Language) (p : Placement) : String :=
  match l with
  | .python => p.importName
  | .java | .cpp | .csharp => p.qualified

/-- A symbol is found under the namespace of another or under one on the way down to it. -/
def Shadows (l : Language) (p other : Placement) : Prop :=
  ∃ count, p.foundAs l = l.separator.intercalate (other.segments.take count)

/-! ## Names taken for packages -/

variable {t : Target} {scopes : DirectoryScopes}

/-- Names that are taken somewhere stay taken. -/
theorem reservePackages_keeps {dir other name : String} {segments : List String}
    (h : (scopeAt scopes other).contains name = true) :
    (scopeAt (reservePackages scopes dir segments) other).contains name = true := by
  induction segments generalizing scopes dir with
  | nil => exact h
  | cons segment segments ih =>
    apply ih
    rw [scopeAt_setScope]
    split
    · rename_i same
      rw [scopeAt_congr same]
      exact NameScope.contains_insert_of_contains h
    · exact h

/-- Each segment is taken in the directory of those before it. -/
theorem reservePackages_takes (dir : String) (before : List String) (segment : String)
    (rest : List String) :
    (scopeAt (reservePackages scopes dir (before ++ segment :: rest))
      (before.foldl pathInside dir)).contains segment = true := by
  induction before generalizing scopes dir with
  | nil =>
    rw [List.nil_append, List.foldl_nil, reservePackages]
    apply reservePackages_keeps
    simp [scopeAt_setScope, NameScope.contains_insert]
  | cons first before ih => exact ih _

theorem initialScopes_takes (python : t.language = .python) {symbols : List Symbol} {s : Symbol}
    (hs : s ∈ symbols) {before rest : List String} {segment : String}
    (h : t.namespaceOf s = before ++ segment :: rest) :
    (scopeAt (initialScopes t symbols) (directory before)).contains segment = true := by
  simp only [initialScopes, python]
  generalize ({} : DirectoryScopes) = scopes
  induction symbols generalizing scopes with
  | nil => cases hs
  | cons first symbols ih =>
    rcases List.mem_cons.mp hs with rfl | hs
    · have taken : (scopeAt (reservePackages scopes "" (t.namespaceOf s))
          (directory before)).contains segment = true := by
        rw [h]
        exact reservePackages_takes "" before segment rest
      clear ih hs
      rw [List.foldl_cons]
      generalize reservePackages scopes "" (t.namespaceOf s) = scopes at taken ⊢
      induction symbols generalizing scopes with
      | nil => exact taken
      | cons other symbols ih => exact ih _ (reservePackages_keeps taken)
    · exact ih hs _

/-! ## Names of namespaces -/

theorem isGap_separator (l : Language) : Text.IsGap isCut l.separator := by
  cases l <;> decide

variable {s s' : Symbol} {stem stem' : String}

theorem foundAs_placed (plain : s.Plain) : (t.placed s stem).foundAs t.language =
    t.language.separator.intercalate (t.namespaceOf s ++ [stem]) := by
  rw [String.intercalate_append_of_ne_nil (Target.namespaceOf_ne_nil plain) (List.cons_ne_nil _ _),
    String.intercalate_singleton]
  cases hl : t.language <;> simp [foundAs, Target.placed, hl, Language.separator]

theorem shadows_iff_prefix (plain : s.Plain) (plain' : s'.Plain) (hstem : PlainName stem) :
    (t.placed s stem).Shadows t.language (t.placed s' stem') ↔
      t.namespaceOf s ++ [stem] <+: t.namespaceOf s' := by
  rw [Shadows, foundAs_placed plain, Target.placed_segments]
  have segments := Target.namespaceOf_isField (t := t) plain
  have segments' := Target.namespaceOf_isField (t := t) plain'
  constructor
  · rintro ⟨count, same⟩
    replace same := congrArg (Text.fields isCut) same
    rw [Text.fields_intercalate (isGap_separator _), Text.fields_intercalate (isGap_separator _)]
      at same
    · exact same ▸ List.take_prefix count _
    · exact fun x hx => segments' x (List.mem_of_mem_take hx)
    · intro x hx
      rcases List.mem_append.mp hx with hx | hx
      · exact segments x hx
      · exact List.mem_singleton.mp hx ▸ hstem.isSegment.isField
  · intro h
    exact ⟨_, congrArg _ (List.prefix_iff_eq_take.mp h)⟩

end Placement

/-- The package of a declared type has no namespaces in it; that of a node is its hierarchy's. -/
theorem Model.mem_symbols {m : Model} {s : Symbol} (hs : s ∈ m.symbols) :
    (∃ package ∈ ["enumerations", "bitfields", "dictionaries"], s.segments = [package]) ∨
      ∃ tree node, s.body = .classification tree node ∧ s.segments = tree.namespaceOf node := by
  cases emits_of_mem hs with
  | enumeration | bitfield | dictionary => exact .inl ⟨_, by simp, rfl⟩
  | @node tree id => exact .inr ⟨tree, id, rfl, rfl⟩

namespace Language

theorem package_ne_hierarchy (l : Language) (h : Hierarchy) :
    ∀ package ∈ ["enumerations", "bitfields", "dictionaries"],
      l.namespaceSegment package ≠ l.namespaceSegment h.package := by
  cases l <;> cases h <;> decide

theorem hierarchy_of_package (l : Language) {h h' : Hierarchy}
    (same : l.namespaceSegment h.package = l.namespaceSegment h'.package) : h = h' := by
  revert same
  cases l <;> cases h <;> cases h' <;> decide

end Language

/-- Only a node's namespace has namespaces below it, and only nodes of its hierarchy stand on the
way down to it. -/
theorem Target.nodes_of_prefix {t : Target} {m : Model} {s s' : Symbol} (hs : s ∈ m.symbols)
    (hs' : s' ∈ m.symbols) {stem : String}
    (h : t.namespaceOf s ++ [stem] <+: t.namespaceOf s') :
    ∃ tree node tree' node', s.body = .classification tree node ∧
      s'.body = .classification tree' node' ∧ tree.hierarchy = tree'.hierarchy := by
  simp only [namespaceOf, List.append_assoc, List.prefix_append_right_inj] at h
  rcases Model.mem_symbols hs with ⟨package, hpackage, alone⟩ | ⟨tree, node, body, below⟩
  · rcases Model.mem_symbols hs' with ⟨package', -, alone'⟩ | ⟨tree', node', -, below'⟩
    · have short := h.length_le
      simp [alone, alone'] at short
    · rw [alone, below', ClassificationTree.namespaceOf] at h
      obtain ⟨same, -⟩ := List.cons_prefix_cons.mp h
      exact absurd same (t.language.package_ne_hierarchy _ package hpackage)
  · rcases Model.mem_symbols hs' with ⟨package', hpackage', alone'⟩ | ⟨tree', node', body', below'⟩
    · rw [alone', below, ClassificationTree.namespaceOf] at h
      obtain ⟨same, -⟩ := List.cons_prefix_cons.mp h
      exact absurd same.symm (t.language.package_ne_hierarchy _ package' hpackage')
    · rw [below, below', ClassificationTree.namespaceOf, ClassificationTree.namespaceOf] at h
      obtain ⟨same, -⟩ := List.cons_prefix_cons.mp h
      exact ⟨tree, node, tree', node', body, body', t.language.hierarchy_of_package same⟩

/-- A module of a claim is no package: the package's name was not free for it. -/
theorem Emission.ClaimedAt.not_package {e : Emission} {scopes : DirectoryScopes}
    {slots : List Placement.Slot} (h : e.ClaimedAt scopes slots)
    (python : e.target.language = .python) {slot other : Placement.Slot} (hslot : slot ∈ slots)
    (hother : other ∈ slots) :
    ¬ e.target.namespaceOf slot.1 ++ [slot.2] <+: e.target.namespaceOf other.1 := by
  rintro ⟨rest, below⟩
  rw [List.append_assoc] at below
  have taken := Placement.initialScopes_takes python (List.mem_map.mpr ⟨other, hother, rfl⟩)
    below.symm
  rw [← h.initial] at taken
  exact absurd (h.claimed.free slot hslot) (by simpa [Target.directoryOf] using taken)

theorem Resolution.emission_target {res : Resolution} {target : Target} {e : Emission}
    (planned : res.emission target = .ok e) : e.target = target := by
  simp only [emission, Emission.plan, bind_eq_ok, pure_eq_ok, Except.ok.injEq] at planned
  obtain ⟨placements, -, rfl⟩ := planned
  rfl

/-- Without overrides no Python module is found under a namespace of the run. In the other languages
a symbol is exactly if its name continues its own namespace as another's does, and then both are
nodes of one hierarchy. -/
theorem shadowed_namespaces {ceiling : Nat} {r : Reader} {res : Resolution}
    (h : Resolution.ofReader {} ceiling r = .ok res) {target : Target} {e : Emission}
    (planned : res.emission target = .ok e) {placed other : Symbol × Placement}
    (hplaced : placed ∈ e.placed) (hother : other ∈ e.placed) :
    (placed.2.Shadows target.language other.2 ↔ target.language ≠ .python ∧
      placed.2.segments ++ [placed.2.identifier] <+: other.2.segments) ∧
    (placed.2.Shadows target.language other.2 → ∃ tree node tree' node',
      placed.1.body = .classification tree node ∧ other.1.body = .classification tree' node' ∧
        tree.hierarchy = tree'.hierarchy) := by
  obtain ⟨symbols, scopes, slots, claimedAt⟩ := Resolution.emission_claimedAt h planned
  have hs : placed.1 ∈ res.model.symbols := symbols ▸ List.mem_map.mpr ⟨placed, hplaced, rfl⟩
  have hs' : other.1 ∈ res.model.symbols := symbols ▸ List.mem_map.mpr ⟨other, hother, rfl⟩
  obtain rfl := Resolution.emission_target planned
  rw [claimedAt.placed] at hplaced hother
  obtain ⟨slot, hslot, rfl⟩ := List.mem_map.mp hplaced
  obtain ⟨slot', hslot', rfl⟩ := List.mem_map.mp hother
  obtain ⟨plain, hstem⟩ := claimedAt.plain slot hslot
  obtain ⟨plain', -⟩ := claimedAt.plain slot' hslot'
  simp only [Placement.shadows_iff_prefix plain plain' hstem, Target.placed_segments]
  refine ⟨?_, Target.nodes_of_prefix hs hs'⟩
  by_cases python : e.target.language = .python
  · simp [python, claimedAt.not_package python hslot hslot']
  · have identifier : (e.target.placed slot.1 slot.2).identifier = slot.2 := by
      cases hl : e.target.language <;> simp_all [Target.placed]
    simp [python, identifier]

/-- A node and one below it. -/
def lightTankDocument : String :=
  "<cet uid=\"30\"><entity country=\"5\" kind=\"1\" domain=\"1\">" ++
    "<category value=\"1\" name=\"tank\"><subcategory value=\"2\" name=\"light\"/></category>" ++
    "</entity></cet>"

theorem tank_shadows_namespace : ∃ res,
    Resolution.ofReader {} 4096 (.ofString lightTankDocument) = .ok res ∧
    ∀ l ∈ [Language.java, .cpp, .csharp], ∃ e, res.emission ⟨l, "a"⟩ = .ok e ∧
      ∃ tank ∈ e.placed, ∃ light ∈ e.placed,
        tank.2.qualified = l.separator.intercalate light.2.segments := by
  have run : (Resolution.ofReader {} 4096 (.ofString lightTankDocument)).toOption.map (fun res =>
      [Language.java, .cpp, .csharp].all fun l =>
        (res.emission ⟨l, "a"⟩).toOption.map (fun e =>
          e.placed.any fun tank => e.placed.any fun light =>
            tank.2.qualified == l.separator.intercalate light.2.segments) == some true) =
      some true := by decide +kernel
  obtain ⟨res, hres, everywhere⟩ := exists_ok_of_map run
  refine ⟨res, hres, fun l hl => ?_⟩
  obtain ⟨e, he, shadows⟩ := exists_ok_of_map (eq_of_beq (List.all_eq_true.mp everywhere l hl))
  obtain ⟨tank, htank, shadows⟩ := List.any_eq_true.mp shadows
  obtain ⟨light, hlight, shadows⟩ := List.any_eq_true.mp shadows
  exact ⟨e, he, tank, htank, light, hlight, eq_of_beq shadows⟩

theorem tank_module_apart : ∃ res e tank light,
    Resolution.ofReader {} 4096 (.ofString lightTankDocument) = .ok res ∧
    res.emission ⟨.python, "a"⟩ = .ok e ∧ e.placed = [tank, light] ∧
    tank.2.importName = "a.entities.country5.kind1.domain1.tank1" ∧
    light.2.segments = ["a", "entities", "country5", "kind1", "domain1", "tank"] ∧
    ¬ tank.2.Shadows .python light.2 := by
  have run : (Resolution.ofReader {} 4096 (.ofString lightTankDocument)).toOption.map (fun res =>
      (res.emission ⟨.python, "a"⟩).toOption.map fun e =>
        e.placed.map fun placed => (placed.2.importName, placed.2.segments)) =
      some (some [("a.entities.country5.kind1.domain1.tank1",
          ["a", "entities", "country5", "kind1", "domain1"]),
        ("a.entities.country5.kind1.domain1.tank.light",
          ["a", "entities", "country5", "kind1", "domain1", "tank"])]) := by decide +kernel
  obtain ⟨res, hres, planned⟩ := exists_ok_of_map run
  obtain ⟨e, he, placed⟩ := exists_ok_of_map planned
  obtain ⟨tank, rest, hplaced, tankAt, placed⟩ := List.map_eq_cons_iff.mp placed
  obtain ⟨light, rest, rfl, lightAt, placed⟩ := List.map_eq_cons_iff.mp placed
  obtain rfl := List.map_eq_nil_iff.mp placed
  have htank : tank ∈ e.placed := by simp [hplaced]
  have hlight : light ∈ e.placed := by simp [hplaced]
  obtain ⟨shadows, -⟩ := shadowed_namespaces hres he htank hlight
  exact ⟨res, e, tank, light, hres, he, hplaced, congrArg Prod.fst tankAt,
    congrArg Prod.snd lightAt, fun found => (shadows.mp found).1 rfl⟩

end EnumRegistry
