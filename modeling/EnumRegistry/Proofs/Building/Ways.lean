import EnumRegistry.Proofs.Building.Codes
import EnumRegistry.Proofs.Building.Step
import EnumRegistry.Proofs.Registry.Forest

/-!
What a document says of its trees: which elements are trees, which elements a tree takes in, each
with those it stands inside of, and the codes that are declared on the way down to it. None of it
refers to a tree that is built.
-/

namespace EnumRegistry

/-- Whether an element asks for a path. -/
def ElementKind.opensPath : ElementKind → Bool
  | entity | object => true
  | _ => false

/-- Whether an element is a node of a tree. -/
def ElementKind.isNode (kind : ElementKind) : Bool := kind.level?.isSome

theorem ElementKind.opensPath_of_isPlain {kind : ElementKind} (plain : kind.isPlain = true) :
    kind.opensPath = false ∧ kind.isNode = false := by
  cases kind <;> first | exact ⟨rfl, rfl⟩ | cases plain

theorem ElementKind.opensPath_of_isNode {kind : ElementKind} (node : kind.isNode = true) :
    kind.opensPath = false ∧ kind.isPlain = false := by
  cases kind <;> first | exact ⟨rfl, rfl⟩ | cases node

theorem ElementKind.isNode_of_opensPath {kind : ElementKind} (path : kind.opensPath = true) :
    kind.isNode = false ∧ kind.isPlain = false := by
  cases kind <;> first | exact ⟨rfl, rfl⟩ | cases path

namespace Hierarchy

/-- Where the codes of a path are read from, root first. -/
def pathAttributes : Hierarchy → List String
  | entityTypes => ["country", "kind", "domain"]
  | objectTypes => ["kind", "domain"]
  | jammerTechniques => []

/-- The codes of the path that an element asks for. -/
def pathCodes (hierarchy : Hierarchy) (e : Element) : Except RegistryError (List Int) :=
  hierarchy.pathAttributes.mapM e.requiredInt

/-- The codes of the path that one of some elements inside each other asks for, if one does. -/
def pathAlong (hierarchy : Hierarchy) (way : List Element) : Except RegistryError (List Int) :=
  match way.find? (·.kind.opensPath) with
  | none => .ok []
  | some e => hierarchy.pathCodes e

/-- The codes declared by elements inside each other, outermost first: those of the path and the
value of every node. -/
def codesAlong (hierarchy : Hierarchy) (way : List Element) : Except RegistryError (List Int) := do
  let path ← hierarchy.pathAlong way
  let values ← (way.filter (·.kind.isNode)).mapM Element.value
  return path ++ values

/-- Whether a tree takes an element in that stands inside others. A path is asked for where no path
or node is open. -/
def takes (hierarchy : Hierarchy) (way : List Element) (e : Element) : Bool :=
  !e.isDeprecated && (e.kind.isPlain || e.kind.isNode ||
    (e.kind.opensPath && !hierarchy.pathAttributes.isEmpty && way.all (·.kind.isPlain)))

variable {hierarchy : Hierarchy} {way : List Element} {e : Element}

theorem codesAlong_plain (plain : e.kind.isPlain = true) :
    hierarchy.codesAlong (way ++ [e]) = hierarchy.codesAlong way := by
  obtain ⟨noPath, noNode⟩ := ElementKind.opensPath_of_isPlain plain
  simp [codesAlong, pathAlong, noPath, noNode]

theorem codesAlong_node {codes : List Int} {value : Int} (node : e.kind.isNode = true)
    (above : hierarchy.codesAlong way = .ok codes) (own : e.value = .ok value) :
    hierarchy.codesAlong (way ++ [e]) = .ok (codes ++ [value]) := by
  obtain ⟨noPath, -⟩ := ElementKind.opensPath_of_isNode node
  simp only [codesAlong, bind_eq_ok, pure_eq_ok, Except.ok.injEq] at above ⊢
  obtain ⟨path, hpath, values, hvalues, rfl⟩ := above
  refine ⟨path, by simpa [pathAlong, noPath] using hpath, values ++ [value], ?_, by simp⟩
  rw [List.filter_append, List.filter_cons_of_pos (by simpa using node), List.filter_nil,
    List.mapM_append, hvalues]
  simp [own, bind, Except.bind]

/-- Inside plain elements the codes are those of the path alone. -/
theorem codesAlong_path (plain : way.all (·.kind.isPlain) = true)
    (path : e.kind.opensPath = true) :
    hierarchy.codesAlong (way ++ [e]) = hierarchy.pathCodes e := by
  have quiet (above : Element) (h : above ∈ way) :
      above.kind.opensPath = false ∧ above.kind.isNode = false :=
    ElementKind.opensPath_of_isPlain (List.all_eq_true.mp plain above h)
  have first : (way ++ [e]).find? (·.kind.opensPath) = some e := by
    rw [List.find?_append, List.find?_eq_none.mpr (fun above h => by simp [quiet above h]),
      Option.none_or, List.find?_cons_of_pos (by simpa using path)]
  have none : (way ++ [e]).filter (·.kind.isNode) = [] := by
    rw [List.filter_append, List.filter_eq_nil_iff.mpr (fun above h => by simp [quiet above h]),
      List.filter_cons_of_neg (by simp [(ElementKind.isNode_of_opensPath path).1]), List.filter_nil,
      List.append_nil]
  simp only [codesAlong, pathAlong, first, none, List.mapM_nil]
  cases hierarchy.pathCodes e <;> simp [bind, Except.bind]

end Hierarchy

namespace Forest

/-- The elements that a tree takes in, each after those it stands inside of, outermost first; in the
order of their start tags. -/
def taken (hierarchy : Hierarchy) (way : List Element) : Forest → List (List Element × Element)
  | nil => []
  | node e inside behind =>
    (if hierarchy.takes way e then (way, e) :: inside.taken hierarchy (way ++ [e]) else []) ++
      behind.taken hierarchy way

/-- The trees among the elements that nothing but plain elements hold, with what is inside. -/
def trees : Forest → List ((Hierarchy × String) × Forest)
  | nil => []
  | node e inside behind =>
    (if e.isDeprecated then []
      else if e.kind.isPlain then inside.trees
      else e.selectedTree?.toList.map (·, inside)) ++ behind.trees

end Forest

namespace TreeFrame

/-- The codes of an element's path are those of the steps it takes. -/
theorem pathSteps_codes {hierarchy : Hierarchy} {e : Element} {steps : List PathStep}
    (h : pathSteps hierarchy e = .ok (some steps)) :
    hierarchy.pathCodes e = .ok (steps.map (·.2)) ∧ hierarchy.pathAttributes ≠ [] ∧
      ∀ step ∈ steps.head?, step.1.level = hierarchy.rootLevel := by
  simp only [pathSteps, bind_eq_ok] at h
  obtain ⟨kind, hkind, domain, hdomain, h⟩ := h
  cases hierarchy with
  | entityTypes =>
    simp only [bind_eq_ok, pure_eq_ok, Except.ok.injEq, Option.some.injEq] at h
    obtain ⟨country, hcountry, rfl⟩ := h
    refine ⟨?_, List.cons_ne_nil _ _, by simp [LookupTable.level, Hierarchy.rootLevel]⟩
    simp [Hierarchy.pathCodes, Hierarchy.pathAttributes, hcountry, hkind, hdomain, bind,
      Except.bind]
  | objectTypes =>
    simp only [pure_eq_ok, Except.ok.injEq, Option.some.injEq] at h
    obtain rfl := h
    refine ⟨?_, List.cons_ne_nil _ _, by simp [LookupTable.level, Hierarchy.rootLevel]⟩
    simp [Hierarchy.pathCodes, Hierarchy.pathAttributes, hkind, hdomain, bind, Except.bind]
  | jammerTechniques => cases h

theorem pathSteps_eq_none {hierarchy : Hierarchy} {e : Element}
    (h : pathSteps hierarchy e = .ok none) : hierarchy.pathAttributes = [] := by
  simp only [pathSteps, bind_eq_ok] at h
  obtain ⟨kind, -, domain, -, h⟩ := h
  cases hierarchy with
  | entityTypes =>
    simp only [bind_eq_ok] at h
    obtain ⟨country, -, h⟩ := h
    cases h
  | objectTypes => cases h
  | jammerTechniques => rfl

theorem openPath_eq_none {types : TypeTable} {f : TreeFrame} {e : Element}
    (h : f.openPath types e = .ok none) :
    f.cursor ≠ [] ∨ f.tree.hierarchy.pathAttributes = [] := by
  unfold openPath at h
  cases hempty : f.cursor.isEmpty with
  | false => exact .inl (by simpa using hempty)
  | true =>
    simp only [hempty, Bool.not_true, Bool.false_eq_true, ↓reduceIte, bind_eq_ok,
      ofRegistry_eq_ok] at h
    obtain ⟨steps, hsteps, h⟩ := h
    cases steps with
    | none => exact .inr (pathSteps_eq_none hsteps)
    | some steps =>
      simp only [bind_eq_ok, Prod.exists, pure_eq_ok, Except.ok.injEq] at h
      obtain ⟨_, _, _, -, h⟩ := h
      cases h

end TreeFrame

end EnumRegistry
