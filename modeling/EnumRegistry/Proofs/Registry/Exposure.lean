import EnumRegistry.Proofs.Building.Step
import EnumRegistry.Proofs.Registry.Forest

/-!
Where elements of a kind stand in a document. The rows that stand somewhere inside a declaration,
by their start tags, are those that stand inside nothing but plain elements and rows, by their end
tags, if plain elements alone hold rows.
-/

namespace EnumRegistry

/-- Whether an element is a row of an enumeration. -/
def ElementKind.isEnumerationRow : ElementKind → Bool
  | enumerationRow | enumerationRange => true
  | _ => false

theorem ElementKind.isEnumerationRow_of_isPlain {kind : ElementKind} (plain : kind.isPlain = true) :
    kind.isEnumerationRow = false := by
  cases kind <;> first | rfl | cases plain

theorem ElementKind.declaresType_of_isPlain {kind : ElementKind} (plain : kind.isPlain = true) :
    kind.declaresType = false := by
  cases kind <;> first | rfl | cases plain

namespace Forest

variable {p : ElementKind → Bool}

/-- No current element has a kind asked for. -/
def lacks (p : ElementKind → Bool) : Forest → Bool
  | nil => true
  | node e inside behind => (e.isDeprecated || (!p e.kind && inside.lacks p)) && behind.lacks p

/-- No current element of the inner kinds stands inside one of the outer kinds. -/
def separates (outer inner : ElementKind → Bool) : Forest → Bool
  | nil => true
  | node e inside behind =>
    (e.isDeprecated ||
      ((!outer e.kind || inside.lacks inner) && inside.separates outer inner)) &&
      behind.separates outer inner

/-- Current elements of a kind asked for stand inside plain elements only. -/
def exposes (p : ElementKind → Bool) : Forest → Bool := separates (fun kind => !kind.isPlain) p

/-- The current declarations that stand inside plain elements only, with what they hold. -/
def declared : Forest → List (Element × Forest)
  | nil => []
  | node e inside behind =>
    (if e.isDeprecated then []
      else if e.kind.isPlain then inside.declared
      else if e.kind.declaresType then [(e, inside)]
      else []) ++ behind.declared

/-- All current rows, in the order of their start tags. -/
def rowsStarted : Forest → List Element
  | nil => []
  | node e inside behind =>
    (if e.isDeprecated then []
      else (if e.kind.isEnumerationRow then [e] else []) ++ inside.rowsStarted) ++
      behind.rowsStarted

/-- The current rows that stand inside plain elements and rows only, in the order of their end
tags. -/
def rowsEnded : Forest → List Element
  | nil => []
  | node e inside behind =>
    (if e.isDeprecated then []
      else if e.kind.isPlain then inside.rowsEnded
      else if e.kind.isEnumerationRow then inside.rowsEnded ++ [e]
      else []) ++ behind.rowsEnded

theorem lacks_node {e : Element} {inside behind : Forest}
    (h : (node e inside behind).lacks p = true) :
    (e.isDeprecated = false → p e.kind = false ∧ inside.lacks p = true) ∧
      behind.lacks p = true := by
  simp only [lacks, Bool.and_eq_true, Bool.or_eq_true, Bool.not_eq_true'] at h
  refine ⟨fun current => ?_, h.2⟩
  simpa [current] using h.1

theorem exposes_node {e : Element} {inside behind : Forest}
    (h : (node e inside behind).exposes p = true) :
    (e.isDeprecated = false →
      if e.kind.isPlain then inside.exposes p = true else inside.lacks p = true) ∧
      behind.exposes p = true := by
  simp only [exposes, separates, Bool.and_eq_true, Bool.or_eq_true, Bool.not_not] at h ⊢
  refine ⟨fun current => ?_, h.2⟩
  obtain ⟨held, within⟩ : (e.kind.isPlain = true ∨ inside.lacks p = true) ∧
      inside.separates (fun kind => !kind.isPlain) p = true := by simpa [current] using h.1
  cases plain : e.kind.isPlain with
  | true => exact within
  | false => simpa [plain] using held

theorem rows_of_lacks {f : Forest} (h : f.lacks (·.isEnumerationRow) = true) :
    f.rowsStarted = [] ∧ f.rowsEnded = [] := by
  induction f with
  | nil => exact ⟨rfl, rfl⟩
  | node e inside behind ih_inside ih_behind =>
    obtain ⟨own, behind⟩ := lacks_node h
    obtain ⟨started, ended⟩ := ih_behind behind
    simp only [rowsStarted, rowsEnded, started, ended, List.append_nil]
    cases current : e.isDeprecated with
    | true => exact ⟨rfl, rfl⟩
    | false =>
      obtain ⟨noRow, inside⟩ := own current
      simp [noRow, ih_inside inside]

/-- Where plain elements alone hold rows, both ways to read them give the same. -/
theorem rowsStarted_of_exposes {f : Forest} (h : f.exposes (·.isEnumerationRow) = true) :
    f.rowsStarted = f.rowsEnded := by
  induction f with
  | nil => rfl
  | node e inside behind ih_inside ih_behind =>
    obtain ⟨own, behind⟩ := exposes_node h
    rw [rowsStarted, rowsEnded, ih_behind behind]
    congr 1
    cases current : e.isDeprecated with
    | true => rfl
    | false =>
      have own := own current
      cases plain : e.kind.isPlain with
      | true =>
        rw [plain, if_pos rfl] at own
        simp [ElementKind.isEnumerationRow_of_isPlain plain, ih_inside own]
      | false =>
        rw [plain, if_neg Bool.false_ne_true] at own
        obtain ⟨started, ended⟩ := rows_of_lacks own
        simp [started, ended]

end Forest

end EnumRegistry
