import EnumRegistry.Proofs.Result
import EnumRegistry.Registry.Reader
import EnumRegistry.TypeTable

/-!
What reading goes wrong with. Attributes are missing or no numbers, and documents are malformed or
end too early; classification trees have no part in it.
-/

namespace EnumRegistry

/-- An error of a classification tree. -/
def RegistryError.concernsTree : RegistryError → Prop
  | tree _ => True
  | _ => False

namespace Element

variable (e : Element) (name : String)

theorem int?_avoids : Avoids RegistryError.concernsTree (e.int? name) := by
  unfold int?
  split
  · exact avoids_ok _
  · split
    · exact avoids_ok _
    · exact avoids_error id

theorem required_avoids : Avoids RegistryError.concernsTree (e.required name) := by
  unfold required
  split
  · exact avoids_ok _
  · exact avoids_error id

theorem requiredInt_avoids : Avoids RegistryError.concernsTree (e.requiredInt name) := by
  refine avoids_bind (e.int?_avoids name) fun value _ => ?_
  cases value with
  | some value => exact avoids_ok value
  | none => exact avoids_error id

theorem value_avoids : Avoids RegistryError.concernsTree e.value := by
  refine avoids_bind (e.int?_avoids "value") fun value _ => ?_
  cases value with
  | some value => exact avoids_ok value
  | none => exact e.requiredInt_avoids "value_min"

end Element

namespace Reader

theorem step_avoids (n : Nesting) (p : Piece) : Avoids RegistryError.concernsTree (n.step p).1 := by
  unfold Nesting.step
  split
  · split
    · exact avoids_ok _
    · exact avoids_error id
  · split
    · exact avoids_error id
    · split
      · exact avoids_ok _
      · exact avoids_error id
  · exact avoids_ok _
  · exact avoids_ok _
  · exact avoids_error id

theorem eventsFrom_failure (n : Nesting) (pieces : List Piece) {err : RegistryError}
    (h : (eventsFrom n pieces).2 = some err) : ¬ err.concernsTree := by
  fun_induction eventsFrom n pieces with
  | case1 => cases h
  | case2 n e hend =>
    cases h
    unfold Nesting.atEnd at hend
    split at hend <;> cases hend
    exact id
  | case3 n piece pieces event nesting hstep events failure hrest ih =>
    rw [hrest] at ih
    exact ih h
  | case4 n piece pieces e nesting hstep =>
    cases h
    exact step_avoids n piece _ (by rw [hstep])

/-- What a document fails with is no matter of classification trees. -/
theorem events_failure {r : Reader} {err : RegistryError} (h : r.events.2 = some err) :
    ¬ err.concernsTree :=
  eventsFrom_failure r.nesting r.pieces h

end Reader

end EnumRegistry
