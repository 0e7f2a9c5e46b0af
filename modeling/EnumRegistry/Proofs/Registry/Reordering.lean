import EnumRegistry.Proofs.Building.Declarations
import EnumRegistry.Proofs.Registry.Wrapping
import EnumRegistry.Proofs.Survey.Declarations

/-!
Documents that hold declarations and nothing else. Which types are declared in one, and what each
declaration holds, is read off the declarations one by one; so it does not depend on their order.
-/

namespace EnumRegistry

/-- The UID that an element declares, with what its type is to be called. -/
def Element.given (overrides : Overrides) (e : Element) : List (String × String) :=
  (e.typeUid?.map fun uid => (uid, Survey.typeBase overrides uid e)).toList

theorem Element.given_of_isPlain {overrides : Overrides} {e : Element}
    (plain : e.kind.isPlain = true) : e.given overrides = [] := by
  rw [given, typeUid?, ElementKind.declaresType_of_isPlain plain]
  rfl

namespace Forest

/-- The UIDs of all current type declarations in document order, with what each type is to be
called. -/
def bases (overrides : Overrides) : Forest → List (String × String)
  | nil => []
  | node e inside behind =>
    (if e.isDeprecated then [] else e.given overrides ++ inside.bases overrides) ++
      behind.bases overrides

/-- Outside of type declarations all current elements are plain. -/
def declaresOnly : Forest → Bool
  | nil => true
  | node e inside behind =>
    (e.isDeprecated || (if e.kind.isPlain then inside.declaresOnly else e.kind.declaresType)) &&
      behind.declaresOnly

theorem declaresOnly_node {e : Element} {inside behind : Forest}
    (h : (node e inside behind).declaresOnly = true) :
    (e.isDeprecated = false →
      if e.kind.isPlain then inside.declaresOnly = true else e.kind.declaresType = true) ∧
      behind.declaresOnly = true := by
  simp only [declaresOnly, Bool.and_eq_true, Bool.or_eq_true] at h
  refine ⟨fun current => ?_, h.2⟩
  have own : (if e.kind.isPlain then inside.declaresOnly else e.kind.declaresType) = true := by
    simpa [current] using h.1
  split
  · rwa [if_pos ‹_›] at own
  · rwa [if_neg ‹_›] at own

variable {overrides : Overrides}

theorem bases_current {e : Element} {inside behind : Forest} (current : e.isDeprecated = false)
    (given : List (String × String)) : given ++ (node e inside behind).bases overrides =
      given ++ e.given overrides ++ inside.bases overrides ++ behind.bases overrides := by
  rw [bases, current, if_neg Bool.false_ne_true]
  simp only [List.append_assoc]

section
variable {e : Element} {inside behind : Forest}

theorem declaresOnly_behind : (node e inside behind).declaresOnly = true ↔
    (node e inside nil).declaresOnly = true ∧ behind.declaresOnly = true := by
  simp only [declaresOnly, Bool.and_eq_true, and_true]

theorem declared_behind :
    (node e inside behind).declared = (node e inside nil).declared ++ behind.declared := by
  rw [declared, declared, declared, List.append_nil]

theorem bases_behind : (node e inside behind).bases overrides =
    (node e inside nil).bases overrides ++ behind.bases overrides := by
  rw [bases, bases, bases, List.append_nil]

end

/-- Of declarations beside each other it is told which stand there. -/
theorem declared_beside (f g : Forest) : (f.beside g).declared = f.declared ++ g.declared := by
  induction f with
  | nil => rfl
  | node e inside behind _ ih =>
    rw [beside, declared_behind, ih, ← List.append_assoc, ← declared_behind]

/-- The types of a document that holds declarations only are those of its declarations. -/
theorem bases_eq {f : Forest} (h : f.declaresOnly = true) : f.bases overrides =
    f.declared.flatMap fun d => d.1.given overrides ++ d.2.bases overrides := by
  induction f with
  | nil => rfl
  | node e inside behind ih_inside ih_behind =>
    obtain ⟨own, others⟩ := declaresOnly_node h
    rw [bases, declared, List.flatMap_append, ih_behind others]
    congr 1
    by_cases deprecated : e.isDeprecated = true
    · rw [if_pos deprecated, if_pos deprecated]
      rfl
    · have own := own (Bool.not_eq_true _ ▸ deprecated)
      rw [if_neg deprecated, if_neg deprecated]
      by_cases plain : e.kind.isPlain = true
      · rw [if_pos plain] at own
        rw [if_pos plain, Element.given_of_isPlain plain, List.nil_append, ih_inside own]
      · rw [if_neg plain] at own
        rw [if_neg plain, if_pos own, List.flatMap_singleton]

/-- The order of declarations does not change which types there are. -/
theorem bases_perm {f f' : Forest} (h : f.declaresOnly = true) (h' : f'.declaresOnly = true)
    (permuted : f'.declared.Perm f.declared) :
    (f'.bases overrides).Perm (f.bases overrides) := by
  rw [bases_eq h, bases_eq h']
  exact permuted.flatMap_right _

theorem mem_declared {f : Forest} {d : Element × Forest} (h : d ∈ f.declared) :
    d.1.isDeprecated = false ∧ d.1.kind.declaresType = true := by
  induction f with
  | nil => cases h
  | node e inside behind ih_inside ih_behind =>
    rw [declared, List.mem_append] at h
    rcases h with own | others
    · split at own
      · cases own
      · split at own
        · exact ih_inside own
        · split at own
          · obtain rfl := List.mem_singleton.mp own
            exact ⟨Bool.not_eq_true _ |>.mp ‹_›, ‹_›⟩
          · cases own
    · exact ih_behind others

/-- The UIDs of declarations are some of those in the document. -/
theorem declared_uids {f : Forest} (only : f.declaresOnly = true) :
    (f.declared.filterMap (·.1.uid?)).Sublist ((f.bases overrides).map (·.1)) := by
  have types : ∀ d ∈ f.declared, d.1.kind.declaresType = true := fun _ h => (mem_declared h).2
  rw [bases_eq only]
  generalize f.declared = ds at types ⊢
  induction ds with
  | nil => exact List.Sublist.refl []
  | cons d ds ih =>
    have own : d.1.uid?.toList = (d.1.given overrides).map (·.1) := by
      rw [Element.given, Element.typeUid?, if_pos (types d List.mem_cons_self)]
      cases d.1.uid? <;> rfl
    have split : (d :: ds).filterMap (·.1.uid?) =
        d.1.uid?.toList ++ ds.filterMap (·.1.uid?) := by
      rw [List.filterMap_cons]
      cases d.1.uid? <;> rfl
    rw [split, own, List.flatMap_cons, List.map_append, List.map_append]
    refine (List.sublist_append_left _ _).append (ih fun other member => ?_)
    exact types other (List.mem_cons_of_mem d member)

end Forest

end EnumRegistry
