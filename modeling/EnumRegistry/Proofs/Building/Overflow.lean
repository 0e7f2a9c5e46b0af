import EnumRegistry.Proofs.Building.Findings
import EnumRegistry.Proofs.Building.Layout

/-!
Bitfields that overflow. Nothing but a finished bitfield gives a finding of this kind, and the
bitfields of a model have different UIDs, so that the finding of each is told from the others.
-/

namespace EnumRegistry

/-! ## Findings of a walk -/

/-- Findings about single texts and references, such as rows, nodes and path segments give. -/
def Diagnostic.OfTexts (found : List Diagnostic) : Prop :=
  ∀ d ∈ found, d.kind = .malformedText ∨ d.kind = .unresolvedReference

/-- The findings about rows that do not fit. -/
def Diagnostic.misfits (found : List Diagnostic) : List Diagnostic :=
  found.filter (·.kind == .bitfieldOverflow)

open Diagnostic (OfTexts misfits)

theorem Diagnostic.misfits_append (found more : List Diagnostic) :
    misfits (found ++ more) = misfits found ++ misfits more :=
  List.filter_append ..

theorem Diagnostic.misfits_eq_nil {found : List Diagnostic}
    (others : ∀ d ∈ found, d.kind ≠ .bitfieldOverflow) : misfits found = [] :=
  List.filter_eq_nil_iff.mpr fun d hd own => others d hd (beq_iff_eq.mp own)

theorem Diagnostic.OfTexts.append {found more : List Diagnostic} (h : OfTexts found)
    (h' : OfTexts more) : OfTexts (found ++ more) := fun d hd =>
  (List.mem_append.mp hd).elim (h d) (h' d)

theorem Diagnostic.OfTexts.misfits {found : List Diagnostic} (h : OfTexts found) :
    misfits found = [] :=
  misfits_eq_nil fun d hd => by rcases h d hd with other | other <;> simp [other]

namespace TreeFrame

variable {f f' : TreeFrame} {found : List Diagnostic}

end TreeFrame

namespace Builder

variable {t : NameTables} {ceiling : Nat} {b b' : Builder}

/-- The findings about rows that do not fit are those of the bitfields built so far. -/
def MisfitsBuilt (b : Builder) : Prop :=
  misfits b.found = b.model.bitfields.flatMap (·.findings)

theorem MisfitsBuilt.more {found : List Diagnostic} (h : b.MisfitsBuilt)
    (texts : OfTexts found) :
    misfits (b.found ++ found) = b.model.bitfields.flatMap (·.findings) := by
  rw [Diagnostic.misfits_append, texts.misfits, List.append_nil, h]

end Builder

/-! ## Findings of a bitfield -/

/-- No two of the declarations that are built have one UID. -/
theorem TypeTable.accepted_uids (t : TypeTable) (declared : List (Element × Forest)) :
    ((t.accepted declared).map (·.1.uid?)).Nodup := by
  induction declared with
  | nil => exact List.nodup_nil
  | cons first rest ih =>
    rw [accepted]
    split
    · rw [List.map_cons, List.nodup_cons]
      refine ⟨?_, ih.sublist (List.filter_sublist.map _)⟩
      simp
    · exact ih

/-- The bitfields built have different UIDs. -/
theorem Builder.LaidOut.uids {t : NameTables} {done : List (Element × Forest)} {b : Builder}
    (h : b.LaidOut t done) : (b.model.bitfields.map (·.uid)).Nodup := by
  have same : (b.model.bitfields.map (·.uid)).map some =
      ((t.types.accepted done).filter (·.1.kind == .bitfield)).map (·.1.uid?) := by
    have laid := h.bitfields
    generalize (t.types.accepted done).filter (·.1.kind == .bitfield) = built at laid ⊢
    generalize b.model.bitfields = types at laid ⊢
    induction laid with
    | nil => rfl
    | cons first behind ih => simp only [List.map_cons, ih, first.uid]
  refine List.Nodup.of_map some ?_
  rw [same]
  exact (t.types.accepted_uids done).sublist (List.filter_sublist.map _)

namespace Bitfield

end Bitfield

theorem Survey.Tallies.misfits {done : List String} {s : Survey} (h : s.Tallies done) :
    misfits s.found = [] :=
  Diagnostic.misfits_eq_nil fun d hd => by rcases h.others d hd with other | other <;> simp [other]

end EnumRegistry
