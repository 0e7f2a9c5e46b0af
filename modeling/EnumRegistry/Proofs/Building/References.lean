import EnumRegistry.Proofs.Building.Step
import EnumRegistry.Proofs.Building.TypeFrame

/-!
References of rows. Whatever a row refers to is looked up in the survey when the row is added, and
neither splitting an enumeration nor finishing a type touches it.
-/

namespace EnumRegistry

/-- A reference is the one that the survey gives for its UID. -/
def CrossReference.IsFrom (t : TypeTable) (reference : CrossReference) : Prop :=
  reference = t.reference reference.uid

theorem TypeTable.reference_isFrom (t : TypeTable) (uid : Option String) :
    ∀ reference ∈ uid.map t.reference, reference.IsFrom t := by
  intro reference h
  obtain ⟨uid, -, rfl⟩ := Option.map_eq_some_iff.mp h
  rw [CrossReference.IsFrom, t.uid_reference]

namespace Enumeration

def references (e : Enumeration) : List CrossReference := e.rows.filterMap (·.reference)

theorem split_references {e : Enumeration} {ceiling : Nat} {types types' : NameScope}
    {parts : List Enumeration} (h : e.split ceiling types = .ok (parts, types')) :
    ∀ part ∈ parts, ∀ reference ∈ part.references, reference ∈ e.references := by
  intro part hpart reference href
  have same : (parts.flatMap (·.rows)).map (·.reference) = e.rows.map (·.reference) :=
    split_rows (fun _ _ => rfl) h
  obtain ⟨row, hrow, hreference⟩ := List.mem_filterMap.mp href
  have hmem : some reference ∈ (parts.flatMap (·.rows)).map (·.reference) :=
    List.mem_map.mpr ⟨row, List.mem_flatMap.mpr ⟨part, hpart, hrow⟩, hreference⟩
  rw [same] at hmem
  obtain ⟨row, hrow, hreference⟩ := List.mem_map.mp hmem
  exact List.mem_filterMap.mpr ⟨row, hrow, hreference⟩

end Enumeration

def Bitfield.references (b : Bitfield) : List CrossReference := b.rows.filterMap (·.reference)

/-- What the rows of an open type refer to; those of a dictionary refer to nothing. -/
def TypeFrame.references : TypeFrame → List CrossReference
  | enumeration type _ => type.references
  | bitfield type _ => type.references
  | dictionary _ _ => []

/-- What the rows of enumerations and bitfields refer to. -/
def Model.references (m : Model) : List CrossReference :=
  m.enumerations.flatMap (·.references) ++ m.bitfields.flatMap (·.references)

namespace TypeFrame

theorem Opens.references {e : Element} {uid name : String} {frame : TypeFrame}
    (h : Opens e uid name frame) : frame.references = [] := by
  cases h <;> rfl

/-- The reference of a row that is added is looked up in the survey. -/
theorem Added.references {t : NameTables} {e : Element} {frame frame' : TypeFrame}
    (h : Added t e frame frame')
    (old : ∀ reference ∈ frame.references, reference.IsFrom t.types) :
    ∀ reference ∈ frame'.references, reference.IsFrom t.types := by
  cases h with
  | enumeration _ referred | bitfield _ referred =>
    intro reference href
    obtain ⟨row, hrow, hreference⟩ := List.mem_filterMap.mp href
    rcases List.mem_append.mp hrow with hrow | hrow
    · exact old reference (List.mem_filterMap.mpr ⟨row, hrow, hreference⟩)
    · obtain rfl := List.mem_singleton.mp hrow
      exact t.types.reference_isFrom _ reference (referred ▸ hreference)
  | dictionary => exact old

end TypeFrame

namespace Builder

/-- All references, of finished types and of the open one, are from the survey. -/
structure Referring (t : NameTables) (b : Builder) : Prop where
  current : ∀ frame, b.current = some frame →
    ∀ reference ∈ frame.references, reference.IsFrom t.types
  model : ∀ reference ∈ b.model.references, reference.IsFrom t.types

theorem entered_referring {t : NameTables} {b b' : Builder} {e : Element} (hb : b.Referring t)
    (h : Entered t b e b') : b'.Referring t := by
  cases h with
  | type idle declares identified named fresh opens =>
    refine ⟨?_, hb.model⟩
    intro frame hframe
    cases hframe
    simp [(TypeFrame.open?_opens opens).references]
  | row | tree | path | node | other => exact ⟨hb.current, hb.model⟩

theorem left_referring {t : NameTables} {ceiling : Nat} {b b' : Builder} (hb : b.Referring t)
    (h : Left t ceiling b b') : b'.Referring t := by
  cases h with
  | outside | other | node | path | tree | noType | noTree => exact ⟨hb.current, hb.model⟩
  | row opened current added =>
    refine ⟨?_, hb.model⟩
    intro frame hframe
    cases hframe
    exact (TypeFrame.addRow_added added).references (hb.current _ current)
  | enumeration opened current split =>
    refine ⟨nofun, ?_⟩
    intro reference href
    simp only [Model.references, List.flatMap_append, List.mem_append] at href
    rcases href with (href | href) | href
    · exact hb.model reference (List.mem_append_left _ href)
    · obtain ⟨part, hpart, href⟩ := List.mem_flatMap.mp href
      exact hb.current _ current reference
        (Enumeration.split_references split part hpart reference href)
    · exact hb.model reference (List.mem_append_right _ href)
  | bitfield opened current =>
    refine ⟨nofun, ?_⟩
    intro reference href
    simp only [Model.references, note, List.flatMap_append, List.mem_append] at href
    rcases href with href | href | href
    · exact hb.model reference (List.mem_append_left _ href)
    · exact hb.model reference (List.mem_append_right _ href)
    · rw [List.flatMap_singleton] at href
      exact hb.current _ current reference href
  | dictionary => exact ⟨nofun, hb.model⟩

theorem ofReader_referring {t : NameTables} {ceiling : Nat} {r : Reader} {b : Builder}
    (h : ofReader t ceiling r = .ok b) : b.Referring t := by
  refine (walk_keeps (fun _ => entered_referring) left_referring).run ?_
    (Walk.through_eq_ok.mp h).2
  exact ⟨nofun, by simp [ofTable, Model.references]⟩

end Builder

end EnumRegistry
