import EnumRegistry.Proofs.Name.Containment
import EnumRegistry.Proofs.Satellite.Partition

/-!
Rows that are named anew. The rows of a satellite claim their names in an empty scope, which is
within whatever scope they claimed them in before; so no row can fail where it succeeded, and an
enumeration is cut exactly if its satellites find names for themselves.
-/

namespace EnumRegistry

namespace NameScope

/-- The last claims of a run are a run of their own. -/
theorem claimAll_drop {s t : NameScope} {bases names : List String}
    (h : s.claimAll bases = .ok (names, t)) (count : Nat) :
    ∃ u : NameScope, u.claimAll (bases.drop count) = .ok (names.drop count, t) := by
  induction bases generalizing s names count with
  | nil =>
    cases h
    exact ⟨t, by rw [List.drop_nil]; rfl⟩
  | cons base bases ih =>
    cases count with
    | zero => exact ⟨s, h⟩
    | succ count =>
      obtain ⟨name, between, rest, -, others, rfl⟩ := claimAll_cons_eq_ok.mp h
      exact ih others count

end NameScope

/-- The names of rows are those that their base names claim in order in some scope. -/
def RowsClaimed (rows : List EnumerationRow) : Prop :=
  ∃ s t : NameScope, s.claimAll (rows.map (·.baseName)) = .ok (rows.map (·.name), t)

namespace RowsClaimed

variable {rows : List EnumerationRow}

theorem take (h : RowsClaimed rows) (count : Nat) : RowsClaimed (rows.take count) := by
  obtain ⟨s, t, claims⟩ := h
  obtain ⟨u, claims⟩ := NameScope.claimAll_take claims count
  rw [← List.map_take, ← List.map_take] at claims
  exact ⟨s, u, claims⟩

theorem drop (h : RowsClaimed rows) (count : Nat) : RowsClaimed (rows.drop count) := by
  obtain ⟨s, t, claims⟩ := h
  obtain ⟨u, claims⟩ := NameScope.claimAll_drop claims count
  rw [← List.map_drop, ← List.map_drop] at claims
  exact ⟨u, t, claims⟩

theorem blocks (h : RowsClaimed rows) (size count : Nat) :
    ∀ block ∈ EnumRegistry.blocks size count rows, RowsClaimed block := by
  induction count generalizing rows with
  | zero => nofun
  | succ count ih =>
    intro block hblock
    rcases List.mem_cons.mp hblock with rfl | hblock
    · exact h.take size
    · exact ih (h.drop size) block hblock

end RowsClaimed

/-- A row under a spelling of its base name whose number is not larger than it was. -/
structure Renamed (row old : EnumerationRow) : Prop where
  shared : row = { old with name := row.name }
  notLater : NameScope.NotLater old.baseName row.name old.name

namespace Enumeration

/-- Rows can be named in a scope that is within one they were named in before. -/
theorem rename_within {s t t' : NameScope} {rows : List EnumerationRow} (h : s.Within t)
    (claims : t.claimAll (rows.map (·.baseName)) = .ok (rows.map (·.name), t')) :
    ∃ renamed, rename s rows = .ok renamed ∧ List.Forall₂ Renamed renamed rows := by
  induction rows generalizing s t with
  | nil => exact ⟨[], rfl, .nil⟩
  | cons row rows ih =>
    obtain ⟨second, between, rest, claimed, others, same⟩ :=
      NameScope.claimAll_cons_eq_ok.mp claims
    obtain ⟨rfl, rfl⟩ := List.cons.inj same
    obtain ⟨first, between', claimed', notLater, h⟩ := h.claim claimed
    obtain ⟨renamed, hrenamed, each⟩ := ih h others
    refine ⟨{ row with name := first } :: renamed, ?_, .cons ⟨rfl, notLater⟩ each⟩
    rw [rename, claimed']
    exact bind_eq_ok.mpr ⟨(first, between'), rfl, bind_eq_ok.mpr ⟨renamed, hrenamed, rfl⟩⟩

/-- An empty scope is within all others. -/
theorem rename_of_claimed {rows : List EnumerationRow} (h : RowsClaimed rows) :
    ∃ renamed, rename {} rows = .ok renamed ∧ List.Forall₂ Renamed renamed rows := by
  obtain ⟨s, t, claims⟩ := h
  exact rename_within s.empty_within claims

/-- What becomes of satellites is what becomes of the claims of their names. -/
theorem satellites_claims (e : Enumeration) (types : NameScope) (ordinal : Nat)
    {rest : List (List EnumerationRow)} (claimed : ∀ block ∈ rest, RowsClaimed block) :
    ((e.satellites types ordinal rest).map fun made => (made.1.map (·.name), made.2)) =
      types.claimAll (e.satelliteBases ordinal rest.length) := by
  induction rest generalizing types ordinal with
  | nil => rfl
  | cons block rest ih =>
    have bases : e.satelliteBases ordinal (rest.length + 1) =
        (e.name ++ satelliteMark ordinal) :: e.satelliteBases (ordinal + 1) rest.length := rfl
    obtain ⟨rows, renamed, -⟩ := rename_of_claimed (claimed block List.mem_cons_self)
    rw [List.length_cons, bases, satellites, NameScope.claimAll]
    cases types.claim (e.name ++ satelliteMark ordinal) with
    | error failure => rfl
    | ok first =>
      obtain ⟨name, between⟩ := first
      have others := ih between (ordinal + 1) (List.forall_mem_cons.mp claimed).2
      simp only [renamed, ← others, bind, Except.bind]
      cases e.satellites between (ordinal + 1) rest <;> rfl

/-- The rows of satellites are those of their blocks, named anew. -/
theorem satellites_renamed {e : Enumeration} {parts : List Enumeration}
    {rest : List (List EnumerationRow)} (claimed : ∀ block ∈ rest, RowsClaimed block)
    (made : List.Forall₂ e.SatelliteFor parts rest) :
    List.Forall₂ Renamed (parts.flatMap (·.rows)) rest.flatten := by
  induction made with
  | nil => exact .nil
  | @cons part block parts rest one others ih =>
    obtain ⟨rows, renamed, each⟩ := rename_of_claimed (claimed block List.mem_cons_self)
    cases one.renamed.symm.trans renamed
    rw [List.flatMap_cons, List.flatten_cons]
    exact List.rel_append each (ih (List.forall_mem_cons.mp claimed).2)

theorem furtherBlocks_flatten (e : Enumeration) {size : Nat} (positive : 0 < size) :
    (e.furtherBlocks size).flatten = e.rows.drop size := by
  refine flatten_blocks ?_
  rw [List.length_drop, Nat.ceilDiv_eq_add_pred_div]
  exact le_mul_blocks _ positive

/-- Claims that succeed in a scope succeed in any that is within it, with numbers that are not
larger, and leave the one within the other. So an enumeration whose rows were named in one scope is
cut exactly if its satellites find names for themselves: no row fails there, and none gets a larger
number than it had. -/
theorem splitting_spares_rows :
    (∀ base, Function.Injective (NameScope.spelling base)) ∧
    (∀ (s t t' : NameScope) (bases seconds : List String), s.Within t →
      t.claimAll bases = .ok (seconds, t') →
      ∃ firsts s', s.claimAll bases = .ok (firsts, s') ∧
        NameScope.NoneLater bases firsts seconds ∧ s'.Within t') ∧
    ∀ (e : Enumeration) (ceiling : Nat) (types : NameScope), RowsClaimed e.rows →
      ((e.split ceiling types).map fun cut => (cut.1.tail.map (·.name), cut.2)) =
        types.claimAll
          (e.satelliteBases 1 ((e.rows.length - max ceiling 1) ⌈/⌉ max ceiling 1)) ∧
      ∀ parts types', e.split ceiling types = .ok (parts, types') →
        (∃ part, parts.head? = some part ∧ part.rows = e.rows.take (max ceiling 1)) ∧
        List.Forall₂ Renamed (parts.tail.flatMap (·.rows)) (e.rows.drop (max ceiling 1)) := by
  refine ⟨NameScope.spelling_injective, fun _ _ _ _ _ within => within.claimAll, ?_⟩
  intro e ceiling types rows
  have positive : 0 < max ceiling 1 := by omega
  rw [split_eq]
  generalize max ceiling 1 = size at *
  have claimed : ∀ block ∈ e.furtherBlocks size, RowsClaimed block :=
    (rows.drop size).blocks size _
  constructor
  · have claims := e.satellites_claims types 1 claimed
    rw [furtherBlocks, length_blocks] at claims
    rw [← claims, furtherBlocks]
    cases e.satellites types 1 _ <;> rfl
  · intro parts types' h
    obtain ⟨⟨satellites, _⟩, made, same⟩ := map_eq_ok.mp h
    cases same
    refine ⟨⟨_, rfl, rfl⟩, ?_⟩
    rw [← e.furtherBlocks_flatten positive]
    exact satellites_renamed claimed (satellites_made made).1

/-- The rows behind the second had the numbers two to four and get those from none to two. -/
theorem spares_renamed : RowsClaimed spares.rows ∧ ∃ parts types',
    spares.split 2 {} = .ok (parts, types') ∧
    (parts.tail.flatMap (·.rows)).map (·.name) = ["Spare", "Spare1", "Spare"] ∧
    List.Forall₂ Renamed (parts.tail.flatMap (·.rows)) (spares.rows.drop 2) := by
  have named : (NameScope.claimAll {} (spares.rows.map (·.baseName))).toOption.map (·.1) =
      some (spares.rows.map (·.name)) := by
    decide +kernel
  have run : (spares.split 2 {}).toOption.map
      (fun cut => (cut.1.tail.flatMap (·.rows)).map (·.name)) =
      some ["Spare", "Spare1", "Spare"] := by
    decide +kernel
  obtain ⟨⟨_, scope⟩, claims, rfl⟩ := exists_ok_of_map named
  obtain ⟨⟨parts, types'⟩, cut, names⟩ := exists_ok_of_map run
  have claimed : RowsClaimed spares.rows := ⟨_, _, claims⟩
  have spared := (splitting_spares_rows.2.2 spares 2 {} claimed).2 parts types' cut
  exact ⟨claimed, parts, types', cut, names, spared.2⟩

end Enumeration

end EnumRegistry
