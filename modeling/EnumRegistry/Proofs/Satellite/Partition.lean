import EnumRegistry.Proofs.Name.Requests
import EnumRegistry.Proofs.Satellite
import Mathlib.Algebra.Order.Floor.Div

/-!
How an enumeration is cut. Its parts hold all its rows in order, each part but the last as many as
fit, and are what the enumeration is but for their names; the names of the satellites are claimed
one after the other in the scope of types, which gains those and no other.
-/

namespace EnumRegistry

/-! ## Blocks -/

section
variable {α : Type} {size count : Nat} {xs : List α}

theorem length_blocks : (blocks size count xs).length = count := by
  induction count generalizing xs with
  | zero => rfl
  | succ count ih => rw [blocks, List.length_cons, ih]

theorem length_le_of_mem_blocks : ∀ block ∈ blocks size count xs, block.length ≤ size := by
  induction count generalizing xs with
  | zero => nofun
  | succ count ih =>
    intro block hblock
    rcases List.mem_cons.mp hblock with rfl | hblock
    · rw [List.length_take]
      exact Nat.min_le_left _ _
    · exact ih block hblock

/-- Where all blocks but the last can be filled, they are. -/
theorem length_of_mem_dropLast_blocks (enough : size * (count - 1) ≤ xs.length) :
    ∀ block ∈ (blocks size count xs).dropLast, block.length = size := by
  induction count generalizing xs with
  | zero => nofun
  | succ count ih =>
    intro block hblock
    cases count with
    | zero => cases hblock
    | succ count =>
      have more : size * (count + 1) = size * count + size := Nat.mul_succ size count
      rw [Nat.add_sub_cancel, more] at enough
      rcases List.mem_cons.mp hblock with rfl | hblock
      · rw [List.length_take]
        omega
      · refine ih ?_ block hblock
        rw [Nat.add_sub_cancel, List.length_drop]
        omega

end

namespace Enumeration

/-! ## Satellites -/

/-- The blocks of rows behind the first, if an enumeration is cut at a size. -/
def furtherBlocks (e : Enumeration) (size : Nat) : List (List EnumerationRow) :=
  blocks size ((e.rows.length - size) ⌈/⌉ size) (e.rows.drop size)

/-- An enumeration that fits has no further block, so all are cut alike. -/
theorem split_eq (e : Enumeration) (ceiling : Nat) (types : NameScope) :
    e.split ceiling types = (e.satellites types 1 (e.furtherBlocks (max ceiling 1))).map
      fun others => ({ e with rows := e.rows.take (max ceiling 1) } :: others.1, others.2) := by
  unfold split furtherBlocks
  have positive : 0 < max ceiling 1 := by omega
  dsimp only
  split
  · rename_i fits
    rw [Nat.sub_eq_zero_of_le fits, Nat.ceilDiv_eq_add_pred_div, Nat.zero_add,
      Nat.div_eq_of_lt (by omega), List.take_of_length_le fits]
    rfl
  · rw [List.length_drop, Nat.ceilDiv_eq_add_pred_div]
    cases e.satellites types 1 _ <;> rfl

/-- The names that the satellites for some blocks ask for, the first of them having an ordinal. -/
def satelliteBases (e : Enumeration) (ordinal count : Nat) : List String :=
  (List.range' ordinal count).map fun k => e.name ++ satelliteMark k

/-- A part that is what an enumeration is but for its name and rows, the rows being those of a block
named anew. -/
structure SatelliteFor (e part : Enumeration) (block : List EnumerationRow) : Prop where
  shared : part = { e with name := part.name, rows := part.rows }
  renamed : rename {} block = .ok part.rows

theorem satellites_made {e : Enumeration} {types types' : NameScope} {ordinal : Nat}
    {rest : List (List EnumerationRow)} {parts : List Enumeration}
    (h : e.satellites types ordinal rest = .ok (parts, types')) :
    List.Forall₂ e.SatelliteFor parts rest ∧
      types.claimAll (e.satelliteBases ordinal rest.length) =
        .ok (parts.map (·.name), types') := by
  induction rest generalizing types ordinal parts with
  | nil =>
    cases h
    exact ⟨.nil, rfl⟩
  | cons block rest ih =>
    obtain ⟨name, between, rows, others, claimed, renamed, hothers, rfl⟩ := satellites_cons_eq_ok h
    obtain ⟨made, claims⟩ := ih hothers
    refine ⟨.cons ⟨rfl, renamed⟩ made, ?_⟩
    exact NameScope.claimAll_cons_eq_ok.mpr ⟨name, between, _, claimed, claims, rfl⟩

theorem SatelliteFor.length {e part : Enumeration} {block : List EnumerationRow}
    (h : e.SatelliteFor part block) : part.rows.length = block.length := by
  have same : part.rows.map (fun _ => ()) = block.map fun _ => () :=
    rename_rows (fun _ _ => rfl) h.renamed
  simpa using congrArg List.length same

theorem lengths_of_made {e : Enumeration} {parts : List Enumeration}
    {rest : List (List EnumerationRow)} (made : List.Forall₂ e.SatelliteFor parts rest) :
    parts.map (·.rows.length) = rest.map List.length := by
  induction made with
  | nil => rfl
  | cons one others ih => rw [List.map_cons, List.map_cons, one.length, ih]

theorem shared_of_made {e : Enumeration} {parts : List Enumeration}
    {rest : List (List EnumerationRow)} (made : List.Forall₂ e.SatelliteFor parts rest) :
    ∀ part ∈ parts, part = { e with name := part.name, rows := part.rows } := by
  induction made with
  | nil => nofun
  | cons one others ih => exact List.forall_mem_cons.mpr ⟨one.shared, ih⟩

/-! ## Parts -/

/-- What an enumeration is cut into at a size, the names of types being those in a scope before and
those in another behind. -/
structure Partition (e : Enumeration) (size : Nat) (types types' : NameScope)
    (parts : List Enumeration) : Prop where
  count : parts.length = max 1 (e.rows.length ⌈/⌉ size)
  shared : ∀ part ∈ parts, part = { e with name := part.name, rows := part.rows }
  first : parts.head? = some { e with rows := e.rows.take size }
  rows : (parts.flatMap (·.rows)).map ({ · with name := "" }) = e.rows.map ({ · with name := "" })
  full : ∀ part ∈ parts.dropLast, part.rows.length = size
  fits : ∀ part ∈ parts, part.rows.length ≤ size
  apart : (parts.tail.map fun part => lookupKey part.name).Nodup
  fresh : ∀ part ∈ parts.tail, types.contains part.name = false
  grown : ∀ key, key ∈ types'.taken ↔
    key ∈ types.taken ∨ ∃ part ∈ parts.tail, lookupKey part.name = key
  added : types'.size = types.size + parts.tail.length

/-- All but the last of some lists of known lengths are as long as all but the last of others. -/
theorem exists_of_mem_dropLast {parts : List Enumeration} {blocks : List (List EnumerationRow)}
    (lengths : parts.map (·.rows.length) = blocks.map List.length) {part : Enumeration}
    (h : part ∈ parts.dropLast) : ∃ block ∈ blocks.dropLast, block.length = part.rows.length := by
  have counted : part.rows.length ∈ (parts.map (·.rows.length)).dropLast := by
    rw [← List.map_dropLast]
    exact List.mem_map.mpr ⟨part, h, rfl⟩
  rw [lengths, ← List.map_dropLast] at counted
  exact List.mem_map.mp counted

/-- There are as many parts as there are blocks of the size, and one if there are no rows. -/
theorem count_blocks (length : Nat) {size : Nat} (positive : 0 < size) :
    (length - size) ⌈/⌉ size + 1 = max 1 (length ⌈/⌉ size) := by
  simp only [Nat.ceilDiv_eq_add_pred_div]
  rcases Nat.lt_or_ge size length with more | fits
  · have shorter : length + size - 1 = length - size + size - 1 + size := by omega
    rw [shorter, Nat.add_div_right _ positive]
    exact (max_eq_right (Nat.le_add_left 1 _)).symm
  · have none : (length - size + size - 1) / size = 0 := Nat.div_eq_of_lt (by omega)
    have one : (length + size - 1) / size ≤ 1 := by
      rw [← Nat.lt_succ_iff, Nat.div_lt_iff_lt_mul positive]
      omega
    omega

/-- All blocks but the last are filled, the first if there are others. -/
theorem furtherBlocks_full (e : Enumeration) {size : Nat} (positive : 0 < size) :
    ∀ block ∈ (e.rows.take size :: e.furtherBlocks size).dropLast, block.length = size := by
  have ceil := Nat.ceilDiv_eq_add_pred_div (e.rows.length - size) size
  have enough : size * ((e.rows.length - size) ⌈/⌉ size - 1) ≤ (e.rows.drop size).length := by
    have whole := Nat.div_mul_le_self (e.rows.length - size + size - 1) size
    rw [List.length_drop, ceil, Nat.mul_sub, Nat.mul_comm]
    omega
  intro block hblock
  unfold furtherBlocks at hblock
  cases count : (e.rows.length - size) ⌈/⌉ size with
  | zero =>
    rw [count] at hblock
    cases hblock
  | succ more =>
    have oversized : size ≤ e.rows.length := by
      by_contra fits
      rw [ceil, Nat.div_eq_of_lt (by omega)] at count
      cases count
    rw [count] at hblock enough
    rcases List.mem_cons.mp hblock with rfl | hblock
    · rw [List.length_take, Nat.min_eq_left oversized]
    · exact length_of_mem_dropLast_blocks enough block hblock

/-- The parts of an enumeration hold all its rows in their order, with other names only in the
satellites, each part but the last as many as fit. They share what else the enumeration is, the
first its name too; the names of the satellites are claimed in the scope of types, which gains them
and no other. -/
theorem split_partitions {e : Enumeration} {ceiling : Nat} {types types' : NameScope}
    {parts : List Enumeration} (h : e.split ceiling types = .ok (parts, types')) :
    e.Partition (max ceiling 1) types types' parts := by
  have positive : 0 < max ceiling 1 := by omega
  have rows : (parts.flatMap (·.rows)).map ({ · with name := "" }) =
      e.rows.map ({ · with name := "" }) := split_rows (fun _ _ => rfl) h
  rw [split_eq] at h
  generalize max ceiling 1 = size at *
  obtain ⟨⟨satellites, _⟩, made, same⟩ := map_eq_ok.mp h
  cases same
  obtain ⟨made, claims⟩ := satellites_made made
  have names : (satellites.map fun part => lookupKey part.name) =
      (satellites.map (·.name)).map lookupKey := by rw [List.map_map]; rfl
  have lengths : ({ e with rows := e.rows.take size } :: satellites).map (·.rows.length) =
      (e.rows.take size :: e.furtherBlocks size).map List.length :=
    congrArg (List.cons _) (lengths_of_made made)
  obtain ⟨scope, added⟩ := NameScope.claimAll_insertAll claims
  constructor
  case count =>
    rw [List.length_cons, made.length_eq, furtherBlocks, length_blocks, count_blocks _ positive]
  case shared => exact List.forall_mem_cons.mpr ⟨rfl, shared_of_made made⟩
  case first => rfl
  case rows => exact rows
  case full =>
    intro part hpart
    obtain ⟨block, hblock, length⟩ := exists_of_mem_dropLast lengths hpart
    rw [← length, furtherBlocks_full e positive block hblock]
  case fits =>
    intro part hpart
    have counted := List.mem_map_of_mem (f := fun part => part.rows.length) hpart
    rw [lengths] at counted
    obtain ⟨block, hblock, length⟩ := List.mem_map.mp counted
    rw [← length]
    rcases List.mem_cons.mp hblock with rfl | hblock
    · exact List.length_take_le _ _
    · exact length_le_of_mem_blocks block hblock
  case apart =>
    rw [List.tail_cons, names]
    exact NameScope.claimAll_nodup claims
  case fresh =>
    intro part hpart
    exact NameScope.claimAll_fresh claims _ (List.mem_map.mpr ⟨part, hpart, rfl⟩)
  case grown =>
    intro key
    rw [scope, NameScope.mem_insertAll]
    simp
  case added => simpa using added

/-- Rows that all ask for one name. -/
def spares : Enumeration where
  uid := "500"
  rawName := "Foo"
  name := "Foo"
  width := .sixteen
  footnote := none
  rows := ["Spare", "Spare1", "Spare2", "Spare3", "Spare4"].map fun name =>
    ⟨0, none, "Spare", none, none, "Spare", name⟩

/-- Cut in twos where the name of the first satellite is taken in another case. -/
theorem spares_partitioned : ∃ parts types',
    spares.split 2 (NameScope.empty.insertAll ["Foo", "FOOadditional"]) = .ok (parts, types') ∧
    parts.map (fun part => (part.name, part.rows.map (·.name))) =
      [("Foo", ["Spare", "Spare1"]), ("FooAdditional1", ["Spare", "Spare1"]),
        ("FooAdditional2", ["Spare"])] ∧
    spares.Partition 2 (NameScope.empty.insertAll ["Foo", "FOOadditional"]) types' parts := by
  have run : (spares.split 2 (NameScope.empty.insertAll ["Foo", "FOOadditional"])).toOption.map
      (fun r => r.1.map fun part => (part.name, part.rows.map (·.name))) =
      some [("Foo", ["Spare", "Spare1"]), ("FooAdditional1", ["Spare", "Spare1"]),
        ("FooAdditional2", ["Spare"])] := by
    decide +kernel
  obtain ⟨⟨parts, types'⟩, cut, names⟩ := exists_ok_of_map run
  exact ⟨parts, types', cut, names, split_partitions cut⟩

end Enumeration

end EnumRegistry
