import EnumRegistry.Proofs.Name.Scope
import EnumRegistry.Satellite

/-!
The parts that an oversized enumeration is split into. The first keeps the name of the enumeration
and the names of the rows it keeps; every satellite claims a type name of its own and names its
rows anew, by their base names.
-/

namespace EnumRegistry

/-- Blocks of a size that are enough for all elements leave none out. -/
theorem flatten_blocks {α : Type} {size count : Nat} {xs : List α}
    (enough : xs.length ≤ size * count) : (blocks size count xs).flatten = xs := by
  induction count generalizing xs with
  | zero =>
    rw [Nat.mul_zero, Nat.le_zero, List.length_eq_zero_iff] at enough
    rw [enough]
    rfl
  | succ count ih =>
    have behind : (xs.drop size).length ≤ size * count := by
      rw [Nat.mul_succ] at enough
      rw [List.length_drop]
      omega
    rw [blocks, List.flatten_cons, ih behind, List.take_append_drop]

namespace Enumeration

/-- The names of the rows are those that their base names claim in order in an empty scope. -/
def RowsInOrder (e : Enumeration) : Prop :=
  ∃ scope, NameScope.claimAll {} (e.rows.map (·.baseName)) = .ok (e.rows.map (·.name), scope)

theorem rename_eq_ok {scope : NameScope} {rows renamed : List EnumerationRow}
    (h : rename scope rows = .ok renamed) :
    renamed.map (·.baseName) = rows.map (·.baseName) ∧
      ∃ scope', scope.claimAll (rows.map (·.baseName)) = .ok (renamed.map (·.name), scope') := by
  induction rows generalizing scope renamed with
  | nil =>
    simp only [rename, Except.ok.injEq] at h
    exact h ▸ ⟨rfl, scope, rfl⟩
  | cons row rows ih =>
    simp only [rename, bind_eq_ok, Prod.exists, pure_eq_ok, Except.ok.injEq] at h
    obtain ⟨name, t, claimed, rest, hrest, rfl⟩ := h
    obtain ⟨bases, scope', hclaims⟩ := ih hrest
    refine ⟨by simp [bases], scope', ?_⟩
    exact NameScope.claimAll_cons_eq_ok.mpr ⟨name, t, _, claimed, hclaims, rfl⟩

theorem satellites_cons_eq_ok {e : Enumeration} {types types' : NameScope} {ordinal : Nat}
    {block : List EnumerationRow} {rest : List (List EnumerationRow)} {parts : List Enumeration}
    (h : e.satellites types ordinal (block :: rest) = .ok (parts, types')) :
    ∃ name between rows others,
      types.claim (e.name ++ satelliteMark ordinal) = .ok (name, between) ∧
      rename {} block = .ok rows ∧
      e.satellites between (ordinal + 1) rest = .ok (others, types') ∧
      parts = { e with name, rows } :: others := by
  simp only [satellites, bind_eq_ok, Prod.exists, pure_eq_ok, Except.ok.injEq,
    Prod.mk.injEq] at h
  obtain ⟨name, between, claimed, rows, renamed, others, _, hothers, rfl, rfl⟩ := h
  exact ⟨name, between, rows, others, claimed, renamed, hothers, rfl⟩

theorem satellites_parts {e : Enumeration} {types types' : NameScope} {ordinal : Nat}
    {rest : List (List EnumerationRow)} {parts : List Enumeration}
    (h : e.satellites types ordinal rest = .ok (parts, types')) :
    ∀ part ∈ parts, part.uid = e.uid ∧ part.RowsInOrder := by
  induction rest generalizing types ordinal parts with
  | nil =>
    simp only [satellites, Except.ok.injEq, Prod.mk.injEq] at h
    simp [← h.1]
  | cons block rest ih =>
    obtain ⟨name, between, rows, others, -, renamed, hothers, rfl⟩ := satellites_cons_eq_ok h
    intro part hpart
    rcases List.mem_cons.mp hpart with rfl | hpart
    · obtain ⟨bases, scope, hclaims⟩ := rename_eq_ok renamed
      exact ⟨rfl, scope, bases ▸ hclaims⟩
    · exact ih hothers part hpart

theorem rename_rows {α : Type} {fact : EnumerationRow → α}
    (nameless : ∀ (row : EnumerationRow) (name : String), fact { row with name } = fact row)
    {scope : NameScope} {rows renamed : List EnumerationRow}
    (h : rename scope rows = .ok renamed) : renamed.map fact = rows.map fact := by
  induction rows generalizing scope renamed with
  | nil =>
    simp only [rename, Except.ok.injEq] at h
    rw [← h]
  | cons row rows ih =>
    simp only [rename, bind_eq_ok, Prod.exists, pure_eq_ok, Except.ok.injEq] at h
    obtain ⟨name, t, -, rest, hrest, rfl⟩ := h
    rw [List.map_cons, List.map_cons, nameless, ih hrest]

theorem satellites_rows {α : Type} {fact : EnumerationRow → α}
    (nameless : ∀ (row : EnumerationRow) (name : String), fact { row with name } = fact row)
    {e : Enumeration} {types types' : NameScope} {ordinal : Nat}
    {rest : List (List EnumerationRow)} {parts : List Enumeration}
    (h : e.satellites types ordinal rest = .ok (parts, types')) :
    (parts.flatMap (·.rows)).map fact = rest.flatten.map fact := by
  induction rest generalizing types ordinal parts with
  | nil =>
    simp only [satellites, Except.ok.injEq, Prod.mk.injEq] at h
    rw [← h.1]
    rfl
  | cons block rest ih =>
    obtain ⟨name, between, rows, others, -, renamed, hothers, rfl⟩ := satellites_cons_eq_ok h
    rw [List.flatMap_cons, List.map_append, ih hothers, rename_rows nameless renamed,
      List.flatten_cons, List.map_append]

/-- As many blocks as an oversized enumeration is cut into hold all its rows. -/
theorem le_mul_blocks (length : Nat) {size : Nat} (positive : 0 < size) :
    length ≤ size * ((length + size - 1) / size) := by
  have whole := Nat.div_add_mod (length + size - 1) size
  have rest := Nat.mod_lt (length + size - 1) positive
  omega

theorem split_eq_ok {e : Enumeration} {ceiling : Nat} {types types' : NameScope}
    {parts : List Enumeration} (h : e.split ceiling types = .ok (parts, types')) :
    ∃ blocks satellites, e.satellites types 1 blocks = .ok (satellites, types') ∧
      parts = { e with rows := e.rows.take (max ceiling 1) } :: satellites := by
  unfold split at h
  dsimp only at h
  split at h
  · rename_i fits
    simp only [pure_eq_ok, Except.ok.injEq, Prod.mk.injEq] at h
    obtain ⟨rfl, rfl⟩ := h
    exact ⟨[], [], rfl, by rw [List.take_of_length_le fits]⟩
  · simp only [bind_eq_ok, Prod.exists, pure_eq_ok, Except.ok.injEq, Prod.mk.injEq] at h
    obtain ⟨satellites, _, hsatellites, rfl, rfl⟩ := h
    exact ⟨_, satellites, hsatellites, rfl⟩

theorem split_uid {e : Enumeration} {ceiling : Nat} {types types' : NameScope}
    {parts : List Enumeration} (h : e.split ceiling types = .ok (parts, types')) :
    ∀ part ∈ parts, part.uid = e.uid := by
  obtain ⟨blocks, satellites, hsatellites, rfl⟩ := split_eq_ok h
  intro part hpart
  rcases List.mem_cons.mp hpart with rfl | hpart
  · rfl
  · exact (satellites_parts hsatellites part hpart).1

/-- Whatever rows say besides their names, the parts say what the enumeration does, in its order. -/
theorem split_rows {α : Type} {fact : EnumerationRow → α}
    (nameless : ∀ (row : EnumerationRow) (name : String), fact { row with name } = fact row)
    {e : Enumeration} {ceiling : Nat} {types types' : NameScope} {parts : List Enumeration}
    (h : e.split ceiling types = .ok (parts, types')) :
    (parts.flatMap (·.rows)).map fact = e.rows.map fact := by
  unfold split at h
  dsimp only at h
  split at h
  · simp only [pure_eq_ok, Except.ok.injEq, Prod.mk.injEq] at h
    rw [← h.1, List.flatMap_singleton]
  · simp only [bind_eq_ok, Prod.exists, pure_eq_ok, Except.ok.injEq, Prod.mk.injEq] at h
    obtain ⟨satellites, _, hsatellites, rfl, -⟩ := h
    rw [List.flatMap_cons, List.map_append, satellites_rows nameless hsatellites,
      flatten_blocks (le_mul_blocks _ (by omega)), ← List.map_append, List.take_append_drop]

/-- Every part has its rows in order if the enumeration has. -/
theorem split_parts {e : Enumeration} {ceiling : Nat} {types types' : NameScope}
    {parts : List Enumeration} (h : e.split ceiling types = .ok (parts, types'))
    (rows : e.RowsInOrder) : ∀ part ∈ parts, part.uid = e.uid ∧ part.RowsInOrder := by
  obtain ⟨blocks, satellites, hsatellites, rfl⟩ := split_eq_ok h
  intro part hpart
  rcases List.mem_cons.mp hpart with rfl | hpart
  · obtain ⟨scope, hclaims⟩ := rows
    obtain ⟨scope', hfirst⟩ := NameScope.claimAll_take hclaims (max ceiling 1)
    refine ⟨rfl, scope', ?_⟩
    rw [← List.map_take, ← List.map_take] at hfirst
    exact hfirst
  · exact satellites_parts hsatellites part hpart

end Enumeration

end EnumRegistry
