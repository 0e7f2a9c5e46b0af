import EnumRegistry.Proofs.Building.Reordering
import EnumRegistry.Proofs.Registry.Wrapping
import EnumRegistry.Proofs.Resolution
import EnumRegistry.Proofs.Survey.Reordering

/-!
The order of declarations. Types whose UIDs and base names all differ get the same names and the
same rows in whatever order they are declared.
-/

namespace EnumRegistry

/-- A walk through a document is one over the forest as which it is read, positions apart. -/
theorem Walk.Unplaces.through_readsAs {σ : Type} {w : Walk GenerationError σ} {g : σ → σ}
    (unplaces : w.Unplaces g) {r : Reader} {f : Forest} (reads : r.ReadsAs f) (s : σ) :
    Maps GenerationError.unplaced g (w.through .registry s r) (w.visit f (g s)) := by
  have walked := unplaces.run 0 s r.events.1
  rwa [reads.events, Walk.run_eq_visit, ← Walk.through_eq_run reads.complete] at walked

variable {overrides : Overrides}

theorem Survey.ofReader_readsAs {r : Reader} {f : Forest} (reads : r.ReadsAs f) {s : Survey} :
    ofReader overrides r = .ok s ↔ (walk overrides).visit f {} = .ok s := by
  have walked := (walk_unplaces overrides).through_readsAs reads {}
  constructor
  · intro surveyed
    exact walked.eq_ok.mpr ⟨s, surveyed, rfl⟩
  · intro visited
    obtain ⟨_, surveyed, rfl⟩ := walked.eq_ok.mp visited
    exact surveyed

theorem Builder.ofReader_readsAs {t : NameTables} {ceiling : Nat} {r : Reader} {f : Forest}
    (reads : r.ReadsAs f) {m : Model} :
    (∃ b, ofReader t ceiling r = .ok b ∧ b.model = m) ↔
      ∃ b, (walk t ceiling).visit f (ofTable t.types) = .ok b ∧ b.model = m := by
  have walked := (walk_unplaces t ceiling).through_readsAs reads (ofTable t.types)
  constructor
  · rintro ⟨b, built, rfl⟩
    exact ⟨b.unplaced, walked.eq_ok.mpr ⟨b, built, rfl⟩, rfl⟩
  · rintro ⟨b, visited, rfl⟩
    obtain ⟨b, built, rfl⟩ := walked.eq_ok.mp visited
    exact ⟨b, built, rfl⟩

section
variable {document document' : List UInt8} {f f' : Forest}

theorem Survey.ofReader_reordered (reads : (Reader.ofBytes document).ReadsAs f)
    (reads' : (Reader.ofBytes document').ReadsAs f') (only : f.declaresOnly = true)
    (only' : f'.declaresOnly = true) (permuted : f'.declared.Perm f.declared)
    (apart : Apart (f.bases overrides)) {s : Survey}
    (surveyed : ofReader overrides (.ofBytes document) = .ok s) :
    ∃ s', ofReader overrides (.ofBytes document') = .ok s' ∧ ∀ uid,
      s'.table.name? uid = s.table.name? uid ∧ s'.table.isMissing uid = s.table.isMissing uid := by
  have visited := (ofReader_readsAs reads).mp surveyed
  obtain ⟨s', visited', same⟩ := visit_reordered only only' permuted apart visited
  exact ⟨s', (ofReader_readsAs reads').mpr visited', same⟩

theorem Builder.ofReader_reordered {t t' : NameTables} {ceiling : Nat} (agree : t.Agree t')
    (reads : (Reader.ofBytes document).ReadsAs f) (reads' : (Reader.ofBytes document').ReadsAs f')
    (only : f.declaresOnly = true) (only' : f'.declaresOnly = true)
    (permuted : f'.declared.Perm f.declared) (uids : (f.declared.filterMap (·.1.uid?)).Nodup)
    (small : ∀ d ∈ f.declared, Small ceiling d) {b : Builder}
    (built : ofReader t ceiling (.ofBytes document) = .ok b) :
    ∃ b', ofReader t' ceiling (.ofBytes document') = .ok b' ∧ Reordered b.model b'.model := by
  obtain ⟨between, visited, model⟩ := (ofReader_readsAs reads).mp ⟨b, built, rfl⟩
  obtain ⟨left, visited', reordered⟩ :=
    visit_reordered agree only only' permuted uids small visited
  obtain ⟨b', built', model'⟩ := (ofReader_readsAs reads').mpr ⟨left, visited', rfl⟩
  refine ⟨b', built', ?_⟩
  rwa [model', ← model]

/-- The order of declarations does not matter to types. If two documents hold declarations only, and
the same ones but for their order, whose UIDs differ and whose base names differ by more than case,
then a survey of the one gives every UID the name that a survey of the other gives it; and if no
enumeration has more rows than the ceiling, both are resolved to the same types but for their
order. -/
theorem declarations_in_any_order (overrides : Overrides) (ceiling : Nat)
    (reads : (Reader.ofBytes document).ReadsAs f) (reads' : (Reader.ofBytes document').ReadsAs f')
    (only : f.declaresOnly = true) (only' : f'.declaresOnly = true)
    (permuted : f'.declared.Perm f.declared) (apart : Survey.Apart (f.bases overrides)) :
    (∀ survey, Survey.ofReader overrides (.ofBytes document) = .ok survey →
      ∃ survey', Survey.ofReader overrides (.ofBytes document') = .ok survey' ∧
        ∀ uid, survey'.table.name? uid = survey.table.name? uid ∧
          survey'.table.isMissing uid = survey.table.isMissing uid) ∧
    ((∀ d ∈ f.declared, d.1.kind = .enumeration →
        (d.2.rowsOf (·.isEnumerationRow)).length ≤ ceiling) →
      ∀ res, Resolution.ofReader overrides ceiling (.ofBytes document) = .ok res →
        ∃ res', Resolution.ofReader overrides ceiling (.ofBytes document') = .ok res' ∧
          Builder.Reordered res.model res'.model) := by
  constructor
  · intro survey surveyed
    exact Survey.ofReader_reordered reads reads' only only' permuted apart surveyed
  · intro rows res resolved
    obtain ⟨survey, b, surveyed, built, rfl⟩ := Resolution.ofReader_eq_ok resolved
    obtain ⟨survey', surveyed', same⟩ :=
      Survey.ofReader_reordered reads reads' only only' permuted apart surveyed
    have agree : NameTables.Agree ⟨survey.table, overrides⟩ ⟨survey'.table, overrides⟩ :=
      ⟨rfl, fun uid => (same uid).1⟩
    have uids : (f.declared.filterMap (·.1.uid?)).Nodup :=
      apart.uids.sublist (Forest.declared_uids only)
    have small : ∀ d ∈ f.declared, Builder.Small ceiling d := fun d member kind =>
      Nat.le_trans (rows d member kind) (Nat.le_max_left ceiling 1)
    obtain ⟨b', built', reordered⟩ :=
      Builder.ofReader_reordered agree reads reads' only only' permuted uids small built
    refine ⟨⟨survey'.table, b'.model, survey'.found ++ b'.found⟩, ?_, reordered⟩
    simp only [Resolution.ofReader, bind_eq_ok, surveyed', pure_eq_ok, Except.ok.injEq]
    exact ⟨survey', rfl, b', built', rfl⟩

end

/-- The element of a tag at the beginning of a document. -/
def tagElement (content : List UInt8) : Element :=
  (Element.ofTag 0 content).toOption.getD ⟨.other, "", {}, 0⟩

theorem tagElement_made {content : List UInt8}
    (made : (Element.ofTag 0 content).toOption.isSome = true) :
    Element.ofTag 0 content = .ok (tagElement content) := by
  unfold tagElement
  cases read : Element.ofTag 0 content with
  | error fault => rw [read] at made; cases made
  | ok e => rfl

/-- A declaration that has one row, by what stands in its tags. -/
structure OneRow where
  text : List UInt8
  declaration : List UInt8
  row : List UInt8
  lexed : Markup.tokens text =
    [.start 0 declaration, .empty 0 row, .close 0 (tagName declaration)]
  made : (Element.ofTag 0 declaration).toOption.isSome = true
  rowMade : (Element.ofTag 0 row).toOption.isSome = true

namespace OneRow

def forest (d : OneRow) : Forest :=
  .node (tagElement d.declaration) (.node (tagElement d.row) .nil .nil) .nil

theorem readsAs (d : OneRow) : (Reader.ofBytes d.text).ReadsAs d.forest := by
  have made := tagElement_made d.made
  have rowMade := tagElement_made d.rowMade
  rw [Reader.readsAs_iff, d.lexed, List.flatMap_cons, List.flatMap_cons, List.flatMap_cons]
  have closed : Reader.eventsFrom
      ⟨[tagName d.declaration], [(tagElement d.declaration).tag]⟩
      (Piece.ofLexeme (.close 0 (tagName d.declaration)) ++ []) =
        ([.finish (tagElement d.declaration).kind], none) := by
    rw [Element.ofTag_kind made]
    exact Reader.eventsFrom_close_eq_ok.mpr
      ⟨[], [], rfl, Reader.eventsFrom_nil_eq_ok.mpr ⟨rfl, rfl⟩, rfl⟩
  have within := Reader.eventsFrom_empty_eq_ok.mpr ⟨_, _, rowMade, closed, rfl⟩
  exact Reader.eventsFrom_start_eq_ok.mpr ⟨_, _, made, within, rfl⟩

/-- A bitfield whose row refers to an enumeration. -/
def flags : OneRow where
  text := ("<bitfield uid='9' name='Flags' size='8'><bitfieldrow name='Mode' " ++
    "bit_position='0' length='2' xref='4'/></bitfield>").toUTF8.toList
  declaration := "bitfield uid='9' name='Flags' size='8'".toUTF8.toList
  row := "bitfieldrow name='Mode' bit_position='0' length='2' xref='4'".toUTF8.toList
  lexed := by decide +kernel
  made := by decide +kernel
  rowMade := by decide +kernel

/-- The enumeration that the bitfield refers to. -/
def modes : OneRow where
  text := ("<enum uid='4' name='Mode' size='8'>" ++
    "<enumrow value='1' description='On'/></enum>").toUTF8.toList
  declaration := "enum uid='4' name='Mode' size='8'".toUTF8.toList
  row := "enumrow value='1' description='On'".toUTF8.toList
  lexed := by decide +kernel
  made := by decide +kernel
  rowMade := by decide +kernel

end OneRow

open OneRow (flags modes)

theorem flags_and_modes_in_any_order : ∃ res res',
    Resolution.ofReader {} 4096 (.ofBytes (flags.text ++ modes.text)) = .ok res ∧
    Resolution.ofReader {} 4096 (.ofBytes (modes.text ++ flags.text)) = .ok res' ∧
    res.model.bitfields.map (fun type => type.rows.map (·.reference)) =
      [[some (.typed "4" "Mode")]] ∧
    Builder.Reordered res.model res'.model := by
  have reads := Reader.readsAs_beside flags.readsAs modes.readsAs
  have reads' := Reader.readsAs_beside modes.readsAs flags.readsAs
  have only : (flags.forest.beside modes.forest).declaresOnly = true := by decide +kernel
  have only' : (modes.forest.beside flags.forest).declaresOnly = true := by decide +kernel
  have permuted : (modes.forest.beside flags.forest).declared.Perm
      (flags.forest.beside modes.forest).declared := by
    rw [Forest.declared_beside, Forest.declared_beside]
    exact List.perm_append_comm
  have apart : Survey.Apart ((flags.forest.beside modes.forest).bases {}) :=
    ⟨by decide +kernel, by decide +kernel⟩
  have small : ∀ d ∈ (flags.forest.beside modes.forest).declared, d.1.kind = .enumeration →
      (d.2.rowsOf (·.isEnumerationRow)).length ≤ 4096 := by
    decide +kernel
  have run : (Resolution.ofReader {} 4096 (.ofBytes (flags.text ++ modes.text))).toOption.map
      (fun res => res.model.bitfields.map fun type => type.rows.map (·.reference)) =
        some [[some (.typed "4" "Mode")]] := by
    decide +kernel
  obtain ⟨res, resolved, references⟩ := exists_ok_of_map run
  obtain ⟨-, types⟩ := declarations_in_any_order {} 4096 reads reads' only only' permuted apart
  obtain ⟨res', resolved', reordered⟩ := types small res resolved
  exact ⟨res, res', resolved, resolved', references, reordered⟩

end EnumRegistry
