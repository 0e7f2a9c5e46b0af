import EnumRegistry.Proofs.Building.PlainNames
import EnumRegistry.Proofs.Name.Fragment

/-!
Names of rows without overrides. Every row is named after a text, so its name ends in a letter or a
digit: a fragment does, what is put before it or what counts it up leaves no underscore at its end,
and the parts of an enumeration count up the same base names anew.
-/

namespace EnumRegistry

/-! ## How names end -/

/-- A plain name that ends in a letter or a digit. -/
structure ClosedName (s : String) : Prop where
  plain : PlainName s
  finish : s.toList.getLast? ≠ some '_'

namespace Name

theorem qualify_isSuffix (core : List Char) (ancestors : List (List Char)) :
    core <:+ qualify core ancestors := by
  induction ancestors generalizing core with
  | nil => exact List.suffix_cons _ _
  | cons ancestor farther ih =>
    have behind : core <:+ Text.trimEnds isUnderscore (normal ancestor) ++ '_' :: core :=
      (List.suffix_cons _ _).trans (List.suffix_append _ _)
    simp only [qualify]
    split
    · exact behind.trans (ih _)
    · exact behind

theorem getLast?_of_isSuffix {cs ds : List Char} (h : cs <:+ ds) (nonempty : cs ≠ []) :
    ds.getLast? = cs.getLast? := by
  obtain ⟨before, rfl⟩ := h
  exact List.getLast?_append_of_ne_nil before nonempty

/-- Ancestors and underscores come before a base name, never behind it. -/
theorem getLast?_composed {base : List Char} (h : Plain base) (ancestors : List (List Char)) :
    (composed base ancestors).getLast? = base.getLast? := by
  unfold composed
  split
  · have core : base.dropWhile isUnderscore ≠ [] := by
      obtain ⟨c, hc, -⟩ := h.core.solid
      exact List.ne_nil_of_mem hc
    rw [getLast?_of_isSuffix (qualify_isSuffix _ ancestors) core,
      getLast?_of_isSuffix (List.dropWhile_suffix isUnderscore) core]
  · rfl

end Name

/-- Where names are counted up, digits come last. -/
theorem NameScope.Spells.eq_or_digit {base name : String} (spells : Spells base name) :
    name = base ∨ ∃ c, name.toList.getLast? = some c ∧ c.isDigit = true := by
  obtain ⟨attempt, rfl⟩ := spells
  unfold NameScope.spelling
  split
  · exact .inl rfl
  · have digits : Nat.toDigits 10 attempt ≠ [] := Nat.toDigits_ne_nil
    refine .inr ⟨(Nat.toDigits 10 attempt).getLast digits, ?_, ?_⟩
    · rw [Nat.toString_eq_ofList_toDigits, String.toList_append, String.toList_ofList,
        List.getLast?_append_of_ne_nil _ digits, List.getLast?_eq_some_getLast digits]
    · exact Nat.isDigit_of_mem_toDigits (by decide) (by decide) (List.getLast_mem digits)

namespace ClosedName

theorem normalize (raw : String) : ClosedName (Name.normalize raw) :=
  ⟨plainName_normalize raw, (Name.normalize_fragment raw).finish⟩

theorem compose {base : String} (h : ClosedName base) (ancestors : List String) :
    ClosedName (Name.compose base ancestors) := by
  refine ⟨plainName_compose h.plain ancestors, ?_⟩
  rw [Name.compose, String.toList_ofList, Name.getLast?_composed h.plain]
  exact h.finish

theorem spells {base name : String} (h : ClosedName base) (spells : NameScope.Spells base name) :
    ClosedName name := by
  refine ⟨spells.plain h.plain, ?_⟩
  rcases spells.eq_or_digit with rfl | ⟨c, last, digit⟩
  · exact h.finish
  · rw [last]
    rintro ⟨⟩
    cases digit

end ClosedName

/-- What is not fixed by hand is derived from a text. -/
theorem Naming.base_closed {n : Naming} (h : n.fixed = none) : ClosedName n.base := by
  rw [base, h]
  exact (ClosedName.normalize n.raw).compose n.ancestors

/-! ## Rows of an open type -/

namespace TypeFrame

/-- The names of rows as their scope has told them apart; of the rows of an enumeration the names
before, since its parts tell them apart anew. -/
def stems : TypeFrame → List String
  | enumeration type _ => type.rows.map (·.baseName)
  | bitfield type _ => type.rows.map (·.name)
  | dictionary type _ => type.rows.map (·.name)

theorem Opens.stems {e : Element} {uid name : String} {frame : TypeFrame}
    (h : Opens e uid name frame) : frame.stems = [] := by
  cases h <;> rfl

theorem addRow_stems {types : TypeTable} {e : Element} {frame frame' : TypeFrame}
    {found : List Diagnostic} (h : frame.addRow ⟨types, {}⟩ e = .ok (frame', found)) :
    ∃ stem, ClosedName stem ∧ frame'.stems = frame.stems ++ [stem] := by
  cases frame with
  | enumeration type scope =>
    cases TypeFrame.addRow_added h with
    | @enumeration _ _ _ row read referred base =>
      refine ⟨row.baseName, ?_, List.map_append⟩
      rw [base]
      exact Naming.base_closed (row?_empty type.uid row.value e.description)
  | bitfield type scope =>
    simp only [addRow, addBitfieldRow, Naming.resolve, bind_eq_ok, ofScope_eq_ok, Prod.exists,
      pure_eq_ok, Except.ok.injEq, Prod.mk.injEq] at h
    obtain ⟨_, _, ⟨name, scope', claimed, rfl, rfl⟩, _, -, _, -, rfl, -⟩ := h
    have closed := (Naming.base_closed rfl).spells (NameScope.claim_eq_ok claimed).1
    exact ⟨name, closed, List.map_append⟩
  | dictionary type scope =>
    simp only [addRow, addDictionaryRow, Naming.resolve, bind_eq_ok, ofScope_eq_ok, Prod.exists,
      pure_eq_ok, Except.ok.injEq, Prod.mk.injEq] at h
    obtain ⟨_, -, _, _, ⟨name, scope', claimed, rfl, rfl⟩, rfl, -⟩ := h
    have closed := (Naming.base_closed rfl).spells (NameScope.claim_eq_ok claimed).1
    exact ⟨name, closed, List.map_append⟩

end TypeFrame

/-! ## Rows of a model -/

namespace Builder

/-- All names of rows are closed, of finished types and of the open one. -/
structure RowsClosed (b : Builder) : Prop where
  current : ∀ frame, b.current = some frame → ∀ stem ∈ frame.stems, ClosedName stem
  parts : ∀ e ∈ b.model.enumerations, ∀ base ∈ e.rows.map (·.baseName), ClosedName base
  fields : ∀ f ∈ b.model.bitfields, ∀ name ∈ f.rows.map (·.name), ClosedName name
  entries : ∀ d ∈ b.model.dictionaries, ∀ name ∈ d.rows.map (·.name), ClosedName name

theorem entered_rowsClosed {t : NameTables} {b b' : Builder} {e : Element} (hb : b.RowsClosed)
    (h : Entered t b e b') : b'.RowsClosed := by
  obtain ⟨current, parts, fields, entries⟩ := hb
  cases h with
  | type idle declares identified named fresh opens =>
    refine ⟨?_, parts, fields, entries⟩
    intro frame hframe
    cases hframe
    simp [(TypeFrame.open?_opens opens).stems]
  | row | tree | path | node | other => exact ⟨current, parts, fields, entries⟩

theorem left_rowsClosed {types : TypeTable} {ceiling : Nat} {b b' : Builder} (hb : b.RowsClosed)
    (h : Left ⟨types, {}⟩ ceiling b b') : b'.RowsClosed := by
  obtain ⟨filling, enumerations, fields, entries⟩ := hb
  cases h with
  | outside | other | node | path | tree | noType | noTree =>
    exact ⟨filling, enumerations, fields, entries⟩
  | row opened current added =>
    refine ⟨?_, enumerations, fields, entries⟩
    intro frame hframe
    cases hframe
    obtain ⟨stem, closed, stems⟩ := TypeFrame.addRow_stems added
    rw [stems]
    exact List.forall_mem_append.mpr ⟨filling _ current, List.forall_mem_singleton.mpr closed⟩
  | @enumeration _ type _ _ parts opened current split =>
    refine ⟨nofun, List.forall_mem_append.mpr ⟨enumerations, ?_⟩, fields, entries⟩
    intro part hpart base hbase
    refine filling _ current base ?_
    have same : (parts.flatMap (·.rows)).map (·.baseName) = type.rows.map (·.baseName) :=
      Enumeration.split_rows (fun _ _ => rfl) split
    obtain ⟨row, hrow, rfl⟩ := List.mem_map.mp hbase
    rw [TypeFrame.stems, ← same]
    exact List.mem_map.mpr ⟨row, List.mem_flatMap.mpr ⟨part, hpart, hrow⟩, rfl⟩
  | bitfield opened current =>
    refine ⟨nofun, enumerations, List.forall_mem_append.mpr ⟨fields, ?_⟩, entries⟩
    exact List.forall_mem_singleton.mpr (filling _ current)
  | dictionary opened current =>
    refine ⟨nofun, enumerations, fields, List.forall_mem_append.mpr ⟨entries, ?_⟩⟩
    exact List.forall_mem_singleton.mpr (filling _ current)

theorem ofReader_rowsClosed {types : TypeTable} {ceiling : Nat} {r : Reader} {b : Builder}
    (h : ofReader ⟨types, {}⟩ ceiling r = .ok b) : b.RowsClosed := by
  refine (walk_keeps (fun _ => entered_rowsClosed) left_rowsClosed).run ?_
    (Walk.through_eq_ok.mp h).2
  exact ⟨nofun, nofun, nofun, nofun⟩

end Builder

/-- The names of the rows of a type, in their order; a node has no rows. -/
def SymbolBody.rowNames : SymbolBody → List String
  | enumeration e => e.rows.map (·.name)
  | bitfield b => b.rows.map (·.name)
  | dictionary d => d.rows.map (·.name)
  | classification _ _ => []

/-- The rows of a type differ by more than case, and their names are closed. -/
theorem Resolution.rowNames_closed {ceiling : Nat} {r : Reader} {res : Resolution}
    (h : ofReader {} ceiling r = .ok res) : ∀ s ∈ res.model.symbols,
      (s.body.rowNames.map lookupKey).Nodup ∧ ∀ name ∈ s.body.rowNames, ClosedName name := by
  obtain ⟨survey, builder, hsurvey, hbuilder, rfl⟩ := ofReader_eq_ok h
  have inOrder := Builder.ofReader_typesInOrder (Survey.ofReader_namesApart hsurvey) hbuilder
  have closed := Builder.ofReader_rowsClosed hbuilder
  intro s hs
  cases Model.emits_of_mem hs with
  | @enumeration e he =>
    obtain ⟨scope, claims⟩ := inOrder.model.parts e he
    refine ⟨NameScope.claimAll_nodup claims, ?_⟩
    exact NameScope.claimAll_forall (fun spells base => base.spells spells) claims
      (closed.parts e he)
  | @bitfield b hb =>
    obtain ⟨scope, rows⟩ := inOrder.model.fields b hb
    exact ⟨rows.nodup, closed.fields b hb⟩
  | @dictionary d hd =>
    obtain ⟨scope, rows⟩ := inOrder.model.entries d hd
    exact ⟨rows.nodup, closed.entries d hd⟩
  | node => exact ⟨.nil, nofun⟩

end EnumRegistry
