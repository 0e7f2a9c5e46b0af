import EnumRegistry.Proofs.Building.Step
import EnumRegistry.Proofs.Satellite

/-!
A type that is being filled, by what its start tag opens and what the end of a row adds. A row says
what its element does and claims its name where the rows before it have claimed theirs, so the names
are those of claims made in row order.
-/

namespace EnumRegistry

theorem TypeTable.uid_reference (t : TypeTable) (uid : String) : (t.reference uid).uid = uid := by
  unfold reference
  split <;> rfl

theorem NameTables.reference_fst (t : NameTables) (e : Element) (subject : String) :
    (t.reference e subject).1 = ((e.attr? "xref").map Text.trim).map t.types.reference := by
  unfold reference
  cases e.attr? "xref" <;> rfl

theorem Element.required_eq_ok {e : Element} {name value : String} :
    e.required name = .ok value ↔ e.attr? name = some value := by
  unfold required
  cases e.attr? name <;> simp

/-- A row of an enumeration with what its element declares. -/
structure EnumerationRow.ReadFrom (row : EnumerationRow) (e : Element) : Prop where
  value : e.value = .ok row.value
  rangeEnd : (if (e.attr? "value").isSome then .ok none else e.int? "value_max") = .ok row.rangeEnd
  description : row.description = e.description
  footnote : row.footnote = e.attr? "footnote"
  reference : row.reference.map (·.uid) = (e.attr? "xref").map Text.trim

/-- A row of a bitfield with what its element declares. -/
structure BitfieldRow.ReadFrom (row : BitfieldRow) (e : Element) : Prop where
  rawName : row.rawName = (e.attr? "name").getD e.description
  description : row.description = (e.attr? "description").getD ""
  reference : row.reference.map (·.uid) = (e.attr? "xref").map Text.trim

/-- A row of a bitfield with the place that its element declares. A position that does not fit in 32
bits is 0, and a length that does not fit there or is less than 1 is 1. -/
structure BitfieldRow.PlacedBy (row : BitfieldRow) (e : Element) : Prop where
  position : ∃ position, e.requiredInt "bit_position" = .ok position ∧
    row.position = (word32? position).getD 0
  length : ∃ length, e.int? "length" = .ok length ∧
    row.length = max ((word32? (length.getD 1)).getD 1) 1

/-- A row of a dictionary with what its element declares. -/
structure DictionaryRow.ReadFrom (row : DictionaryRow) (e : Element) : Prop where
  code : e.attr? "value" = some row.code
  description : row.description = (e.attr? "description").getD row.code

namespace TypeFrame

def uid : TypeFrame → String
  | enumeration type _ => type.uid
  | bitfield type _ => type.uid
  | dictionary type _ => type.uid

def name : TypeFrame → String
  | enumeration type _ => type.name
  | bitfield type _ => type.name
  | dictionary type _ => type.name

/-- The kind of element that declares the type. -/
def kind : TypeFrame → ElementKind
  | enumeration _ _ => .enumeration
  | bitfield _ _ => .bitfield
  | dictionary _ _ => .dictionary

/-- The kind of the type says which elements are its rows. -/
theorem accepts_congr {frame frame' : TypeFrame} (h : frame'.kind = frame.kind)
    (kind : ElementKind) : frame'.accepts kind = frame.accepts kind := by
  cases frame <;> cases frame' <;> first | rfl | cases h

/-- The scope holds what the base names of the rows have claimed in order. -/
def InOrder : TypeFrame → Prop
  | enumeration type scope => NameScope.claimAll {} (type.rows.map (·.baseName)) =
      .ok (type.rows.map (·.name), scope)
  | bitfield type scope => NameScope.ClaimedIn (type.rows.map (·.name)) scope
  | dictionary type scope => NameScope.ClaimedIn (type.rows.map (·.name)) scope

/-- What a declaration opens. -/
inductive Opens (e : Element) (uid name : String) : TypeFrame → Prop
  | enumeration {width : StorageWidth} (kind : e.kind = .enumeration) :
      Opens e uid name
        (.enumeration ⟨uid, e.rawName, name, width, e.attr? "footnote", []⟩ {})
  | bitfield {size : Int} (kind : e.kind = .bitfield) (sized : e.requiredInt "size" = .ok size) :
      Opens e uid name (.bitfield ⟨uid, e.rawName, name, (word32? size).getD 0, []⟩ {})
  | dictionary (noEnumeration : e.kind ≠ .enumeration) (noBitfield : e.kind ≠ .bitfield) :
      Opens e uid name (.dictionary ⟨uid, e.rawName, name, []⟩ {})

/-- The ways in which the end of a row adds it to the open type. -/
inductive Added (t : NameTables) (e : Element) : TypeFrame → TypeFrame → Prop
  | enumeration {type : Enumeration} {scope scope' : NameScope} {row : EnumerationRow}
      (read : row.ReadFrom e)
      (referred : row.reference = ((e.attr? "xref").map Text.trim).map t.types.reference)
      (base : row.baseName = Naming.base
        { raw := e.description
          fixed := t.overrides.row? type.uid row.value e.description
          ancestors := [type.rawName]
          subject := "" })
      (claimed : scope.claim row.baseName = .ok (row.name, scope')) :
      Added t e (.enumeration type scope)
        (.enumeration { type with rows := type.rows ++ [row] } scope')
  | bitfield {type : Bitfield} {scope scope' : NameScope} {row : BitfieldRow} {base : String}
      (read : row.ReadFrom e)
      (referred : row.reference = ((e.attr? "xref").map Text.trim).map t.types.reference)
      (claimed : scope.claim base = .ok (row.name, scope')) (placed : row.PlacedBy e) :
      Added t e (.bitfield type scope) (.bitfield { type with rows := type.rows ++ [row] } scope')
  | dictionary {type : Dictionary} {scope scope' : NameScope} {row : DictionaryRow} {base : String}
      (read : row.ReadFrom e) (claimed : scope.claim base = .ok (row.name, scope')) :
      Added t e (.dictionary type scope)
        (.dictionary { type with rows := type.rows ++ [row] } scope')

theorem open?_opens {e : Element} {uid name : String} {frame : TypeFrame}
    (h : TypeFrame.open? e uid name = .ok frame) : Opens e uid name frame := by
  unfold TypeFrame.open? at h
  split at h
  · obtain ⟨size, -, h⟩ := bind_eq_ok.mp h
    cases h
    exact .enumeration ‹_›
  · obtain ⟨size, sized, h⟩ := bind_eq_ok.mp h
    cases h
    exact .bitfield ‹_› sized
  · cases h
    exact .dictionary ‹_› ‹_›

theorem addRow_added {t : NameTables} {e : Element} {frame frame' : TypeFrame}
    {found : List Diagnostic} (h : frame.addRow t e = .ok (frame', found)) :
    Added t e frame frame' := by
  have referred (subject : String) : (t.reference e subject).1.map (·.uid) =
      (e.attr? "xref").map Text.trim := by
    rw [t.reference_fst, Option.map_map]
    have same : CrossReference.uid ∘ t.types.reference = id := funext t.types.uid_reference
    rw [same, Option.map_id_fun, id]
  cases frame with
  | enumeration type scope =>
    simp only [addRow, addEnumerationRow, Naming.resolve, bind_eq_ok, ofRegistry_eq_ok,
      ofScope_eq_ok, Prod.exists, pure_eq_ok, Except.ok.injEq, Prod.mk.injEq] at h
    obtain ⟨value, valued, rangeEnd, ended, _, _, ⟨name, scope', claimed, rfl, rfl⟩, rfl, -⟩ := h
    exact .enumeration ⟨valued, ended, rfl, rfl, referred _⟩ (t.reference_fst e _) rfl claimed
  | bitfield type scope =>
    simp only [addRow, addBitfieldRow, Naming.resolve, bind_eq_ok, ofRegistry_eq_ok,
      ofScope_eq_ok, Prod.exists, pure_eq_ok, Except.ok.injEq, Prod.mk.injEq] at h
    obtain ⟨_, _, ⟨name, scope', claimed, rfl, rfl⟩, _, position, _, length, rfl, -⟩ := h
    exact .bitfield ⟨rfl, rfl, referred _⟩ (t.reference_fst e _) claimed
      ⟨⟨_, position, rfl⟩, ⟨_, length, rfl⟩⟩
  | dictionary type scope =>
    simp only [addRow, addDictionaryRow, Naming.resolve, bind_eq_ok, ofRegistry_eq_ok,
      ofScope_eq_ok, Prod.exists, pure_eq_ok, Except.ok.injEq, Prod.mk.injEq] at h
    obtain ⟨code, coded, _, _, ⟨name, scope', claimed, rfl, rfl⟩, rfl, -⟩ := h
    exact .dictionary ⟨Element.required_eq_ok.mp coded, rfl⟩ claimed

theorem Opens.kind {e : Element} {uid name : String} {frame : TypeFrame}
    (h : Opens e uid name frame) (declares : e.kind.declaresType = true) :
    frame.kind = e.kind := by
  cases h with
  | enumeration kind | bitfield kind => exact kind.symm
  | dictionary noEnumeration noBitfield =>
    cases kind : e.kind <;> simp_all [ElementKind.declaresType, TypeFrame.kind]

theorem Added.kind {t : NameTables} {e : Element} {frame frame' : TypeFrame}
    (h : Added t e frame frame') : frame'.kind = frame.kind := by
  cases h <;> rfl

theorem Opens.named {e : Element} {uid name : String} {frame : TypeFrame}
    (h : Opens e uid name frame) : frame.uid = uid ∧ frame.name = name := by
  cases h <;> exact ⟨rfl, rfl⟩

theorem Added.named {t : NameTables} {e : Element} {frame frame' : TypeFrame}
    (h : Added t e frame frame') : frame'.uid = frame.uid ∧ frame'.name = frame.name := by
  cases h <;> exact ⟨rfl, rfl⟩

theorem Opens.inOrder {e : Element} {uid name : String} {frame : TypeFrame}
    (h : Opens e uid name frame) : frame.InOrder := by
  cases h with
  | enumeration => rfl
  | bitfield | dictionary => exact NameScope.claimedIn_nil

/-- A row is added behind the others, with a name claimed in the scope. -/
theorem Added.inOrder {t : NameTables} {e : Element} {frame frame' : TypeFrame}
    (h : Added t e frame frame') (rows : frame.InOrder) : frame'.InOrder := by
  cases h with
  | enumeration read referred base claimed =>
    simp only [InOrder, List.map_append, List.map_singleton]
    exact NameScope.claimAll_concat rows claimed
  | bitfield read referred claimed =>
    simp only [InOrder, List.map_append, List.map_singleton]
    exact rows.concat claimed
  | dictionary read claimed =>
    simp only [InOrder, List.map_append, List.map_singleton]
    exact rows.concat claimed

end TypeFrame

end EnumRegistry
