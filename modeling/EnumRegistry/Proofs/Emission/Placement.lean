import EnumRegistry.Emission.Artifact
import EnumRegistry.Proofs.Building.PlainNames
import EnumRegistry.Proofs.Files.Path
import Mathlib.Data.List.Nodup

/-!
Places of symbols. A symbol claims a name in its directory, so no two symbols have one directory and
names there that are alike. Files and fully-qualified names tell directory and name, so they are
different as well.
-/

namespace EnumRegistry

namespace Target

/-- The name a symbol asks for in its directory. -/
def wanted (t : Target) (s : Symbol) : String :=
  match t.language with
  | .python => t.language.fileStem (t.language.escape s.name)
  | .java | .cpp | .csharp => t.language.escape s.name

def directoryOf (t : Target) (s : Symbol) : String := directory (t.namespaceOf s)

def fileName (t : Target) (stem : String) : String := stem ++ "." ++ t.language.fileExtension

/-- The placement of a symbol for which a name was claimed. -/
def placed (t : Target) (s : Symbol) (stem : String) : Placement :=
  let segments := t.namespaceOf s
  let namespacePath := t.language.separator.intercalate segments
  let (identifier, importName) := match t.language with
    | .python => (t.language.escape s.name, namespacePath ++ "." ++ stem)
    | .java | .cpp | .csharp => (stem, namespacePath)
  let file := pathInside (t.directoryOf s) (t.fileName stem)
  ⟨segments, identifier, importName, file, importName ++ t.language.separator ++ identifier⟩

theorem placed_segments (t : Target) (s : Symbol) (stem : String) :
    (t.placed s stem).segments = t.namespaceOf s := by
  cases hl : t.language <;> simp [placed, hl]

end Target

/-! ## Claims in directories -/

namespace Placement

variable {t : Target} {scopes scopes' : DirectoryScopes}

theorem scopeAt_congr {dir other : String} (h : pathParts dir = pathParts other) :
    scopeAt scopes dir = scopeAt scopes other := by
  rw [scopeAt, scopeAt, h]

theorem scopeAt_setScope (scopes : DirectoryScopes) (dir : String) (scope : NameScope)
    (other : String) : scopeAt (setScope scopes dir scope) other =
      if pathParts dir = pathParts other then scope else scopeAt scopes other := by
  simp only [scopeAt, setScope, Std.TreeMap.getElem?_insert,
    Std.LawfulEqCmp.compare_eq_iff_eq]
  split <;> rfl

theorem place_eq_ok {s : Symbol} {p : Placement} (h : place t scopes s = .ok (p, scopes')) :
    ∃ stem scope, (scopeAt scopes (t.directoryOf s)).claim (t.wanted s) = .ok (stem, scope) ∧
      p = t.placed s stem ∧ scopes' = setScope scopes (t.directoryOf s) scope := by
  simp only [place, bind_eq_ok, Prod.exists, pure_eq_ok, Except.ok.injEq, Prod.mk.injEq] at h
  obtain ⟨stem, scope, claimed, rfl, rfl⟩ := h
  exact ⟨stem, scope, claimed, rfl, rfl⟩

/-- A symbol with the name that was claimed for it. -/
abbrev Slot := Symbol × String

/-- The directory of a slot, and the form of its name that is compared there. -/
def slotKey (t : Target) (slot : Slot) : List PathPart × String :=
  (pathParts (t.directoryOf slot.1), lookupKey slot.2)

/-- Each name is a spelling of what its symbol asks for and was free in its directory, and no two
symbols of one directory have names that differ by case alone. -/
structure Claimed (t : Target) (scopes : DirectoryScopes) (slots : List Slot) : Prop where
  spells : ∀ slot ∈ slots, NameScope.Spells (t.wanted slot.1) slot.2
  free : ∀ slot ∈ slots, (scopeAt scopes (t.directoryOf slot.1)).contains slot.2 = false
  nodup : (slots.map (slotKey t)).Nodup

theorem claimed_nil (t : Target) (scopes : DirectoryScopes) : Claimed t scopes [] :=
  ⟨nofun, nofun, .nil⟩

/-- A name that is free behind a claim was free before it and is not like the claimed one. -/
theorem free_before {s : Symbol} {stem : String} {slot : Slot}
    (free : (scopeAt (setScope scopes (t.directoryOf s)
      ((scopeAt scopes (t.directoryOf s)).insert stem)) (t.directoryOf slot.1)).contains slot.2 =
        false) :
    (scopeAt scopes (t.directoryOf slot.1)).contains slot.2 = false ∧
      slotKey t (s, stem) ≠ slotKey t slot := by
  rw [scopeAt_setScope] at free
  split at free
  · rename_i same
    rw [NameScope.contains_insert, Bool.or_eq_false_iff, beq_eq_false_iff_ne,
      scopeAt_congr same] at free
    exact ⟨free.2, fun key => free.1 (Prod.mk.inj key).2⟩
  · rename_i apart
    exact ⟨free, fun key => apart (Prod.mk.inj key).1⟩

theorem Claimed.cons {s : Symbol} {stem : String} {scope : NameScope} {slots : List Slot}
    (claimed : (scopeAt scopes (t.directoryOf s)).claim (t.wanted s) = .ok (stem, scope))
    (h : Claimed t (setScope scopes (t.directoryOf s) scope) slots) :
    Claimed t scopes ((s, stem) :: slots) := by
  obtain ⟨spells, free, rfl⟩ := NameScope.claim_eq_ok claimed
  refine ⟨?_, ?_, List.nodup_cons.mpr ⟨?_, h.nodup⟩⟩
  · intro slot hslot
    rcases List.mem_cons.mp hslot with rfl | hslot
    · exact spells
    · exact h.spells slot hslot
  · intro slot hslot
    rcases List.mem_cons.mp hslot with rfl | hslot
    · exact free
    · exact (free_before (h.free slot hslot)).1
  · intro hmem
    obtain ⟨slot, hslot, key⟩ := List.mem_map.mp hmem
    exact (free_before (h.free slot hslot)).2 key.symm

theorem placeAll_eq_ok {symbols : List Symbol} {placements : List Placement}
    (h : placeAll t scopes symbols = .ok placements) :
    ∃ slots, Claimed t scopes slots ∧ slots.map (·.1) = symbols ∧
      slots.map (fun slot => t.placed slot.1 slot.2) = placements := by
  induction symbols generalizing scopes placements with
  | nil =>
    cases h
    exact ⟨[], claimed_nil t scopes, rfl, rfl⟩
  | cons s symbols ih =>
    simp only [placeAll, bind_eq_ok, Prod.exists, pure_eq_ok, Except.ok.injEq] at h
    obtain ⟨p, scopes', hplace, rest, hrest, rfl⟩ := h
    obtain ⟨stem, scope, claimed, rfl, rfl⟩ := place_eq_ok hplace
    obtain ⟨slots, hslots, rfl, rfl⟩ := ih hrest
    exact ⟨(s, stem) :: slots, hslots.cons claimed, rfl, rfl⟩

end Placement

/-! ## Directories -/

theorem not_slash {c : Char} (h : isCut c = false) : (c == '/') = false := by
  rw [isCut, Bool.or_eq_false_iff] at h
  exact h.2

theorem isPathName_of_isField {s : String} (h : Text.IsField isCut s) : IsPathName s where
  field := ⟨h.1, fun c hc => not_slash (h.2 c hc)⟩
  not_here := by
    rintro rfl
    exact absurd (h.2 '.' (by decide)) (by decide)
  not_up := by
    rintro rfl
    exact absurd (h.2 '.' (by decide)) (by decide)

theorem pathParts_foldl (dir : String) {segments : List String}
    (h : ∀ s ∈ segments, IsPathName s) :
    pathParts (segments.foldl pathInside dir) = pathParts dir ++ segments.map .name := by
  induction segments generalizing dir with
  | nil => simp
  | cons s segments ih =>
    rw [List.foldl_cons, ih _ fun x hx => h x (List.mem_cons_of_mem _ hx),
      pathParts_pathInside dir (h s (List.mem_cons_self ..)), List.append_assoc]
    rfl

theorem pathParts_directory {segments : List String} (h : ∀ s ∈ segments, IsPathName s) :
    pathParts (directory segments) = segments.map .name := by
  rw [directory, pathParts_foldl "" h]
  rfl

namespace Target

variable {t : Target} {s : Symbol}

/-- The segments of a root are cut from each other, and those of a symbol hold no cut. -/
theorem namespaceOf_isField (plain : s.Plain) :
    ∀ segment ∈ t.namespaceOf s, Text.IsField isCut segment := by
  intro segment hsegment
  rcases List.mem_append.mp hsegment with hsegment | hsegment
  · exact Text.fields_isField hsegment
  · obtain ⟨below, hbelow, rfl⟩ := List.mem_map.mp hsegment
    exact (t.language.isSegment_namespaceSegment (plain.segments below hbelow)).isField

theorem namespaceOf_ne_nil (plain : s.Plain) : t.namespaceOf s ≠ [] := by
  simp [namespaceOf, plain.placed]

theorem pathParts_directoryOf (plain : s.Plain) :
    pathParts (t.directoryOf s) = (t.namespaceOf s).map .name :=
  pathParts_directory fun x hx => isPathName_of_isField (namespaceOf_isField plain x hx)

theorem wanted_plain (plain : s.Plain) : PlainName (t.wanted s) := by
  unfold wanted
  split
  · exact Language.plainName_fileStem _ (Language.plainName_escape _ plain.name)
  all_goals exact Language.plainName_escape _ plain.name

end Target

/-! ## Files and fully-qualified names -/

namespace Placement

variable {t : Target} {s : Symbol} {stem : String}

theorem isField_fileExtension (l : Language) : Text.IsField isCut l.fileExtension := by
  cases l <;> decide

theorem fields_fileName (hstem : PlainName stem) :
    Text.fields isCut (t.fileName stem) = [stem, t.language.fileExtension] := by
  rw [Target.fileName, Text.fields_append (by decide),
    Text.fields_plain hstem.isSegment.isField, Text.fields_plain (isField_fileExtension _)]
  rfl

theorem isPathName_fileName (hstem : PlainName stem) : IsPathName (t.fileName stem) := by
  have fields := fields_fileName (t := t) hstem
  refine ⟨⟨?_, ?_⟩, ?_, ?_⟩
  · intro empty
    rw [empty] at fields
    cases fields
  · intro c hc
    simp only [Target.fileName, String.toList_append, List.mem_append] at hc
    rcases hc with (hc | hc) | hc
    · exact not_slash (hstem.isSegment.isField.2 c hc)
    · obtain rfl : c = '.' := by simpa using hc
      decide
    · exact not_slash ((isField_fileExtension _).2 c hc)
  · intro point
    rw [point] at fields
    cases fields
  · intro points
    rw [points] at fields
    cases fields

/-- A file lies in the directory of its symbol's namespace. -/
theorem pathParts_file (plain : s.Plain) (hstem : PlainName stem) :
    pathParts (t.placed s stem).file =
      (t.namespaceOf s).map .name ++ [.name (t.fileName stem)] := by
  rw [← Target.pathParts_directoryOf plain,
    ← pathParts_pathInside (t.directoryOf s) (isPathName_fileName hstem)]
  cases hl : t.language <;> simp [Target.placed, hl]

/-- A fully-qualified name can be taken apart into namespace, claimed name and, where modules have
names of their own, identifier. -/
theorem fields_qualified (plain : s.Plain) (hstem : PlainName stem) :
    Text.fields isCut (t.placed s stem).qualified =
      t.namespaceOf s ++ stem :: match t.language with
        | .python => [t.language.escape s.name]
        | .java | .cpp | .csharp => [] := by
  have segments := Target.namespaceOf_isField (t := t) plain
  have last := Text.fields_plain hstem.isSegment.isField
  have identifier := Text.fields_plain (t.language.plainName_escape plain.name).isSegment.isField
  have point : Text.IsGap isCut "." := by decide
  have colons : Text.IsGap isCut "::" := by decide
  cases hl : t.language with
  | python =>
    rw [hl] at identifier
    simp only [Target.placed, hl, Language.separator, Text.fields_append point,
      Text.fields_intercalate point segments, last, identifier, List.append_assoc]
    rfl
  | cpp =>
    simp only [Target.placed, hl, Language.separator, Text.fields_append colons,
      Text.fields_intercalate colons segments, last]
  | java | csharp =>
    simp only [Target.placed, hl, Language.separator, Text.fields_append point,
      Text.fields_intercalate point segments, last]

variable {s' : Symbol} {stem' : String}

theorem slotKey_of_namespace (plain : s.Plain) (plain' : s'.Plain)
    (segments : t.namespaceOf s = t.namespaceOf s') (stems : stem = stem') :
    slotKey t (s, stem) = slotKey t (s', stem') := by
  simp only [slotKey, Target.pathParts_directoryOf plain, Target.pathParts_directoryOf plain',
    segments, stems]

theorem slotKey_of_file (plain : s.Plain) (plain' : s'.Plain) (hstem : PlainName stem)
    (hstem' : PlainName stem')
    (h : pathParts (t.placed s stem).file = pathParts (t.placed s' stem').file) :
    slotKey t (s, stem) = slotKey t (s', stem') := by
  rw [pathParts_file plain hstem, pathParts_file plain' hstem'] at h
  obtain ⟨segments, names⟩ := List.append_inj' h rfl
  have inside : t.namespaceOf s = t.namespaceOf s' :=
    List.map_injective_iff.mpr (fun _ _ => PathPart.name.inj) segments
  have fields : Text.fields isCut (t.fileName stem) = Text.fields isCut (t.fileName stem') := by
    rw [PathPart.name.inj (List.singleton_inj.mp names)]
  rw [fields_fileName hstem, fields_fileName hstem', List.cons.injEq] at fields
  exact slotKey_of_namespace plain plain' inside fields.1

theorem slotKey_of_qualified (plain : s.Plain) (plain' : s'.Plain) (hstem : PlainName stem)
    (hstem' : PlainName stem')
    (h : (t.placed s stem).qualified = (t.placed s' stem').qualified) :
    slotKey t (s, stem) = slotKey t (s', stem') := by
  have fields := congrArg (Text.fields isCut) h
  rw [fields_qualified plain hstem, fields_qualified plain' hstem'] at fields
  obtain ⟨inside, names⟩ := List.append_inj' fields (by cases t.language <;> rfl)
  exact slotKey_of_namespace plain plain' inside (List.cons.inj names).1

/-- What is different for different keys is different for all slots. -/
theorem Claimed.nodup_of {scopes : DirectoryScopes} {slots : List Slot} {α : Type}
    (h : Claimed t scopes slots) (plain : ∀ slot ∈ slots, slot.1.Plain ∧ PlainName slot.2)
    {f : Slot → α} (tells : ∀ {s s' : Symbol} {stem stem' : String}, s.Plain → s'.Plain →
      PlainName stem → PlainName stem' → f (s, stem) = f (s', stem') →
      slotKey t (s, stem) = slotKey t (s', stem')) : (slots.map f).Nodup := by
  apply (h.nodup.of_map _).map_on
  intro x hx y hy same
  obtain ⟨symbol, stem⟩ := plain x hx
  obtain ⟨symbol', stem'⟩ := plain y hy
  exact List.inj_on_of_nodup_map h.nodup hx hy (tells symbol symbol' stem stem' same)

end Placement

/-- Names that are claimed for plain symbols are plain. -/
theorem Placement.Claimed.plain {t : Target} {scopes : DirectoryScopes} {slots : List Slot}
    (h : Claimed t scopes slots) (plain : ∀ s ∈ slots.map (·.1), s.Plain) :
    ∀ slot ∈ slots, slot.1.Plain ∧ PlainName slot.2 := by
  intro slot hslot
  have symbol := plain slot.1 (List.mem_map.mpr ⟨slot, hslot, rfl⟩)
  exact ⟨symbol, (h.spells slot hslot).plain (Target.wanted_plain symbol)⟩

namespace Emission

variable {target : Target} {revision : Option Revision} {symbols : List Symbol} {e : Emission}

/-- A plan claims a name for every symbol in the symbol's directory. -/
theorem plan_eq_ok (h : plan target revision symbols = .ok e) :
    ∃ slots, Placement.Claimed target (Placement.initialScopes target symbols) slots ∧
      slots.map (·.1) = symbols ∧
      e = ⟨target, revision, slots.map fun slot => (slot.1, target.placed slot.1 slot.2)⟩ := by
  simp only [plan, bind_eq_ok, pure_eq_ok, Except.ok.injEq] at h
  obtain ⟨placements, planned, rfl⟩ := h
  obtain ⟨slots, claimed, rfl, rfl⟩ := Placement.placeAll_eq_ok planned
  exact ⟨slots, claimed, rfl, by rw [List.zip_map']⟩

theorem plan_target (h : plan target revision symbols = .ok e) : e.target = target := by
  obtain ⟨slots, -, -, rfl⟩ := plan_eq_ok h
  rfl

theorem plan_symbols (h : plan target revision symbols = .ok e) :
    e.placed.map (·.1) = symbols := by
  obtain ⟨slots, -, rfl, rfl⟩ := plan_eq_ok h
  rw [List.map_map]
  rfl

end Emission

end EnumRegistry
