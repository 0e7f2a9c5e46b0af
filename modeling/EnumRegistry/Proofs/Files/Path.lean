import EnumRegistry.Files.Path
import EnumRegistry.Proofs.Text.Fields
import Std.Data.TreeMap

/-!
Where paths lead. A plain name behind a directory adds one part to the parts of the directory,
however the directory is written.
-/

namespace EnumRegistry

namespace PathPart

/-- The place of a sort of part among the others. -/
def rank : PathPart → Nat
  | root => 0
  | here => 1
  | up => 2
  | name _ => 3

/-- The name of a part that has one. -/
def word : PathPart → String
  | name s => s
  | root | here | up => ""

theorem compare_eq : (compare : PathPart → PathPart → Ordering) =
    compareLex (compareOn rank) (compareOn word) := by
  funext a b
  cases a <;> cases b <;> try rfl
  rename_i s t
  change (compare s t).then .eq = compare s t
  cases compare s t <;> rfl

instance : Std.TransOrd PathPart := by
  unfold Std.TransOrd
  rw [compare_eq]
  infer_instance

instance : Std.LawfulEqOrd PathPart where
  compare_self {a} := Std.ReflCmp.compare_self
  eq_of_compare {a b} h := by
    rw [compare_eq] at h
    obtain ⟨rank, word⟩ := Ordering.then_eq_eq.mp h
    cases a <;> cases b <;> try first | rfl | cases rank
    exact congrArg name (Std.LawfulEqCmp.eq_of_compare word)

end PathPart

/-- A name that stands for itself as a part of a path. -/
structure IsPathName (s : String) : Prop where
  field : Text.IsField (· == '/') s
  not_here : s ≠ "."
  not_up : s ≠ ".."

theorem startsWith_slash_append {dir : String} (nonempty : dir ≠ "") (rest : String) :
    (dir ++ rest).startsWith "/" = dir.startsWith "/" := by
  rw [Bool.eq_iff_iff, String.startsWith_string_iff, String.startsWith_string_iff,
    String.toList_append]
  cases hdir : dir.toList with
  | nil => exact absurd (by simpa using hdir) nonempty
  | cons c cs => simp [List.cons_prefix_cons]

theorem not_absolute_of_isField {s : String} (h : Text.IsField (· == '/') s) :
    s.startsWith "/" = false := by
  rw [String.startsWith_string_eq_false_iff]
  rintro ⟨rest, hrest⟩
  have := h.2 '/' (by rw [← hrest]; simp)
  simp at this

theorem IsPathName.not_absolute {s : String} (h : IsPathName s) : s.startsWith "/" = false :=
  not_absolute_of_isField h.field

theorem IsPathName.ofName? {s : String} (h : IsPathName s) :
    PathPart.ofName? s = some (.name s) := by
  simp [PathPart.ofName?, h.not_here, h.not_up]

theorem pathParts_name {s : String} (h : IsPathName s) : pathParts s = [.name s] := by
  simp [pathParts, Text.fields_plain h.field, h.not_absolute, h.not_here, h.ofName?]

/-- A path that is not absolute begins with a name. -/
theorem fields_ne_nil {dir : String} (nonempty : dir ≠ "") (relative : dir.startsWith "/" = false) :
    Text.fields (· == '/') dir ≠ [] := by
  rw [String.startsWith_string_eq_false_iff] at relative
  cases hdir : dir.toList with
  | nil => exact absurd (by simpa using hdir) nonempty
  | cons c cs =>
    have plain : c ≠ '/' := by
      rintro rfl
      exact relative (by simp [hdir])
    simp [Text.fields_eq, Text.words, hdir, Text.pieces, plain]

theorem pathParts_slash {dir s : String} (nonempty : dir ≠ "") (h : IsPathName s)
    {path : String} (append : ∃ rest, path = dir ++ rest)
    (fields : Text.fields (· == '/') path = Text.fields (· == '/') dir ++ [s]) :
    pathParts path = pathParts dir ++ [.name s] := by
  obtain ⟨rest, rfl⟩ := append
  simp only [pathParts, fields, startsWith_slash_append nonempty]
  cases relative : dir.startsWith "/" with
  | true => simp [h.ofName?]
  | false =>
    have first : (Text.fields (· == '/') dir ++ [s]).head? =
        (Text.fields (· == '/') dir).head? := by
      cases hfields : Text.fields (· == '/') dir with
      | nil => exact absurd hfields (fields_ne_nil nonempty relative)
      | cons => rfl
    simp [first, h.ofName?]

theorem pathParts_pathInside (dir : String) {s : String} (h : IsPathName s) :
    pathParts (pathInside dir s) = pathParts dir ++ [.name s] := by
  have slash : Text.IsGap (· == '/') "/" := by decide
  unfold pathInside
  split
  · rename_i bare
    rw [h.not_absolute, Bool.or_false, String.isEmpty_iff] at bare
    subst bare
    rw [pathParts_name h]
    rfl
  · rename_i inside
    have nonempty : dir ≠ "" := by
      rintro rfl
      simp at inside
    split
    · rename_i closed
      apply pathParts_slash nonempty h ⟨s, rfl⟩
      have suffix : "/".toList <:+ dir.toList := by
        simpa using String.Slice.endsWith_string_iff.mp closed
      obtain ⟨d, hd⟩ := suffix
      obtain rfl : String.ofList d ++ "/" ++ "" = dir := by
        rw [← String.toList_inj, ← hd]
        simp
      rw [Text.fields_append slash, String.append_empty, Text.fields_append slash,
        Text.fields_plain h.field]
      simp [Text.fields_eq]
    · apply pathParts_slash nonempty h ⟨"/" ++ s, by rw [String.append_assoc]⟩
      rw [Text.fields_append slash, Text.fields_plain h.field]

/-- A path behind a directory ends like the path. -/
theorem suffix_pathInside (dir path : String) : path.toList <:+ (pathInside dir path).toList := by
  unfold pathInside
  split
  · exact List.suffix_rfl
  · split
    · exact ⟨dir.toList, String.toList_append.symm⟩
    · exact ⟨(dir ++ "/").toList, String.toList_append.symm⟩

/-! ## Plain paths -/

theorem text_of_ofName? {s : String} {part : PathPart} (h : PathPart.ofName? s = some part) :
    part.text = s := by
  unfold PathPart.ofName? at h
  split at h
  · cases h
  · split at h <;> cases h
    · rename_i up
      exact (beq_iff_eq.mp up).symm
    · rfl

/-- The names of a path that stand for parts. -/
def solidNames (names : List String) : List String :=
  names.filter fun s => (PathPart.ofName? s).isSome

theorem map_text_filterMap (names : List String) :
    (names.filterMap PathPart.ofName?).map PathPart.text = solidNames names := by
  unfold solidNames
  induction names with
  | nil => rfl
  | cons s names ih =>
    cases h : PathPart.ofName? s with
    | none => simp [h, ih]
    | some part => simp [h, ih, text_of_ofName? h]

theorem filterMap_solidNames (names : List String) :
    (solidNames names).filterMap PathPart.ofName? = names.filterMap PathPart.ofName? := by
  rw [solidNames, List.filterMap_filter]
  congr 1
  funext s
  cases PathPart.ofName? s <;> rfl

section
variable {names : List String}

theorem not_absolute_intercalate (h : ∀ s ∈ names, Text.IsField (· == '/') s) :
    ("/".intercalate names).startsWith "/" = false := by
  cases names with
  | nil => simp
  | cons s names =>
    have first := h s (List.mem_cons_self ..)
    cases names with
    | nil => simpa using not_absolute_of_isField first
    | cons t names =>
      rw [String.intercalate_cons_cons, String.append_assoc, startsWith_slash_append first.1,
        not_absolute_of_isField first]

theorem pathParts_intercalate (h : ∀ s ∈ names, Text.IsField (· == '/') s) :
    pathParts ("/".intercalate names) =
      (if names.head? == some "." then [.here] else []) ++ names.filterMap PathPart.ofName? := by
  simp only [pathParts, not_absolute_intercalate h,
    Text.fields_intercalate (by decide : Text.IsGap (· == '/') "/") h]
  rfl

theorem pathParts_intercalate_root (h : ∀ s ∈ names, Text.IsField (· == '/') s) :
    pathParts ("/".intercalate ("/" :: names)) = .root :: names.filterMap PathPart.ofName? := by
  have slash : Text.IsGap (· == '/') "/" := by decide
  have absolute : ("/".intercalate ("/" :: names)).startsWith "/" = true := by
    rw [String.startsWith_string_iff]
    cases names with
    | nil => simp
    | cons s rest => simp [String.intercalate_cons_cons]
  have fields : Text.fields (· == '/') ("/".intercalate ("/" :: names)) = names := by
    cases names with
    | nil => decide
    | cons s rest =>
      rw [String.intercalate_cons_cons, Text.fields_append slash, Text.fields_intercalate slash h]
      rfl
  simp only [pathParts, fields, absolute]
  rfl

end

/-- A path leads where it leads with single slashes. -/
theorem pathParts_plainPath (path : String) : pathParts (plainPath path) = pathParts path := by
  obtain ⟨names, hnames⟩ : ∃ names, Text.fields (· == '/') path = names := ⟨_, rfl⟩
  have field : ∀ s ∈ solidNames names, Text.IsField (· == '/') s := by
    intro s hs
    exact Text.fields_isField (hnames ▸ (List.mem_filter.mp hs).1)
  -- Only the start of a path says whether it begins with a slash or a point
  unfold plainPath
  cases absolute : path.startsWith "/" with
  | true =>
    have parts : pathParts path = [.root] ++ names.filterMap PathPart.ofName? := by
      simp [pathParts, hnames, absolute]
    rw [parts, List.map_append, map_text_filterMap]
    exact (pathParts_intercalate_root field).trans (by rw [filterMap_solidNames]; rfl)
  | false =>
    by_cases here : names.head? = some "."
    · have parts : pathParts path = [.here] ++ names.filterMap PathPart.ofName? := by
        simp [pathParts, hnames, absolute, here]
      rw [parts, List.map_append, map_text_filterMap]
      refine (pathParts_intercalate (List.forall_mem_cons.mpr ⟨by decide, field⟩)).trans ?_
      rw [← filterMap_solidNames names]
      rfl
    · have parts : pathParts path = names.filterMap PathPart.ofName? := by
        simp [pathParts, hnames, absolute, here]
      have plain : (solidNames names).head? ≠ some "." := by
        intro point
        have solid := (List.mem_filter.mp (List.mem_of_mem_head? point)).2
        cases solid
      rw [parts, map_text_filterMap, pathParts_intercalate field, filterMap_solidNames]
      simp [plain]

end EnumRegistry
