import EnumRegistry.Text.Fields

/-!
Texts joined and cut again. What stands before a separator and what stands behind it are cut on
their own, so pieces that hold no separator come back from the text they are joined to.
-/

namespace EnumRegistry.Text

/-- The pieces between separators that are not empty, as characters. -/
def words (separator : Char → Bool) (cs : List Char) : List (List Char) :=
  ((pieces separator cs).1 :: (pieces separator cs).2).filter (!·.isEmpty)

theorem fields_eq (separator : Char → Bool) (s : String) :
    fields separator s = (words separator s.toList).map String.ofList := rfl

section
variable {separator : Char → Bool}

theorem pieces_append (before : List Char) {c : Char} (h : separator c = true)
    (behind : List Char) :
    pieces separator (before ++ c :: behind) =
      ((pieces separator before).1, (pieces separator before).2 ++
        (pieces separator behind).1 :: (pieces separator behind).2) := by
  induction before with
  | nil => simp [pieces, h]
  | cons d before ih =>
    simp only [List.cons_append, pieces, ih]
    split <;> rfl

theorem words_append (before : List Char) {c : Char} (h : separator c = true)
    (behind : List Char) :
    words separator (before ++ c :: behind) = words separator before ++ words separator behind := by
  simp only [words, pieces_append before h behind]
  rw [← List.filter_append, List.cons_append]

theorem pieces_plain {word : List Char} (plain : ∀ c ∈ word, separator c = false) :
    pieces separator word = (word, []) := by
  induction word with
  | nil => rfl
  | cons c word ih =>
    simp only [pieces, ih fun d hd => plain d (List.mem_cons_of_mem _ hd),
      plain c (List.mem_cons_self ..), Bool.false_eq_true, ↓reduceIte]

@[simp] theorem words_nil : words separator [] = [] := rfl

theorem words_plain {word : List Char} (plain : ∀ c ∈ word, separator c = false)
    (nonempty : word ≠ []) : words separator word = [word] := by
  simp [words, pieces_plain plain, nonempty]

/-- No piece is empty or holds a separator. -/
theorem mem_words {cs word : List Char} (h : word ∈ words separator cs) :
    word ≠ [] ∧ ∀ c ∈ word, separator c = false := by
  simp only [words, List.mem_filter, Bool.not_eq_true', List.isEmpty_eq_false_iff] at h
  refine ⟨h.2, ?_⟩
  replace h := h.1
  induction cs generalizing word with
  | nil => simp_all [pieces]
  | cons d cs ih =>
    simp only [pieces] at h
    split at h
    · rcases List.mem_cons.mp h with rfl | h
      · simp
      · exact ih h
    · rename_i plain
      rcases List.mem_cons.mp h with rfl | h
      · intro c hc
        rcases List.mem_cons.mp hc with rfl | hc
        · simpa using plain
        · exact ih (List.mem_cons_self ..) c hc
      · exact ih (List.mem_cons_of_mem _ h)

end

/-! ## Fields of texts -/

/-- A text that is one field: not empty, and without separators. -/
def IsField (separator : Char → Bool) (s : String) : Prop :=
  s ≠ "" ∧ ∀ c ∈ s.toList, separator c = false

/-- A text that keeps fields apart: not empty, and of separators only. -/
def IsGap (separator : Char → Bool) (s : String) : Prop :=
  s ≠ "" ∧ ∀ c ∈ s.toList, separator c = true

instance (separator : Char → Bool) (s : String) : Decidable (IsField separator s) :=
  decidable_of_iff (s ≠ "" ∧ s.toList.all (!separator ·) = true) (by simp [IsField])

instance (separator : Char → Bool) (s : String) : Decidable (IsGap separator s) :=
  decidable_of_iff (s ≠ "" ∧ s.toList.all separator = true) (by simp [IsGap])

section
variable {separator : Char → Bool}

theorem fields_isField {s word : String} (h : word ∈ fields separator s) :
    IsField separator word := by
  obtain ⟨cs, hcs, rfl⟩ := List.mem_map.mp h
  obtain ⟨nonempty, plain⟩ := mem_words hcs
  refine ⟨fun empty => nonempty ?_, by simpa using plain⟩
  simpa using congrArg String.toList empty

theorem fields_plain {s : String} (h : IsField separator s) : fields separator s = [s] := by
  have nonempty : s.toList ≠ [] := by simpa using h.1
  rw [fields_eq, words_plain h.2 nonempty, List.map_singleton, String.ofList_toList]

/-- Fields behind a gap are cut on their own. -/
theorem fields_append {gap : String} (separates : IsGap separator gap) (before behind : String) :
    fields separator (before ++ gap ++ behind) =
      fields separator before ++ fields separator behind := by
  obtain ⟨nonempty, all⟩ := separates
  simp only [fields_eq, String.toList_append, ← List.map_append, List.append_assoc]
  congr 1
  cases hgap : gap.toList with
  | nil => exact absurd (by simpa using hgap) nonempty
  | cons c rest =>
    rw [hgap] at all
    rw [List.cons_append, words_append _ (all c (List.mem_cons_self ..))]
    congr 1
    replace all := fun d hd => all d (List.mem_cons_of_mem _ hd)
    clear hgap
    induction rest with
    | nil => rfl
    | cons d rest ih =>
      rw [List.cons_append, ← List.nil_append (d :: _),
        words_append [] (all d (List.mem_cons_self ..)), words_nil, List.nil_append]
      exact ih fun e he => all e (List.mem_cons_of_mem _ he)

/-- Fields come back from the text they are joined to. -/
theorem fields_intercalate {gap : String} (separates : IsGap separator gap) {parts : List String}
    (plain : ∀ s ∈ parts, IsField separator s) :
    fields separator (gap.intercalate parts) = parts := by
  induction parts with
  | nil => simp [fields_eq]
  | cons s parts ih =>
    cases parts with
    | nil => simpa using fields_plain (plain s (List.mem_cons_self ..))
    | cons t parts =>
      rw [String.intercalate_cons_cons, fields_append separates,
        fields_plain (plain s (List.mem_cons_self ..)),
        ih fun u hu => plain u (List.mem_cons_of_mem _ hu), List.singleton_append]

end

end EnumRegistry.Text
