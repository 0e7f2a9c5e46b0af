import EnumRegistry.Classification.Level
import EnumRegistry.Proofs.Name.Alphabet
import EnumRegistry.Proofs.Text.Fields
import EnumRegistry.Proofs.Text.Integer
import EnumRegistry.Target.Spelling

/-!
Spellings of names. A plain name stays plain in snake case and when it is kept clear of reserved
words; a path segment stays one part of a namespace and of a path in every language.
-/

namespace EnumRegistry

open Name

theorem isAlphanum_toLower {c : Char} (h : c.isAlphanum = true) : c.toLower.isAlphanum = true :=
  of_ascii (P := fun c => c.isAlphanum = true → c.toLower.isAlphanum = true) (by decide)
    (toNat_lt_of_isNameChar (isNameChar_of_isAlphanum h)) h

theorem isNameChar_toLower {c : Char} (h : isNameChar c = true) : isNameChar c.toLower = true :=
  of_ascii (P := fun c => isNameChar c = true → isNameChar c.toLower = true) (by decide)
    (toNat_lt_of_isNameChar h) h

theorem lower_of_isNameChar {c : Char} (h : isNameChar c = true) : Text.lower c = [c.toLower] := by
  have ascii := toNat_lt_of_isNameChar h
  rw [Text.lower, if_pos ascii]

/-! ## Snake case -/

theorem not_wordEnd_underscore :
    (Text.isLowercase '_' || '_'.isDigit) = false ∧ Text.isUppercase '_' = false := by
  decide +kernel

theorem snakeFrom_chars {cs : List Char} (previous : Option Char)
    (h : ∀ c ∈ cs, isNameChar c = true) : ∀ c ∈ snakeFrom previous cs, isNameChar c = true := by
  induction cs generalizing previous with
  | nil => simp [snakeFrom]
  | cons d cs ih =>
    have hd := h d (List.mem_cons_self ..)
    intro c hc
    simp only [snakeFrom, lower_of_isNameChar hd] at hc
    rcases List.mem_append.mp hc with hc | hc
    · split at hc
      · split at hc
        · rcases List.mem_cons.mp hc with rfl | hc
          · exact isNameChar_underscore
          · exact List.mem_singleton.mp hc ▸ isNameChar_toLower hd
        · exact List.mem_singleton.mp hc ▸ isNameChar_toLower hd
      · exact List.mem_singleton.mp hc ▸ hd
    · exact ih _ (fun e he => h e (List.mem_cons_of_mem _ he)) c hc

theorem snakeFrom_solid {cs : List Char} (previous : Option Char)
    (h : ∀ c ∈ cs, isNameChar c = true) (solid : ∃ c ∈ cs, c.isAlphanum = true) :
    ∃ c ∈ snakeFrom previous cs, c.isAlphanum = true := by
  induction cs generalizing previous with
  | nil => simp at solid
  | cons d cs ih =>
    simp only [snakeFrom, lower_of_isNameChar (h d (List.mem_cons_self ..))]
    obtain ⟨c, hc, solid⟩ := solid
    rcases List.mem_cons.mp hc with rfl | hc
    · split
      · refine ⟨c.toLower, List.mem_append_left _ ?_, isAlphanum_toLower solid⟩
        split <;> simp
      · exact ⟨c, by simp, solid⟩
    · obtain ⟨e, he, solid⟩ := ih (some d) (fun e he => h e (List.mem_cons_of_mem _ he))
        ⟨c, hc, solid⟩
      exact ⟨e, List.mem_append_right _ he, solid⟩

/-- Behind nothing and behind an underscore, a letter or a digit begins no new word. -/
theorem head?_snakeFrom {c : Char} (previous : Option Char) (rest : List Char)
    (solid : c.isAlphanum = true) (start : ∀ p, previous = some p → p = '_') :
    (snakeFrom previous (c :: rest)).head? ≠ some '_' := by
  have apart {d : Char} (hd : d.isAlphanum = true) : d ≠ '_' := by
    rintro rfl
    exact absurd hd (by decide)
  have quiet : (previous.any fun p => Text.isLowercase p || p.isDigit) = false := by
    cases previous with
    | none => rfl
    | some p => exact start p rfl ▸ not_wordEnd_underscore.1
  simp only [snakeFrom, quiet, Bool.false_eq_true, ↓reduceIte,
    lower_of_isNameChar (isNameChar_of_isAlphanum solid)]
  split
  · simpa using apart (isAlphanum_toLower solid)
  · simpa using apart solid

theorem snakeFrom_plain {cs : List Char} (h : Plain cs) : Plain (snakeFrom none cs) := by
  refine ⟨snakeFrom_chars none h.chars, snakeFrom_solid none h.chars h.solid, ?_⟩
  cases cs with
  | nil =>
    obtain ⟨c, hc, -⟩ := h.solid
    cases hc
  | cons c rest =>
    by_cases first : c = '_'
    · subst first
      cases rest with
      | nil =>
        obtain ⟨c, hc, solid⟩ := h.solid
        rw [List.mem_singleton.mp hc] at solid
        exact absurd solid (by decide)
      | cons d rest =>
        have solid : d.isAlphanum = true := by
          apply isAlphanum_of_isNameChar (h.chars d (by simp))
          rintro rfl
          exact h.start ⟨rest, rfl⟩
        rw [snakeFrom, not_wordEnd_underscore.2]
        rintro ⟨more, hmore⟩
        refine head?_snakeFrom (some '_') rest solid (by simp) ?_
        simp only [Bool.false_eq_true, ↓reduceIte, List.cons_append, List.nil_append,
          List.cons.injEq, true_and] at hmore
        rw [← hmore]
        rfl
    · have solid := isAlphanum_of_isNameChar (h.chars c (List.mem_cons_self ..)) first
      rintro ⟨more, hmore⟩
      refine head?_snakeFrom none rest solid (by simp) ?_
      rw [← hmore]
      rfl

theorem plainName_snakeCase {s : String} (h : PlainName s) : PlainName (snakeCase s) := by
  rw [PlainName, snakeCase, String.toList_ofList]
  exact snakeFrom_plain h

namespace Language

variable (l : Language)

theorem plainName_escape {s : String} (h : PlainName s) : PlainName (l.escape s) := by
  unfold escape
  split
  · exact h.append (List.all_eq_true.mp (by decide))
  · exact h

theorem plainName_fileStem {s : String} (h : PlainName s) : PlainName (l.fileStem s) := by
  cases l with
  | python => exact plainName_escape .python (plainName_snakeCase h)
  | java | cpp | csharp => exact h

end Language

/-! ## Path segments -/

/-- Name characters, and the sign of a code. -/
def isSegmentChar (c : Char) : Bool := isNameChar c || c == '-'

structure IsSegment (s : String) : Prop where
  nonempty : s ≠ ""
  chars : ∀ c ∈ s.toList, isSegmentChar c = true

instance (s : String) : Decidable (IsSegment s) :=
  decidable_of_iff (s ≠ "" ∧ s.toList.all isSegmentChar = true)
    ⟨fun ⟨nonempty, chars⟩ => ⟨nonempty, List.all_eq_true.mp chars⟩,
      fun h => ⟨h.nonempty, List.all_eq_true.mpr h.chars⟩⟩

theorem isSegmentChar_of_isNameChar {c : Char} (h : isNameChar c = true) :
    isSegmentChar c = true := by
  simp [isSegmentChar, h]

theorem toNat_lt_of_isSegmentChar {c : Char} (h : isSegmentChar c = true) : c.toNat < 128 := by
  simp only [isSegmentChar, Bool.or_eq_true, beq_iff_eq] at h
  rcases h with h | rfl
  · exact toNat_lt_of_isNameChar h
  · decide

theorem isSegmentChar_toLower {c : Char} (h : isSegmentChar c = true) :
    isSegmentChar c.toLower = true :=
  of_ascii (P := fun c => isSegmentChar c = true → isSegmentChar c.toLower = true) (by decide)
    (toNat_lt_of_isSegmentChar h) h

theorem PlainName.isSegment {s : String} (h : PlainName s) : IsSegment s where
  nonempty := by
    rintro rfl
    obtain ⟨c, hc, -⟩ := h.solid
    cases hc
  chars c hc := isSegmentChar_of_isNameChar (h.chars c hc)

/-- What a node may be called: segment characters, a letter or a digit among them. -/
structure IsNodeName (s : String) : Prop where
  chars : ∀ c ∈ s.toList, isSegmentChar c = true
  solid : ∃ c ∈ s.toList, c.isAlphanum = true

theorem PlainName.isNodeName {s : String} (h : PlainName s) : IsNodeName s :=
  ⟨fun c hc => isSegmentChar_of_isNameChar (h.chars c hc), h.solid⟩

theorem IsNodeName.append {s t : String} (h : IsNodeName s)
    (chars : ∀ c ∈ t.toList, isSegmentChar c = true) : IsNodeName (s ++ t) := by
  obtain ⟨old, c, hc, solid⟩ := h
  refine ⟨?_, c, ?_, solid⟩
  · intro d hd
    rw [String.toList_append] at hd
    rcases List.mem_append.mp hd with hd | hd
    · exact old d hd
    · exact chars d hd
  · rw [String.toList_append]
    exact List.mem_append_left _ hc

theorem NameScope.Spells.isNodeName {base name : String} (h : IsNodeName base)
    (spells : NameScope.Spells base name) : IsNodeName name := by
  obtain ⟨attempt, rfl⟩ := spells
  unfold NameScope.spelling
  split
  · exact h
  · exact h.append fun c hc => isSegmentChar_of_isNameChar (isNameChar_of_mem_repr hc)

/-- Without its underscores a node's name still has a letter or a digit. -/
theorem IsNodeName.isSegment {s : String} (h : IsNodeName s) :
    IsSegment (String.ofList (s.toList.filter (· != '_'))) where
  nonempty empty := by
    obtain ⟨c, hc, solid⟩ := h.solid
    have left : c ∈ s.toList.filter (· != '_') := by
      refine List.mem_filter.mpr ⟨hc, ?_⟩
      simpa [isUnderscore] using isUnderscore_of_isAlphanum solid
    rw [String.ofList_eq_empty_iff] at empty
    rw [empty] at left
    cases left
  chars c hc := by
    rw [String.toList_ofList] at hc
    exact h.chars c (List.mem_filter.mp hc).1

theorem isNodeName_levelCode (level : Level) (code : Int) :
    IsNodeName (level.label ++ toString code) := by
  have label : IsNodeName level.label := by
    cases level <;> exact ⟨List.all_eq_true.mp (by decide), List.any_eq_true.mp (by decide)⟩
  apply label.append
  intro c hc
  cases code with
  | ofNat n => exact isSegmentChar_of_isNameChar (isNameChar_of_mem_repr (n := n) hc)
  | negSucc n =>
    rw [Text.toList_toString_negSucc] at hc
    rcases List.mem_cons.mp hc with rfl | hc
    · decide
    · exact isSegmentChar_of_isNameChar (isNameChar_of_mem_repr hc)

theorem IsSegment.append {s t : String} (h : IsSegment s)
    (chars : ∀ c ∈ t.toList, isSegmentChar c = true) : IsSegment (s ++ t) where
  nonempty empty := h.nonempty (String.append_eq_empty_iff.mp empty).1
  chars c hc := by
    rw [String.toList_append] at hc
    rcases List.mem_append.mp hc with hc | hc
    · exact h.chars c hc
    · exact chars c hc

/-- No character of a segment is cased by what stands around it. -/
theorem lowerAfter_segment {cs : List Char} (before : List Char)
    (h : ∀ c ∈ cs, isSegmentChar c = true) : Text.lowerAfter before cs = cs.map Char.toLower := by
  induction cs generalizing before with
  | nil => rfl
  | cons c cs ih =>
    have ascii := toNat_lt_of_isSegmentChar (h c (List.mem_cons_self ..))
    have latin : (c.toNat == 0x3A3) = false := by
      rw [beq_eq_false_iff_ne]
      omega
    simp only [Text.lowerAfter, latin, Bool.false_and, Bool.false_eq_true, ↓reduceIte, Text.lower,
      if_pos ascii, ih _ fun d hd => h d (List.mem_cons_of_mem _ hd), List.map_cons,
      List.singleton_append]

theorem isSegment_lowerCase {s : String} (h : IsSegment s) : IsSegment (Text.lowerCase s) where
  nonempty empty := by
    rw [Text.lowerCase, lowerAfter_segment [] h.chars, String.ofList_eq_empty_iff] at empty
    exact h.nonempty (by simpa using empty)
  chars c hc := by
    rw [Text.lowerCase, lowerAfter_segment [] h.chars, String.toList_ofList] at hc
    obtain ⟨d, hd, rfl⟩ := List.mem_map.mp hc
    exact isSegmentChar_toLower (h.chars d hd)

namespace Language

variable (l : Language)

theorem isSegment_escape {s : String} (h : IsSegment s) : IsSegment (l.escape s) := by
  unfold escape
  split
  · exact h.append (List.all_eq_true.mp (by decide))
  · exact h

theorem isSegment_namespaceSegment {s : String} (h : IsSegment s) :
    IsSegment (l.namespaceSegment s) := by
  have prefixed {t : String} (h : IsSegment t) :
      IsSegment (if t.toList.head?.any Char.isDigit then "_" ++ t else t) := by
    split
    · have underscore : IsSegment "_" := by decide
      exact underscore.append h.chars
    · exact h
  unfold namespaceSegment
  refine isSegment_escape l (prefixed ?_)
  cases l with
  | java | python => exact isSegment_lowerCase h
  | cpp | csharp => exact h

end Language

/-- What a root namespace is cut at; no segment and no name holds any of it. -/
def isCut (c : Char) : Bool := c == '.' || c == ':' || c == '/'

theorem IsSegment.isField {s : String} (h : IsSegment s) : Text.IsField isCut s := by
  refine ⟨h.nonempty, ?_⟩
  intro c hc
  exact of_ascii (P := fun c => isSegmentChar c = true → isCut c = false) (by decide)
    (toNat_lt_of_isSegmentChar (h.chars c hc)) (h.chars c hc)

end EnumRegistry
