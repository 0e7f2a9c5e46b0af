import EnumRegistry.Name.Ancestry
import EnumRegistry.Proofs.Name.Scope
import EnumRegistry.Proofs.Text.Blank
import EnumRegistry.Satellite

/-!
What names are made of. Names that are derived from texts have ASCII letters, digits and underscores
only, something other than underscores among them, and no two underscores at the start; telling
names apart keeps them so.
-/

namespace EnumRegistry

namespace Name

open Text (head?_trimEnds mem_dropWhile_of_not mem_trimEnds mem_trimEnds_of_not
  not_edge_of_dropWhile)

/-- Name characters, a letter or a digit among them, and no two underscores at the start. -/
structure Plain (cs : List Char) : Prop where
  chars : ∀ c ∈ cs, isNameChar c = true
  solid : ∃ c ∈ cs, c.isAlphanum = true
  start : ¬ ['_', '_'] <+: cs

/-- Name characters, a letter or a digit among them, and no underscore at the start. -/
structure Core (cs : List Char) : Prop where
  chars : ∀ c ∈ cs, isNameChar c = true
  solid : ∃ c ∈ cs, c.isAlphanum = true
  start : cs.head? ≠ some '_'

theorem isNameChar_underscore : isNameChar '_' = true := by decide

theorem isNameChar_of_isAlphanum {c : Char} (h : c.isAlphanum = true) : isNameChar c = true := by
  simp [isNameChar, h]

theorem isAlphanum_of_isNameChar {c : Char} (h : isNameChar c = true) (solid : c ≠ '_') :
    c.isAlphanum = true := by
  simpa [isNameChar, solid] using h

theorem Core.plain {cs : List Char} (h : Core cs) : Plain cs := by
  refine ⟨h.chars, h.solid, ?_⟩
  rintro ⟨rest, rfl⟩
  exact h.start rfl

theorem Core.plain_underscore {cs : List Char} (h : Core cs) : Plain ('_' :: cs) := by
  obtain ⟨chars, ⟨c, hc, solid⟩, start⟩ := h
  refine ⟨?_, ⟨c, List.mem_cons_of_mem _ hc, solid⟩, ?_⟩
  · intro d hd
    rcases List.mem_cons.mp hd with rfl | hd
    · exact isNameChar_underscore
    · exact chars d hd
  · rintro ⟨rest, hrest⟩
    simp only [List.cons_append, List.nil_append, List.cons.injEq, true_and] at hrest
    exact start (by rw [← hrest]; rfl)

/-- A name that has one letter or digit begins with it or with an underscore before it. -/
theorem Plain.append {cs ds : List Char} (h : Plain cs) (chars : ∀ d ∈ ds, isNameChar d = true) :
    Plain (cs ++ ds) := by
  obtain ⟨old, ⟨c, hc, solid⟩, start⟩ := h
  refine ⟨?_, ⟨c, List.mem_append_left _ hc, solid⟩, ?_⟩
  · intro d hd
    rcases List.mem_append.mp hd with hd | hd
    · exact old d hd
    · exact chars d hd
  · rintro ⟨rest, hrest⟩
    match cs with
    | [] => cases hc
    | [d] =>
      obtain rfl := List.mem_singleton.mp hc
      simp only [List.cons_append, List.nil_append, List.cons.injEq] at hrest
      rw [← hrest.1] at solid
      exact absurd solid (by decide)
    | d :: e :: rest' =>
      simp only [List.cons_append, List.nil_append, List.cons.injEq] at hrest
      exact start ⟨rest', by rw [← hrest.1, ← hrest.2.1]; rfl⟩

/-! ## Names from texts -/

theorem mem_collapse {cs : List Char} {c : Char} (h : c ∈ collapse cs) : c ∈ cs := by
  fun_induction collapse cs with
  | case1 => cases h
  | case2 d rest run ih => exact List.mem_cons_of_mem _ (ih h)
  | case3 d rest run ih =>
    rcases List.mem_cons.mp h with rfl | h
    · exact List.mem_cons_self ..
    · exact List.mem_cons_of_mem _ (ih h)

theorem isUnderscore_eq_false {c : Char} : isUnderscore c = false ↔ c ≠ '_' := by
  simp [isUnderscore]

theorem isUnderscore_of_isAlphanum {c : Char} (h : c.isAlphanum = true) :
    isUnderscore c = false := by
  rw [isUnderscore_eq_false]
  rintro rfl
  exact absurd h (by decide)

/-- A name without underscores at its ends begins with a letter or a digit, if with anything. -/
theorem trimEnds_core {cs : List Char} (chars : ∀ c ∈ cs, isNameChar c = true)
    (solid : ∃ c ∈ cs, c.isAlphanum = true) : Core (Text.trimEnds isUnderscore cs) := by
  obtain ⟨c, hc, solid⟩ := solid
  refine ⟨fun d hd => chars d (mem_trimEnds hd),
    ⟨c, mem_trimEnds_of_not hc (isUnderscore_of_isAlphanum solid), solid⟩, ?_⟩
  intro first
  exact isUnderscore_eq_false.mp (head?_trimEnds first) rfl

theorem normal_plain (raw : List Char) : Plain (normal raw) := by
  unfold normal
  have chars : ∀ c ∈ Text.trimEnds isUnderscore (collapse ((spelled raw).filter isNameChar)),
      isNameChar c = true := by
    intro c hc
    exact (List.mem_filter.mp (mem_collapse (mem_trimEnds hc))).2
  have first := @head?_trimEnds isUnderscore (collapse ((spelled raw).filter isNameChar))
  generalize Text.trimEnds isUnderscore _ = trimmed at chars first
  cases trimmed with
  | nil =>
    exact ⟨List.all_eq_true.mp (by decide), List.any_eq_true.mp (by decide), by decide⟩
  | cons c rest =>
    have solid : c.isAlphanum = true := by
      apply isAlphanum_of_isNameChar (chars c (List.mem_cons_self ..))
      rintro rfl
      simpa [isUnderscore] using first rfl
    have core : Core (c :: rest) := by
      refine ⟨chars, ⟨c, List.mem_cons_self .., solid⟩, ?_⟩
      rintro h
      cases h
      exact absurd solid (by decide)
    simp only [guarded]
    split
    · exact core.plain_underscore
    · exact core.plain

/-- What is left of a name without the underscores at its ends. -/
theorem normal_core (raw : List Char) : Core (Text.trimEnds isUnderscore (normal raw)) :=
  trimEnds_core (normal_plain raw).chars (normal_plain raw).solid

/-- A core begins as it did, whatever is put behind it. -/
theorem Core.head?_append {cs : List Char} (h : Core cs) (ds : List Char) :
    (cs ++ ds).head? = cs.head? := by
  obtain ⟨c, hc, -⟩ := h.solid
  cases cs with
  | nil => cases hc
  | cons d rest => rfl

/-- An ancestor brings name characters and puts a letter or a digit first. -/
theorem Core.behind {core : List Char} (h : Core core) (ancestor : List Char) :
    Core (Text.trimEnds isUnderscore (normal ancestor) ++ '_' :: core) := by
  have trimmed := normal_core ancestor
  obtain ⟨c, hc, solid⟩ := trimmed.solid
  refine ⟨?_, ⟨c, List.mem_append_left _ hc, solid⟩, ?_⟩
  · intro d hd
    rcases List.mem_append.mp hd with hd | hd
    · exact trimmed.chars d hd
    · exact h.plain_underscore.chars d hd
  · rw [trimmed.head?_append]
    exact trimmed.start

theorem qualify_plain {core : List Char} (h : Core core) (ancestors : List (List Char)) :
    Plain (qualify core ancestors) := by
  induction ancestors generalizing core with
  | nil => exact h.plain_underscore
  | cons ancestor farther ih =>
    simp only [qualify]
    split
    · exact ih (h.behind ancestor)
    · exact (h.behind ancestor).plain

/-- What is put behind ancestors is the base without the underscores before it. -/
theorem Plain.core {base : List Char} (h : Plain base) : Core (base.dropWhile isUnderscore) := by
  obtain ⟨c, hc, solid⟩ := h.solid
  refine ⟨fun d hd => h.chars d ((List.dropWhile_sublist _).subset hd),
    ⟨c, mem_dropWhile_of_not hc (isUnderscore_of_isAlphanum solid), solid⟩, ?_⟩
  intro first
  exact isUnderscore_eq_false.mp (not_edge_of_dropWhile first) rfl

theorem composed_plain {base : List Char} (h : Plain base) (ancestors : List (List Char)) :
    Plain (composed base ancestors) := by
  unfold composed
  split
  · exact qualify_plain h.core _
  · exact h

end Name

theorem toNat_lt_of_isNameChar {c : Char} (h : Name.isNameChar c = true) : c.toNat < 128 := by
  by_cases underscore : c = '_'
  · subst underscore
    decide
  · exact Text.toNat_lt_of_isAlphanum (Name.isAlphanum_of_isNameChar h underscore)

/-- A text that is a plain name. -/
def PlainName (s : String) : Prop := Name.Plain s.toList

theorem plainName_normalize (raw : String) : PlainName (Name.normalize raw) := by
  rw [PlainName, Name.normalize, String.toList_ofList]
  exact Name.normal_plain _

theorem plainName_compose {base : String} (h : PlainName base) (ancestors : List String) :
    PlainName (Name.compose base ancestors) := by
  rw [PlainName, Name.compose, String.toList_ofList]
  exact Name.composed_plain h _

theorem isNameChar_of_mem_repr {n : Nat} {c : Char} (h : c ∈ (toString n).toList) :
    Name.isNameChar c = true := by
  have digit : c.isDigit = true := by
    rw [Nat.toString_eq_ofList_toDigits, String.toList_ofList] at h
    exact Nat.isDigit_of_mem_toDigits (by decide) (by decide) h
  exact Name.isNameChar_of_isAlphanum (by simp [Char.isAlphanum, digit])

theorem PlainName.append {s t : String} (h : PlainName s)
    (chars : ∀ c ∈ t.toList, Name.isNameChar c = true) : PlainName (s ++ t) := by
  rw [PlainName, String.toList_append]
  exact Name.Plain.append h chars

theorem NameScope.Spells.plain {base name : String} (h : PlainName base)
    (spells : NameScope.Spells base name) : PlainName name := by
  obtain ⟨attempt, rfl⟩ := spells
  unfold NameScope.spelling
  split
  · exact h
  · exact h.append fun c hc => isNameChar_of_mem_repr hc

theorem plainName_satelliteMark {base : String} (h : PlainName base) (ordinal : Nat) :
    PlainName (base ++ Enumeration.satelliteMark ordinal) := by
  apply h.append
  intro c hc
  have word : ∀ c ∈ "Additional".toList, Name.isNameChar c = true :=
    List.all_eq_true.mp (by decide)
  unfold Enumeration.satelliteMark at hc
  split at hc
  · exact word c hc
  · rw [String.toList_append] at hc
    rcases List.mem_append.mp hc with hc | hc
    · exact word c hc
    · exact isNameChar_of_mem_repr hc

end EnumRegistry
