import EnumRegistry.Proofs.Name.FirstDigit

/-!
The name of a text without letters in closed form: the ancestors up to the nearest that has a letter
stand before it, and no farther one has a say. Whether what is put together has a letter is decided
by its parts.
-/

namespace EnumRegistry.Name

open Text (not_edge_of_dropWhile)

/-- What is put behind ancestors: a name without the underscores before it. -/
def bare (base : List Char) : List Char := base.dropWhile isUnderscore

/-- What an ancestor puts before a name: its normalised text without underscores at the ends. -/
def brought (ancestor : List Char) : List Char := Text.trimEnds isUnderscore (normal ancestor)

/-- A core behind ancestors, the farthest of them first, with single underscores between. -/
def joined (core : List Char) (ancestors : List (List Char)) : List Char :=
  ['_'].intercalate ((ancestors.map brought).reverse ++ [core])

theorem intercalate_concat_pair (separator first second : List Char) (parts : List (List Char)) :
    separator.intercalate (parts ++ [first, second]) =
      separator.intercalate (parts ++ [first ++ separator ++ second]) := by
  induction parts with
  | nil => simp [List.intercalate_cons_cons]
  | cons part parts ih =>
    have more (last : List (List Char)) (held : last ≠ []) :
        separator.intercalate (part :: parts ++ last) =
          part ++ separator ++ separator.intercalate (parts ++ last) := by
      rw [List.cons_append, List.intercalate_cons_of_ne_nil (by simp [held])]
    rw [more _ (by simp), more _ (by simp), ih]

theorem joined_nil (core : List Char) : joined core [] = core := by
  simp [joined]

/-- The nearest ancestor makes one core with what it is put before. -/
theorem joined_cons (core ancestor : List Char) (farther : List (List Char)) :
    joined core (ancestor :: farther) = joined (brought ancestor ++ '_' :: core) farther := by
  have parts : ((ancestor :: farther).map brought).reverse ++ [core] =
      (farther.map brought).reverse ++ [brought ancestor, core] := by simp
  rw [joined, parts, intercalate_concat_pair, joined, List.append_assoc, List.singleton_append]

/-! ## Letters -/

theorem letterless_of_numeric {base : List Char} (h : numeric base = true) :
    ∀ c ∈ bare base, c.isDigit = true ∨ c = '_' := by
  simp only [numeric, Bool.and_eq_true, List.all_eq_true, Bool.or_eq_true, beq_iff_eq] at h
  exact h.2

/-- A name without letters is the core of a name, whatever text it came from. -/
theorem core_of_numeric {base : List Char} (h : numeric base = true) : Core (bare base) := by
  refine ⟨?_, ?_, ?_⟩
  · intro c hc
    rcases letterless_of_numeric h c hc with digit | rfl
    · exact isNameChar_of_isAlphanum (by simp [Char.isAlphanum, digit])
    · exact isNameChar_underscore
  · simp only [numeric, Bool.and_eq_true, List.any_eq_true] at h
    obtain ⟨⟨c, hc, digit⟩, -⟩ := h
    exact ⟨c, hc, by simp [Char.isAlphanum, digit]⟩
  · intro first
    exact isUnderscore_eq_false.mp (not_edge_of_dropWhile first) rfl

theorem numeric_underscore {core : List Char} (h : Core core) :
    numeric ('_' :: core) = numeric core := by
  rw [Bool.eq_iff_iff, numeric_iff h.solid, numeric_iff h.plain_underscore.solid]
  simp

/-- What a core without letters becomes behind ancestors, and when it stays without: the induction
is on the ancestors, each of which makes a longer core with those before it. -/
theorem qualify_eq {core : List Char} (h : Core core)
    (letterless : ∀ c ∈ core, c.isDigit = true ∨ c = '_') (ancestors : List (List Char)) :
    qualify core ancestors =
        (match ancestors.findIdx? (fun a => !numeric (normal a)) with
        | some k => joined core (ancestors.take (k + 1))
        | none => '_' :: joined core ancestors) ∧
      numeric (qualify core ancestors) = ancestors.all fun a => numeric (normal a) := by
  induction ancestors generalizing core with
  | nil =>
    have numbers : numeric core = true := (numeric_iff h.solid).mpr letterless
    simp [qualify, joined_nil, numeric_underscore h, numbers]
  | cons ancestor farther ih =>
    have same := numeric_behind h letterless ancestor
    by_cases letters : numeric (normal ancestor) = true
    · have longer : ∀ c ∈ brought ancestor ++ '_' :: core, c.isDigit = true ∨ c = '_' :=
        (numeric_iff (h.behind ancestor).solid).mp (same.trans letters)
      obtain ⟨closed, numbers⟩ := ih (h.behind ancestor) longer
      rw [qualify, if_pos (same.trans letters), numbers]
      refine ⟨?_, by simp [letters]⟩
      rw [closed, List.findIdx?_cons, if_neg (by simp [letters])]
      cases farther.findIdx? fun a => !numeric (normal a) with
      | none => exact congrArg _ (joined_cons ..).symm
      | some k => exact (joined_cons ..).symm
    · have mixed : numeric (brought ancestor ++ '_' :: core) = false := by
        rw [brought, same]
        simpa using letters
      rw [qualify, ← brought, if_neg (by simp [mixed]), List.findIdx?_cons,
        if_pos (by simp [letters])]
      simp [joined_cons, joined_nil, mixed, letters]

/-! ## Texts -/

/-- What a text leaves behind ancestors, as a text. -/
def bareText (base : String) : String := String.ofList (bare base.toList)

/-- A normalised text without underscores at its ends. -/
def broughtText (ancestor : String) : String :=
  String.ofList (Text.trimEnds isUnderscore (normalize ancestor).toList)

/-- The texts of ancestors before a base, the farthest first, joined by single underscores. -/
def joinedText (base : String) (ancestors : List String) : String :=
  "_".intercalate ((ancestors.map broughtText).reverse ++ [bareText base])

theorem ofList_joined (base : String) (ancestors : List String) :
    String.ofList (joined (bare base.toList) (ancestors.map String.toList)) =
      joinedText base ancestors := by
  have parts : (ancestors.map String.toList).map brought =
      (ancestors.map broughtText).map String.toList := by
    simp [brought, broughtText, toList_normalize]
  rw [← String.toList_inj, String.toList_ofList, joinedText, String.toList_intercalate, joined,
    parts]
  simp [bareText]

theorem findIdx?_toList (ancestors : List String) :
    (ancestors.map String.toList).findIdx? (fun a => !numeric (normal a)) =
      ancestors.findIdx? fun a => !isNumeric (normalize a) := by
  simp only [List.findIdx?_map, Function.comp_def, isNumeric_normalize]

theorem compose_of_letters {base : String} (h : isNumeric base = false) (ancestors : List String) :
    compose base ancestors = base := by
  have letters : ¬ numeric base.toList = true := by simpa [isNumeric] using h
  rw [compose, composed, if_neg letters, String.ofList_toList]

theorem compose_of_numeric {base : String} (h : isNumeric base = true) (ancestors : List String) :
    compose base ancestors =
      String.ofList (qualify (bare base.toList) (ancestors.map String.toList)) := by
  have letterless : numeric base.toList = true := h
  rw [compose, composed, if_pos letterless, bare]

/-- A name that has a letter stands as it is. One without is put behind its ancestors up to the
nearest whose normalised text has a letter, joined by single underscores, whatever the farther ones
are; where no ancestor has a letter all are put before it, and an underscore before them. So a name
without letters comes out just where neither the base nor any ancestor has one. -/
theorem letterless_name_joined (base : String) (ancestors : List String) :
    compose base ancestors =
        (if isNumeric base then
          match ancestors.findIdx? (fun a => !isNumeric (normalize a)) with
          | some k => joinedText base (ancestors.take (k + 1))
          | none => "_" ++ joinedText base ancestors
        else base) ∧
      isNumeric (compose base ancestors) =
        (isNumeric base && ancestors.all fun a => isNumeric (normalize a)) := by
  cases letterless : isNumeric base with
  | false => simp [compose_of_letters letterless, letterless]
  | true =>
    obtain ⟨closed, numbers⟩ := qualify_eq (core_of_numeric letterless)
      (letterless_of_numeric letterless) (ancestors.map String.toList)
    rw [compose_of_numeric letterless]
    constructor
    · rw [closed, findIdx?_toList, if_pos rfl]
      cases ancestors.findIdx? fun a => !isNumeric (normalize a) with
      | none =>
        simp only [String.ofList_cons, ofList_joined]
        rfl
      | some k => simp only [← List.map_take, ofList_joined]
    · rw [isNumeric, String.toList_ofList, numbers, List.all_map]
      simp [Function.comp_def, isNumeric_normalize]

example : compose "_0" ["12", "Land", "Sea"] = "Land_12_0" := by decide +kernel

end EnumRegistry.Name
