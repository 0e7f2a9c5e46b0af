import EnumRegistry.Name.Naming
import EnumRegistry.Proofs.Name.Alphabet

/-!
Names that begin with a digit. A text that begins with one is given an underscore, but an ancestor
that a name without letters is put behind loses it again, and nothing is put before the ancestor. So
a derived name begins with a digit just where the nearest ancestor with a letter does.
-/

namespace EnumRegistry

namespace Name

open Text (head?_trimEnds head?_trimEnds_eq mem_dropWhile_of_not mem_trimEnds mem_trimEnds_of_not)

/-- Whether a name begins with a digit. -/
def digitFirst (name : List Char) : Bool := name.head?.any Char.isDigit

/-- A text is given an underscore if what it is normalised to begins with a digit. -/
theorem head?_normal_iff (raw : List Char) : (normal raw).head? = some '_' ↔
    digitFirst (Text.trimEnds isUnderscore (normal raw)) = true := by
  unfold normal
  have first := @head?_trimEnds isUnderscore (collapse ((spelled raw).filter isNameChar))
  generalize Text.trimEnds isUnderscore (collapse _) = trimmed at first
  cases trimmed with
  | nil => decide
  | cons c rest =>
    have solid : isUnderscore c = false := first rfl
    have apart : c ≠ '_' := by simpa [isUnderscore] using solid
    by_cases digit : c.isDigit = true
    · simp [guarded, digit, digitFirst, head?_trimEnds_eq, isUnderscore, apart]
    · simp [guarded, digit, digitFirst, head?_trimEnds_eq, isUnderscore, apart]

theorem not_digitFirst_normal (raw : List Char) : digitFirst (normal raw) = false := by
  unfold normal
  generalize Text.trimEnds isUnderscore _ = trimmed
  cases trimmed with
  | nil => decide
  | cons c rest =>
    by_cases digit : c.isDigit = true
    · simp [guarded, digit, digitFirst]
    · simp [guarded, digit, digitFirst]

/-! ## Names without letters -/

/-- A name with something besides underscores is numeric if it has no letters. -/
theorem numeric_iff {cs : List Char} (solid : ∃ c ∈ cs, c.isAlphanum = true) :
    numeric cs = true ↔ ∀ c ∈ cs, c.isDigit = true ∨ c = '_' := by
  have kept {c : Char} (hc : c ∈ cs) (apart : c ≠ '_') : c ∈ cs.dropWhile isUnderscore :=
    mem_dropWhile_of_not hc (by simpa [isUnderscore] using apart)
  simp only [numeric, Bool.and_eq_true, List.any_eq_true, List.all_eq_true, Bool.or_eq_true,
    beq_iff_eq]
  constructor
  · rintro ⟨-, all⟩ c hc
    by_cases apart : c = '_'
    · exact .inr apart
    · exact all c (kept hc apart)
  · intro all
    refine ⟨?_, fun c hc => all c ((List.dropWhile_sublist _).subset hc)⟩
    obtain ⟨c, hc, solid⟩ := solid
    have apart : c ≠ '_' := by
      rintro rfl
      exact absurd solid (by decide)
    exact ⟨c, kept hc apart, (all c hc).resolve_right apart⟩

/-- A name without letters stays so behind an ancestor that has none either. -/
theorem numeric_behind {core : List Char} (h : Core core)
    (letterless : ∀ c ∈ core, c.isDigit = true ∨ c = '_') (ancestor : List Char) :
    numeric (Text.trimEnds isUnderscore (normal ancestor) ++ '_' :: core) =
      numeric (normal ancestor) := by
  rw [Bool.eq_iff_iff, numeric_iff (h.behind ancestor).solid,
    numeric_iff (normal_plain ancestor).solid]
  constructor
  · intro all c hc
    by_cases apart : c = '_'
    · exact .inr apart
    · apply all c
      apply List.mem_append_left
      exact mem_trimEnds_of_not hc (by simpa [isUnderscore] using apart)
  · intro all c hc
    rcases List.mem_append.mp hc with hc | hc
    · exact all c (mem_trimEnds hc)
    · rcases List.mem_cons.mp hc with rfl | hc
      · exact .inr rfl
      · exact letterless c hc

/-- A name without letters begins, behind its ancestors, as the nearest of them that has a letter
does without its underscore. -/
theorem digitFirst_qualify {core : List Char} (h : Core core)
    (letterless : ∀ c ∈ core, c.isDigit = true ∨ c = '_') (ancestors : List (List Char)) :
    digitFirst (qualify core ancestors) = true ↔
      ∃ ancestor, ancestors.find? (fun a => !numeric (normal a)) = some ancestor ∧
        (normal ancestor).head? = some '_' := by
  induction ancestors generalizing core with
  | nil => simp [qualify, digitFirst]
  | cons ancestor farther ih =>
    have same := numeric_behind h letterless ancestor
    by_cases letters : numeric (normal ancestor) = true
    · have longer : ∀ c ∈ Text.trimEnds isUnderscore (normal ancestor) ++ '_' :: core,
          c.isDigit = true ∨ c = '_' :=
        (numeric_iff (h.behind ancestor).solid).mp (same.trans letters)
      have skipped : (ancestor :: farther).find? (fun a => !numeric (normal a)) =
          farther.find? (fun a => !numeric (normal a)) := by
        rw [List.find?_cons_of_neg (by simp [letters])]
      rw [qualify, if_pos (same.trans letters), skipped]
      exact ih (h.behind ancestor) longer
    · have found : (ancestor :: farther).find? (fun a => !numeric (normal a)) = some ancestor := by
        rw [List.find?_cons_of_pos (by simp [letters])]
      have begins : digitFirst (Text.trimEnds isUnderscore (normal ancestor) ++ '_' :: core) =
          digitFirst (Text.trimEnds isUnderscore (normal ancestor)) := by
        rw [digitFirst, (normal_core ancestor).head?_append, digitFirst]
      rw [qualify, if_neg (by rw [same]; exact letters), begins, ← head?_normal_iff, found]
      simp

theorem digitFirst_composed (raw : List Char) (ancestors : List (List Char)) :
    digitFirst (composed (normal raw) ancestors) = true ↔ numeric (normal raw) = true ∧
      ∃ ancestor, ancestors.find? (fun a => !numeric (normal a)) = some ancestor ∧
        (normal ancestor).head? = some '_' := by
  have plain := normal_plain raw
  by_cases letters : numeric (normal raw) = true
  · have letterless := (numeric_iff plain.solid).mp letters
    rw [composed, if_pos letters, digitFirst_qualify plain.core fun c hc =>
      letterless c ((List.dropWhile_sublist _).subset hc)]
    simp [letters]
  · rw [composed, if_neg letters]
    simp [letters, not_digitFirst_normal]

theorem toList_normalize (raw : String) : (normalize raw).toList = normal raw.toList :=
  String.toList_ofList

theorem isNumeric_normalize (raw : String) :
    isNumeric (normalize raw) = numeric (normal raw.toList) := by
  rw [isNumeric, toList_normalize]

theorem digitFirst_compose (raw : String) (ancestors : List String) :
    digitFirst (compose (normalize raw) ancestors).toList = true ↔
      isNumeric (normalize raw) = true ∧
        ∃ ancestor, ancestors.find? (fun a => !isNumeric (normalize a)) = some ancestor ∧
          (normalize ancestor).toList.head? = some '_' := by
  have found : (ancestors.map String.toList).find? (fun a => !numeric (normal a)) =
      (ancestors.find? (fun a => !isNumeric (normalize a))).map String.toList := by
    simp only [List.find?_map, Function.comp_def, isNumeric_normalize]
  rw [compose, String.toList_ofList, toList_normalize, digitFirst_composed, found,
    isNumeric_normalize]
  constructor
  · rintro ⟨letterless, ancestor, nearest, begins⟩
    obtain ⟨text, lettered, rfl⟩ := Option.map_eq_some_iff.mp nearest
    exact ⟨letterless, text, lettered, (toList_normalize text).symm ▸ begins⟩
  · rintro ⟨letterless, text, lettered, begins⟩
    have mapped := congrArg (Option.map String.toList) lettered
    exact ⟨letterless, text.toList, mapped, toList_normalize text ▸ begins⟩

/-- What is put behind a name does not change how it begins. -/
theorem digitFirst_append {cs : List Char} (held : cs ≠ []) (ds : List Char) :
    digitFirst (cs ++ ds) = digitFirst cs := by
  cases cs with
  | nil => contradiction
  | cons c rest => rfl

end Name

theorem PlainName.ne_nil {name : String} (h : PlainName name) : name.toList ≠ [] := by
  obtain ⟨c, hc, -⟩ := h.solid
  intro none
  simp [none] at hc

theorem NameScope.Spells.digitFirst {base name : String} (h : PlainName base)
    (spells : NameScope.Spells base name) :
    Name.digitFirst name.toList = Name.digitFirst base.toList := by
  obtain ⟨attempt, rfl⟩ := spells
  unfold NameScope.spelling
  split
  · rfl
  · rw [String.toList_append, Name.digitFirst_append h.ne_nil]

/-- A derived name has ASCII letters, digits and underscores only, both before and after the scope
told it apart, and is not empty. It begins with a digit just where a text without letters stands
behind ancestors, and the nearest of them that has a letter begins with a digit. -/
theorem derived_name_begins {n : Naming} {scope scope' : NameScope} {resolved : ResolvedName}
    (derived : n.fixed = none) (claimed : n.resolve scope = .ok (resolved, scope')) :
    ∀ name ∈ [resolved.base, resolved.name],
      name ≠ "" ∧ (∀ c ∈ name.toList, Name.isNameChar c = true) ∧
      (Name.digitFirst name.toList = true ↔ Name.isNumeric (Name.normalize n.raw) = true ∧
        ∃ ancestor,
          n.ancestors.find? (fun a => !Name.isNumeric (Name.normalize a)) = some ancestor ∧
          (Name.normalize ancestor).toList.head? = some '_') := by
  simp only [Naming.resolve, bind_eq_ok, Prod.exists, pure_eq_ok, Except.ok.injEq,
    Prod.mk.injEq] at claimed
  obtain ⟨name, _, claimed, rfl, rfl⟩ := claimed
  have spells := (NameScope.claim_eq_ok claimed).1
  have base : n.base = Name.compose (Name.normalize n.raw) n.ancestors := by
    rw [Naming.base, derived]
  have plain : PlainName n.base := base ▸ plainName_compose (plainName_normalize _) _
  have begins : Name.digitFirst n.base.toList = true ↔ _ :=
    base ▸ Name.digitFirst_compose n.raw n.ancestors
  have nonempty {name : String} (h : PlainName name) : name ≠ "" := by
    rintro rfl
    exact h.ne_nil rfl
  intro other hother
  rcases List.mem_pair.mp hother with rfl | rfl
  · exact ⟨nonempty plain, plain.chars, begins⟩
  · have plain' := spells.plain plain
    exact ⟨nonempty plain', plain'.chars, spells.digitFirst plain ▸ begins⟩

/-- A row without letters in its text, below a type whose name has none either. -/
def squadNaming : Naming where
  raw := "5"
  ancestors := ["12", "3rd Army"]
  subject := "row 5"

/-- In a scope in which its base name is taken, the row gets a further spelling of it, which begins
as the base name does. -/
theorem squad_name_begins : ∃ (resolved : ResolvedName) (scope : NameScope),
    squadNaming.fixed = none ∧
    squadNaming.resolve (NameScope.empty.insert "3RD_ARMY_12_5") = .ok (resolved, scope) ∧
    resolved = ⟨"3rd_Army_12_5", "3rd_Army_12_51"⟩ ∧ resolved.name ≠ "" ∧
    (∀ c ∈ resolved.name.toList, Name.isNameChar c = true) ∧
    (Name.digitFirst resolved.name.toList = true ↔
      Name.isNumeric (Name.normalize squadNaming.raw) = true ∧ ∃ ancestor,
        squadNaming.ancestors.find? (fun a => !Name.isNumeric (Name.normalize a)) = some ancestor ∧
        (Name.normalize ancestor).toList.head? = some '_') := by
  have run : (squadNaming.resolve (NameScope.empty.insert "3RD_ARMY_12_5")).toOption.map (·.1) =
      some ⟨"3rd_Army_12_5", "3rd_Army_12_51"⟩ := by
    decide +kernel
  obtain ⟨⟨resolved, scope⟩, claimed, facts⟩ := exists_ok_of_map run
  have begins := derived_name_begins rfl claimed resolved.name (by simp)
  exact ⟨resolved, scope, rfl, claimed, facts, begins⟩

/-- A derived name can begin with a digit. -/
theorem digit_begins_derived_name : ∃ (n : Naming) (resolved : ResolvedName) (scope : NameScope),
    n.raw = "5" ∧ n.ancestors = ["3rd Army"] ∧ n.fixed = none ∧
    n.resolve {} = .ok (resolved, scope) ∧ resolved.base = "3rd_Army_5" ∧
    resolved.name = "3rd_Army_5" ∧ Name.digitFirst resolved.name.toList = true := by
  let n : Naming := { raw := "5", ancestors := ["3rd Army"], subject := "row 5" }
  have run : (n.resolve {}).toOption.map (·.1) = some ⟨"3rd_Army_5", "3rd_Army_5"⟩ := by
    decide +kernel
  obtain ⟨⟨resolved, scope⟩, claimed, facts⟩ := exists_ok_of_map run
  obtain rfl : resolved = ⟨"3rd_Army_5", "3rd_Army_5"⟩ := facts
  exact ⟨n, _, scope, rfl, rfl, rfl, claimed, rfl, rfl, by decide +kernel⟩

end EnumRegistry
