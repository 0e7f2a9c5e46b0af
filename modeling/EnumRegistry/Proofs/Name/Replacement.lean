import EnumRegistry.Proofs.Name.Fragment

/-!
Names made step by step. Wherever a glyph stands its word is put, first for `+`, then for one
operator after the other, those of two characters before those of one, with underscores closed up in
between. One pass over the text writes the same name, whatever characters beyond ASCII are letters.
-/

namespace EnumRegistry.Name

/-- Puts a word wherever a glyph stands, from left to right; `skip` characters of the glyph found
last are still to be passed over. -/
def replaceFrom (g : Glyph) : (skip : Nat) → List Char → List Char
  | _, [] => []
  | skip + 1, _ :: rest => replaceFrom g skip rest
  | 0, c :: rest =>
    if g.sign.isPrefixOf (c :: rest) then g.word ++ replaceFrom g (g.sign.length - 1) rest
    else c :: replaceFrom g 0 rest

def Glyph.replaced (g : Glyph) (cs : List Char) : List Char := replaceFrom g 0 cs

/-- The operators replaced in turn. -/
def operated (cs : List Char) : List Char := operators.foldl (fun cs g => g.replaced cs) cs

/-- Drops the underscore behind a leading letter. -/
def glueLeading (letter : Char → Bool) : List Char → List Char
  | c :: '_' :: rest => if letter c then c :: rest else c :: '_' :: rest
  | cs => cs

/-- A name made step by step: words joined, a leading letter glued, brackets and quotes dropped, `+`
replaced, underscores closed up, the operators replaced, all but name characters dropped,
underscores closed up and trimmed, a digit at the start guarded. -/
def stepwise (letter : Char → Bool) (raw : List Char) : List Char :=
  let bare := (glueLeading letter (Text.joinWords isSeparator '_' raw)).filter (!isStripped ·)
  let summed := collapse (plus.replaced bare)
  guarded (Text.trimEnds isUnderscore (collapse ((operated summed).filter isNameChar)))

/-! ## Glyphs replaced in turn -/

section
variable {a b c : Char} {s w rest : List Char}

theorem replaceFrom_skip (g : Glyph) (skip : Nat) (cs : List Char) :
    replaceFrom g skip cs = g.replaced (cs.drop skip) := by
  induction skip generalizing cs with
  | zero => rfl
  | succ skip ih =>
    cases cs with
    | nil => rfl
    | cons c rest => exact ih rest

theorem replaced_nil (g : Glyph) : g.replaced [] = [] := rfl

/-- Where a glyph stands its word is put, and the scan goes on behind it. -/
theorem replaced_sign : (Glyph.mk (a :: s) w).replaced (a :: s ++ rest) =
    w ++ (Glyph.mk (a :: s) w).replaced rest := by
  have stands : (a :: s).isPrefixOf (a :: (s ++ rest)) = true :=
    List.isPrefixOf_iff_prefix.mpr ⟨rest, rfl⟩
  rw [Glyph.replaced, List.cons_append, replaceFrom, if_pos stands, replaceFrom_skip]
  simp

theorem replaced_single : (Glyph.mk [a] w).replaced (a :: rest) =
    w ++ (Glyph.mk [a] w).replaced rest := replaced_sign

theorem replaced_pair : (Glyph.mk [a, b] w).replaced (a :: b :: rest) =
    w ++ (Glyph.mk [a, b] w).replaced rest := replaced_sign

theorem replaced_of_not_begins {g : Glyph} (h : ¬ g.sign <+: c :: rest) :
    g.replaced (c :: rest) = c :: g.replaced rest := by
  rw [Glyph.replaced, replaceFrom, if_neg (by simpa using h), Glyph.replaced]

theorem replaced_other (h : a ≠ c) : (Glyph.mk (a :: s) w).replaced (c :: rest) =
    c :: (Glyph.mk (a :: s) w).replaced rest :=
  replaced_of_not_begins fun begins => h (List.cons_prefix_cons.mp begins).1

theorem replaced_half (h : rest.head? ≠ some b) : (Glyph.mk [a, b] w).replaced (a :: rest) =
    a :: (Glyph.mk [a, b] w).replaced rest := by
  apply replaced_of_not_begins
  rintro ⟨tail, same⟩
  exact h (by rw [← (List.cons.inj same).2]; rfl)

/-- A text begins with a character after a replacement only if it did before, or the word does. -/
theorem head?_replaced_ne (word : w.head? ≠ some c) (held : w ≠ [])
    (h : rest.head? ≠ some c) : ((Glyph.mk (a :: s) w).replaced rest).head? ≠ some c := by
  cases rest with
  | nil => exact h
  | cons d rest =>
    by_cases begins : (a :: s) <+: d :: rest
    · obtain ⟨tail, same⟩ := begins
      rw [← same, replaced_sign, List.head?_append_of_ne_nil _ held]
      exact word
    · rw [replaced_of_not_begins begins]
      exact h

end

/-- Of a text without `+`, the operators replaced in turn make what one pass spells out. -/
theorem operated_eq {cs : List Char} (h : '+' ∉ cs) : operated cs = spellGlyphs cs := by
  have steps (cs : List Char) : operated cs = (Glyph.mk ['%'] ['p', 'c', 't']).replaced
      ((Glyph.mk ['='] ['E', 'Q']).replaced ((Glyph.mk ['>'] ['G', 'T']).replaced
        ((Glyph.mk ['<'] ['L', 'T']).replaced ((Glyph.mk ['>', '='] ['G', 'T', 'E']).replaced
          ((Glyph.mk ['<', '='] ['L', 'T', 'E']).replaced cs))))) := rfl
  fun_induction spellGlyphs cs with
  | case1 rest ih =>
    rw [← ih (by simp_all), steps, steps]
    simp [replaced_pair, replaced_other]
  | case2 rest ih =>
    rw [← ih (by simp_all), steps, steps]
    simp [replaced_pair, replaced_other]
  | case3 rest alone ih =>
    rw [← ih (by simp_all), steps, steps]
    simp [replaced_half (head?_ne_of_not_cons alone), replaced_single, replaced_other]
  | case4 rest alone ih =>
    have apart : ((Glyph.mk ['<', '='] ['L', 'T', 'E']).replaced rest).head? ≠ some '=' :=
      head?_replaced_ne (by decide) (by decide) (head?_ne_of_not_cons alone)
    rw [← ih (by simp_all), steps, steps]
    simp [replaced_half apart, replaced_single, replaced_other]
  | case5 rest ih =>
    rw [← ih (by simp_all), steps, steps]
    simp [replaced_single, replaced_other]
  | case6 rest ih => simp at h
  | case7 rest ih =>
    rw [← ih (by simp_all), steps, steps]
    simp [replaced_single, replaced_other]
  | case8 c rest _ _ less more equal sum percent ih =>
    have apart : '<' ≠ c ∧ '>' ≠ c ∧ '=' ≠ c ∧ '%' ≠ c :=
      ⟨fun same => less same.symm, fun same => more same.symm, fun same => equal same.symm,
        fun same => percent same.symm⟩
    rw [← ih (by simp_all), steps, steps]
    simp only [replaced_other, apart, ne_eq, not_false_eq_true]
  | case9 => rfl

theorem plus_not_mem (cs : List Char) : '+' ∉ plus.replaced cs := by
  induction cs with
  | nil => simp [replaced_nil]
  | cons c rest ih =>
    by_cases sum : '+' = c
    · subst sum
      rw [plus, replaced_single, ← plus]
      simp [ih]
    · rw [plus, replaced_other sum, ← plus]
      simp [sum, ih]

theorem spellFrom_plus (cs : List Char) (opened : Bool) :
    spellFrom opened (plus.replaced cs) = spellFrom opened cs := by
  induction cs generalizing opened with
  | nil => rfl
  | cons c rest ih =>
    by_cases sum : '+' = c
    · subst sum
      rw [plus, replaced_single, ← plus, spellFrom, ← ih]
      rfl
    · rw [plus, replaced_other sum, ← plus, spellFrom, spellFrom, ih]

/-! ## Underscores closed up in between -/

theorem collapse_append_collapse (cs ds : List Char) :
    collapse (cs ++ collapse ds) = collapse (cs ++ ds) := by
  induction cs with
  | nil => exact collapse_of_single (single_collapse ds)
  | cons c cs ih =>
    have first : (cs ++ collapse ds).head? = (cs ++ ds).head? := by
      rw [List.head?_append, List.head?_append, head?_collapse]
    rw [List.cons_append, List.cons_append, collapse, collapse, first, ih]

/-- Underscores closed up before glyphs are spelled out are underscores closed up behind it. -/
theorem collapse_spelled (cs : List Char) (opened : Bool) :
    collapse ((spellFrom opened (collapse cs)).filter isNameChar) =
      collapse ((spellFrom opened cs).filter isNameChar) := by
  fun_induction collapse cs generalizing opened with
  | case1 => rfl
  | case2 c rest run ih =>
    simp only [Bool.and_eq_true, beq_iff_eq] at run
    obtain ⟨rfl, first⟩ := run
    obtain ⟨tail, rfl⟩ := List.head?_eq_some_iff.mp first
    have underscore (opened : Bool) (cs : List Char) :
        (spellFrom opened ('_' :: cs)).filter isNameChar =
          '_' :: (spellFrom false cs).filter isNameChar := rfl
    rw [ih, underscore, underscore, underscore]
    rfl
  | case3 c rest run ih =>
    rw [spellFrom, spellFrom, List.filter_append, List.filter_append, ← collapse_append_collapse,
      ih, collapse_append_collapse]

/-- The glyphs replaced in turn, up to underscores in a row, are the glyphs spelled out. -/
theorem collapse_operated (bare : List Char) :
    collapse ((operated (collapse (plus.replaced bare))).filter isNameChar) =
      collapse ((spellFrom false bare).filter isNameChar) := by
  have sums : '+' ∉ collapse (plus.replaced bare) := fun h => plus_not_mem bare (mem_collapse h)
  rw [operated_eq sums, spellGlyphs_eq, collapse_spelled, spellFrom_plus]

/-! ## Letters beyond ASCII -/

/-- The name of joined words before a digit at its start is guarded. -/
def tidied (joined : List Char) : List Char :=
  Text.trimEnds isUnderscore
    (collapse ((spellFrom false (joined.filter (!isStripped ·))).filter isNameChar))

theorem tidied_underscore (rest : List Char) : tidied ('_' :: rest) = tidied rest := by
  have kept : (spellFrom false (('_' :: rest).filter (!isStripped ·))).filter isNameChar =
      '_' :: (spellFrom false (rest.filter (!isStripped ·))).filter isNameChar := rfl
  rw [tidied, kept, collapse]
  split
  · rfl
  · rw [Text.trimEnds, List.dropWhile_cons, if_pos (by decide)]
    rfl

/-- A character beyond ASCII leaves nothing of itself and does not change what is behind it. -/
theorem tidied_foreign {c : Char} (foreign : ¬ c.toNat < 128) (rest : List Char) :
    tidied (c :: rest) = tidied rest := by
  have dropped : isNameChar c = false := by
    by_contra kept
    exact foreign (toNat_lt_of_isNameChar (eq_true_of_ne_false kept))
  have plain : c ∉ signs := by
    simp only [signs, List.mem_cons, List.not_mem_nil, or_false]
    rintro (rfl | rfl | rfl | rfl | rfl)
    all_goals exact foreign (by decide)
  obtain ⟨word, closed⟩ := wordAfter_kept plain false
  cases stripped : isStripped c with
  | true => rw [tidied, List.filter_cons_of_neg (by simp [stripped]), tidied]
  | false =>
    rw [tidied, List.filter_cons_of_pos (by simp [stripped]), spellFrom, word, closed,
      List.singleton_append, List.filter_cons_of_neg (by simp [dropped]), tidied]

/-- Glued or not, a letter beyond ASCII is dropped, and with it the underscore that is then the
first. -/
theorem tidied_glueLeading {letter : Char → Bool}
    (ascii : ∀ c, c.toNat < 128 → letter c = c.isAlpha) (joined : List Char) :
    tidied (glueLeading letter joined) = tidied (glueLeadingLetter joined) := by
  fun_cases glueLeadingLetter joined with
  | case1 c rest alpha =>
    have near : c.toNat < 128 := toNat_lt_of_isNameChar (isNameChar_of_isAlpha alpha)
    rw [glueLeading, if_pos ((ascii c near).trans alpha)]
  | case2 c rest alpha =>
    by_cases near : c.toNat < 128
    · rw [glueLeading, if_neg (by rwa [ascii c near])]
    · rw [glueLeading]
      split
      · rw [tidied_foreign near, tidied_foreign near, tidied_underscore]
      · rfl
  | case3 joined other =>
    unfold glueLeading
    split
    · exact absurd rfl (other _ _)
    · rfl

/-- The steps make the name that one pass over the text makes, whichever characters beyond ASCII are
letters. -/
theorem stepwise_eq {letter : Char → Bool} (ascii : ∀ c, c.toNat < 128 → letter c = c.isAlpha)
    (raw : List Char) : stepwise letter raw = normal raw := by
  simp only [stepwise, normal, spelled, collapse_operated, spellGlyphs_eq]
  exact congrArg guarded (tidied_glueLeading ascii _)

end EnumRegistry.Name
