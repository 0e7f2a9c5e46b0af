import EnumRegistry.Proofs.Name.Replacement

/-!
What a name says. Its letters and digits are those of the text with its glyphs spelled out, in their
order, none lost and none added; a text that has none is given the name of no text.
-/

namespace EnumRegistry.Name

open Text (head?_trimEnds mem_trimEnds)

/-- The letters and digits of a text, in order. -/
def content (cs : List Char) : List Char := cs.filter Char.isAlphanum

theorem content_append (cs ds : List Char) : content (cs ++ ds) = content cs ++ content ds :=
  List.filter_append ..

theorem content_cons_of_not {c : Char} (h : c.isAlphanum = false) (cs : List Char) :
    content (c :: cs) = content cs :=
  List.filter_cons_of_neg (by simp [h])

theorem isAlphanum_eq_false {c : Char} (h : isUnderscore c = true) : c.isAlphanum = false := by
  cases solid : c.isAlphanum with
  | false => rfl
  | true => rw [isUnderscore_of_isAlphanum solid] at h; cases h

/-! ## Tidying keeps the content -/

theorem content_filter_isNameChar (cs : List Char) :
    content (cs.filter isNameChar) = content cs := by
  rw [content, List.filter_filter]
  apply List.filter_congr
  intro c _
  cases solid : c.isAlphanum with
  | false => rfl
  | true => rw [isNameChar_of_isAlphanum solid]; rfl

theorem content_collapse (cs : List Char) : content (collapse cs) = content cs := by
  fun_induction collapse cs with
  | case1 => rfl
  | case2 c rest run ih =>
    simp only [Bool.and_eq_true, beq_iff_eq] at run
    rw [ih, run.1, content_cons_of_not (by decide)]
  | case3 c rest run ih => simp only [content, List.filter_cons] at ih ⊢; rw [ih]

theorem content_dropWhile (cs : List Char) : content (cs.dropWhile isUnderscore) = content cs := by
  induction cs with
  | nil => rfl
  | cons c rest ih =>
    rw [List.dropWhile_cons]
    split
    · rename_i underscore
      rw [ih, content_cons_of_not (isAlphanum_eq_false underscore)]
    · rfl

theorem content_trimEnds (cs : List Char) :
    content (Text.trimEnds isUnderscore cs) = content cs := by
  have reversed (ds : List Char) : content ds.reverse = (content ds).reverse := by
    simp [content]
  rw [Text.trimEnds, reversed, content_dropWhile, reversed, content_dropWhile, List.reverse_reverse]

/-- A name keeps the content of what its text is spelled out to, and is the name of no text if there
is none. -/
theorem content_normal (raw : List Char) :
    if content (spelled raw) = [] then normal raw = undefined.toList
    else content (normal raw) = content (spelled raw) := by
  have kept : content (Text.trimEnds isUnderscore (collapse ((spelled raw).filter isNameChar))) =
      content (spelled raw) := by
    rw [content_trimEnds, content_collapse, content_filter_isNameChar]
  have chars : ∀ c ∈ Text.trimEnds isUnderscore (collapse ((spelled raw).filter isNameChar)),
      isNameChar c = true :=
    fun c hc => (List.mem_filter.mp (mem_collapse (mem_trimEnds hc))).2
  have first := @head?_trimEnds isUnderscore (collapse ((spelled raw).filter isNameChar))
  unfold normal
  generalize Text.trimEnds isUnderscore _ = trimmed at kept chars first
  rw [← kept]
  cases trimmed with
  | nil =>
    have none : content [] = [] := rfl
    rw [if_pos none, guarded]
  | cons c rest =>
    have solid : c.isAlphanum = true :=
      isAlphanum_of_isNameChar (chars c (List.mem_cons_self ..))
        (isUnderscore_eq_false.mp (first rfl))
    have held : content (c :: rest) ≠ [] := by simp [content, solid]
    rw [if_neg held, guarded]
    split
    · exact content_cons_of_not (by decide) _
    · rfl

/-! ## Joining words keeps the content -/

/-- The content of a text without brackets and quotes, spelled out. -/
def heard (opened : Bool) (cs : List Char) : List Char :=
  content (spellFrom opened (cs.filter (!isStripped ·)))

theorem heard_stripped {c : Char} (h : isStripped c = true) (opened : Bool) (rest : List Char) :
    heard opened (c :: rest) = heard opened rest := by
  rw [heard, List.filter_cons_of_neg (by simp [h]), heard]

theorem heard_kept {c : Char} (h : isStripped c = false) (opened : Bool) (rest : List Char) :
    heard opened (c :: rest) = content (wordAfter opened c) ++ heard (opens c) rest := by
  rw [heard, List.filter_cons_of_pos (by simp [h]), spellFrom, content_append, heard]

/-- A character that says nothing and parts what stands on its two sides. -/
structure Silent (c : Char) : Prop where
  kept : isStripped c = false
  solid : c.isAlphanum = false
  plain : c ∉ signs

theorem Silent.heard {c : Char} (h : Silent c) (opened : Bool) (rest : List Char) :
    heard opened (c :: rest) = Name.heard false rest := by
  obtain ⟨word, closed⟩ := wordAfter_kept h.plain opened
  rw [heard_kept h.kept, word, closed, content_cons_of_not h.solid]
  rfl

theorem silent_underscore : Silent '_' := ⟨by decide, by decide, by decide⟩

theorem not_isSeparator_of_isStripped {c : Char} (h : isStripped c = true) :
    isSeparator c = false := by
  simp only [isStripped, Bool.or_eq_true, beq_iff_eq] at h
  rcases h with ((((((((rfl | rfl) | rfl) | rfl) | rfl) | rfl) | rfl) | rfl) | rfl) | backquote
  all_goals try decide
  rw [← Char.ofNat_toNat c, backquote]
  decide

theorem silent_separator {c : Char} (h : isSeparator c = true) : Silent c := by
  refine ⟨?_, ?_, ?_⟩
  · by_contra stripped
    rw [not_isSeparator_of_isStripped (eq_true_of_ne_false stripped)] at h
    cases h
  · by_contra solid
    have chars := isNameChar_of_isAlphanum (eq_true_of_ne_false solid)
    rw [(inert_of_isNameChar chars).1] at h
    cases h
  · simp only [signs, List.mem_cons, List.not_mem_nil, or_false]
    rintro (rfl | rfl | rfl | rfl | rfl)
    all_goals exact absurd h (by decide)

/-- Where words are joined, what was heard of the gap before them is forgotten. -/
theorem heard_closeGaps (cs : List Char) (opened gap : Bool) :
    heard opened (Text.closeGaps isSeparator '_' gap cs) = heard (opened && !gap) cs := by
  induction cs generalizing opened gap with
  | nil => rfl
  | cons c rest ih =>
    have next (opened : Bool) : heard opened (c :: Text.closeGaps isSeparator '_' false rest) =
        heard opened (c :: rest) := by
      cases stripped : isStripped c with
      | true => rw [heard_stripped stripped, heard_stripped stripped, ih]; simp
      | false => rw [heard_kept stripped, heard_kept stripped, ih]; simp
    rw [Text.closeGaps]
    split
    · rename_i separator
      rw [ih, (silent_separator separator).heard]
      simp
    · cases gap with
      | true => simp [silent_underscore.heard, next]
      | false => simp [next]

theorem heard_dropWhile (cs : List Char) :
    heard false (cs.dropWhile isSeparator) = heard false cs := by
  induction cs with
  | nil => rfl
  | cons c rest ih =>
    rw [List.dropWhile_cons]
    split
    · rename_i separator
      rw [ih, (silent_separator separator).heard]
    · rfl

theorem heard_glueLeadingLetter (cs : List Char) :
    heard false (glueLeadingLetter cs) = heard false cs := by
  by_cases pair : ∃ c rest, c.isAlpha = true ∧ cs = c :: '_' :: rest
  · obtain ⟨c, rest, letter, rfl⟩ := pair
    have inert := inert_of_isNameChar (isNameChar_of_isAlpha letter)
    obtain ⟨word, closed⟩ := wordAfter_kept inert.2.2 false
    rw [glueLeadingLetter_of_pair letter, heard_kept inert.2.1, heard_kept inert.2.1, closed,
      silent_underscore.heard]
  · rw [glueLeadingLetter_of_other pair]

theorem content_spelled (raw : List Char) :
    content (spelled raw) = content (spellGlyphs (raw.filter (!isStripped ·))) := by
  have heard_joined : heard false (glueLeadingLetter (Text.joinWords isSeparator '_' raw)) =
      heard false raw := by
    rw [heard_glueLeadingLetter, Text.joinWords, heard_closeGaps, Bool.not_false, Bool.and_true,
      heard_dropWhile]
  rw [spelled, spellGlyphs_eq, spellGlyphs_eq]
  exact heard_joined

/-- A name is what its text becomes step by step, whichever characters beyond ASCII are letters. Its
letters and digits are those of the one text that is scanned from its text without brackets and
quotes, the longest glyph at each place spelled out, in their order; where that has none, the name
is that of no text. -/
theorem content_kept {letter : Char → Bool} (ascii : ∀ c, c.toNat < 128 → letter c = c.isAlpha)
    (raw : String) :
    (normalize raw).toList = stepwise letter raw.toList ∧
      ∃ text, (∀ other, Scanned (raw.toList.filter (!isStripped ·)) other ↔ other = text) ∧
        if content text = [] then normalize raw = undefined
        else content (normalize raw).toList = content text := by
  refine ⟨by rw [toList_normalize, stepwise_eq ascii], _, fun other => scanned_iff, ?_⟩
  have kept := content_normal raw.toList
  rw [content_spelled, ← toList_normalize, String.toList_inj] at kept
  exact kept

/-- ASCII letters and one more. -/
def accentedLetter (c : Char) : Bool := c.isAlpha || c == 'é'

/-- A letter beyond ASCII stands first, and glyphs that share a character stand in a row. -/
def accentedText : String := "é <(= [5]<>=%"

theorem accented_content_kept :
    (∀ c : Char, c.toNat < 128 → accentedLetter c = c.isAlpha) ∧
      (normalize accentedText).toList = stepwise accentedLetter accentedText.toList ∧
      ∃ text, (∀ other, Scanned (accentedText.toList.filter (!isStripped ·)) other ↔
          other = text) ∧
        content text = "LTE5LTGTEpct".toList ∧
        content (normalize accentedText).toList = content text := by
  have ascii (c : Char) (near : c.toNat < 128) : accentedLetter c = c.isAlpha := by
    have apart : c ≠ 'é' := by
      rintro rfl
      exact absurd near (by decide)
    simp [accentedLetter, apart]
  obtain ⟨same, text, unique, kept⟩ := content_kept ascii accentedText
  have spelled : text = spellGlyphs (accentedText.toList.filter (!isStripped ·)) :=
    scanned_iff.mp ((unique text).mpr rfl)
  have held : content text = "LTE5LTGTEpct".toList := by
    rw [spelled]
    decide +kernel
  rw [if_neg (by rw [held]; decide)] at kept
  exact ⟨ascii, same, text, unique, held, kept⟩

end EnumRegistry.Name
