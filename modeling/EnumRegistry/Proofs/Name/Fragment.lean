import EnumRegistry.Proofs.Name.FirstDigit
import EnumRegistry.Proofs.Name.Glyphs
import Mathlib.Data.List.Chain

/-!
The grammar of fragments. The texts that are normalised to something are just those that it admits,
and a fragment that is normalised again stays as it is, unless it begins with a single letter and an
underscore: that underscore is lost.
-/

namespace EnumRegistry.Name

open Text (getLast?_trimEnds head?_trimEnds mem_trimEnds trimEnds_isPrefix trimEnds_of_edges)

/-- No two underscores in a row. -/
def Single (cs : List Char) : Prop := cs.IsChain fun c d => ¬ (c = '_' ∧ d = '_')

/-- Letters, digits and underscores, the underscores one at a time and only between others, save for
one before a digit at the start. -/
structure Fragment (cs : List Char) : Prop where
  nonempty : cs ≠ []
  chars : ∀ c ∈ cs, isNameChar c = true
  single : Single cs
  finish : cs.getLast? ≠ some '_'
  start : digitFirst cs = false
  guard : ∀ rest, cs = '_' :: rest → digitFirst rest = true

/-! ## What tidying leaves -/

theorem head?_collapse (cs : List Char) : (collapse cs).head? = cs.head? := by
  fun_induction collapse cs with
  | case1 => rfl
  | case2 c rest run ih =>
    simp only [Bool.and_eq_true, beq_iff_eq] at run
    rw [ih, run.2, run.1, List.head?_cons]
  | case3 c rest run ih => rfl

theorem single_collapse (cs : List Char) : Single (collapse cs) := by
  fun_induction collapse cs with
  | case1 => exact .nil
  | case2 c rest run ih => exact ih
  | case3 c rest run ih =>
    refine List.IsChain.cons ih ?_
    rintro d hd ⟨rfl, rfl⟩
    rw [head?_collapse] at hd
    simp [Option.mem_def.mp hd] at run

theorem collapse_of_single {cs : List Char} (h : Single cs) : collapse cs = cs := by
  fun_induction collapse cs with
  | case1 => rfl
  | case2 c rest run ih =>
    simp only [Bool.and_eq_true, beq_iff_eq] at run
    exact absurd ⟨run.1, rfl⟩ (List.IsChain.rel_head? h run.2)
  | case3 c rest run ih => rw [ih h.tail]

theorem single_trimEnds {cs : List Char} (h : Single cs) (edge : Char → Bool) :
    Single (Text.trimEnds edge cs) := by
  have dropped : Single (cs.dropWhile edge) := List.IsChain.suffix h (List.dropWhile_suffix _)
  obtain ⟨rest, hrest⟩ := trimEnds_isPrefix edge cs
  rw [← hrest] at dropped
  exact List.IsChain.left_of_append dropped

/-- Without underscores at the ends only the guard is missing. -/
theorem guarded_fragment {cs : List Char} (chars : ∀ c ∈ cs, isNameChar c = true)
    (single : Single cs) (start : cs.head? ≠ some '_') (finish : cs.getLast? ≠ some '_') :
    Fragment (guarded cs) := by
  cases cs with
  | nil => exact ⟨by decide, List.all_eq_true.mp (by decide), by unfold Single; decide, by decide,
      by decide, fun rest h => by simp [guarded, undefined] at h⟩
  | cons c rest =>
    have apart : c ≠ '_' := fun h => start (by rw [h]; rfl)
    by_cases digit : c.isDigit = true
    · have given : guarded (c :: rest) = '_' :: c :: rest := if_pos digit
      rw [given]
      refine ⟨by simp, ?_, single.cons (by simp [apart]), by simpa using finish, rfl, ?_⟩
      · simpa using ⟨isNameChar_underscore, chars c (by simp), fun d hd => chars d (by simp [hd])⟩
      · rintro rest' h
        rw [← (List.cons.inj h).2, digitFirst]
        simpa using digit
    · have given : guarded (c :: rest) = c :: rest := if_neg digit
      rw [given]
      refine ⟨by simp, chars, single, finish, by simpa [digitFirst] using digit, ?_⟩
      rintro rest' h
      exact absurd (List.cons.inj h).1 apart

theorem normal_fragment (raw : List Char) : Fragment (normal raw) := by
  unfold normal
  apply guarded_fragment
  · intro c hc
    exact (List.mem_filter.mp (mem_collapse (mem_trimEnds hc))).2
  · exact single_trimEnds (single_collapse _) _
  · intro first
    exact isUnderscore_eq_false.mp (head?_trimEnds first) rfl
  · intro last
    exact isUnderscore_eq_false.mp (getLast?_trimEnds last) rfl

/-- Nothing about a fragment is left to be tidied. -/
theorem Fragment.guarded_trimEnds {cs : List Char} (h : Fragment cs) :
    guarded (Text.trimEnds isUnderscore (collapse (cs.filter isNameChar))) = cs := by
  rw [List.filter_eq_self.mpr h.chars, collapse_of_single h.single]
  have finish : ∀ c, cs.getLast? = some c → isUnderscore c = false := by
    rintro c hc
    rw [isUnderscore_eq_false]
    rintro rfl
    exact h.finish hc
  match cs, h, finish with
  | [], h, _ => exact absurd rfl h.nonempty
  | c :: rest, h, finish =>
    by_cases guard : c = '_'
    · subst guard
      -- The guard is trimmed and set again before the digit it was set for.
      have digit := h.guard rest rfl
      cases rest with
      | nil => simp [digitFirst] at digit
      | cons d rest =>
        replace digit : d.isDigit = true := by simpa [digitFirst] using digit
        have apart : isUnderscore d = false :=
          isUnderscore_of_isAlphanum (by simp [Char.isAlphanum, digit])
        have trimmed : Text.trimEnds isUnderscore ('_' :: d :: rest) = d :: rest := by
          have := @trimEnds_of_edges isUnderscore (d :: rest) (by simpa using apart)
            (by simpa using finish)
          rwa [Text.trimEnds, List.dropWhile_cons, if_pos (by decide), ← Text.trimEnds]
        rw [trimmed]
        exact if_pos digit
    · have letter : ¬ c.isDigit = true := by simpa [digitFirst] using h.start
      rw [trimEnds_of_edges (by simpa [isUnderscore] using guard) finish]
      exact if_neg letter

/-! ## Texts of name characters -/

theorem isNameChar_of_isAlpha {c : Char} (h : c.isAlpha = true) : isNameChar c = true :=
  isNameChar_of_isAlphanum (by simp [Char.isAlphanum, h])

/-- A name character separates no words, is no bracket and no quote, and is in no glyph. -/
theorem inert_of_isNameChar {c : Char} (h : isNameChar c = true) :
    isSeparator c = false ∧ isStripped c = false ∧ c ∉ signs :=
  of_ascii (P := fun c => isNameChar c = true →
    isSeparator c = false ∧ isStripped c = false ∧ c ∉ signs) (by decide)
    (toNat_lt_of_isNameChar h) h

theorem joinWords_of_none {separator : Char → Bool} (glue : Char) {cs : List Char}
    (h : ∀ c ∈ cs, separator c = false) : Text.joinWords separator glue cs = cs := by
  have gaps : ∀ ds : List Char, (∀ d ∈ ds, separator d = false) →
      Text.closeGaps separator glue false ds = ds := by
    intro ds none
    induction ds with
    | nil => rfl
    | cons d ds ih =>
      simp only [Text.closeGaps, none d (List.mem_cons_self ..), Bool.false_eq_true, ↓reduceIte,
        ih fun e he => none e (List.mem_cons_of_mem _ he)]
  cases cs with
  | nil => rfl
  | cons c rest =>
    rw [Text.joinWords, List.dropWhile_cons, h c (List.mem_cons_self ..),
      if_neg Bool.false_ne_true, gaps _ h]

theorem spellFrom_of_chars {cs : List Char} (h : ∀ c ∈ cs, isNameChar c = true)
    (opened : Bool) : spellFrom opened cs = cs := by
  induction cs generalizing opened with
  | nil => rfl
  | cons c rest ih =>
    have inert := inert_of_isNameChar (h c (List.mem_cons_self ..))
    rw [spellFrom, (wordAfter_kept inert.2.2 opened).1,
      ih fun d hd => h d (List.mem_cons_of_mem _ hd), List.singleton_append]

theorem filter_unstripped {cs : List Char} (h : ∀ c ∈ cs, isNameChar c = true) :
    cs.filter (!isStripped ·) = cs :=
  List.filter_eq_self.mpr fun c hc => by simp [(inert_of_isNameChar (h c hc)).2.1]

theorem mem_glueLeadingLetter {cs : List Char} {c : Char} (h : c ∈ glueLeadingLetter cs) :
    c ∈ cs := by
  unfold glueLeadingLetter at h
  split at h
  · split at h
    · rcases List.mem_cons.mp h with rfl | h
      · exact List.mem_cons_self ..
      · exact List.mem_cons_of_mem _ (List.mem_cons_of_mem _ h)
    · exact h
  · exact h

theorem spelled_of_chars {cs : List Char} (h : ∀ c ∈ cs, isNameChar c = true) :
    spelled cs = glueLeadingLetter cs := by
  have glued : ∀ c ∈ glueLeadingLetter cs, isNameChar c = true :=
    fun c hc => h c (mem_glueLeadingLetter hc)
  rw [spelled, joinWords_of_none _ fun c hc => (inert_of_isNameChar (h c hc)).1,
    filter_unstripped glued, spellGlyphs_eq, spellFrom_of_chars glued]

/-- Behind a bracket no letter is a leading one. -/
theorem spelled_bracket {cs : List Char} (h : ∀ c ∈ cs, isNameChar c = true) :
    spelled ('(' :: cs) = cs := by
  have apart : ∀ c ∈ '(' :: cs, isSeparator c = false := by
    intro c hc
    rcases List.mem_cons.mp hc with rfl | hc
    · decide
    · exact (inert_of_isNameChar (h c hc)).1
  have unglued : glueLeadingLetter ('(' :: cs) = '(' :: cs := by
    unfold glueLeadingLetter
    split
    · rename_i first
      obtain ⟨rfl, rfl⟩ := List.cons.inj first
      rfl
    · rfl
  rw [spelled, joinWords_of_none _ apart, unglued, List.filter_cons_of_neg (by decide),
    filter_unstripped h, spellGlyphs_eq, spellFrom_of_chars h]

theorem normalize_fragment (raw : String) : Fragment (normalize raw).toList := by
  rw [toList_normalize]
  exact normal_fragment _

/-- The texts that something is normalised to are the fragments, all of them and no others. -/
theorem normalized_iff_fragment (s : String) :
    (∃ raw, normalize raw = s) ↔ Fragment s.toList := by
  constructor
  · rintro ⟨raw, rfl⟩
    exact normalize_fragment raw
  · intro h
    refine ⟨String.ofList ('(' :: s.toList), ?_⟩
    rw [normalize, String.toList_ofList, normal, spelled_bracket h.chars, h.guarded_trimEnds,
      String.ofList_toList]

/-! ## Fragments normalised again -/

theorem glueLeadingLetter_of_pair {c : Char} (letter : c.isAlpha = true) (rest : List Char) :
    glueLeadingLetter (c :: '_' :: rest) = c :: rest := if_pos letter

theorem glueLeadingLetter_of_other {cs : List Char}
    (h : ¬ ∃ c rest, c.isAlpha = true ∧ cs = c :: '_' :: rest) : glueLeadingLetter cs = cs := by
  unfold glueLeadingLetter
  split
  · rename_i c rest
    exact if_neg fun letter => h ⟨c, rest, letter, rfl⟩
  · rfl

/-- The underscore between a leading letter and the rest of a fragment can go. -/
theorem Fragment.glued {cs : List Char} (h : Fragment cs) : Fragment (glueLeadingLetter cs) := by
  by_cases pair : ∃ c rest, c.isAlpha = true ∧ cs = c :: '_' :: rest
  · obtain ⟨c, rest, letter, rfl⟩ := pair
    have finish := h.finish
    have apart : c ≠ '_' := by
      rintro rfl
      exact absurd letter (by decide)
    rw [glueLeadingLetter_of_pair letter]
    refine ⟨by simp, fun d hd => h.chars d ?_, h.single.tail.tail.cons (by simp [apart]), ?_,
      h.start, fun rest' same => absurd (List.cons.inj same).1 apart⟩
    · rcases List.mem_cons.mp hd with rfl | hd
      · exact List.mem_cons_self ..
      · exact List.mem_cons_of_mem _ (List.mem_cons_of_mem _ hd)
    · cases rest with
      | nil => exact absurd rfl finish
      | cons d rest => simpa using finish
  · rwa [glueLeadingLetter_of_other pair]

theorem Fragment.normal_eq {cs : List Char} (h : Fragment cs) :
    normal cs = glueLeadingLetter cs := by
  rw [normal, spelled_of_chars h.chars, h.glued.guarded_trimEnds]

/-- Glued once, a fragment has no further underscore behind its leading letter. -/
theorem Fragment.glued_twice {cs : List Char} (h : Fragment cs) :
    glueLeadingLetter (glueLeadingLetter cs) = glueLeadingLetter cs := by
  by_cases pair : ∃ c rest, c.isAlpha = true ∧ cs = c :: '_' :: rest
  · obtain ⟨c, rest, letter, rfl⟩ := pair
    rw [glueLeadingLetter_of_pair letter]
    apply glueLeadingLetter_of_other
    rintro ⟨d, rest', -, same⟩
    rw [(List.cons.inj same).2] at h
    exact List.IsChain.rel_head? h.single.tail rfl ⟨rfl, rfl⟩
  · rw [glueLeadingLetter_of_other pair, glueLeadingLetter_of_other pair]

/-- Normalised again, a name loses the underscore between a leading letter and the rest, if it has
one, and nothing else; so it is changed just where it begins with a letter and an underscore. A
third time changes nothing. -/
theorem normalized_again (raw : String) :
    (normalize (normalize raw)).toList = glueLeadingLetter (normalize raw).toList ∧
      (normalize (normalize raw) ≠ normalize raw ↔
        ∃ letter rest, letter.isAlpha = true ∧ (normalize raw).toList = letter :: '_' :: rest) ∧
      normalize (normalize (normalize raw)) = normalize (normalize raw) := by
  have fragment := normalize_fragment raw
  have again : (normalize (normalize raw)).toList = glueLeadingLetter (normalize raw).toList := by
    rw [toList_normalize, fragment.normal_eq]
  refine ⟨again, ?_, ?_⟩
  · rw [ne_eq, ← String.toList_inj, again]
    constructor
    · intro changed
      by_contra other
      exact changed (glueLeadingLetter_of_other other)
    · rintro ⟨letter, rest, alpha, same⟩ unchanged
      rw [same, glueLeadingLetter_of_pair alpha] at unchanged
      exact absurd (congrArg List.length unchanged) (by simp)
  · rw [← String.toList_inj, toList_normalize, again, fragment.glued.normal_eq,
      fragment.glued_twice]

/-- Brackets keep a leading letter from the word behind it, but only once. -/
theorem bracketed_letter_glued :
    normalize "(X Band)" = "X_Band" ∧ normalize (normalize "(X Band)") = "XBand" ∧
      normalize (normalize "(X Band)") ≠ normalize "(X Band)" := by
  decide +kernel

end EnumRegistry.Name
