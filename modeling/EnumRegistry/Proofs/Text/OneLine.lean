import EnumRegistry.Text.Blank
import Mathlib.Data.List.Infix

/-!
Texts on one line. Closing the gaps between words leaves no blank but single spaces and changes
nothing inside a word: a mark without blanks stands in the line if and only if it stands in the
text, and the line ends as the text does but for blanks. A mark is found in a text that is put
together from parts exactly if it is found in a part, where the parts are kept apart by characters
that are not in the mark.
-/

namespace EnumRegistry

/-! ## Marks in lists -/

section
variable {α : Type} {mark xs ys : List α} {a : α}

theorem prefix_append_cons_iff (apart : a ∉ mark) : mark <+: xs ++ a :: ys ↔ mark <+: xs := by
  induction xs generalizing mark with
  | nil =>
    cases mark with
    | nil => simp
    | cons b mark =>
      rw [List.nil_append, List.cons_prefix_cons, List.prefix_nil]
      refine iff_of_false ?_ (List.cons_ne_nil b mark)
      rintro ⟨rfl, -⟩
      exact apart (List.mem_cons_self ..)
  | cons x xs ih =>
    cases mark with
    | nil => simp
    | cons b mark =>
      rw [List.cons_append, List.cons_prefix_cons, List.cons_prefix_cons,
        ih fun inside => apart (List.mem_cons_of_mem _ inside)]

theorem infix_cons_of_not_mem (apart : a ∉ mark) (nonempty : mark ≠ []) :
    mark <:+: a :: ys ↔ mark <:+: ys := by
  have first : mark <+: [] ++ a :: ys ↔ mark <+: [] := prefix_append_cons_iff apart
  rw [List.nil_append, List.prefix_nil] at first
  rw [List.infix_cons_iff, first]
  exact or_iff_right nonempty

theorem infix_append_cons_iff (apart : a ∉ mark) (nonempty : mark ≠ []) :
    mark <:+: xs ++ a :: ys ↔ mark <:+: xs ∨ mark <:+: ys := by
  induction xs with
  | nil =>
    rw [List.nil_append, infix_cons_of_not_mem apart nonempty, List.infix_nil]
    exact (or_iff_right nonempty).symm
  | cons x xs ih =>
    have first : mark <+: x :: xs ++ a :: ys ↔ mark <+: x :: xs := prefix_append_cons_iff apart
    rw [List.cons_append] at first ⊢
    rw [List.infix_cons_iff, List.infix_cons_iff, first, ih, or_assoc]

theorem infix_gap_append {gap : List α} (apart : ∀ a ∈ gap, a ∉ mark) (nonempty : mark ≠ []) :
    mark <:+: gap ++ ys ↔ mark <:+: ys := by
  induction gap with
  | nil => rfl
  | cons a gap ih =>
    obtain ⟨here, behind⟩ := List.forall_mem_cons.mp apart
    rw [List.cons_append, infix_cons_of_not_mem here nonempty, ih behind]

end

/-! ## Words on one line -/

namespace Text

section
variable {separator : Char → Bool} {glue : Char}

theorem mem_closeGaps {gap : Bool} {cs : List Char} {c : Char}
    (h : c ∈ closeGaps separator glue gap cs) : c = glue ∨ separator c = false := by
  induction cs generalizing gap with
  | nil => cases h
  | cons d rest ih =>
    rw [closeGaps] at h
    by_cases blank : separator d = true
    · rw [if_pos blank] at h
      exact ih h
    · rw [if_neg blank] at h
      have behind (h : c ∈ d :: closeGaps separator glue false rest) :
          c = glue ∨ separator c = false := by
        rcases List.mem_cons.mp h with rfl | h
        · exact .inr (Bool.not_eq_true _ ▸ blank)
        · exact ih h
      cases gap with
      | false => exact behind h
      | true =>
        rcases List.mem_cons.mp h with rfl | h
        · exact .inl rfl
        · exact behind h

theorem getLast?_closeGaps (gap : Bool) (cs : List Char) :
    (closeGaps separator glue gap cs).getLast? = (cs.filter (!separator ·)).getLast? := by
  induction cs generalizing gap with
  | nil => rfl
  | cons c rest ih =>
    rw [closeGaps]
    by_cases blank : separator c = true
    · rw [if_pos blank, ih, List.filter_cons_of_neg (by simp [blank])]
    · have kept : (c :: closeGaps separator glue false rest).getLast? =
          ((c :: rest).filter (!separator ·)).getLast? := by
        rw [List.filter_cons_of_pos (by simp [blank]), List.getLast?_cons, List.getLast?_cons, ih]
      rw [if_neg blank]
      cases gap with
      | false => exact kept
      | true => rw [if_pos rfl, List.getLast?_cons_cons, kept]

/-- An open gap is closed by one character, if anything comes behind it. -/
theorem closeGaps_open (cs : List Char) : closeGaps separator glue true cs = [] ∨
    ∃ rest, closeGaps separator glue true cs = glue :: rest := by
  induction cs with
  | nil => exact .inl rfl
  | cons c rest ih =>
    rw [closeGaps]
    by_cases blank : separator c = true
    · rw [if_pos blank]
      exact ih
    · rw [if_neg blank, if_pos rfl]
      exact .inr ⟨_, rfl⟩

variable {mark : List Char}

theorem not_mem_of_solid (solid : ∀ c ∈ mark, separator c = false) {c : Char}
    (blank : separator c = true) : c ∉ mark := by
  intro inside
  rw [solid c inside] at blank
  cases blank

theorem prefix_closeGaps (glued : separator glue = true)
    (solid : ∀ c ∈ mark, separator c = false) (cs : List Char) :
    mark <+: closeGaps separator glue false cs ↔ mark <+: cs := by
  induction cs generalizing mark with
  | nil => rfl
  | cons c rest ih =>
    cases mark with
    | nil => simp
    | cons d mark =>
      obtain ⟨inWord, solid⟩ := List.forall_mem_cons.mp solid
      rw [closeGaps]
      by_cases blank : separator c = true
      · have apart {b : Char} (blank : separator b = true) : d ≠ b := by
          rintro rfl
          exact Bool.false_ne_true (inWord.symm.trans blank)
        rw [if_pos blank, List.cons_prefix_cons]
        refine iff_of_false ?_ fun begins => apart blank begins.1
        have opening : closeGaps separator glue true rest = [] ∨
            ∃ more, closeGaps separator glue true rest = glue :: more := closeGaps_open rest
        rcases opening with none | ⟨more, opens⟩
        · rw [none, List.prefix_nil]
          exact List.cons_ne_nil d mark
        · rw [opens, List.cons_prefix_cons]
          exact fun begins => apart glued begins.1
      · rw [if_neg blank, if_neg Bool.false_ne_true, List.cons_prefix_cons,
          List.cons_prefix_cons, ih solid]

/-- Marks stand in words, and gaps are closed between words only. -/
theorem infix_closeGaps (glued : separator glue = true) (solid : ∀ c ∈ mark, separator c = false)
    (nonempty : mark ≠ []) (gap : Bool) (cs : List Char) :
    mark <:+: closeGaps separator glue gap cs ↔ mark <:+: cs := by
  induction cs generalizing gap with
  | nil => rfl
  | cons c rest ih =>
    by_cases blank : separator c = true
    · rw [closeGaps, if_pos blank, ih true,
        infix_cons_of_not_mem (not_mem_of_solid solid blank) nonempty]
    · have begins := prefix_closeGaps glued solid (c :: rest)
      rw [closeGaps, if_neg blank, if_neg Bool.false_ne_true] at begins
      have word : mark <:+: c :: closeGaps separator glue false rest ↔ mark <:+: c :: rest := by
        rw [List.infix_cons_iff, List.infix_cons_iff, begins, ih false]
      rw [closeGaps, if_neg blank]
      cases gap with
      | false => exact word
      | true => exact (infix_cons_of_not_mem (not_mem_of_solid solid glued) nonempty).trans word

theorem infix_dropWhile (solid : ∀ c ∈ mark, separator c = false) (nonempty : mark ≠ [])
    (cs : List Char) : mark <:+: cs.dropWhile separator ↔ mark <:+: cs := by
  induction cs with
  | nil => rfl
  | cons c rest ih =>
    by_cases blank : separator c = true
    · rw [List.dropWhile_cons_of_pos blank, ih,
        infix_cons_of_not_mem (not_mem_of_solid solid blank) nonempty]
    · rw [List.dropWhile_cons_of_neg blank]

theorem filter_dropWhile (cs : List Char) :
    (cs.dropWhile separator).filter (!separator ·) = cs.filter (!separator ·) := by
  induction cs with
  | nil => rfl
  | cons c rest ih =>
    by_cases blank : separator c = true
    · rw [List.dropWhile_cons_of_pos blank, ih, List.filter_cons_of_neg (by simp [blank])]
    · rw [List.dropWhile_cons_of_neg blank]

end

/-- A mark stands in a text. -/
def Holds (text mark : String) : Prop := mark.toList <:+: text.toList

instance (text mark : String) : Decidable (Holds text mark) :=
  inferInstanceAs (Decidable (_ <:+: _))

/-- A piece of text that parts what stands before it from what stands behind it: no mark begins in
one and ends in the other. -/
def Parts (gap mark : String) : Prop :=
  gap ≠ "" ∧ mark ≠ "" ∧ ∀ c ∈ gap.toList, c ∉ mark.toList

instance (gap mark : String) : Decidable (Parts gap mark) :=
  decidable_of_iff (gap ≠ "" ∧ mark ≠ "" ∧ gap.toList.all (fun c => !mark.toList.contains c) = true)
    (by simp [Parts])

section
variable {gap mark : String}

theorem holds_gap_append (parts : Parts gap mark) (t : String) :
    Holds (gap ++ t) mark ↔ Holds t mark := by
  rw [Holds, Holds, String.toList_append]
  exact infix_gap_append parts.2.2 (by simpa using parts.2.1)

theorem holds_append_gap_append (parts : Parts gap mark) (s t : String) :
    Holds (s ++ (gap ++ t)) mark ↔ Holds s mark ∨ Holds t mark := by
  obtain ⟨visible, nonempty, apart⟩ := parts
  have visible : gap.toList ≠ [] := by simpa using visible
  have nonempty : mark.toList ≠ [] := by simpa using nonempty
  obtain ⟨c, gap', chars⟩ := List.exists_cons_of_ne_nil visible
  rw [chars] at apart
  obtain ⟨here, behind⟩ := List.forall_mem_cons.mp apart
  rw [Holds, Holds, Holds, String.toList_append, String.toList_append, chars, List.cons_append,
    infix_append_cons_iff here nonempty, infix_gap_append behind nonempty]

theorem not_holds_empty (parts : Parts gap mark) : ¬ Holds "" mark := by
  rw [Holds, String.toList_empty, List.infix_nil]
  simpa using parts.2.1

theorem holds_append_gap (parts : Parts gap mark) (s : String) :
    Holds (s ++ gap) mark ↔ Holds s mark := by
  have ending := holds_append_gap_append parts s ""
  rw [String.append_empty] at ending
  exact ending.trans (or_iff_left (not_holds_empty parts))

end

/-- Characters that end a line, in one language or another. -/
def isLineEnd (c : Char) : Bool :=
  let n := c.toNat
  (0xA ≤ n && n ≤ 0xD) || n == 0x85 || n == 0x2028 || n == 0x2029

/-- Nothing in a text ends a line. -/
def OnOneLine (text : String) : Prop := ∀ c ∈ text.toList, isLineEnd c = false

instance (text : String) : Decidable (OnOneLine text) :=
  decidable_of_iff (text.toList.all (fun c => !isLineEnd c) = true) (by simp [OnOneLine])

theorem onOneLine_append {s t : String} : OnOneLine (s ++ t) ↔ OnOneLine s ∧ OnOneLine t := by
  simp only [OnOneLine, String.toList_append, List.forall_mem_append]

theorem isBlank_of_isLineEnd {c : Char} (h : isLineEnd c = true) : isBlank c = true := by
  simp only [isLineEnd, isBlank, Bool.or_eq_true, Bool.and_eq_true, decide_eq_true_eq,
    beq_iff_eq] at h ⊢
  omega

theorem onOneLine_oneLine (s : String) : OnOneLine (oneLine s) := by
  intro c hc
  rw [oneLine, String.toList_ofList, joinWords] at hc
  rcases mem_closeGaps hc with rfl | solid
  · decide
  · by_contra ends
    rw [isBlank_of_isLineEnd (Bool.not_eq_false _ ▸ ends)] at solid
    cases solid

/-- One line holds the marks of its text. -/
theorem holds_oneLine {mark : String} (solid : mark.toList.all (fun c => !isBlank c) = true)
    (nonempty : mark.toList ≠ []) (s : String) : Holds (oneLine s) mark ↔ Holds s mark := by
  have solid : ∀ c ∈ mark.toList, isBlank c = false := by simpa using solid
  rw [Holds, Holds, oneLine, String.toList_ofList, joinWords,
    infix_closeGaps (by decide) solid nonempty, infix_dropWhile solid nonempty]

/-- The last character of a text that is not blank. -/
def lastSolid? (s : String) : Option Char := (s.toList.filter (!isBlank ·)).getLast?

theorem getLast?_oneLine (s : String) : (oneLine s).toList.getLast? = lastSolid? s := by
  rw [oneLine, String.toList_ofList, joinWords, getLast?_closeGaps, filter_dropWhile, lastSolid?]

end Text

end EnumRegistry
