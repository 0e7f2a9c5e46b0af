import EnumRegistry.Proofs.Text.OneLine
import EnumRegistry.Target.Spelling

/-!
Texts in string literals. Between its quotes a literal spells a text with three escapes: no line is
broken there, every quote and every backslash stands in an escape, and the first quote that no
backslash hides is the one that closes the literal. What is read back is the text without its
carriage returns and with spaces for its tabs, so texts share a literal exactly if they differ in
nothing else. The literals are all the spellings that break no line and hold no tab.
-/

namespace EnumRegistry

namespace Literal

/-- The character that an escape stands for, by the one behind its backslash. -/
def meant? : Char → Option Char
  | '\\' => some '\\'
  | '"' => some '"'
  | 'n' => some '\n'
  | _ => none

/-- What stands between the quotes of a literal, and the text that it spells. A quote or a backslash
stands in an escape or not at all. -/
inductive Spells : List Char → List Char → Prop
  | nothing : Spells [] []
  | escape {mark c : Char} {body text : List Char} :
      meant? mark = some c → Spells body text → Spells ('\\' :: mark :: body) (c :: text)
  | plain {c : Char} {body text : List Char} :
      c ≠ '"' → c ≠ '\\' → Spells body text → Spells (c :: body) (c :: text)

/-- Decodes the escapes, and refuses a quote or a backslash that is in none. -/
def decode? : List Char → Option (List Char)
  | [] => some []
  | '\\' :: mark :: body => do
    let c ← meant? mark
    let text ← decode? body
    return c :: text
  | c :: body =>
    if c == '"' || c == '\\' then none
    else do
      let text ← decode? body
      return c :: text

/-- Parts what stands behind an opening quote at the first quote that no backslash hides. -/
def close? : List Char → Option (List Char × List Char)
  | [] => none
  | '"' :: behind => some ([], behind)
  | '\\' :: hidden :: rest => do
    let (body, behind) ← close? rest
    return ('\\' :: hidden :: body, behind)
  | c :: rest => do
    let (body, behind) ← close? rest
    return (c :: body, behind)

/-- Characters that a literal does not hold: line ends, and tabs. -/
def isBreak (c : Char) : Bool := c == '\n' || c == '\r' || c == '\t'

/-- What a literal keeps of a text: all but the carriage returns, with spaces for tabs. -/
def kept (cs : List Char) : List Char :=
  (cs.filter (· != '\r')).map fun c => if c == '\t' then ' ' else c

/-! ## Reading -/

theorem meant?_eq_some {mark c : Char} (h : meant? mark = some c) :
    (mark = '\\' ∧ c = '\\') ∨ (mark = '"' ∧ c = '"') ∨ (mark = 'n' ∧ c = '\n') := by
  unfold meant? at h
  split at h
  · exact .inl ⟨rfl, (Option.some.inj h).symm⟩
  · exact .inr (.inl ⟨rfl, (Option.some.inj h).symm⟩)
  · exact .inr (.inr ⟨rfl, (Option.some.inj h).symm⟩)
  · cases h

theorem decode?_eq_some_iff {body text : List Char} :
    decode? body = some text ↔ Spells body text := by
  constructor
  · intro h
    fun_induction decode? body generalizing text with
    | case1 =>
      cases h
      exact .nothing
    | case2 mark body ih =>
      obtain ⟨c, meaning, h⟩ := Option.bind_eq_some_iff.mp h
      obtain ⟨rest, decoded, h⟩ := Option.bind_eq_some_iff.mp h
      cases h
      exact .escape meaning (ih decoded)
    | case3 => cases h
    | case4 c body _ other ih =>
      obtain ⟨rest, decoded, h⟩ := Option.bind_eq_some_iff.mp h
      cases h
      have apart : c ≠ '"' ∧ c ≠ '\\' := by simpa using other
      exact .plain apart.1 apart.2 (ih decoded)
  · intro h
    induction h with
    | nothing => rfl
    | escape meaning _ ih =>
      rw [decode?, meaning, ih]
      rfl
    | plain quote backslash _ ih =>
      rw [decode?, if_neg (by simp [quote, backslash]), ih]
      · rfl
      · intro _ _ first
        exact absurd first backslash

/-- A backslash of a spelling hides the character of its own escape and no other, so the quote
behind the spelling is the first that is not hidden. -/
theorem Spells.close? {body text : List Char} (h : Spells body text) (behind : List Char) :
    Literal.close? (body ++ '"' :: behind) = some (body, behind) := by
  induction h with
  | nothing => rfl
  | escape _ _ ih =>
    rw [List.cons_append, List.cons_append, Literal.close?, ih]
    rfl
  | plain quote backslash _ ih =>
    rw [List.cons_append, Literal.close?, ih]
    · rfl
    · exact quote
    · intro _ _ first
      exact absurd first backslash

/-- No spelling begins with a quote, so the quote of an escape has none behind it. -/
theorem Spells.not_infix_quotes {body text : List Char} (h : Spells body text) :
    ¬ ['"', '"'] <:+: body := by
  induction h with
  | nothing => simp
  | @escape mark c body text _ spelled ih =>
    have begins : ¬ ['"'] <+: body := by
      rintro ⟨more, rfl⟩
      cases spelled with
      | plain quote => exact quote rfl
    simpa [List.infix_cons_iff] using ⟨fun _ => begins, ih⟩
  | plain quote _ _ ih =>
    rw [List.infix_cons_iff, List.cons_prefix_cons]
    rintro (begins | inside)
    · exact quote begins.1.symm
    · exact ih inside

/-! ## Writing -/

theorem literalChar_plain {c : Char} (quote : c ≠ '"') (backslash : c ≠ '\\')
    (unbroken : isBreak c = false) : literalChar c = [c] := by
  have apart : (c ≠ '\n' ∧ c ≠ '\r') ∧ c ≠ '\t' := by simpa [isBreak] using unbroken
  simp [literalChar, quote, backslash, apart]

/-- The ways in which a character is written, and what is kept of it. -/
theorem literalChar_cases (c : Char) :
    (∃ mark, meant? mark = some c ∧ literalChar c = ['\\', mark] ∧ kept [c] = [c]) ∨
      (literalChar c = [] ∧ kept [c] = []) ∨ (literalChar c = [' '] ∧ kept [c] = [' ']) ∨
      (c ≠ '"' ∧ c ≠ '\\' ∧ isBreak c = false ∧ literalChar c = [c] ∧ kept [c] = [c]) := by
  by_cases backslash : c = '\\'
  · subst backslash
    exact .inl ⟨'\\', rfl, rfl, rfl⟩
  by_cases quote : c = '"'
  · subst quote
    exact .inl ⟨'"', rfl, rfl, rfl⟩
  by_cases line : c = '\n'
  · subst line
    exact .inl ⟨'n', rfl, rfl, rfl⟩
  by_cases carriage : c = '\r'
  · subst carriage
    exact .inr (.inl ⟨rfl, rfl⟩)
  by_cases tab : c = '\t'
  · subst tab
    exact .inr (.inr (.inl ⟨rfl, rfl⟩))
  · have unbroken : isBreak c = false := by simp [isBreak, line, carriage, tab]
    have whole : kept [c] = [c] := by simp [kept, carriage, tab]
    exact .inr (.inr (.inr ⟨quote, backslash, unbroken,
      literalChar_plain quote backslash unbroken, whole⟩))

theorem kept_cons (c : Char) (cs : List Char) : kept (c :: cs) = kept [c] ++ kept cs := by
  rw [kept, kept, kept, ← List.map_append, ← List.filter_append, List.singleton_append]

/-- One character of a text more, in front of a spelling. -/
theorem Spells.before {body text : List Char} (h : Spells body text) (c : Char) :
    Spells (literalChar c ++ body) (kept [c] ++ text) := by
  rcases literalChar_cases c with ⟨mark, meaning, written, whole⟩ | ⟨written, whole⟩ |
    ⟨written, whole⟩ | ⟨quote, backslash, -, written, whole⟩
  · rw [written, whole]
    exact .escape meaning h
  · rw [written, whole]
    exact h
  · rw [written, whole]
    exact .plain (by decide) (by decide) h
  · rw [written, whole]
    exact .plain quote backslash h

theorem spells_literal (cs : List Char) : Spells (cs.flatMap literalChar) (kept cs) := by
  induction cs with
  | nil => exact .nothing
  | cons c cs ih =>
    rw [List.flatMap_cons, kept_cons]
    exact ih.before c

theorem unbroken_literalChar (c : Char) : ∀ d ∈ literalChar c, isBreak d = false := by
  rcases literalChar_cases c with ⟨mark, meaning, written, -⟩ | ⟨written, -⟩ | ⟨written, -⟩ |
    ⟨-, -, unbroken, written, -⟩
  · have shown : isBreak mark = false := by
      rcases meant?_eq_some meaning with ⟨rfl, -⟩ | ⟨rfl, -⟩ | ⟨rfl, -⟩ <;> decide
    rw [written, List.forall_mem_cons, List.forall_mem_singleton]
    exact ⟨by decide, shown⟩
  · rw [written]
    exact List.forall_mem_nil _
  · rw [written, List.forall_mem_singleton]
    decide
  · rw [written, List.forall_mem_singleton]
    exact unbroken

theorem toList_literalText (s : String) :
    (literalText s).toList = s.toList.flatMap literalChar := by
  rw [literalText, String.toList_ofList]

theorem spells_literalText (s : String) : Spells (literalText s).toList (kept s.toList) := by
  rw [toList_literalText]
  exact spells_literal s.toList

theorem unbroken_literalText (s : String) : ∀ c ∈ (literalText s).toList, isBreak c = false := by
  intro d hd
  rw [toList_literalText] at hd
  obtain ⟨c, -, hc⟩ := List.mem_flatMap.mp hd
  exact unbroken_literalChar c d hc

theorem literalText_no_quotes (s : String) : ¬ Text.Holds (literalText s) "\"\"" :=
  (spells_literalText s).not_infix_quotes

/-- A literal is written for what it keeps as it is for the whole text. -/
theorem literal_kept (cs : List Char) :
    (kept cs).flatMap literalChar = cs.flatMap literalChar := by
  induction cs with
  | nil => rfl
  | cons c cs ih =>
    have first : (kept [c]).flatMap literalChar = literalChar c := by
      rcases literalChar_cases c with ⟨mark, -, -, whole⟩ | ⟨written, whole⟩ | ⟨written, whole⟩ |
        ⟨-, -, -, -, whole⟩
      · rw [whole, List.flatMap_singleton]
      · rw [written, whole, List.flatMap_nil]
      · rw [written, whole]
        rfl
      · rw [whole, List.flatMap_singleton]
    rw [kept_cons, List.flatMap_append, first, ih, List.flatMap_cons]

theorem kept_of_plain {cs : List Char} (carriage : '\r' ∉ cs) (tab : '\t' ∉ cs) :
    kept cs = cs := by
  induction cs with
  | nil => rfl
  | cons c cs ih =>
    rw [List.mem_cons, not_or] at carriage tab
    have first : kept [c] = [c] := by simp [kept, Ne.symm carriage.1, Ne.symm tab.1]
    rw [kept_cons, first, ih carriage.2 tab.2, List.singleton_append]

/-- A spelling that breaks no line and holds no tab is the literal of its text. -/
theorem Spells.eq_literal {body text : List Char} (h : Spells body text)
    (unbroken : ∀ c ∈ body, isBreak c = false) : body = text.flatMap literalChar := by
  induction h with
  | nothing => rfl
  | @escape mark c body text meaning _ ih =>
    have written : literalChar c = ['\\', mark] := by
      rcases meant?_eq_some meaning with ⟨rfl, rfl⟩ | ⟨rfl, rfl⟩ | ⟨rfl, rfl⟩ <;> rfl
    rw [List.forall_mem_cons, List.forall_mem_cons] at unbroken
    rw [List.flatMap_cons, written, ← ih unbroken.2.2]
    rfl
  | @plain c body text quote backslash _ ih =>
    rw [List.forall_mem_cons] at unbroken
    rw [List.flatMap_cons, literalChar_plain quote backslash unbroken.1, ← ih unbroken.2,
      List.singleton_append]

/-- The literals of texts are the spellings that break no line and hold no tab. -/
theorem exists_literal_iff {body : List Char} :
    (∃ s : String, (literalText s).toList = body) ↔
      (∃ text, Spells body text) ∧ ∀ c ∈ body, isBreak c = false := by
  constructor
  · rintro ⟨s, rfl⟩
    exact ⟨⟨_, spells_literalText s⟩, unbroken_literalText s⟩
  · rintro ⟨⟨text, spelled⟩, unbroken⟩
    refine ⟨String.ofList text, ?_⟩
    rw [toList_literalText, String.toList_ofList]
    exact (spelled.eq_literal unbroken).symm

/-! ## Both ways -/

/-- A literal breaks no line, has its quotes and backslashes in escapes only, ends at the quote that
is put behind it, and reads back as what it keeps of its text; so texts without carriage returns
and tabs are told apart by their literals. -/
theorem reads_back (s : String) :
    (∀ c ∈ (literalText s).toList, c ≠ '\n' ∧ c ≠ '\r' ∧ c ≠ '\t') ∧
      Spells (literalText s).toList (kept s.toList) ∧
      (∀ behind, close? ((literalText s).toList ++ '"' :: behind) =
        some ((literalText s).toList, behind)) ∧
      decode? (literalText s).toList = some (kept s.toList) ∧
      (∀ t, literalText s = literalText t ↔ kept s.toList = kept t.toList) ∧
      (∀ t : String, '\r' ∉ s.toList → '\t' ∉ s.toList → '\r' ∉ t.toList → '\t' ∉ t.toList →
        literalText s = literalText t → s = t) := by
  have spelled : Spells (literalText s).toList (kept s.toList) := spells_literalText s
  have same (t : String) : literalText s = literalText t ↔ kept s.toList = kept t.toList := by
    constructor
    · intro h
      have other : Spells (literalText s).toList (kept t.toList) := h ▸ spells_literalText t
      have read := (decode?_eq_some_iff.mpr spelled).symm.trans (decode?_eq_some_iff.mpr other)
      exact Option.some.inj read
    · intro h
      rw [literalText, literalText, ← literal_kept s.toList, h, literal_kept]
  refine ⟨?_, spelled, spelled.close?, decode?_eq_some_iff.mpr spelled, same, ?_⟩
  · intro c hc
    have apart : (c ≠ '\n' ∧ c ≠ '\r') ∧ c ≠ '\t' := by
      simpa [isBreak] using unbroken_literalText s c hc
    exact ⟨apart.1.1, apart.1.2, apart.2⟩
  · intro t carriage tab carriage' tab' h
    have equal : kept s.toList = kept t.toList := (same t).mp h
    rw [kept_of_plain carriage tab, kept_of_plain carriage' tab'] at equal
    exact String.toList_inj.mp equal

/-- A backslash in front of an `n` is not read as the end of a line, nor is one in front of a quote
taken for the escape of that quote. -/
theorem backslash_reads_back :
    literalText "\\n" ≠ literalText "\n" ∧
      close? ((literalText "\\\"\t\\\r\n").toList ++ ['"', '"', ';']) =
        some ("\\\\\\\" \\\\\\n".toList, ['"', ';']) ∧
      decode? (literalText "\\\"\t\\\r\n").toList = some "\\\" \\\n".toList := by
  obtain ⟨-, -, -, -, -, apart⟩ := reads_back "\\n"
  obtain ⟨-, -, closed, decoded, -, -⟩ := reads_back "\\\"\t\\\r\n"
  refine ⟨?_, closed ['"', ';'], decoded⟩
  intro same
  have equal : "\\n" = "\n" := apart "\n" (by decide) (by decide) (by decide) (by decide) same
  exact absurd equal (by decide)

end Literal

end EnumRegistry
