import EnumRegistry.Name.Normal
import Mathlib.Data.List.Infix

/-!
Operator glyphs and the words for them. A text is spelled out in one scan that takes the longest
glyph at each place; a machine that only knows whether the character before may have begun a glyph
writes the same.
-/

namespace EnumRegistry.Name

/-- What is written for a glyph. -/
structure Glyph where
  sign : List Char
  word : List Char
  deriving DecidableEq, Repr

def plus : Glyph := ⟨['+'], ['P', 'L', 'U', 'S']⟩

def operators : List Glyph :=
  [⟨['<', '='], ['L', 'T', 'E']⟩, ⟨['>', '='], ['G', 'T', 'E']⟩, ⟨['<'], ['L', 'T']⟩,
    ⟨['>'], ['G', 'T']⟩, ⟨['='], ['E', 'Q']⟩, ⟨['%'], ['p', 'c', 't']⟩]

def glyphs : List Glyph := plus :: operators

/-- The characters that glyphs are made of. -/
def signs : List Char := ['<', '>', '=', '+', '%']

/-! ## One scan -/

/-- Of the glyphs that begin a text, the longest. -/
structure Longest (g : Glyph) (cs : List Char) : Prop where
  known : g ∈ glyphs
  begins : g.sign <+: cs
  longest : ∀ other ∈ glyphs, other.sign <+: cs → other.sign.length ≤ g.sign.length

/-- A text scanned from left to right: the longest glyph at each place is spelled out, and every
other character is kept. -/
inductive Scanned : List Char → List Char → Prop where
  | stop : Scanned [] []
  | glyph {g rest text} : Longest g (g.sign ++ rest) → Scanned rest text →
      Scanned (g.sign ++ rest) (g.word ++ text)
  | kept {c rest text} : (∀ g ∈ glyphs, ¬ g.sign <+: c :: rest) → Scanned rest text →
      Scanned (c :: rest) (c :: text)

/-- Characters that begin a glyph of two. -/
def opens (c : Char) : Bool := c == '<' || c == '>'

theorem mem_glyphs {g : Glyph} (h : g ∈ glyphs) :
    (∃ c, g.sign = [c]) ∨ ∃ c, opens c = true ∧ g.sign = [c, '='] := by
  simp only [glyphs, operators, plus, List.mem_cons, List.not_mem_nil, or_false] at h
  rcases h with rfl | rfl | rfl | rfl | rfl | rfl | rfl
  all_goals simp [opens]

theorem longest_pair {c : Char} {w : List Char} (known : ⟨[c, '='], w⟩ ∈ glyphs)
    (rest : List Char) : Longest ⟨[c, '='], w⟩ (c :: '=' :: rest) := by
  refine ⟨known, ⟨rest, rfl⟩, fun other hother _ => ?_⟩
  rcases mem_glyphs hother with ⟨d, sign⟩ | ⟨d, -, sign⟩
  all_goals simp [sign]

theorem longest_single {c : Char} {w rest : List Char} (known : ⟨[c], w⟩ ∈ glyphs)
    (alone : opens c = true → rest.head? ≠ some '=') : Longest ⟨[c], w⟩ (c :: rest) := by
  refine ⟨known, ⟨rest, rfl⟩, fun other hother begins => ?_⟩
  rcases mem_glyphs hother with ⟨d, sign⟩ | ⟨d, first, sign⟩
  · simp [sign]
  · rw [sign, List.cons_prefix_cons] at begins
    obtain ⟨rfl, tail, rfl⟩ := begins
    exact absurd rfl (alone first)

theorem Longest.alone {c : Char} {w rest : List Char} (h : Longest ⟨[c], w⟩ (c :: rest))
    {v : List Char} (pair : ⟨[c, '='], v⟩ ∈ glyphs) : rest.head? ≠ some '=' := by
  intro first
  obtain ⟨tail, rfl⟩ := List.head?_eq_some_iff.mp first
  exact absurd (h.longest _ pair ⟨tail, rfl⟩) (by simp)

theorem Scanned.pair {c : Char} {w rest text : List Char} (known : ⟨[c, '='], w⟩ ∈ glyphs)
    (h : Scanned rest text) : Scanned (c :: '=' :: rest) (w ++ text) :=
  .glyph (longest_pair known rest) h

theorem Scanned.single {c : Char} {w rest text : List Char} (known : ⟨[c], w⟩ ∈ glyphs)
    (alone : opens c = true → rest.head? ≠ some '=') (h : Scanned rest text) :
    Scanned (c :: rest) (w ++ text) :=
  .glyph (longest_single known alone) h

theorem head?_ne_of_not_cons {c : Char} {cs : List Char} (h : ∀ rest, cs = c :: rest → False) :
    cs.head? ≠ some c := by
  intro first
  obtain ⟨rest, rfl⟩ := List.head?_eq_some_iff.mp first
  exact h rest rfl

/-! ## One character at a time -/

/-- What is written for a character, `opened` telling whether the one before may begin a glyph of
two. -/
def wordAfter (opened : Bool) (c : Char) : List Char :=
  if c = '<' then ['L', 'T']
  else if c = '>' then ['G', 'T']
  else if c = '=' then if opened then ['E'] else ['E', 'Q']
  else if c = '+' then ['P', 'L', 'U', 'S']
  else if c = '%' then ['p', 'c', 't']
  else [c]

def spellFrom (opened : Bool) : List Char → List Char
  | [] => []
  | c :: rest => wordAfter opened c ++ spellFrom (opens c) rest

theorem spellFrom_of_head {cs : List Char} (h : cs.head? ≠ some '=') (opened : Bool) :
    spellFrom opened cs = spellFrom false cs := by
  cases cs with
  | nil => rfl
  | cons c rest =>
    have other : c ≠ '=' := by simpa using h
    simp only [spellFrom, wordAfter, other, ↓reduceIte]

theorem wordAfter_kept {c : Char} (h : c ∉ signs) (opened : Bool) :
    wordAfter opened c = [c] ∧ opens c = false := by
  simp only [signs, List.mem_cons, List.not_mem_nil, or_false, not_or] at h
  simp [wordAfter, opens, h]

/-- A glyph of two is the word of its first character and one letter more. -/
theorem spellGlyphs_eq (cs : List Char) : spellGlyphs cs = spellFrom false cs := by
  fun_induction spellGlyphs cs with
  | case1 rest ih => rw [ih]; rfl
  | case2 rest ih => rw [ih]; rfl
  | case3 rest alone ih => rw [ih, ← spellFrom_of_head (head?_ne_of_not_cons alone) true]; rfl
  | case4 rest alone ih => rw [ih, ← spellFrom_of_head (head?_ne_of_not_cons alone) true]; rfl
  | case5 rest ih => rw [ih]; rfl
  | case6 rest ih => rw [ih]; rfl
  | case7 rest ih => rw [ih]; rfl
  | case8 c rest _ _ less more equal sum percent ih =>
    obtain ⟨word, closed⟩ := @wordAfter_kept c (by simp_all [signs]) false
    rw [spellFrom, word, closed, ih]; rfl
  | case9 => rfl

/-- Every character of a glyph is one by itself, so where none begins the character is in none. -/
theorem not_mem_signs_iff {c : Char} {rest : List Char} :
    c ∉ signs ↔ ∀ g ∈ glyphs, ¬ g.sign <+: c :: rest := by
  simp only [signs, List.mem_cons, List.not_mem_nil, or_false, not_or]
  constructor
  · intro h
    simp [glyphs, operators, plus, List.cons_prefix_cons, eq_comm, h]
  · intro none
    have apart {d : Char} {w : List Char} (known : ⟨[d], w⟩ ∈ glyphs) : c ≠ d := by
      rintro rfl
      exact none _ known ⟨rest, rfl⟩
    exact ⟨apart (w := ['L', 'T']) (by decide), apart (w := ['G', 'T']) (by decide),
      apart (w := ['E', 'Q']) (by decide), apart (w := plus.word) (by decide),
      apart (w := ['p', 'c', 't']) (by decide)⟩

theorem Longest.spelled {g : Glyph} {rest : List Char} (h : Longest g (g.sign ++ rest)) :
    spellFrom false (g.sign ++ rest) = g.word ++ spellFrom false rest := by
  have known := h.known
  simp only [glyphs, operators, plus, List.mem_cons, List.not_mem_nil, or_false] at known
  rcases known with rfl | rfl | rfl | rfl | rfl | rfl | rfl
  · rfl
  · rfl
  · rfl
  · have apart : rest.head? ≠ some '=' := h.alone (v := ['L', 'T', 'E']) (by decide)
    rw [← spellFrom_of_head apart true]; rfl
  · have apart : rest.head? ≠ some '=' := h.alone (v := ['G', 'T', 'E']) (by decide)
    rw [← spellFrom_of_head apart true]; rfl
  · rfl
  · rfl

/-- A text has one scan, and that is what is spelled out of it. -/
theorem scanned_iff {cs text : List Char} : Scanned cs text ↔ text = spellGlyphs cs := by
  constructor
  · intro h
    rw [spellGlyphs_eq]
    induction h with
    | stop => rfl
    | glyph longest _ ih => rw [longest.spelled, ih]
    | @kept c rest text none _ ih =>
      obtain ⟨word, closed⟩ := wordAfter_kept (not_mem_signs_iff.mpr none) false
      rw [spellFrom, word, closed, ih]; rfl
  · rintro rfl
    fun_induction spellGlyphs cs with
    | case1 rest ih => exact .pair (w := ['L', 'T', 'E']) (by decide) ih
    | case2 rest ih => exact .pair (w := ['G', 'T', 'E']) (by decide) ih
    | case3 rest alone ih =>
      exact .single (w := ['L', 'T']) (by decide) (fun _ => head?_ne_of_not_cons alone) ih
    | case4 rest alone ih =>
      exact .single (w := ['G', 'T']) (by decide) (fun _ => head?_ne_of_not_cons alone) ih
    | case5 rest ih => exact .single (w := ['E', 'Q']) (by decide) (absurd · (by decide)) ih
    | case6 rest ih => exact .single (w := plus.word) (by decide) (absurd · (by decide)) ih
    | case7 rest ih => exact .single (w := ['p', 'c', 't']) (by decide) (absurd · (by decide)) ih
    | case8 c rest _ _ less more equal sum percent ih =>
      exact .kept (not_mem_signs_iff.mp (by simp_all [signs])) ih
    | case9 => exact .stop

end EnumRegistry.Name
