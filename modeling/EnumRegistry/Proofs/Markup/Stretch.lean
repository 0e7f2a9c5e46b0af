import EnumRegistry.Markup.Lexeme

/-!
Documents cut into stretches: whole markup, and what stands between. In a document that is lexed to
its end, a stretch gives its lexeme whatever stands before and behind it; so others can be left out.
-/

namespace EnumRegistry.Markup

/-! ## Positions -/

/-- A lexeme without its position. -/
def Lexeme.unplaced : Lexeme → Lexeme
  | start _ content => start 0 content
  | empty _ content => empty 0 content
  | close _ name => close 0 name
  | fault _ cause => fault 0 cause

/-- A place without its position. Blanks are text then. -/
def Place.unplaced : Place → Place
  | gap _ | text => text
  | opened _ => opened 0
  | bang _ => bang 0
  | inside _ body read => inside 0 body read

def Advance.unplaced : Advance → Advance
  | on place => on place.unplaced
  | whole lexemes => whole (lexemes.map (·.unplaced))
  | stop _ fault => stop 0 fault

@[simp] theorem Lexeme.unplaced_unplaced (lexeme : Lexeme) :
    lexeme.unplaced.unplaced = lexeme.unplaced := by
  cases lexeme <;> rfl

@[simp] theorem Place.unplaced_unplaced (place : Place) :
    place.unplaced.unplaced = place.unplaced := by
  cases place <;> rfl

theorem tagLexeme_unplaced (position : Nat) (content : List UInt8) :
    (tagLexeme position content).unplaced = tagLexeme 0 content := by
  unfold tagLexeme
  split
  · rfl
  · split <;> rfl

theorem Body.lexemes_unplaced (body : Body) (position : Nat) (content : List UInt8) :
    (body.lexemes position content).map (·.map (·.unplaced)) = body.lexemes 0 content := by
  cases body with
  | comment | cdata | instruction =>
    simp only [lexemes]
    split <;> rfl
  | doctype depth =>
    simp only [lexemes]
    split
    · rfl
    · split <;> rfl
  | tag quote =>
    change Except.ok [(tagLexeme position content).unplaced] = _
    rw [tagLexeme_unplaced]
    rfl

theorem advanceInside_unplaced (position : Nat) (body : Body) (read : List UInt8) (b : UInt8) :
    (advanceInside position body read b).unplaced = advanceInside 0 body read b := by
  unfold advanceInside
  cases body.feed read b with
  | some body => rfl
  | none =>
    dsimp only
    rw [← body.lexemes_unplaced position]
    cases body.lexemes position read.reverse <;> rfl

theorem not_open_of_isSpace {b : UInt8} (space : isSpace b = true) : (b == 0x3C) = false := by
  rw [beq_eq_false_iff_ne]
  rintro rfl
  cases space

theorem advance_unplaced (place : Place) (offset : Nat) (b : UInt8) :
    (place.advance offset b).unplaced = place.unplaced.advance 0 b := by
  cases place with
  | gap start =>
    simp only [Place.advance, Place.unplaced]
    split
    · rename_i space
      simp [Advance.unplaced, Place.unplaced, not_open_of_isSpace space]
    · split <;> rfl
  | text =>
    simp only [Place.advance, Place.unplaced]
    split <;> rfl
  | opened position =>
    simp only [Place.advance, Place.unplaced]
    split
    · rfl
    · split <;> exact advanceInside_unplaced ..
  | bang position =>
    simp only [Place.advance, Place.unplaced]
    split
    · rfl
    · split
      · rfl
      · split <;> rfl
  | inside position body read => exact advanceInside_unplaced position body read b

/-- What bytes give where reading stands at a place, but for positions. -/
def tokensFrom (place : Place) (bytes : List UInt8) : List Lexeme :=
  (lexemesFrom 0 place bytes).map (·.unplaced)

/-- What bytes give outside of markup. -/
def tokens (bytes : List UInt8) : List Lexeme := tokensFrom .text bytes

/-- But for positions, lexemes do not depend on what was read before markup. -/
theorem lexemesFrom_unplaced (offset : Nat) (place : Place) (bytes : List UInt8) :
    (lexemesFrom offset place bytes).map (·.unplaced) = tokensFrom place.unplaced bytes := by
  unfold tokensFrom
  induction bytes generalizing offset place with
  | nil => cases place <;> rfl
  | cons b rest ih =>
    rw [lexemesFrom, lexemesFrom, ← advance_unplaced place offset b]
    cases place.advance offset b with
    | on place' =>
      have first := ih (offset + 1) place'
      have second := ih (0 + 1) place'.unplaced
      rw [Place.unplaced_unplaced] at second
      exact first.trans second.symm
    | whole lexemes =>
      have first := ih (offset + 1) (.gap (offset + 1))
      have second := ih (0 + 1) (.gap (0 + 1))
      change (lexemes ++ _).map _ = (lexemes.map _ ++ _).map _
      have twice : Lexeme.unplaced ∘ Lexeme.unplaced = Lexeme.unplaced :=
        funext Lexeme.unplaced_unplaced
      rw [List.map_append, List.map_append, first, second, List.map_map, twice]
      rfl
    | stop position fault => rfl

theorem tokensFrom_unplaced (place : Place) (bytes : List UInt8) :
    tokensFrom place.unplaced bytes = tokensFrom place bytes :=
  (lexemesFrom_unplaced 0 place bytes).symm

/-- A byte order mark is no markup. -/
theorem lexemes_unplaced (document : List UInt8) :
    (lexemes document).map (·.unplaced) = tokens document := by
  refine (lexemesFrom_unplaced 0 (.gap 0) (withoutMark document)).trans ?_
  unfold withoutMark
  split
  · rename_i rest
    have first := lexemesFrom_unplaced 3 .text rest
    exact first.symm
  · rfl

theorem tokensFrom_cons (place : Place) (b : UInt8) (rest : List UInt8) :
    tokensFrom place (b :: rest) = match place.advance 0 b with
      | .on place => tokensFrom place rest
      | .whole lexemes => lexemes.map (·.unplaced) ++ tokens rest
      | .stop _ fault => [.fault 0 (.syntactic fault)] := by
  rw [tokensFrom, lexemesFrom]
  cases place.advance 0 b with
  | on place' => exact (lexemesFrom_unplaced 1 place' rest).trans (tokensFrom_unplaced place' rest)
  | whole lexemes =>
    dsimp only
    rw [List.map_append, lexemesFrom_unplaced]
    rfl
  | stop position fault => rfl

/-! ## Stretches -/

/-- A part of a document, with the lexeme that it gives. -/
structure Stretch where
  bytes : List UInt8
  lexeme? : Option Lexeme

/-- Cuts bytes where markup begins and where it ends. What is read of a stretch stands last byte
first. -/
def stretchesFrom (place : Place) (read : List UInt8) : List UInt8 → List Stretch
  | [] => [⟨read.reverse, none⟩]
  | b :: rest =>
    match place.advance 0 b with
    | .on (.opened position) => ⟨read.reverse, none⟩ :: stretchesFrom (.opened position) [b] rest
    | .on place => stretchesFrom place (b :: read) rest
    | .whole lexemes =>
      ⟨(b :: read).reverse, lexemes.head?.map (·.unplaced)⟩ :: stretchesFrom .text [] rest
    | .stop _ _ => [⟨read.reverse ++ b :: rest, none⟩]

/-- The stretches of a document. -/
def stretches (document : List UInt8) : List Stretch := stretchesFrom .text [] document

/-- The stretches are the document. -/
theorem flatten_stretchesFrom (place : Place) (read bytes : List UInt8) :
    ((stretchesFrom place read bytes).map (·.bytes)).flatten = read.reverse ++ bytes := by
  fun_induction stretchesFrom place read bytes with
  | case1 => simp
  | case2 place read b rest position h ih => simp [ih]
  | case3 place read b rest place' _ h ih => simp [ih]
  | case4 place read b rest lexemes h ih => simp [ih]
  | case5 place read b rest position fault h => simp

/-- Markup gives one lexeme at most. -/
theorem Body.toList_head?_lexemes {body : Body} {position : Nat} {content : List UInt8}
    {found : List Lexeme} (h : body.lexemes position content = .ok found) :
    found.head?.toList = found := by
  cases body with
  | comment | cdata | instruction =>
    simp only [lexemes] at h
    split at h
    · cases h
      rfl
    · cases h
  | doctype depth =>
    simp only [lexemes] at h
    split at h
    · cases h
    · split at h <;> (cases h; rfl)
  | tag quote =>
    cases h
    rfl

theorem advanceInside_eq_whole {position : Nat} {body : Body} {read : List UInt8} {b : UInt8}
    {found : List Lexeme} (h : advanceInside position body read b = .whole found) :
    found.head?.toList = found := by
  unfold advanceInside at h
  split at h
  · cases h
  · split at h
    · rename_i made
      cases h
      exact Body.toList_head?_lexemes made
    · cases h

theorem advance_eq_whole {place : Place} {offset : Nat} {b : UInt8} {found : List Lexeme}
    (h : place.advance offset b = .whole found) : found.head?.toList = found := by
  cases place with
  | gap start =>
    simp only [Place.advance] at h
    split at h
    · cases h
    · split at h <;> cases h
  | text =>
    simp only [Place.advance] at h
    split at h <;> cases h
  | opened position =>
    simp only [Place.advance] at h
    split at h
    · cases h
    · split at h <;> exact advanceInside_eq_whole h
  | bang position =>
    simp only [Place.advance] at h
    split at h
    · cases h
    · split at h
      · cases h
      · split at h <;> cases h
  | inside position body read => exact advanceInside_eq_whole h

theorem advanceInside_ne_opened {position at' : Nat} {body : Body} {read : List UInt8} {b : UInt8} :
    advanceInside position body read b ≠ .on (.opened at') := by
  unfold advanceInside
  split
  · simp
  · split <;> simp

/-- Markup begins outside of markup. -/
theorem advance_eq_opened {place : Place} {offset position : Nat} {b : UInt8}
    (h : place.advance offset b = .on (.opened position)) :
    place.unplaced = .text ∧ b = 0x3C := by
  cases place with
  | gap start =>
    simp only [Place.advance] at h
    split at h
    · cases h
    · split at h
      · exact ⟨rfl, eq_of_beq ‹_›⟩
      · cases h
  | text =>
    simp only [Place.advance] at h
    split at h
    · exact ⟨rfl, eq_of_beq ‹_›⟩
    · cases h
  | opened position =>
    simp only [Place.advance] at h
    split at h
    · cases h
    · split at h <;> exact absurd h advanceInside_ne_opened
  | bang position =>
    simp only [Place.advance] at h
    split at h
    · cases h
    · split at h
      · cases h
      · split at h <;> cases h
  | inside position body read => exact absurd h advanceInside_ne_opened

/-- A stretch gives its lexeme whatever stands behind it. -/
def Stretch.Genuine (s : Stretch) : Prop :=
  ∀ rest, tokens (s.bytes ++ rest) = s.lexeme?.toList ++ tokens rest

/-- If nothing is wrong with the markup, all stretches are genuine: what is read of one leads from
outside of markup to where reading stands. -/
theorem stretchesFrom_genuine {place : Place} {read bytes : List UInt8}
    (reads : ∀ rest, tokens (read.reverse ++ rest) = tokensFrom place rest)
    (faultless : ∀ fault, .fault 0 fault ∉ tokensFrom place bytes) :
    ∀ s ∈ stretchesFrom place read bytes, s.Genuine := by
  -- Where no markup is open, what is read gives nothing.
  have outside {place : Place} {read : List UInt8} (text : place.unplaced = .text)
      (reads : ∀ rest, tokens (read.reverse ++ rest) = tokensFrom place rest) :
      Stretch.Genuine ⟨read.reverse, none⟩ := by
    intro rest
    rw [reads, ← tokensFrom_unplaced, text]
    rfl
  fun_induction stretchesFrom place read bytes with
  | case1 place read =>
    have text : place.unplaced = .text := by
      cases place with
      | gap | text => rfl
      | opened | bang | inside => exact absurd (List.mem_singleton_self _) (faultless _)
    simpa using outside text reads
  | case2 place read b rest position h ih =>
    obtain ⟨text, -⟩ := advance_eq_opened h
    rw [List.forall_mem_cons]
    refine ⟨outside text reads, ih (fun rest => ?_) ?_⟩
    · have opens := advance_unplaced place 0 b
      rw [h, text] at opens
      change tokensFrom .text (b :: rest) = _
      rw [tokensFrom_cons, ← opens]
      exact tokensFrom_unplaced (.opened position) rest
    · rwa [tokensFrom_cons, h] at faultless
  | case3 place read b rest place' _ h ih =>
    rw [tokensFrom_cons, h] at faultless
    refine ih (fun rest => ?_) faultless
    rw [List.reverse_cons, List.append_assoc, reads, List.singleton_append, tokensFrom_cons, h]
  | case4 place read b rest found h ih =>
    rw [tokensFrom_cons, h] at faultless
    rw [List.forall_mem_cons]
    refine ⟨fun rest => ?_, ih (fun _ => rfl) fun fault mem => ?_⟩
    · rw [List.reverse_cons, List.append_assoc, reads, List.singleton_append, tokensFrom_cons, h]
      dsimp only
      rw [← advance_eq_whole h]
      cases found <;> rfl
    · exact faultless fault (List.mem_append_right _ mem)
  | case5 place read b rest position fault h =>
    rw [tokensFrom_cons, h] at faultless
    exact absurd (List.mem_singleton_self _) (faultless _)

/-- Genuine stretches give their lexemes, in their order, whatever stands behind them. -/
theorem tokens_flatten_append {parts : List Stretch} (genuine : ∀ s ∈ parts, s.Genuine)
    (rest : List UInt8) : tokens ((parts.map (·.bytes)).flatten ++ rest) =
      parts.flatMap (·.lexeme?.toList) ++ tokens rest := by
  induction parts with
  | nil => rfl
  | cons s parts ih =>
    obtain ⟨first, others⟩ := List.forall_mem_cons.mp genuine
    rw [List.map_cons, List.flatten_cons, List.append_assoc, first, ih others, List.flatMap_cons,
      List.append_assoc]

theorem tokens_flatten {parts : List Stretch} (genuine : ∀ s ∈ parts, s.Genuine) :
    tokens (parts.map (·.bytes)).flatten = parts.flatMap (·.lexeme?.toList) := by
  have whole := tokens_flatten_append genuine []
  rw [List.append_nil] at whole
  rw [whole]
  exact List.append_nil _

theorem stretches_genuine {document : List UInt8}
    (faultless : ∀ fault, .fault 0 fault ∉ tokens document) :
    ∀ s ∈ stretches document, s.Genuine :=
  stretchesFrom_genuine (fun _ => rfl) faultless

/-- The lexemes of a document are those of its stretches. -/
theorem tokens_stretches {document : List UInt8}
    (faultless : ∀ fault, .fault 0 fault ∉ tokens document) :
    tokens document = (stretches document).flatMap (·.lexeme?.toList) := by
  rw [← tokens_flatten (stretches_genuine faultless), stretches, flatten_stretchesFrom]
  rfl

/-! ## Documents put together -/

def Lexeme.isFault : Lexeme → Bool
  | fault _ _ => true
  | _ => false

/-- Whether bytes end outside of markup, with nothing wrong in the markup among them. -/
def endsOutside (bytes : List UInt8) : Bool := (tokens bytes).all (!·.isFault)

theorem not_mem_fault_of_endsOutside {bytes : List UInt8} (h : endsOutside bytes = true)
    (fault : Fault) : .fault 0 fault ∉ tokens bytes := by
  intro member
  have sound := List.all_eq_true.mp h _ member
  cases sound

theorem endsOutside_of_not_mem_fault {bytes : List UInt8}
    (faultless : ∀ fault, .fault 0 fault ∉ tokens bytes) : endsOutside bytes = true := by
  refine List.all_eq_true.mpr fun lexeme member => ?_
  cases lexeme with
  | start | empty | close => rfl
  | fault position cause =>
    obtain ⟨placed, -, unplaced⟩ := List.mem_map.mp member
    cases placed with
    | start | empty | close => cases unplaced
    | fault => cases unplaced; exact absurd member (faultless cause)

/-- What stands behind bytes that end outside of markup is read as if it stood alone. -/
theorem tokens_append {bytes : List UInt8} (outside : endsOutside bytes = true)
    (rest : List UInt8) : tokens (bytes ++ rest) = tokens bytes ++ tokens rest := by
  have faultless := not_mem_fault_of_endsOutside outside
  have whole := flatten_stretchesFrom .text [] bytes
  have read := tokens_flatten_append (stretches_genuine faultless) rest
  rw [← tokens_stretches faultless, stretches, whole] at read
  exact read

end EnumRegistry.Markup
