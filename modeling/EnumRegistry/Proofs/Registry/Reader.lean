import EnumRegistry.Registry.Reader

/-!
Documents are balanced. An end tag closes the element that is open, an empty tag both starts and
ends one, and a document that is read to its end leaves nothing open.
-/

namespace EnumRegistry

/-- How many elements are open after events, if so many are before. -/
def openAfter : Nat → List Event → Nat
  | count, [] => count
  | count, .start _ :: rest => openAfter (count + 1) rest
  | count, .finish _ :: rest => openAfter (count - 1) rest

/-- Every end is that of the innermost open element, and in the end none is open. -/
def Balanced : List ElementKind → List Event → Prop
  | opened, [] => opened = []
  | opened, .start e :: rest => Balanced (e.kind :: opened) rest
  | kind :: opened, .finish ended :: rest => ended = kind ∧ Balanced opened rest
  | [], .finish _ :: _ => False

theorem Balanced.openAfter {opened : List ElementKind} {events : List Event}
    (h : Balanced opened events) : openAfter opened.length events = 0 := by
  induction events generalizing opened with
  | nil =>
    obtain rfl : opened = [] := h
    rfl
  | cons event rest ih =>
    cases event with
    | start e => exact ih h
    | finish kind =>
      cases opened with
      | nil => cases h
      | cons first outer => exact ih h.2

/-- Whether an element starts or ends, and its kind. -/
def Event.outline : Event → Bool × ElementKind
  | .start e => (true, e.kind)
  | .finish kind => (false, kind)

theorem Event.outline_eq_start {event : Event} {kind : ElementKind} :
    event.outline = (true, kind) ↔ ∃ e, event = .start e ∧ e.kind = kind := by
  cases event <;> simp [outline]

theorem Event.outline_eq_finish {event : Event} {kind : ElementKind} :
    event.outline = (false, kind) ↔ event = .finish kind := by
  cases event <;> simp [outline]

/-- The kinds of the elements that are open. -/
def Nesting.kinds (n : Nesting) : List ElementKind :=
  n.names.map fun name => .ofTag (localText name)

theorem Element.ofTag_kind {position : Nat} {content : List UInt8} {e : Element}
    (h : Element.ofTag position content = .ok e) :
    e.kind = .ofTag (localText (tagName content)) := by
  unfold Element.ofTag at h
  dsimp only at h
  cases hgather : gather {} (Markup.attributesFrom (tagName content).length [] .before
      (content.drop (tagName content).length)) with
  | error fault =>
    rw [hgather] at h
    cases h
  | ok attributes =>
    rw [hgather] at h
    cases h
    rfl

namespace Reader

/-! ## Readings to the end -/

variable {n : Nesting} {pieces : List Piece} {events : List Event}

theorem eventsFrom_nil_eq_ok : eventsFrom n [] = (events, none) ↔ n.tags = [] ∧ events = [] := by
  rw [eventsFrom, Nesting.atEnd]
  cases n.tags <;> simp [eq_comm]

theorem eventsFrom_cons_eq_ok {piece : Piece} :
    eventsFrom n (piece :: pieces) = (events, none) ↔
      ∃ event n' rest, n.step piece = (.ok event, n') ∧ eventsFrom n' pieces = (rest, none) ∧
        events = event :: rest := by
  rw [eventsFrom]
  split
  · rename_i event n' hstep
    constructor
    · intro h
      obtain ⟨rfl, failure⟩ := Prod.mk.inj h
      exact ⟨event, n', _, hstep, Prod.ext rfl failure, rfl⟩
    · rintro ⟨_, _, rest, same, hrest, rfl⟩
      cases hstep.symm.trans same
      rw [hrest]
  · rename_i err n' hstep
    constructor
    · intro h
      cases h
    · rintro ⟨_, _, _, same, -⟩
      cases hstep.symm.trans same

theorem eventsFrom_start_eq_ok {position : Nat} {content : List UInt8} :
    eventsFrom n (Piece.ofLexeme (.start position content) ++ pieces) = (events, none) ↔
      ∃ e rest, Element.ofTag position content = .ok e ∧
        eventsFrom ⟨tagName content :: n.names, e.tag :: n.tags⟩ pieces = (rest, none) ∧
        events = .start e :: rest := by
  rw [Piece.ofLexeme, List.singleton_append, eventsFrom_cons_eq_ok]
  constructor
  · rintro ⟨event, n', rest, hstep, hrest, rfl⟩
    simp only [Nesting.step] at hstep
    split at hstep
    · cases hstep
      exact ⟨_, rest, ‹_›, hrest, rfl⟩
    · cases hstep
  · rintro ⟨e, rest, made, hrest, rfl⟩
    exact ⟨_, _, rest, by rw [made]; rfl, hrest, rfl⟩

theorem eventsFrom_empty_eq_ok {position : Nat} {content : List UInt8} :
    eventsFrom n (Piece.ofLexeme (.empty position content) ++ pieces) = (events, none) ↔
      ∃ e rest, Element.ofTag position content = .ok e ∧ eventsFrom n pieces = (rest, none) ∧
        events = .start e :: .finish e.kind :: rest := by
  rw [Piece.ofLexeme]
  cases Element.ofTag position content with
  | error fault => simp [eventsFrom_cons_eq_ok, Nesting.step]
  | ok e =>
    simp only [List.cons_append, List.nil_append, eventsFrom_cons_eq_ok]
    constructor
    · rintro ⟨_, _, _, start, ⟨_, _, rest, finish, hrest, rfl⟩, rfl⟩
      cases start
      cases finish
      exact ⟨e, rest, rfl, hrest, rfl⟩
    · rintro ⟨_, rest, made, hrest, rfl⟩
      cases made
      exact ⟨_, n, _, rfl, ⟨_, n, rest, rfl, hrest, rfl⟩, rfl⟩

theorem eventsFrom_close_eq_ok {position : Nat} {name : List UInt8} :
    eventsFrom n (Piece.ofLexeme (.close position name) ++ pieces) = (events, none) ↔
      ∃ names rest, n.names = name :: names ∧
        eventsFrom ⟨names, n.tags.drop 1⟩ pieces = (rest, none) ∧
        events = .finish (.ofTag (localText name)) :: rest := by
  rw [Piece.ofLexeme, List.singleton_append, eventsFrom_cons_eq_ok]
  constructor
  · rintro ⟨event, n', rest, hstep, hrest, rfl⟩
    simp only [Nesting.step] at hstep
    split at hstep
    · cases hstep
    · rename_i expected names hnames
      split at hstep
      · rename_i same
        cases hstep
        exact ⟨names, rest, by rw [hnames, eq_of_beq same], hrest, rfl⟩
      · cases hstep
  · rintro ⟨names, rest, hnames, hrest, rfl⟩
    refine ⟨_, _, rest, ?_, hrest, rfl⟩
    rw [Nesting.step, hnames]
    simp only [BEq.rfl, if_true]

theorem eventsFrom_fault_ne_ok {position : Nat} {fault : Markup.Fault} :
    eventsFrom n (Piece.ofLexeme (.fault position fault) ++ pieces) ≠ (events, none) := by
  intro h
  obtain ⟨_, _, _, hstep, -⟩ := eventsFrom_cons_eq_ok.mp h
  cases hstep

theorem eventsFrom_balanced {lexemes : List Markup.Lexeme}
    (paired : n.names.length = n.tags.length)
    (h : eventsFrom n (lexemes.flatMap Piece.ofLexeme) = (events, none)) :
    Balanced n.kinds events := by
  induction lexemes generalizing n events with
  | nil =>
    obtain ⟨closed, rfl⟩ := eventsFrom_nil_eq_ok.mp h
    rw [closed, List.length_nil, List.length_eq_zero_iff] at paired
    simp [Balanced, Nesting.kinds, paired]
  | cons lexeme lexemes ih =>
    rw [List.flatMap_cons] at h
    cases lexeme with
    | start position content =>
      obtain ⟨e, rest, made, hrest, rfl⟩ := eventsFrom_start_eq_ok.mp h
      have closed := ih (congrArg (· + 1) paired) hrest
      rwa [Nesting.kinds, List.map_cons, ← Element.ofTag_kind made] at closed
    | empty position content =>
      obtain ⟨e, rest, -, hrest, rfl⟩ := eventsFrom_empty_eq_ok.mp h
      exact ⟨rfl, ih paired hrest⟩
    | close position name =>
      obtain ⟨names, rest, hnames, hrest, rfl⟩ := eventsFrom_close_eq_ok.mp h
      rw [hnames, List.length_cons] at paired
      have paired' : names.length = (n.tags.drop 1).length := by
        rw [List.length_drop, ← paired, Nat.add_sub_cancel]
      have closed := ih paired' hrest
      rw [Nesting.kinds, hnames, List.map_cons]
      exact ⟨rfl, closed⟩
    | fault position fault => exact absurd h eventsFrom_fault_ne_ok

/-- In a document that is read to its end, every end is that of the innermost open element. -/
theorem ofBytes_balanced {document : List UInt8} {events : List Event}
    (h : (ofBytes document).events = (events, none)) : Balanced [] events :=
  eventsFrom_balanced (n := {}) rfl h

end Reader

end EnumRegistry
