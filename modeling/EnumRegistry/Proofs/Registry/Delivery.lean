import Mathlib.Data.List.Forall2
import EnumRegistry.Proofs.Result
import EnumRegistry.Proofs.Registry.Reader

/-!
What a reader delivers, one event after another. Up to the end of a document each tag has given
its events, properly nested; and in a document that ends inside an element an error comes first.
-/

namespace EnumRegistry

namespace Markup

/-- How many tags lexemes leave open, an end tag closing one of those before it. -/
def leftOpen : Nat → List Lexeme → Nat
  | count, [] => count
  | count, .start _ _ :: rest => leftOpen (count + 1) rest
  | count, .close _ _ :: rest => leftOpen (count - 1) rest
  | count, .empty _ _ :: rest => leftOpen count rest
  | count, .fault _ _ :: rest => leftOpen count rest

/-- The events of a tag: an empty tag starts an element and ends it at once. -/
inductive Lexeme.Gives : Lexeme → List Event → Prop
  | start {position : Nat} {content : List UInt8} {e : Element}
      (made : Element.ofTag position content = .ok e) : Gives (.start position content) [.start e]
  | empty {position : Nat} {content : List UInt8} {e : Element}
      (made : Element.ofTag position content = .ok e) :
      Gives (.empty position content) [.start e, .finish e.kind]
  | close (position : Nat) (name : List UInt8) :
      Gives (.close position name) [.finish (.ofTag (localText name))]

/-- Tags leave open what their events do. -/
theorem leftOpen_eq_openAfter {lexemes : List Lexeme} {groups : List (List Event)}
    (given : List.Forall₂ Lexeme.Gives lexemes groups) (count : Nat) :
    leftOpen count lexemes = openAfter count groups.flatten := by
  induction given generalizing count with
  | nil => rfl
  | cons gives _ ih =>
    cases gives with
    | start => exact ih (count + 1)
    | empty => exact ih count
    | close => exact ih (count - 1)

end Markup

namespace Reader

/-- Event after event, each read well, up to where reading stands then. -/
inductive Delivers : Reader → List Event → Reader → Prop
  | nothing (r : Reader) : Delivers r [] r
  | event {r r' last : Reader} {event : Event} {events : List Event}
      (read : r.next = (.ok (some event), r')) (rest : Delivers r' events last) :
      Delivers r (event :: events) last

/-! ## One event after another, and all at once -/

/-- How the first event read stands to all events: what is left is what comes after it. -/
theorem events_of_next (r : Reader) :
    r.events = match r.next with
      | (.ok (some event), r') => (event :: r'.events.1, r'.events.2)
      | (.ok none, _) => ([], none)
      | (.error e, _) => ([], some e) := by
  obtain ⟨pieces, n⟩ := r
  cases pieces with
  | nil =>
    rw [events, eventsFrom, next]
    dsimp only
    rcases n.atEnd with ⟨_ | _, _⟩ <;> rfl
  | cons piece pieces =>
    rw [events, eventsFrom, next]
    dsimp only
    rcases n.step piece with ⟨_ | _, _⟩ <;> rfl

/-- Delivered events are the first ones of all events. -/
theorem Delivers.events {r last : Reader} {events : List Event} (h : r.Delivers events last) :
    r.events = (events ++ last.events.1, last.events.2) := by
  induction h with
  | nothing => rfl
  | event read _ ih =>
    rw [events_of_next, read]
    dsimp only
    rw [ih, List.cons_append]

/-- All events are delivered, and what comes then is the end or the error. -/
theorem delivers_events (r : Reader) :
    ∃ last next, r.Delivers r.events.1 last ∧
      last.next = (match r.events.2 with | none => .ok none | some e => .error e, next) := by
  generalize hlength : r.events.1.length = length
  induction length generalizing r with
  | zero =>
    rw [events_of_next] at hlength ⊢
    generalize hnext : r.next = read at hlength ⊢
    rcases read with ⟨e | event | _, next⟩
    · exact ⟨r, next, .nothing r, hnext⟩
    · exact ⟨r, next, .nothing r, hnext⟩
    · cases hlength
  | succ length ih =>
    rw [events_of_next] at hlength ⊢
    generalize hnext : r.next = read at hlength ⊢
    rcases read with ⟨e | _ | event, r'⟩
    · cases hlength
    · cases hlength
    · obtain ⟨last, next, delivered, ended⟩ := ih r' (Nat.succ.inj hlength)
      exact ⟨last, next, .event hnext delivered, ended⟩

/-- A reader that delivers events and then the end has no others and meets no error. -/
theorem Delivers.events_of_end {r last next : Reader} {events : List Event}
    (h : r.Delivers events last) (ended : last.next = (.ok none, next)) :
    r.events = (events, none) := by
  rw [h.events, events_of_next last, ended, List.append_nil]

/-! ## Documents -/

/-- Up to the end of a document every tag has given its events. -/
theorem eventsFrom_groups {n : Nesting} {lexemes : List Markup.Lexeme} {events : List Event}
    (h : eventsFrom n (lexemes.flatMap Piece.ofLexeme) = (events, none)) :
    ∃ groups, List.Forall₂ Markup.Lexeme.Gives lexemes groups ∧ events = groups.flatten := by
  induction lexemes generalizing n events with
  | nil => exact ⟨[], .nil, (eventsFrom_nil_eq_ok.mp h).2⟩
  | cons lexeme lexemes ih =>
    rw [List.flatMap_cons] at h
    cases lexeme with
    | start position content =>
      obtain ⟨e, rest, made, hrest, rfl⟩ := eventsFrom_start_eq_ok.mp h
      obtain ⟨groups, given, rfl⟩ := ih hrest
      exact ⟨_ :: groups, .cons (.start made) given, rfl⟩
    | empty position content =>
      obtain ⟨e, rest, made, hrest, rfl⟩ := eventsFrom_empty_eq_ok.mp h
      obtain ⟨groups, given, rfl⟩ := ih hrest
      exact ⟨_ :: groups, .cons (.empty made) given, rfl⟩
    | close position name =>
      obtain ⟨names, rest, -, hrest, rfl⟩ := eventsFrom_close_eq_ok.mp h
      obtain ⟨groups, given, rfl⟩ := ih hrest
      exact ⟨_ :: groups, .cons (.close position name) given, rfl⟩
    | fault position fault => exact absurd h eventsFrom_fault_ne_ok

/-- A document that is read to its end leaves no tag open. -/
theorem ofBytes_leftOpen {document : List UInt8} {events : List Event}
    (h : (ofBytes document).events = (events, none)) :
    Markup.leftOpen 0 (Markup.lexemes document) = 0 := by
  obtain ⟨groups, given, rfl⟩ := eventsFrom_groups h
  rw [Markup.leftOpen_eq_openAfter given]
  exact (ofBytes_balanced h).openAfter

/-- The events that come before the end of a document are balanced and are, tag after tag, those
of its tags. Where a document leaves a tag open, reading it event after event gives an error, and
never the end before it. -/
theorem delivers_nested (document : List UInt8) :
    (∀ events last next, (ofBytes document).Delivers events last → last.next = (.ok none, next) →
      Balanced [] events ∧
        ∃ groups, List.Forall₂ Markup.Lexeme.Gives (Markup.lexemes document) groups ∧
          events = groups.flatten) ∧
    (0 < Markup.leftOpen 0 (Markup.lexemes document) →
      (∃ events last err next, (ofBytes document).Delivers events last ∧
        last.next = (.error err, next)) ∧
      ∀ events last next, (ofBytes document).Delivers events last →
        last.next ≠ (.ok none, next)) := by
  refine ⟨fun events last next delivered ended => ?_, fun left => ⟨?_, ?_⟩⟩
  · have read := delivered.events_of_end ended
    exact ⟨ofBytes_balanced read, eventsFrom_groups read⟩
  · obtain ⟨last, next, delivered, ended⟩ := delivers_events (ofBytes document)
    cases failure : (ofBytes document).events.2 with
    | none => exact absurd (ofBytes_leftOpen (Prod.ext rfl failure)) (Nat.ne_of_gt left)
    | some e =>
      rw [failure] at ended
      exact ⟨_, last, e, next, delivered, ended⟩
  · intro events last next delivered ended
    exact Nat.ne_of_gt left (ofBytes_leftOpen (delivered.events_of_end ended))

/-- Four elements, one of them empty, with text and a comment between the tags. -/
def nestedDocument : String :=
  "<r><enum uid='1'><enumrow value='0'/>text<!-- none --></enum><x:cet></x:cet></r>"

/-- The end of the outermost element is missing. -/
def cutDocument : String := "<r><enum uid='1'><enumrow value='0'/></enum>"

theorem delivers_nested_examples :
    (∃ events last next, (ofString nestedDocument).Delivers events last ∧
      last.next = (.ok none, next) ∧ events.length = 8 ∧ Balanced [] events ∧
      ∃ groups, List.Forall₂ Markup.Lexeme.Gives
          (Markup.lexemes nestedDocument.toUTF8.toList) groups ∧ events = groups.flatten) ∧
    0 < Markup.leftOpen 0 (Markup.lexemes cutDocument.toUTF8.toList) ∧
      (∃ events last err next, (ofString cutDocument).Delivers events last ∧
        last.next = (.error err, next)) ∧
      ∀ events last next, (ofString cutDocument).Delivers events last →
        last.next ≠ (.ok none, next) := by
  constructor
  · have read : (ofString nestedDocument).events.2.isNone = true ∧
        (ofString nestedDocument).events.1.length = 8 := by decide +kernel
    obtain ⟨last, next, delivered, ended⟩ := delivers_events (ofString nestedDocument)
    rw [Option.isNone_iff_eq_none.mp read.1] at ended
    exact ⟨_, last, next, delivered, ended, read.2,
      (delivers_nested nestedDocument.toUTF8.toList).1 _ last next delivered ended⟩
  · have left : 0 < Markup.leftOpen 0 (Markup.lexemes cutDocument.toUTF8.toList) := by
      decide +kernel
    exact ⟨left, (delivers_nested cutDocument.toUTF8.toList).2 left⟩

end Reader

end EnumRegistry
