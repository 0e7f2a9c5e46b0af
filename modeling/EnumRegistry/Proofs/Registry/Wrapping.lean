import EnumRegistry.Proofs.Registry.Deletion

/-!
Elements wrapped in another. If a tag is put before some elements that stand beside each other and
its end behind them, the document is read as before, with one element more around those.
-/

namespace EnumRegistry

open Markup (tokens endsOutside)

/-! ## Readings put together -/

namespace Reader

/-- What is read behind pieces that are read without an error depends on the nesting they leave. -/
theorem eventsFrom_append {pieces behind : List Piece} {n : Nesting} {events : List Event}
    (h : eventsFrom n (pieces ++ behind) = (events, none)) : ∃ first n', ∀ rest,
      eventsFrom n (pieces ++ rest) =
        (first ++ (eventsFrom n' rest).1, (eventsFrom n' rest).2) := by
  induction pieces generalizing n events with
  | nil => exact ⟨[], n, fun _ => rfl⟩
  | cons piece pieces ih =>
    obtain ⟨event, n₁, others, step, hrest, -⟩ := eventsFrom_cons_eq_ok.mp h
    obtain ⟨first, n', whole⟩ := ih hrest
    refine ⟨event :: first, n', fun rest => ?_⟩
    rw [List.cons_append, eventsFrom, step]
    dsimp only
    rw [whole]
    rfl

/-- What is read to its end alone is read alike inside any open elements, which stay open. -/
theorem eventsFrom_inside {lexemes : List Markup.Lexeme} {inner : Nesting} {events : List Event}
    (paired : inner.names.length = inner.tags.length)
    (h : eventsFrom inner (lexemes.flatMap Piece.ofLexeme) = (events, none)) (outer : Nesting)
    (rest : List Piece) :
    eventsFrom ⟨inner.names ++ outer.names, inner.tags ++ outer.tags⟩
        (lexemes.flatMap Piece.ofLexeme ++ rest) =
      (events ++ (eventsFrom outer rest).1, (eventsFrom outer rest).2) := by
  induction lexemes generalizing inner events with
  | nil =>
    obtain ⟨closed, rfl⟩ := eventsFrom_nil_eq_ok.mp h
    rw [closed, List.length_nil, List.length_eq_zero_iff] at paired
    rw [closed, paired]
    rfl
  | cons lexeme lexemes ih =>
    rw [List.flatMap_cons] at h ⊢
    rw [List.append_assoc]
    cases lexeme with
    | start position content =>
      obtain ⟨e, others, made, hrest, rfl⟩ := eventsFrom_start_eq_ok.mp h
      have step := ih (congrArg (· + 1) paired) hrest
      rw [Piece.ofLexeme, made, List.singleton_append, eventsFrom, Nesting.step]
      exact congrArg (fun read => (Event.start e :: read.1, read.2)) step
    | empty position content =>
      obtain ⟨e, others, made, hrest, rfl⟩ := eventsFrom_empty_eq_ok.mp h
      have step := ih paired hrest
      rw [Piece.ofLexeme, made]
      exact congrArg (fun read => (Event.start e :: Event.finish e.kind :: read.1, read.2)) step
    | close position name =>
      obtain ⟨names, others, hnames, hrest, rfl⟩ := eventsFrom_close_eq_ok.mp h
      obtain ⟨inner, tags⟩ := inner
      obtain rfl : inner = name :: names := hnames
      cases tags with
      | nil => cases paired
      | cons tag tags =>
        have step := ih (Nat.succ.inj paired) hrest
        rw [Piece.ofLexeme, List.singleton_append, eventsFrom, Nesting.step]
        simp only [List.cons_append, BEq.rfl, if_true]
        exact congrArg (fun read => (Event.finish (.ofTag (localText name)) :: read.1, read.2)) step
    | fault position fault => exact absurd h eventsFrom_fault_ne_ok

/-- What is read to its end alone is read alike in front of anything else. -/
theorem eventsFrom_alone {lexemes : List Markup.Lexeme} {events : List Event}
    (h : eventsFrom {} (lexemes.flatMap Piece.ofLexeme) = (events, none)) (n : Nesting)
    (rest : List Piece) : eventsFrom n (lexemes.flatMap Piece.ofLexeme ++ rest) =
      (events ++ (eventsFrom n rest).1, (eventsFrom n rest).2) := by
  have paired : ({} : Nesting).names.length = ({} : Nesting).tags.length := rfl
  exact eventsFrom_inside paired h n rest

end Reader

/-- Elements in front of others. -/
def Forest.beside : Forest → Forest → Forest
  | nil, g => g
  | node e inside behind, g => node e inside (behind.beside g)

theorem Forest.events_beside (f g : Forest) : (f.beside g).events = f.events ++ g.events := by
  induction f with
  | nil => rfl
  | node e inside behind _ ih =>
    rw [beside, events, events, ih, List.cons_append, List.append_assoc, List.cons_append]

/-- Documents that are read to their end can be put together. -/
theorem Reader.readsAs_beside {first second : List UInt8} {f g : Forest}
    (reads : (ofBytes first).ReadsAs f) (reads' : (ofBytes second).ReadsAs g) :
    (ofBytes (first ++ second)).ReadsAs (f.beside g) := by
  have before := readsAs_iff.mp reads
  have behind := readsAs_iff.mp reads'
  have outside : endsOutside first = true :=
    Markup.endsOutside_of_not_mem_fault (not_mem_fault before 0)
  have whole := eventsFrom_alone before {} ((tokens second).flatMap Piece.ofLexeme)
  rw [behind] at whole
  rw [readsAs_iff, Markup.tokens_append outside, List.flatMap_append, Forest.events_beside]
  exact whole

/-! ## Wrappers -/

/-- The tags of an element that means nothing to the model and is not deprecated. -/
structure Wrapper where
  opening : List UInt8
  closing : List UInt8
  content : List UInt8
  element : Element
  opens : tokens opening = [.start 0 content]
  closes : tokens closing = [.close 0 (tagName content)]
  made : Element.ofTag 0 content = .ok element
  unknown : element.kind = .other
  current : element.isDeprecated = false

namespace Wrapper

/-- A document in which what stands between two parts is wrapped. -/
def wrap (w : Wrapper) (before run behind : List UInt8) : List UInt8 :=
  before ++ w.opening ++ run ++ w.closing ++ behind

theorem opening_outside (w : Wrapper) : endsOutside w.opening = true := by
  rw [endsOutside, w.opens]
  rfl

theorem closing_outside (w : Wrapper) : endsOutside w.closing = true := by
  rw [endsOutside, w.closes]
  rfl

variable {before run behind : List UInt8}

theorem tokens_wrap (w : Wrapper) (outside : endsOutside before = true)
    (outside' : endsOutside run = true) : tokens (w.wrap before run behind) =
      tokens before ++ (.start 0 w.content :: (tokens run ++
        (.close 0 (tagName w.content) :: tokens behind))) := by
  rw [wrap, List.append_assoc, List.append_assoc, List.append_assoc, Markup.tokens_append outside,
    Markup.tokens_append w.opening_outside, Markup.tokens_append outside',
    Markup.tokens_append w.closing_outside, w.opens, w.closes]
  rfl

/-- Lexemes of elements beside each other are read inside the wrapper's tags as without them. -/
theorem eventsFrom_wrap (w : Wrapper) {before run behind : List Markup.Lexeme}
    {events inner : List Event}
    (whole : Reader.eventsFrom {} ((before ++ (run ++ behind)).flatMap Piece.ofLexeme) =
      (events, none))
    (siblings : Reader.eventsFrom {} (run.flatMap Piece.ofLexeme) = (inner, none)) :
    ∃ first last, events = first ++ (inner ++ last) ∧
      Reader.eventsFrom {} ((before ++ (.start 0 w.content :: (run ++
          (.close 0 (tagName w.content) :: behind)))).flatMap Piece.ofLexeme) =
        (first ++ (.start w.element :: (inner ++ .finish w.element.kind :: last)), none) := by
  rw [List.flatMap_append, List.flatMap_append] at whole
  obtain ⟨first, n, reads⟩ := Reader.eventsFrom_append whole
  have unwrapped := Reader.eventsFrom_alone siblings n (behind.flatMap Piece.ofLexeme)
  rw [reads, unwrapped] at whole
  obtain ⟨hevents, ended⟩ := Prod.mk.inj whole
  obtain ⟨last, hlast⟩ : ∃ last, Reader.eventsFrom n (behind.flatMap Piece.ofLexeme) =
      (last, none) := ⟨_, Prod.ext rfl ended⟩
  rw [hlast] at hevents
  let inside : Nesting := ⟨tagName w.content :: n.names, w.element.tag :: n.tags⟩
  have closed : Reader.eventsFrom inside
      (Piece.ofLexeme (.close 0 (tagName w.content)) ++ behind.flatMap Piece.ofLexeme) =
        (.finish w.element.kind :: last, none) := by
    rw [Element.ofTag_kind w.made]
    exact Reader.eventsFrom_close_eq_ok.mpr ⟨n.names, last, rfl, hlast, rfl⟩
  have wrapped := Reader.eventsFrom_alone siblings inside
    (Piece.ofLexeme (.close 0 (tagName w.content)) ++ behind.flatMap Piece.ofLexeme)
  rw [closed] at wrapped
  have started := Reader.eventsFrom_start_eq_ok.mpr ⟨w.element, _, w.made, wrapped, rfl⟩
  refine ⟨first, last, hevents.symm, ?_⟩
  rw [List.flatMap_append, reads, List.flatMap_cons, List.flatMap_append, List.flatMap_cons,
    started]

/-- Elements beside each other are read inside a wrapper as without it. -/
theorem events_wrap (w : Wrapper)
    (wellFormed : (Reader.ofBytes (before ++ run ++ behind)).events.2 = none)
    (outside : endsOutside before = true) (siblings : (Reader.ofBytes run).events.2 = none) :
    ∃ (first last : List Event) (f : Forest),
      (Reader.ofBytes run).events.1.map (·.unplaced) = f.events ∧
      (Reader.ofBytes (before ++ run ++ behind)).events.1.map (·.unplaced) =
        first ++ (f.events ++ last) ∧
      (Reader.ofBytes (w.wrap before run behind)).events.2 = none ∧
      (Reader.ofBytes (w.wrap before run behind)).events.1.map (·.unplaced) =
        first ++ ((Forest.node w.element f .nil).events ++ last) := by
  obtain ⟨f, reads⟩ := Reader.exists_readsAs siblings
  have alone := Reader.readsAs_iff.mp reads
  have outside' : endsOutside run = true :=
    Markup.endsOutside_of_not_mem_fault (Reader.not_mem_fault alone 0)
  have whole := Reader.ofBytes_unplaced (before ++ run ++ behind)
  rw [wellFormed, List.append_assoc, Markup.tokens_append outside,
    Markup.tokens_append outside'] at whole
  obtain ⟨first, last, events, wrapped⟩ := w.eventsFrom_wrap whole alone
  rw [← w.tokens_wrap outside outside', Reader.ofBytes_unplaced] at wrapped
  obtain ⟨events', ended⟩ := Prod.mk.inj wrapped
  refine ⟨first, last, f, reads.events, ?_, Option.map_eq_none_iff.mp ended, ?_⟩
  · rw [List.append_assoc, events]
  · rw [events', Forest.events, List.cons_append, List.append_assoc]
    rfl

end Wrapper

/-! ## Walks over wrapped elements -/

namespace Walk

variable {ε σ : Type} (w : Walk ε σ)

/-- After some events a walk stands somewhere, or has failed, and goes on from there. -/
theorem run_append (depth : Nat) (s : σ) (first : List Event) :
    ∃ stands : Except ε (Nat × σ), ∀ rest,
      w.run depth s (first ++ rest) = stands >>= fun (depth, s) => w.run depth s rest := by
  induction first generalizing depth s with
  | nil => exact ⟨.ok (depth, s), fun _ => rfl⟩
  | cons event first ih =>
    cases depth with
    | succ depth =>
      cases event with
      | start e => exact ih (depth + 2) s
      | finish kind => exact ih depth s
    | zero =>
      cases event with
      | start e =>
        by_cases deprecated : e.isDeprecated = true
        · simp only [List.cons_append, run, deprecated, if_true]
          exact ih 1 s
        · simp only [List.cons_append, run, deprecated]
          cases w.start s e with
          | error err => exact ⟨.error err, fun _ => rfl⟩
          | ok entered =>
            cases entered with
            | none => exact ih 1 s
            | some entered => exact ih 0 entered
      | finish kind =>
        simp only [List.cons_append, run]
        cases w.finish s kind with
        | error err => exact ⟨.error err, fun _ => rfl⟩
        | ok left => exact ih 0 left

/-- If an element does nothing to a walk over what it holds, it does nothing anywhere. -/
theorem run_wrap {x : Element} {f : Forest}
    (transparent : ∀ s, w.visit (.node x f .nil) s = w.visit f s) (s : σ)
    (first last : List Event) :
    w.run 0 s (first ++ ((Forest.node x f .nil).events ++ last)) =
      w.run 0 s (first ++ (f.events ++ last)) := by
  obtain ⟨stands, reached⟩ := w.run_append 0 s first
  rw [reached, reached]
  congr 1
  funext ⟨depth, s⟩
  cases depth with
  | zero =>
    change w.run 0 s _ = w.run 0 s _
    rw [run_events, run_events, transparent]
  | succ depth =>
    change w.run (depth + 1) s _ = w.run (depth + 1) s _
    rw [run_skip, run_skip]

end Walk

end EnumRegistry
