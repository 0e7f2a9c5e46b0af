import EnumRegistry.Proofs.Registry.Delivery
import EnumRegistry.Proofs.Registry.Forest
import EnumRegistry.Proofs.Registry.Trail

/-!
Skipping an element. Skipping counts the elements that are open, and comes back to where it began
behind every element that starts and ends on the way; so it stops right behind the end of the
element that had just started, where reading event after event would stand as well.
-/

namespace EnumRegistry

namespace Reader

variable {r between last : Reader}

/-! ## Deliveries taken apart -/

theorem next_eq_event {event : Event} (h : r.next = (.ok (some event), between)) :
    ∃ piece, r.pieces = piece :: between.pieces ∧
      r.nesting.step piece = (.ok event, between.nesting) := by
  obtain ⟨pieces, n⟩ := r
  cases pieces with
  | nil =>
    rw [next] at h
    generalize n.atEnd = ended at h
    rcases ended with ⟨_ | _, _⟩ <;> cases h
  | cons piece pieces =>
    rw [next] at h
    dsimp only at h
    generalize hstep : n.step piece = stepped at h
    rcases stepped with ⟨_ | _, _⟩ <;> cases h
    exact ⟨piece, rfl, hstep⟩

namespace Delivers

variable {first second : List Event}

theorem cons_iff {event : Event} : r.Delivers (event :: second) last ↔
    ∃ between, r.next = (.ok (some event), between) ∧ between.Delivers second last := by
  constructor
  · intro h
    cases h with
    | event read rest => exact ⟨_, read, rest⟩
  · rintro ⟨between, read, rest⟩
    exact .event read rest

/-- What is delivered in two parts is delivered up to a place between them. -/
theorem append_iff : r.Delivers (first ++ second) last ↔
    ∃ between, r.Delivers first between ∧ between.Delivers second last := by
  induction first generalizing r with
  | nil =>
    constructor
    · intro h
      exact ⟨r, .nothing r, h⟩
    · rintro ⟨between, here, h⟩
      cases here
      exact h
  | cons event first ih =>
    rw [List.cons_append, cons_iff]
    constructor
    · rintro ⟨next, read, rest⟩
      obtain ⟨between, before, behind⟩ := ih.mp rest
      exact ⟨between, .event read before, behind⟩
    · rintro ⟨between, before, behind⟩
      obtain ⟨next, read, rest⟩ := cons_iff.mp before
      exact ⟨next, read, ih.mpr ⟨between, rest, behind⟩⟩

end Delivers

/-! ## Skipping along what is delivered -/

theorem skipFrom_start {e : Element} (read : r.next = (.ok (some (.start e)), between))
    (depth : Nat) : skipFrom r.nesting (depth + 1) r.pieces =
      skipFrom between.nesting (depth + 2) between.pieces := by
  obtain ⟨piece, pieces, step⟩ := next_eq_event read
  rw [pieces, skipFrom, step]

theorem skipFrom_finish {kind : ElementKind} (read : r.next = (.ok (some (.finish kind)), between))
    (depth : Nat) : skipFrom r.nesting (depth + 1) r.pieces =
      skipFrom between.nesting depth between.pieces := by
  obtain ⟨piece, pieces, step⟩ := next_eq_event read
  rw [pieces, skipFrom, step]

/-- Behind elements that start and end as many are left to end as in front of them. -/
theorem skipFrom_events {f : Forest} (h : r.Delivers f.events last) (depth : Nat) :
    skipFrom r.nesting (depth + 1) r.pieces = skipFrom last.nesting (depth + 1) last.pieces := by
  induction f generalizing r last depth with
  | nil =>
    cases h
    rfl
  | node e inside behind ih_inside ih_behind =>
    obtain ⟨opened, start, h⟩ := Delivers.cons_iff.mp h
    obtain ⟨full, held, h⟩ := Delivers.append_iff.mp h
    obtain ⟨closed, finish, h⟩ := Delivers.cons_iff.mp h
    calc skipFrom r.nesting (depth + 1) r.pieces
        = skipFrom opened.nesting (depth + 2) opened.pieces := skipFrom_start start depth
      _ = skipFrom full.nesting (depth + 2) full.pieces := ih_inside held (depth + 1)
      _ = skipFrom closed.nesting (depth + 1) closed.pieces := skipFrom_finish finish (depth + 1)
      _ = skipFrom last.nesting (depth + 1) last.pieces := ih_behind h depth

/-- Skipping an element goes past what it holds and past its end, and no further. -/
theorem skipElement_of_delivers {inside : List Event} {kind : ElementKind}
    (nested : Balanced [] inside) (h : r.Delivers (inside ++ [.finish kind]) last) :
    r.skipElement = (.ok (), last) := by
  obtain ⟨f, same⟩ := Forest.exists_of_balanced nested
  obtain rfl : inside = f.events := same
  obtain ⟨full, held, h⟩ := Delivers.append_iff.mp h
  obtain ⟨closed, finish, h⟩ := Delivers.cons_iff.mp h
  cases h
  calc r.skipElement
      = skipFrom full.nesting 1 full.pieces := skipFrom_events held 0
    _ = skipFrom last.nesting 0 last.pieces := skipFrom_finish finish 0
    _ = (.ok (), last) := by rw [skipFrom]

/-! ## Documents -/

/-- In a document that is read to its end, an element that has started goes on with what it holds
and its own end. -/
theorem exists_end {document : List UInt8} (complete : (ofBytes document).events.2 = none)
    {before : List Event} {started : Reader} {e : Element}
    (delivered : (ofBytes document).Delivers (before ++ [.start e]) started) :
    ∃ inside behind, started.events.1 = inside ++ .finish e.kind :: behind ∧
      Balanced [] inside := by
  have read : (ofBytes document).events = (before ++ .start e :: started.events.1, none) := by
    rw [delivered.events, List.append_assoc, List.singleton_append] at complete ⊢
    exact Prod.ext rfl complete
  have nested : Balanced (([] : List Element).map (·.kind))
      (before ++ .start e :: started.events.1) := ofBytes_balanced read
  have inElement : Balanced (e.kind :: (openElements [] before).map (·.kind)) started.events.1 :=
    Balanced.behind nested
  obtain ⟨f, behind, split, -⟩ := Forest.exists_of_balanced inElement
  have inside : Balanced [] (f.events ++ []) := f.balanced_events.mpr rfl
  rw [List.append_nil] at inside
  exact ⟨f.events, behind, split, inside⟩

/-- In a document that is read to its end, skipping an element that has just started goes well. It
leaves the reader where reading event after event stands when the end of that element has been
delivered, which comes behind what the element holds, and the events left are those behind it. -/
theorem skips_one_element {document : List UInt8}
    (complete : (ofBytes document).events.2 = none) {before : List Event} {r started : Reader}
    {e : Element} (delivered : (ofBytes document).Delivers before r)
    (start : r.next = (.ok (some (.start e)), started)) :
    ∃ inside last, started.skipElement = (.ok (), last) ∧
      started.Delivers (inside ++ [.finish e.kind]) last ∧ Balanced [] inside ∧
      (ofBytes document).events.1 =
        before ++ .start e :: (inside ++ .finish e.kind :: last.events.1) ∧
      ∀ inside' kind last', started.Delivers (inside' ++ [.finish kind]) last' →
        Balanced [] inside' → inside' = inside ∧ kind = e.kind ∧ last' = last := by
  have opened : (ofBytes document).Delivers (before ++ [.start e]) started :=
    Delivers.append_iff.mpr ⟨r, delivered, .event start (.nothing started)⟩
  obtain ⟨inside, behind, split, nested⟩ := exists_end complete opened
  obtain ⟨end', -, all, -⟩ := delivers_events started
  rw [split, ← List.singleton_append, ← List.append_assoc] at all
  obtain ⟨last, held, -⟩ := Delivers.append_iff.mp all
  have skipped := skipElement_of_delivers nested held
  refine ⟨inside, last, skipped, held, nested, ?_, ?_⟩
  · rw [opened.events, held.events]
    simp
  · intro inside' kind last' held' nested'
    have same := (skipElement_of_delivers nested' held').symm.trans skipped
    obtain rfl : last' = last := congrArg Prod.snd same
    have events := held'.events.symm.trans held.events
    have lists := List.append_cancel_right (congrArg Prod.fst events)
    obtain ⟨rfl, ends⟩ := List.append_inj' lists rfl
    simpa using ends

/-- The enumeration holds a row, a text and a comment, and an element stands behind it. -/
theorem enumeration_skipped : ∃ (before : List Event) (r started : Reader) (e : Element),
    (ofString nestedDocument).events.2 = none ∧
    (ofString nestedDocument).Delivers before r ∧
    r.next = (.ok (some (.start e)), started) ∧ e.kind = .enumeration ∧
    ∃ inside last, started.skipElement = (.ok (), last) ∧
      started.Delivers (inside ++ [.finish e.kind]) last ∧ Balanced [] inside ∧
      (ofString nestedDocument).events.1 =
        before ++ .start e :: (inside ++ .finish e.kind :: last.events.1) ∧
      ∀ inside' kind last', started.Delivers (inside' ++ [.finish kind]) last' →
        Balanced [] inside' → inside' = inside ∧ kind = e.kind ∧ last' = last := by
  have read : (ofString nestedDocument).events.2.isNone = true ∧
      ((ofString nestedDocument).events.1.take 2).map (·.outline) =
        [(true, .other), (true, .enumeration)] := by decide +kernel
  have complete : (ofBytes nestedDocument.toUTF8.toList).events.2 = none :=
    Option.isNone_iff_eq_none.mp read.1
  obtain ⟨end', -, all, -⟩ := delivers_events (ofString nestedDocument)
  rw [← List.take_append_drop 2 (ofString nestedDocument).events.1] at all
  obtain ⟨-, two⟩ := read
  simp only [List.map_eq_cons_iff, List.map_eq_nil_iff, Event.outline_eq_start] at two
  obtain ⟨_, _, events, ⟨first, rfl, -⟩, _, _, rfl, ⟨e, rfl, kind⟩, rfl⟩ := two
  rw [events] at all
  obtain ⟨r, delivered, all⟩ := Delivers.cons_iff.mp all
  obtain ⟨started, start, -⟩ := Delivers.cons_iff.mp all
  have outer := Delivers.event delivered (.nothing r)
  have skipped := skips_one_element complete outer start
  exact ⟨[.start first], r, started, e, complete, outer, start, kind, skipped⟩

end Reader

end EnumRegistry
