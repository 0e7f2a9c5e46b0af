import EnumRegistry.Proofs.Markup.Stretch
import EnumRegistry.Proofs.Registry.Forest
import EnumRegistry.Proofs.Registry.Position

/-!
Elements deleted from a document. A document that is read to its end and loses some elements, from
the beginning of each start tag to the end of its end tag, is read to its end as well, and its
events are those of the elements that stay.
-/

namespace EnumRegistry

open Markup (Lexeme Stretch stretches tokens)

/-! ## Deletion -/

/-- Whether a tag is that of an element with a property. -/
def tagged (p : Element → Bool) (content : List UInt8) : Bool :=
  (Element.ofTag 0 content).toOption.any p

/-- The stretches that stay if elements with a property are deleted with all they hold; so many
elements are open inside of one that is. -/
def keptFrom (p : Element → Bool) : Nat → List Stretch → List Stretch
  | _, [] => []
  | 0, s :: rest =>
    match s.lexeme? with
    | some (.start _ content) =>
      if tagged p content then keptFrom p 1 rest else s :: keptFrom p 0 rest
    | some (.empty _ content) =>
      if tagged p content then keptFrom p 0 rest else s :: keptFrom p 0 rest
    | _ => s :: keptFrom p 0 rest
  | depth + 1, s :: rest =>
    match s.lexeme? with
    | some (.start _ _) => keptFrom p (depth + 2) rest
    | some (.close _ _) => keptFrom p depth rest
    | _ => keptFrom p (depth + 1) rest

/-- A document with all elements deleted that have a property. -/
def deleteElements (p : Element → Bool) (document : List UInt8) : List UInt8 :=
  ((keptFrom p 0 (stretches document)).map (·.bytes)).flatten

/-- The events that stay. -/
def keptEvents (p : Element → Bool) : Nat → List Event → List Event
  | _, [] => []
  | 0, .start e :: rest => if p e then keptEvents p 1 rest else .start e :: keptEvents p 0 rest
  | 0, .finish kind :: rest => .finish kind :: keptEvents p 0 rest
  | depth + 1, .start _ :: rest => keptEvents p (depth + 2) rest
  | depth + 1, .finish _ :: rest => keptEvents p depth rest

/-- The elements that stay. -/
def Forest.without (p : Element → Bool) : Forest → Forest
  | nil => nil
  | node e inside behind =>
    if p e then behind.without p else node e (inside.without p) (behind.without p)

variable {p : Element → Bool}

theorem keptFrom_sublist (depth : Nat) (parts : List Stretch) :
    (keptFrom p depth parts).Sublist parts := by
  fun_induction keptFrom p depth parts with
  | case1 => exact .slnil
  | case2 s rest position content lexeme tagged ih | case4 s rest position content lexeme tagged ih
  | case7 depth s rest position content lexeme ih | case8 depth s rest position name lexeme ih =>
    exact ih.cons s
  | case3 s rest position content lexeme tagged ih
  | case5 s rest position content lexeme tagged ih =>
    exact ih.cons_cons s
  | case6 s rest noStart noEmpty ih => exact ih.cons_cons s
  | case9 depth s rest noStart noClose ih => exact ih.cons s

/-! ## Forests -/

theorem keptEvents_inside (f : Forest) (depth : Nat) (rest : List Event) :
    keptEvents p (depth + 1) (f.events ++ rest) = keptEvents p (depth + 1) rest := by
  induction f generalizing depth rest with
  | nil => rfl
  | node e inside behind ih_inside ih_behind =>
    simp only [Forest.events, List.cons_append, List.append_assoc, keptEvents]
    rw [ih_inside (depth + 1)]
    exact ih_behind depth rest

theorem keptEvents_events (f : Forest) (rest : List Event) :
    keptEvents p 0 (f.events ++ rest) = (f.without p).events ++ keptEvents p 0 rest := by
  induction f generalizing rest with
  | nil => rfl
  | node e inside behind ih_inside ih_behind =>
    simp only [Forest.events, List.cons_append, List.append_assoc, keptEvents, Forest.without]
    split
    · rw [keptEvents_inside]
      exact ih_behind rest
    · rw [ih_inside]
      simp only [keptEvents, Forest.events, List.cons_append, List.append_assoc]
      rw [ih_behind]

/-- A walk does not miss elements that it would leave out. -/
theorem Walk.visit_without {ε σ : Type} (w : Walk ε σ)
    (deprecated : ∀ e, p e = true → e.isDeprecated = true) (f : Forest) (s : σ) :
    w.visit (f.without p) s = w.visit f s := by
  induction f generalizing s with
  | nil => rfl
  | node e inside behind ih_inside ih_behind =>
    rw [Forest.without]
    split
    · rename_i marked
      rw [visit, if_pos (deprecated e marked)]
      exact ih_behind s
    · simp only [visit, ih_behind, ih_inside]

/-- A walk that enters all elements that are not deprecated follows the events of the document
without the others: what holds of no events and is kept by each holds of them in the end. -/
theorem Walk.run_follows {ε σ : Type} {w : Walk ε σ} {P : List Event → σ → Prop}
    (enters : ∀ s e, w.start s e ≠ .ok none)
    (start : ∀ {done s s' e}, P done s → w.start s e = .ok (some s') → P (done ++ [.start e]) s')
    (finish : ∀ {done s s' kind}, P done s → w.finish s kind = .ok s' →
      P (done ++ [.finish kind]) s')
    {depth : Nat} {s last : σ} {events : List Event} (done : List Event) (hs : P done s)
    (h : w.run depth s events = .ok last) :
    P (done ++ keptEvents (·.isDeprecated) depth events) last := by
  fun_induction Walk.run w depth s events generalizing done with
  | case1 =>
    cases h
    simpa [keptEvents] using hs
  | case2 s e rest deprecated ih =>
    rw [keptEvents, if_pos deprecated]
    exact ih done hs h
  | case3 s e rest current ih_in ih_out =>
    obtain ⟨entered, hstart, hrest⟩ := bind_eq_ok.mp h
    cases entered with
    | none => exact absurd hstart (enters s e)
    | some t =>
      rw [keptEvents, if_neg current, List.append_cons]
      exact ih_in t _ (start hs hstart) hrest
  | case4 s kind rest ih =>
    obtain ⟨t, hfinish, hrest⟩ := bind_eq_ok.mp h
    rw [keptEvents, List.append_cons]
    exact ih t _ (finish hs hfinish) hrest
  | case5 depth s e rest ih | case6 depth s kind rest ih => exact ih done hs h

/-! ## Readings to the end -/

/-- The pieces that a stretch gives. -/
def Markup.Stretch.pieces (s : Stretch) : List Piece := s.lexeme?.toList.flatMap Piece.ofLexeme

theorem Markup.Stretch.pieces_eq {s : Stretch} {lexeme : Lexeme} (h : s.lexeme? = some lexeme) :
    s.pieces = Piece.ofLexeme lexeme := by
  simp [pieces, h]

theorem Element.ofTag_unplaced (position : Nat) (content : List UInt8) :
    (Element.ofTag position content).map (·.unplaced) = Element.ofTag 0 content := by
  unfold Element.ofTag
  dsimp only
  cases gather {} (Markup.attributesFrom (tagName content).length [] .before
    (content.drop (tagName content).length)) <;> rfl

theorem tagged_eq (ignores : ∀ e : Element, p e.unplaced = p e) {position : Nat}
    {content : List UInt8} {e : Element} (h : Element.ofTag position content = .ok e) :
    tagged p content = p e := by
  rw [tagged, ← Element.ofTag_unplaced position, h]
  exact ignores e

namespace Reader

/-- What is left of pieces that are read to the end is read to the end. Of the elements that are
open, so many of the innermost are among those that are deleted. -/
theorem eventsFrom_kept (ignores : ∀ e : Element, p e.unplaced = p e) (depth : Nat)
    {parts : List Stretch} {n : Nesting} {events : List Event}
    (h : eventsFrom n (parts.flatMap (·.pieces)) = (events, none)) :
    eventsFrom ⟨n.names.drop depth, n.tags.drop depth⟩
      ((keptFrom p depth parts).flatMap (·.pieces)) = (keptEvents p depth events, none) := by
  fun_induction keptFrom p depth parts generalizing n events with
  | case1 depth =>
    obtain ⟨closed, rfl⟩ := eventsFrom_nil_eq_ok.mp h
    refine eventsFrom_nil_eq_ok.mpr ⟨by simp [closed], ?_⟩
    cases depth <;> rfl
  | case2 s rest position content lexeme deleted ih =>
    rw [List.flatMap_cons, s.pieces_eq lexeme] at h
    obtain ⟨e, others, made, hrest, rfl⟩ := eventsFrom_start_eq_ok.mp h
    rw [tagged_eq ignores made] at deleted
    rw [keptEvents, if_pos deleted]
    exact ih hrest
  | case3 s rest position content lexeme kept ih =>
    rw [List.flatMap_cons, s.pieces_eq lexeme] at h ⊢
    obtain ⟨e, others, made, hrest, rfl⟩ := eventsFrom_start_eq_ok.mp h
    rw [tagged_eq ignores made] at kept
    rw [keptEvents, if_neg kept]
    exact eventsFrom_start_eq_ok.mpr ⟨e, _, made, ih hrest, rfl⟩
  | case4 s rest position content lexeme deleted ih =>
    rw [List.flatMap_cons, s.pieces_eq lexeme] at h
    obtain ⟨e, others, made, hrest, rfl⟩ := eventsFrom_empty_eq_ok.mp h
    rw [tagged_eq ignores made] at deleted
    rw [keptEvents, if_pos deleted]
    exact ih hrest
  | case5 s rest position content lexeme kept ih =>
    rw [List.flatMap_cons, s.pieces_eq lexeme] at h ⊢
    obtain ⟨e, others, made, hrest, rfl⟩ := eventsFrom_empty_eq_ok.mp h
    rw [tagged_eq ignores made] at kept
    rw [keptEvents, if_neg kept]
    exact eventsFrom_empty_eq_ok.mpr ⟨e, _, made, ih hrest, rfl⟩
  | case6 s rest noStart noEmpty ih =>
    cases lexeme : s.lexeme? with
    | none =>
      have nothing : s.pieces = [] := by simp [Stretch.pieces, lexeme]
      rw [List.flatMap_cons, nothing] at h ⊢
      exact ih h
    | some lexeme' =>
      rw [List.flatMap_cons, s.pieces_eq lexeme] at h ⊢
      cases lexeme' with
      | start position content => exact absurd lexeme (noStart position content)
      | empty position content => exact absurd lexeme (noEmpty position content)
      | close position name =>
        obtain ⟨names, others, opened, hrest, rfl⟩ := eventsFrom_close_eq_ok.mp h
        exact eventsFrom_close_eq_ok.mpr ⟨names, _, opened, ih hrest, rfl⟩
      | fault position fault => exact absurd h eventsFrom_fault_ne_ok
  | case7 depth s rest position content lexeme ih =>
    rw [List.flatMap_cons, s.pieces_eq lexeme] at h
    obtain ⟨e, others, made, hrest, rfl⟩ := eventsFrom_start_eq_ok.mp h
    exact ih hrest
  | case8 depth s rest position name lexeme ih =>
    rw [List.flatMap_cons, s.pieces_eq lexeme] at h
    obtain ⟨names, others, opened, hrest, rfl⟩ := eventsFrom_close_eq_ok.mp h
    have left := ih hrest
    rw [List.drop_drop, Nat.add_comm] at left
    rw [opened]
    exact left
  | case9 depth s rest noStart noClose ih =>
    cases lexeme : s.lexeme? with
    | none =>
      have nothing : s.pieces = [] := by simp [Stretch.pieces, lexeme]
      rw [List.flatMap_cons, nothing] at h
      exact ih h
    | some lexeme' =>
      rw [List.flatMap_cons, s.pieces_eq lexeme] at h
      cases lexeme' with
      | start position content => exact absurd lexeme (noStart position content)
      | empty position content =>
        obtain ⟨e, others, made, hrest, rfl⟩ := eventsFrom_empty_eq_ok.mp h
        have left := ih hrest
        exact left
      | close position name => exact absurd lexeme (noClose position name)
      | fault position fault => exact absurd h eventsFrom_fault_ne_ok

/-- But for positions, events are those of the lexemes without theirs. -/
theorem eventsFrom_unplaced (n : Nesting) (lexemes : List Lexeme) :
    eventsFrom n ((lexemes.map (·.unplaced)).flatMap Piece.ofLexeme) =
      ((eventsFrom n (lexemes.flatMap Piece.ofLexeme)).1.map (·.unplaced),
        (eventsFrom n (lexemes.flatMap Piece.ofLexeme)).2.map (·.unplaced)) := by
  induction lexemes generalizing n with
  | nil =>
    simp only [List.map_nil, List.flatMap_nil, eventsFrom, Nesting.atEnd]
    cases n.tags <;> rfl
  | cons lexeme lexemes ih =>
    rw [List.map_cons, List.flatMap_cons, List.flatMap_cons]
    cases lexeme with
    | start position content =>
      simp only [Lexeme.unplaced, Piece.ofLexeme, ← Element.ofTag_unplaced position content]
      cases Element.ofTag position content with
      | error fault => rfl
      | ok e =>
        exact congrArg (fun read => (Event.start e.unplaced :: read.1, read.2))
          (ih ⟨tagName content :: n.names, e.tag :: n.tags⟩)
    | empty position content =>
      simp only [Lexeme.unplaced, Piece.ofLexeme, ← Element.ofTag_unplaced position content]
      cases Element.ofTag position content with
      | error fault => rfl
      | ok e =>
        exact congrArg
          (fun read => (Event.start e.unplaced :: Event.finish e.kind :: read.1, read.2)) (ih n)
    | close position name =>
      rw [Lexeme.unplaced, Piece.ofLexeme, Piece.ofLexeme, List.singleton_append,
        List.singleton_append, eventsFrom, eventsFrom, Nesting.step, Nesting.step]
      cases n.names with
      | nil => rfl
      | cons expected names =>
        dsimp only
        by_cases same : (name == expected) = true
        · rw [if_pos same, if_pos same]
          exact congrArg (fun read => (Event.finish (.ofTag (localText name)) :: read.1, read.2))
            (ih ⟨names, n.tags.drop 1⟩)
        · rw [if_neg same, if_neg same]
          rfl
    | fault position fault => rfl

/-- A document that is read to its end has nothing wrong with its markup. -/
theorem not_mem_fault {lexemes : List Lexeme} {n : Nesting} {events : List Event}
    (h : eventsFrom n (lexemes.flatMap Piece.ofLexeme) = (events, none)) (position : Nat)
    (fault : Markup.Fault) : Lexeme.fault position fault ∉ lexemes := by
  induction lexemes generalizing n events with
  | nil => exact List.not_mem_nil
  | cons lexeme lexemes ih =>
    rw [List.flatMap_cons] at h
    rw [List.mem_cons, not_or]
    cases lexeme with
    | start =>
      obtain ⟨_, _, -, hrest, -⟩ := eventsFrom_start_eq_ok.mp h
      exact ⟨nofun, ih hrest⟩
    | empty =>
      obtain ⟨_, _, -, hrest, -⟩ := eventsFrom_empty_eq_ok.mp h
      exact ⟨nofun, ih hrest⟩
    | close =>
      obtain ⟨_, _, -, hrest, -⟩ := eventsFrom_close_eq_ok.mp h
      exact ⟨nofun, ih hrest⟩
    | fault => exact absurd h eventsFrom_fault_ne_ok

/-- The events of a document but for positions, and of one that has the same lexemes. -/
theorem ofBytes_unplaced (document : List UInt8) :
    eventsFrom {} ((tokens document).flatMap Piece.ofLexeme) =
      ((ofBytes document).events.1.map (·.unplaced),
        (ofBytes document).events.2.map (·.unplaced)) := by
  rw [← Markup.lexemes_unplaced]
  exact eventsFrom_unplaced {} (Markup.lexemes document)

/-- A document is read to its end, and its elements are those of a forest, positions apart. -/
structure ReadsAs (r : Reader) (f : Forest) : Prop where
  complete : r.events.2 = none
  events : r.events.1.map (·.unplaced) = f.events

theorem readsAs_iff {document : List UInt8} {f : Forest} : (ofBytes document).ReadsAs f ↔
    eventsFrom {} ((tokens document).flatMap Piece.ofLexeme) = (f.events, none) := by
  rw [ofBytes_unplaced, Prod.mk.injEq, Option.map_eq_none_iff]
  exact ⟨fun reads => ⟨reads.events, reads.complete⟩, fun ⟨events, complete⟩ => ⟨complete, events⟩⟩

/-- A document that is read to its end is read as a forest. -/
theorem exists_readsAs {document : List UInt8} (complete : (ofBytes document).events.2 = none) :
    ∃ f, (ofBytes document).ReadsAs f := by
  have read := ofBytes_unplaced document
  rw [complete] at read
  obtain ⟨f, events⟩ := Forest.exists_of_balanced (eventsFrom_balanced (n := {}) rfl read)
  exact ⟨f, complete, events⟩

end Reader

theorem keptEvents_unplaced (ignores : ∀ e : Element, p e.unplaced = p e) (depth : Nat)
    (events : List Event) : keptEvents p depth (events.map (·.unplaced)) =
      (keptEvents p depth events).map (·.unplaced) := by
  fun_induction keptEvents p depth events with
  | case1 => rfl
  | case2 e rest deleted ih =>
    rw [List.map_cons, Event.unplaced, keptEvents, if_pos (by rwa [ignores])]
    exact ih
  | case3 e rest kept ih =>
    rw [List.map_cons, Event.unplaced, keptEvents, if_neg (by rwa [ignores]), ih]
    rfl
  | case4 kind rest ih =>
    rw [List.map_cons, Event.unplaced, keptEvents, ih]
    rfl
  | case5 depth e rest ih => exact ih
  | case6 depth kind rest ih => exact ih

/-- A document that is read to its end is read to its end without the elements deleted from it, and
its events are, but for positions, those of the elements that stay. -/
theorem Reader.ofBytes_deleteElements (ignores : ∀ e : Element, p e.unplaced = p e)
    {document : List UInt8} {f : Forest} (read : (ofBytes document).events = (f.events, none)) :
    (ofBytes (deleteElements p document)).events.2 = none ∧
      (ofBytes (deleteElements p document)).events.1.map (·.unplaced) =
        (f.without p).events.map (·.unplaced) := by
  have lexed := ofBytes_unplaced document
  rw [read] at lexed
  have faultless (fault : Markup.Fault) : .fault 0 fault ∉ tokens document :=
    not_mem_fault lexed 0 fault
  have genuine := Markup.stretches_genuine faultless
  have remains (s : Stretch) (hs : s ∈ keptFrom p 0 (stretches document)) : s.Genuine :=
    genuine s ((keptFrom_sublist 0 _).subset hs)
  have kept : eventsFrom {} ((tokens (deleteElements p document)).flatMap Piece.ofLexeme) =
      (keptEvents p 0 (f.events.map (·.unplaced)), none) := by
    rw [Markup.tokens_stretches faultless, List.flatMap_assoc] at lexed
    rw [deleteElements, Markup.tokens_flatten remains, List.flatMap_assoc]
    exact eventsFrom_kept ignores 0 lexed
  rw [ofBytes_unplaced, keptEvents_unplaced ignores] at kept
  obtain ⟨events, failure⟩ := Prod.mk.inj kept
  have whole := keptEvents_events (p := p) f []
  rw [List.append_nil, keptEvents, List.append_nil] at whole
  rw [whole] at events
  exact ⟨Option.map_eq_none_iff.mp failure, events⟩

end EnumRegistry
