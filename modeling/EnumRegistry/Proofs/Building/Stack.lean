import EnumRegistry.Proofs.Building.Growth
import EnumRegistry.Proofs.Building.TreesInOrder
import EnumRegistry.Proofs.Registry.Trail

/-!
What the open elements of a builder stand for: each for one element that was entered and is not
left, and the nodes and paths among them for the nodes of the cursor, in their order.
-/

namespace EnumRegistry

open ClassificationTree

/-- Whether an element is a row of a type. -/
def ElementKind.isRow : ElementKind → Bool
  | enumerationRow | enumerationRange | bitfieldRow | dictionaryRow => true
  | _ => false

theorem TypeFrame.isRow_of_accepts {frame : TypeFrame} {kind : ElementKind}
    (h : frame.accepts kind = true) : kind.isRow = true := by
  cases frame <;> cases kind <;> first | rfl | cases h

namespace OpenElement

def isType : OpenElement → Bool
  | type => true
  | _ => false

def isTree : OpenElement → Bool
  | tree => true
  | _ => false

/-- What the end of an element completes. -/
inductive Completes (e : Element) : OpenElement → Prop
  | type (declares : e.kind.declaresType = true) : Completes e .type
  | row (row : e.kind.isRow = true) : Completes e (.row e)
  | tree (selected : e.selectedTree?.isSome = true) : Completes e .tree
  | path (kind : e.kind = .entity ∨ e.kind = .object) : Completes e .path
  | node (id : Nat) (levelled : e.kind.level?.isSome = true) : Completes e (.node id)
  | other (plain : e.kind.isPlain = true) : Completes e .other

/-- The node of a tree that an element stands for while it is open. An entity or object stands for
the node that its path ends at. -/
def nodeOf? (t : ClassificationTree) : Element × OpenElement → Option Nat
  | (_, .node id) => some id
  | (e, .path) => t.locate none (TreeFrame.stepsOf t.hierarchy e)
  | (_, .type) | (_, .row _) | (_, .tree) | (_, .other) => none

end OpenElement

open OpenElement (Completes nodeOf? isType isTree)

/-! ## Elements that stand for no node -/

/-- The nodes that open elements stand for, all paths among them with their last node. -/
structure PointsAt (t : ClassificationTree) (pairs : List (Element × OpenElement))
    (cursor : List Nat) : Prop where
  located : ∀ e, (e, .path) ∈ pairs → (nodeOf? t (e, .path)).isSome = true
  nodes : cursor = pairs.filterMap (nodeOf? t)

namespace PointsAt

variable {t t' : ClassificationTree} {pairs : List (Element × OpenElement)}
  {pair : Element × OpenElement} {cursor : List Nat}

theorem quiet (h : ∀ pair ∈ pairs, pair.2 = .tree ∨ pair.2 = .other) : PointsAt t pairs [] where
  located e hpair := by
    rcases h _ hpair with same | same <;> cases same
  nodes := by
    rw [eq_comm, List.filterMap_eq_nil_iff]
    rintro ⟨e, o⟩ hpair
    rcases h _ hpair with rfl | rfl <;> rfl

theorem cons (h : PointsAt t pairs cursor) (pair : Element × OpenElement)
    (located : pair.2 = .path → (nodeOf? t pair).isSome = true) :
    PointsAt t (pair :: pairs) ((nodeOf? t pair).toList ++ cursor) where
  located e hpair := by
    rcases List.mem_cons.mp hpair with rfl | hpair
    · exact located rfl
    · exact h.located e hpair
  nodes := by
    rw [List.filterMap_cons, h.nodes]
    cases nodeOf? t pair <;> rfl

theorem tail (h : PointsAt t (pair :: pairs) cursor) :
    ∃ behind, cursor = (nodeOf? t pair).toList ++ behind ∧ PointsAt t pairs behind := by
  refine ⟨_, ?_, fun e hpair => h.located e (List.mem_cons_of_mem _ hpair), rfl⟩
  rw [h.nodes, List.filterMap_cons]
  cases nodeOf? t pair <;> rfl

/-- In a larger tree the open elements stand for the same nodes. -/
theorem grows (h : PointsAt t pairs cursor) (wellFormed : t.WellFormed) (grows : t.Grows t') :
    PointsAt t' pairs cursor := by
  have kept {e : Element} (hpair : (e, .path) ∈ pairs) :
      nodeOf? t' (e, .path) = nodeOf? t (e, .path) := by
    obtain ⟨last, found⟩ := Option.isSome_iff_exists.mp (h.located e hpair)
    rw [found]
    rw [nodeOf?] at found ⊢
    rw [grows.larger.hierarchy]
    exact locate_grows wellFormed grows found
  refine ⟨fun e hpair => kept hpair ▸ h.located e hpair, ?_⟩
  rw [h.nodes]
  apply List.filterMap_congr
  rintro ⟨e, o⟩ hpair
  cases o with
  | type | row | tree | node | other => rfl
  | path => exact (kept hpair).symm

end PointsAt

namespace Builder

/-- The walk that builds, with its trail, keeps what entering and leaving elements keeps. -/
theorem trailed_keeps {t : NameTables} {ceiling : Nat} {P : Trail Builder → Prop}
    (entered : ∀ {s b' e}, P s → Entered t s.state e b' →
      P ⟨b', e :: s.inside, s.entered ++ [e]⟩)
    (left : ∀ {s b'}, P s → Left t ceiling s.state b' → P ⟨b', s.inside.drop 1, s.entered⟩) :
    (walk t ceiling).trailed.Keeps P where
  start := by
    intro s s' e _ hs h
    rcases Walk.trailed_start_eq_ok h with ⟨-, none⟩ | ⟨state, start, same⟩
    · cases none
    · cases same
      exact entered hs (start_entered start)
  finish := by
    rintro s ⟨state, inside, into⟩ kind hs h
    obtain ⟨finish, rfl, rfl⟩ := Walk.trailed_finish_eq_ok h
    exact left hs (finish_left finish)

/-- The open elements complete the elements the walk is inside of, and the cursor of an open tree
is what they stand for. -/
structure Stacked (t : NameTables) (s : Trail Builder) : Prop where
  inOrder : s.state.TreesInOrder t
  completes : List.Forall₂ Completes s.inside s.state.opened
  points : ∀ f, s.state.tree = some f → PointsAt f.tree (s.inside.zip s.state.opened) f.cursor

theorem stacked_ofTable (t : NameTables) : Stacked t ⟨ofTable t.types, [], []⟩ where
  inOrder := treesInOrder_ofTable t
  completes := .nil
  points f h := by simp [ofTable] at h

theorem entered_completes {t : NameTables} {b b' : Builder} {e : Element}
    (h : Entered t b e b') : ∃ o, b'.opened = o :: b.opened ∧ Completes e o := by
  cases h with
  | type _ declares => exact ⟨_, rfl, .type declares⟩
  | row _ accepts => exact ⟨_, rfl, .row (TypeFrame.isRow_of_accepts accepts)⟩
  | tree _ selected => exact ⟨_, rfl, .tree (by simp [selected])⟩
  | path _ kind => exact ⟨_, rfl, .path kind⟩
  | node _ levelled => exact ⟨_, rfl, .node _ (by simp [levelled])⟩
  | other plain => exact ⟨_, rfl, .other plain⟩

theorem entered_stacked {t : NameTables} {s : Trail Builder} {b' : Builder} {e : Element}
    (hs : Stacked t s) (h : Entered t s.state e b') :
    Stacked t ⟨b', e :: s.inside, s.entered ++ [e]⟩ := by
  obtain ⟨inOrder, completes, points⟩ := hs
  have nested := inOrder.nested
  obtain ⟨o, opened, complete⟩ := entered_completes h
  refine ⟨entered_treesInOrder inOrder h, opened ▸ completes.cons complete, ?_⟩
  intro f hf
  cases h with
  | type idle => cases (isIdle_eq_true.mp idle).2.symm.trans hf
  | row current => cases (nested.inType current).2.symm.trans hf
  | @tree hierarchy uid idle =>
    cases hf
    have plain := nested.plain_of_idle idle
    have before : PointsAt { hierarchy, uid } (s.inside.zip s.state.opened) [] :=
      .quiet fun pair hpair => .inr (plain _ (List.of_mem_zip hpair).2)
    exact before.cons (e, .tree) (fun same => by cases same)
  | path tree kind made =>
    cases hf
    obtain ⟨-, grows, located⟩ :=
      TreeFrame.openPath_located (inOrder.growing _ tree).settled.wellFormed made
    obtain ⟨empty, last, cursor⟩ := TreeFrame.openPath_cursor made
    rw [cursor] at located ⊢
    have before := points _ tree
    rw [empty] at before
    have node : nodeOf? f.tree (e, .path) = some last := located
    have pointed := (before.grows (inOrder.growing _ tree).settled.wellFormed grows).cons
      (e, .path) (by simp [node])
    rwa [node] at pointed
  | node tree levelled attached =>
    cases hf
    obtain ⟨-, -, value, -, -, rfl⟩ := TreeFrame.openNode_eq_ok attached
    exact ((points _ tree).grows (inOrder.growing _ tree).settled.wellFormed
      (TreeFrame.openNode_grows attached)).cons (e, .node _) (fun same => by cases same)
  | other => exact (points f hf).cons (e, .other) (fun same => by cases same)

theorem left_stacked {t : NameTables} {ceiling : Nat} {s : Trail Builder} {b' : Builder}
    (hs : Stacked t s) (h : Left t ceiling s.state b') :
    Stacked t ⟨b', s.inside.drop 1, s.entered⟩ := by
  obtain ⟨b, inside, entered⟩ := s
  obtain ⟨inOrder, completes, points⟩ := hs
  have nested := inOrder.nested
  have dropped := left_opened h
  refine ⟨left_treesInOrder inOrder h, ?_, ?_⟩
  · change List.Forall₂ _ (inside.drop 1) b'.opened
    rw [dropped]
    exact List.forall₂_drop 1 completes
  · intro f hf
    -- The innermost pair, where there is one.
    have innermost {o : OpenElement} {rest : List OpenElement} (opened : b.opened = o :: rest) :
        ∃ e more, inside = e :: more ∧
          ∀ f, b.tree = some f → PointsAt f.tree ((e, o) :: more.zip rest) f.cursor := by
      rw [opened] at completes points
      cases completes with
      | cons => exact ⟨_, _, rfl, points⟩
    cases h with
    | outside opened =>
      rw [opened] at completes points
      cases completes
      simpa [opened] using points f hf
    | other opened =>
      obtain ⟨e, more, rfl, pairs⟩ := innermost opened
      obtain ⟨behind, cursor, pointed⟩ := (pairs f hf).tail
      rw [cursor]
      exact pointed
    | row opened current | enumeration opened current | bitfield opened current
    | dictionary opened current =>
      cases (nested.inType current).2.symm.trans hf
    | node opened tree named =>
      cases hf
      obtain ⟨e, more, rfl, pairs⟩ := innermost opened
      obtain ⟨behind, cursor, pointed⟩ := (pairs _ tree).tail
      have grows := TreeFrame.nameNode_grows named
      have grown := pointed.grows (inOrder.growing _ tree).settled.wellFormed grows
      obtain ⟨node, name, taken, -, -, rfl⟩ := TreeFrame.nameNode_eq_ok named
      change PointsAt _ _ (List.drop 1 _)
      rw [cursor]
      exact grown
    | path opened tree =>
      cases hf
      obtain ⟨e, more, rfl, pairs⟩ := innermost opened
      obtain ⟨last, node⟩ := Option.isSome_iff_exists.mp
        ((pairs _ tree).located e (List.mem_cons_self ..))
      obtain ⟨behind, cursor, pointed⟩ := (pairs _ tree).tail
      change PointsAt _ _ (List.drop 1 _)
      rw [cursor, node]
      exact pointed
    | tree => cases hf
    | noType opened inType none => exact absurd none (nested.current_of_opened opened inType)
    | noTree opened inTree none => exact absurd none (nested.tree_of_opened opened inTree)

/-! ## How many types and trees are open -/

end Builder

theorem countP_plain {outer : List OpenElement} (plain : ∀ o ∈ outer, o = .other) :
    outer.countP isType = 0 ∧ outer.countP isTree = 0 := by
  constructor <;> rw [List.countP_eq_zero] <;> intro o ho <;> rw [plain o ho] <;> decide

theorem InType.countP {opened : List OpenElement} (h : InType opened) :
    opened.countP isType = 1 ∧ opened.countP isTree = 0 := by
  induction h with
  | type plain => simp [List.countP_cons, countP_plain plain, isType, isTree]
  | row e _ ih => exact ih
  | other _ ih => exact ih

theorem InTree.countP {opened : List OpenElement} {cursor : List Nat} (h : InTree opened cursor) :
    opened.countP isType = 0 ∧ opened.countP isTree = 1 := by
  induction h with
  | tree plain => simp [List.countP_cons, countP_plain plain, isType, isTree]
  | path last _ ih => exact ih
  | node id _ ih => exact ih
  | other _ ih => exact ih

/-- A type is open just when something is being filled, and a tree just when one is assembled. -/
theorem Builder.Nested.countP {b : Builder} (h : b.Nested) :
    b.opened.countP isType = (if b.current.isSome then 1 else 0) ∧
      b.opened.countP isTree = (if b.tree.isSome then 1 else 0) := by
  cases h with
  | idle plain current tree => simp [current, tree, countP_plain plain]
  | type inside current tree => simp [current, tree, inside.countP]
  | tree inside current tree => simp [current, tree, inside.countP]

end EnumRegistry
