import EnumRegistry.Proofs.Classification.Changes

/-!
Walks over a classification tree. Every node but a root comes right below one other, which was
attached before it; so the walk from the roots down meets each node once, a parent before its
children and siblings in the order in which they were attached.
-/

namespace EnumRegistry.ClassificationTree

/-- A walk of so many steps with a stack, and what is left on it: the top is put out, and its
children are put on top. -/
def sweep (t : ClassificationTree) : Nat → List Nat → List Nat × List Nat
  | 0, stack => ([], stack)
  | _ + 1, [] => ([], [])
  | steps + 1, id :: stack =>
    let (out, left) := t.sweep steps (t.childrenOf (some id) ++ stack)
    (id :: out, left)

@[simp] theorem flatMap_descend_zero (t : ClassificationTree) (ids : List Nat) :
    ids.flatMap (t.descend 0) = [] := by
  induction ids with
  | nil => rfl
  | cons id rest ih => rw [List.flatMap_cons, ih, descend, List.append_nil]

@[simp] theorem flatMap_descend_one (t : ClassificationTree) (ids : List Nat) :
    ids.flatMap (t.descend 1) = ids := by
  induction ids with
  | nil => rfl
  | cons id rest ih =>
    rw [List.flatMap_cons, ih, descend, flatMap_descend_zero, List.singleton_append]

namespace Linked

variable {t : ClassificationTree}

/-! ## Every node once -/

/-- One level further down, a node is met once more for each time its parent was met. -/
theorem count_deeper (h : t.Linked) {id p : Nat} (hp : t.parent? id = some p) (depth : Nat)
    (ids : List Nat) :
    (ids.flatMap (t.descend (depth + 1))).count id =
      ids.count id + (ids.flatMap (t.descend depth)).count p := by
  have hid := (parent?_lt h.toWellFormed hp).2
  have child (q : Nat) : (t.childrenOf (some q)).count id = if q = p then 1 else 0 := by
    rw [h.count_childrenOf hid, hp]
    simp [eq_comm]
  induction depth generalizing ids with
  | zero => simp
  | succ depth ih =>
    induction ids with
    | nil => rfl
    | cons q rest ihrest =>
      have below := ih (t.childrenOf (some q))
      rw [child q] at below
      have met : (t.descend (depth + 1) q).count p = (if q = p then 1 else 0) +
          ((t.childrenOf (some q)).flatMap (t.descend depth)).count p := by
        rw [descend, List.count_cons, Nat.add_comm]
        simp
      simp only [List.flatMap_cons, List.count_append, List.count_cons, ihrest, met]
      rw [descend, List.count_cons, below]
      omega

/-- A root, and what is no node at all, is met below no other node. -/
theorem count_top (h : t.Linked) {id : Nat} (hp : t.parent? id = none) (depth : Nat)
    (ids : List Nat) : (ids.flatMap (t.descend (depth + 1))).count id = ids.count id := by
  have child (q : Nat) : (t.childrenOf (some q)).count id = 0 := by
    rw [List.count_eq_zero]
    intro member
    rw [h.parent?_eq member] at hp
    cases hp
  induction depth generalizing ids with
  | zero => simp
  | succ depth ih =>
    induction ids with
    | nil => rfl
    | cons q rest ihrest =>
      have below := ih (t.childrenOf (some q))
      rw [child q] at below
      rw [List.flatMap_cons, List.count_append, ihrest, descend, List.count_cons, below,
        List.count_cons]
      omega

/-- A walk that goes deeper than a node's number meets the node once. -/
theorem count_walk (h : t.Linked) {id depth : Nat} (hid : id < t.size) (enough : id < depth) :
    (t.roots.flatMap (t.descend depth)).count id = 1 := by
  induction depth generalizing id with
  | zero => omega
  | succ depth ih =>
    have top := h.count_childrenOf hid none
    change t.roots.count id = _ at top
    cases hp : t.parent? id with
    | none => rw [h.count_top hp, top, if_pos hp]
    | some p =>
      have below := (parent?_lt h.toWellFormed hp).1
      have above := ih (Nat.lt_trans below hid) (by omega)
      rw [h.count_deeper hp, top, above, if_neg (by rw [hp]; nofun)]

theorem count_preOrder (h : t.Linked) (id : Nat) :
    t.preOrder.count id = if id < t.size then 1 else 0 := by
  unfold preOrder
  by_cases hid : id < t.size
  · rw [if_pos hid]
    exact h.count_walk hid hid
  · rw [if_neg hid]
    have absent : t.parent? id = none := by
      rw [parent?, Array.getElem?_eq_none_iff.mpr (Nat.not_lt.mp hid), Option.bind_none]
    cases hsize : t.size with
    | zero => simp
    | succ depth =>
      rw [h.count_top absent, List.count_eq_zero]
      intro member
      exact hid (h.lt_size (p := none) member)

theorem preOrder_perm (h : t.Linked) : t.preOrder.Perm (List.range t.size) := by
  rw [List.perm_iff_count]
  intro id
  rw [h.count_preOrder]
  by_cases hid : id < t.size
  · rw [if_pos hid]
    exact (List.count_eq_one_of_mem List.nodup_range (List.mem_range.mpr hid)).symm
  · rw [if_neg hid, List.count_eq_zero.mpr]
    simpa using hid

theorem length_preOrder (h : t.Linked) : t.preOrder.length = t.size := by
  rw [h.preOrder_perm.length_eq, List.length_range]

/-! ## The order -/

theorem sublist_descend (t : ClassificationTree) (depth : Nat) (ids : List Nat) :
    ids.Sublist (ids.flatMap (t.descend (depth + 1))) := by
  induction ids with
  | nil => exact .slnil
  | cons id rest ih =>
    rw [List.flatMap_cons, descend, List.cons_append]
    exact (ih.trans (List.sublist_append_right _ _)).cons_cons id

/-- What is met below a node is met with all below it that the depth allows. -/
theorem descend_sublist (h : t.Linked) {depth top id : Nat} (met : id ∈ t.descend depth top) :
    ∃ rest, depth + top ≤ rest + id ∧ (t.descend rest id).Sublist (t.descend depth top) := by
  induction depth generalizing top with
  | zero => simp [descend] at met
  | succ depth ih =>
    rw [descend, List.mem_cons, List.mem_flatMap] at met
    rcases met with rfl | ⟨child, hchild, met⟩
    · exact ⟨depth + 1, Nat.le_refl _, List.Sublist.refl _⟩
    · obtain ⟨rest, bound, sub⟩ := ih met
      have below := h.lt_child hchild
      refine ⟨rest, by omega, ?_⟩
      rw [descend]
      have part : (t.descend depth child).Sublist
          ((t.childrenOf (some top)).flatMap (t.descend depth)) :=
        List.sublist_flatten_of_mem (List.mem_map_of_mem hchild)
      exact (sub.trans part).cons top

theorem roots_sublist (h : t.Linked) : t.roots.Sublist t.preOrder := by
  cases hsize : t.size with
  | zero =>
    cases hroots : t.roots with
    | nil => exact List.nil_sublist _
    | cons root _ =>
      have member : root ∈ t.roots := hroots ▸ List.mem_cons_self
      have inRange : root < t.size := h.lt_size (p := none) member
      omega
  | succ depth =>
    rw [preOrder, hsize]
    exact sublist_descend t depth t.roots

/-- A parent comes before its children, which come in order of attachment. -/
theorem family_sublist (h : t.Linked) {p : Nat} (hp : p < t.size) :
    (p :: t.childrenOf (some p)).Sublist t.preOrder := by
  have met : p ∈ t.preOrder := h.preOrder_perm.mem_iff.mpr (List.mem_range.mpr hp)
  obtain ⟨root, hroot, met⟩ := List.mem_flatMap.mp met
  obtain ⟨rest, bound, sub⟩ := h.descend_sublist met
  have part : (t.descend t.size root).Sublist t.preOrder :=
    List.sublist_flatten_of_mem (List.mem_map_of_mem hroot)
  refine List.Sublist.trans ?_ (sub.trans part)
  obtain ⟨rest, rfl⟩ : ∃ n, rest = n + 1 := ⟨rest - 1, by omega⟩
  rw [descend]
  apply List.Sublist.cons_cons
  cases rest with
  | succ depth => exact sublist_descend t depth _
  | zero =>
    -- The walk goes no deeper than this node, so nothing was attached behind it.
    cases hchildren : t.childrenOf (some p) with
    | nil => exact List.nil_sublist _
    | cons child _ =>
      have member : child ∈ t.childrenOf (some p) := hchildren ▸ List.mem_cons_self
      have later := h.lt_child member
      have inRange := h.lt_size member
      omega

/-! ## The walk with a stack -/

/-- The walk with a stack puts out all below the nodes on top before it comes to the rest. -/
theorem sweep_append (h : t.Linked) {depth : Nat} {ids : List Nat}
    (enough : ∀ id ∈ ids, id < t.size ∧ t.size ≤ id + depth) (steps : Nat) (stack : List Nat) :
    t.sweep ((ids.flatMap (t.descend depth)).length + steps) (ids ++ stack) =
      (ids.flatMap (t.descend depth) ++ (t.sweep steps stack).1, (t.sweep steps stack).2) := by
  induction depth generalizing ids steps stack with
  | zero =>
    cases ids with
    | nil => simp
    | cons id _ =>
      have := enough id List.mem_cons_self
      omega
  | succ depth ih =>
    induction ids with
    | nil => simp
    | cons id rest ihrest =>
      have children : ∀ child ∈ t.childrenOf (some id),
          child < t.size ∧ t.size ≤ child + depth := by
        intro child hchild
        have bound := enough id List.mem_cons_self
        have later := h.lt_child hchild
        exact ⟨h.lt_size hchild, by omega⟩
      have behind := ihrest fun other hother => enough other (List.mem_cons_of_mem _ hother)
      have below := ih children ((rest.flatMap (t.descend (depth + 1))).length + steps)
        (rest ++ stack)
      rw [behind] at below
      have length : ((id :: rest).flatMap (t.descend (depth + 1))).length + steps =
          ((t.childrenOf (some id)).flatMap (t.descend depth)).length +
            ((rest.flatMap (t.descend (depth + 1))).length + steps) + 1 := by
        rw [List.flatMap_cons, descend, List.length_append, List.length_cons]
        omega
      rw [length, List.cons_append, sweep, below, List.flatMap_cons, descend]
      simp

/-- The walk with a stack ends, after one step for each node, and is the walk from the roots
down. -/
theorem sweep_eq_preOrder (h : t.Linked) : t.sweep t.size t.roots = (t.preOrder, []) := by
  have enough : ∀ id ∈ t.roots, id < t.size ∧ t.size ≤ id + t.size := by
    intro id hid
    exact ⟨h.lt_size (p := none) hid, Nat.le_add_left ..⟩
  have walked := h.sweep_append enough 0 []
  rw [List.append_nil] at walked
  change t.sweep (t.preOrder.length + 0) t.roots = (t.preOrder ++ [], []) at walked
  rwa [Nat.add_zero, h.length_preOrder, List.append_nil] at walked

end Linked

/-- The three records of a tree agree. -/
structure Consistent (t : ClassificationTree) : Prop where
  inRange : ∀ p, ∀ id ∈ t.childrenOf p, id < t.size
  parent_first : ∀ id p, t.parent? id = some p → p < id ∧ id < t.size
  /-- A node is once among the children of its parent, or among the roots if it has none. -/
  once : ∀ id < t.size, ∀ p, (t.childrenOf p).count id = if t.parent? id = p then 1 else 0
  attachment_order : ∀ p, (t.childrenOf p).Pairwise (· < ·)
  levels : ∀ (id : Nat) (n : ClassificationNode), t.nodes[id]? = some n →
    (n.parent = none ∧ n.level.isRoot = true) ∨
      ∃ p above, n.parent = some p ∧ t.nodes[p]? = some above ∧ above.level.accepts n.level = true
  way_up : ∀ id < t.size,
    (id :: t.ancestors id).IsChain (fun below above => t.parent? below = some above) ∧
      ∃ root ∈ t.roots, (id :: t.ancestors id).getLast? = some root

/-- The walk down a tree meets every node once, parents before their children and siblings in order
of attachment, and the walk with a stack is the same and comes to an end. -/
structure WalkedOnce (t : ClassificationTree) : Prop where
  once : ∀ id, t.preOrder.count id = if id < t.size then 1 else 0
  roots : t.roots.Sublist t.preOrder
  family : ∀ p < t.size, (p :: t.childrenOf (some p)).Sublist t.preOrder
  stack : t.sweep t.size t.roots = (t.preOrder, [])

/-- However a tree was built from an empty one, its records agree, the way up from each node ends at
a root and the walk down meets each node once. The number that a node is attached under stays in
range. Just the refused changes leave the tree as it was, among them any second naming of a node,
and a name once given stays. -/
theorem records_agree (hierarchy : Hierarchy) (uid : String) (changes : List TreeChange) :
    let t := after { hierarchy, uid } changes
    t.Consistent ∧ t.WalkedOnce ∧
      (∀ parent node id grown, t.attach parent node = .ok (id, grown) →
        ∀ later, id < (grown.after later).size) ∧
      (∀ c, t.changed c = t ↔ ∃ err, t.change c = .error err) ∧
      ∀ id name, t.name? id = some name →
        (∀ other, t.setName id other = .error (.nameAlreadySet id)) ∧
          ∀ later, (t.after later).name? id = some name := by
  intro t
  have h : t.Linked := linked_after (linked_new hierarchy uid) changes
  refine ⟨?_, ?_, ?_, fun c => changed_eq_self_iff, ?_⟩
  · constructor
    · exact fun p id hid => h.lt_size hid
    · exact fun id p hp => parent?_lt h.toWellFormed hp
    · exact fun id hid => h.count_childrenOf hid
    · exact h.pairwise_lt
    · exact fun id n hn => h.accepts hn
    · exact fun id hid => (h.climb hid (Nat.lt_succ_of_lt hid)).2
  · constructor
    · exact h.count_preOrder
    · exact h.roots_sublist
    · exact fun p hp => h.family_sublist hp
    · exact h.sweep_eq_preOrder
  · intro parent node id grown attached later
    obtain ⟨rfl, rfl, -⟩ := attach_eq_ok attached
    have kept := size_le_after (t.append parent node) later
    rw [size_append] at kept
    omega
  · intro id name hname
    exact ⟨setName_of_named hname, fun later => name?_after hname later⟩

end EnumRegistry.ClassificationTree
