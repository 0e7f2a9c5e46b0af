import Mathlib.Data.List.Chain
import Mathlib.Data.List.Nodup
import EnumRegistry.Proofs.Classification.Tree

/-!
Changes to a classification tree. A tree keeps three records of who stands where: each node's
parent, each node's children and the roots. However nodes are attached and named, the three agree,
and a change that is refused alters nothing.
-/

namespace EnumRegistry

/-- What can be done to a tree: a node is attached, or a node is named. -/
inductive TreeChange
  | attach (parent : Option Nat) (node : ClassificationNode)
  | name (id : Nat) (name : String)

namespace ClassificationTree

/-- The tree after a change, if the change is allowed. -/
def change (t : ClassificationTree) : TreeChange → Except TreeError ClassificationTree
  | .attach parent node => (t.attach parent node).map (·.2)
  | .name id name => t.setName id name

/-- A refused change leaves the tree as it was. -/
def changed (t : ClassificationTree) (c : TreeChange) : ClassificationTree :=
  match t.change c with
  | .ok t' => t'
  | .error _ => t

/-- The tree after one change after another. -/
def after (t : ClassificationTree) (changes : List TreeChange) : ClassificationTree :=
  changes.foldl changed t

/-! ## What one change does -/

/-- An allowed change adds a node behind all others, or names one that had no name. -/
theorem change_eq_ok {t t' : ClassificationTree} {c : TreeChange} (h : t.change c = .ok t') :
    (∃ parent node, c = .attach parent node ∧ t' = t.append parent node ∧
      (∀ p, parent = some p → p < t.size) ∧
      admits (parent.bind fun p => t.nodes[p]?.map (·.level)) node.level = true) ∨
    ∃ id name, c = .name id name ∧ t' = t.named id name ∧ id < t.size ∧ t.name? id = none := by
  cases c with
  | attach parent node =>
    left
    cases attached : t.attach parent node with
    | error err =>
      rw [change, attached] at h
      cases h
    | ok result =>
      obtain ⟨id, grown⟩ := result
      rw [change, attached] at h
      obtain ⟨-, rfl, valid, fits⟩ := attach_eq_ok attached
      exact ⟨parent, node, rfl, (Except.ok.inj h).symm, valid, fits⟩
  | name id name =>
    right
    obtain ⟨hid, unnamed, rfl⟩ := setName_eq_ok h
    exact ⟨id, name, rfl, rfl, hid, unnamed⟩

/-- What holds of a tree and is kept by attaching and by naming holds after any change. -/
theorem changed_induction {P : ClassificationTree → Prop} {t : ClassificationTree} (ht : P t)
    (attached : ∀ parent node, (∀ p, parent = some p → p < t.size) →
      admits (parent.bind fun p => t.nodes[p]?.map (·.level)) node.level = true →
      P (t.append parent node))
    (named : ∀ id name, id < t.size → t.name? id = none → P (t.named id name))
    (c : TreeChange) : P (t.changed c) := by
  unfold changed
  cases run : t.change c with
  | error err => exact ht
  | ok t' =>
    rcases change_eq_ok run with
      ⟨parent, node, -, rfl, valid, fits⟩ | ⟨id, name, -, rfl, hid, unnamed⟩
    · exact attached parent node valid fits
    · exact named id name hid unnamed

/-- A change alters the tree just if it is not refused. -/
theorem changed_eq_self_iff {t : ClassificationTree} {c : TreeChange} :
    t.changed c = t ↔ ∃ err, t.change c = .error err := by
  constructor
  · intro same
    unfold changed at same
    cases run : t.change c with
    | error err => exact ⟨err, rfl⟩
    | ok t' =>
      rw [run] at same
      obtain rfl : t' = t := same
      rcases change_eq_ok run with ⟨parent, node, -, grown, -⟩ | ⟨id, name, -, grown, hid, unnamed⟩
      · have larger := size_append t' parent node
        rw [← grown] at larger
        omega
      · have now := name?_named hid name id
        rw [← grown, unnamed, if_pos rfl] at now
        cases now
  · rintro ⟨err, refused⟩
    rw [changed, refused]

theorem size_le_changed (t : ClassificationTree) (c : TreeChange) :
    t.size ≤ (t.changed c).size := by
  apply changed_induction (P := fun t' => t.size ≤ t'.size) (Nat.le_refl _)
  · intro parent node _ _
    rw [size_append]
    exact Nat.le_succ _
  · intro id name _ _
    rw [size_named]

theorem size_le_after (t : ClassificationTree) (changes : List TreeChange) :
    t.size ≤ (t.after changes).size := by
  induction changes generalizing t with
  | nil => exact Nat.le_refl _
  | cons c rest ih => exact Nat.le_trans (size_le_changed t c) (ih _)

theorem setName_of_named {t : ClassificationTree} {id : Nat} {old : String}
    (h : t.name? id = some old) (name : String) :
    t.setName id name = .error (.nameAlreadySet id) := by
  obtain ⟨node, hnode, hname⟩ := Option.bind_eq_some_iff.mp h
  rw [setName, hnode]
  simp [hname]

/-- Later changes leave the name of a node alone. -/
theorem name?_changed {t : ClassificationTree} {id : Nat} {name : String}
    (h : t.name? id = some name) (c : TreeChange) : (t.changed c).name? id = some name := by
  obtain ⟨node, hnode, -⟩ := Option.bind_eq_some_iff.mp h
  apply changed_induction (P := fun t => t.name? id = some name) h
  · intro parent node _ _
    rw [name?_append_of_lt (lt_size_of_getElem? hnode), h]
  · intro other given hother unnamed
    have apart : other ≠ id := by
      rintro rfl
      rw [unnamed] at h
      cases h
    rw [name?_named hother, if_neg apart, h]

theorem name?_after {t : ClassificationTree} {id : Nat} {name : String}
    (h : t.name? id = some name) (changes : List TreeChange) :
    (t.after changes).name? id = some name := by
  induction changes generalizing t with
  | nil => exact h
  | cons c rest ih => exact ih (name?_changed h c)

/-! ## Records that agree -/

/-- The children of a node are the nodes that have it as their parent, in order of attachment; so
are the roots those that have none. Every node stands where its level may. -/
structure Linked (t : ClassificationTree) : Prop extends WellFormed t where
  children : ∀ p, t.childrenOf p = (List.range t.size).filter fun id => t.parent? id = p
  levels : ∀ {id : Nat} {n : ClassificationNode}, t.nodes[id]? = some n →
    admits (n.parent.bind fun p => t.nodes[p]?.map (·.level)) n.level = true

theorem linked_new (hierarchy : Hierarchy) (uid : String) : Linked { hierarchy, uid } where
  toWellFormed := wellFormed_new hierarchy uid
  children p := by cases p <;> simp [childrenOf, size]
  levels h := by simp at h

theorem level?_extends {t t' : ClassificationTree} (e : t.Extends t') {id : Nat}
    (hid : id < t.size) : t'.nodes[id]?.map (·.level) = t.nodes[id]?.map (·.level) := by
  obtain ⟨n, hn⟩ := getElem?_of_lt_size hid
  obtain ⟨n', hn', same⟩ := e.node hn
  rw [hn, hn', Option.map_some, Option.map_some, same]

theorem level_above_extends {t t' : ClassificationTree} (e : t.Extends t') {parent : Option Nat}
    (valid : ∀ p, parent = some p → p < t.size) :
    (parent.bind fun p => t'.nodes[p]?.map (·.level)) =
      parent.bind fun p => t.nodes[p]?.map (·.level) := by
  apply Option.bind_congr
  intro p hp
  exact level?_extends e (valid p hp)

theorem parent?_append_size {t : ClassificationTree} {parent : Option Nat}
    {node : ClassificationNode} (valid : ∀ p, parent = some p → p < t.size) :
    (t.append parent node).parent? t.size = parent := by
  rw [parent?, getElem?_append_size valid, Option.bind_some]

theorem parent_lt_size {t : ClassificationTree} (h : t.WellFormed) {id p : Nat}
    {n : ClassificationNode} (hn : t.nodes[id]? = some n) (hp : n.parent = some p) : p < t.size :=
  Nat.lt_trans (h.parent_lt hn hp) (lt_size_of_getElem? hn)

theorem linked_append {t : ClassificationTree} {parent : Option Nat} {node : ClassificationNode}
    (h : t.Linked) (valid : ∀ p, parent = some p → p < t.size)
    (fits : admits (parent.bind fun p => t.nodes[p]?.map (·.level)) node.level = true) :
    (t.append parent node).Linked where
  toWellFormed := wellFormed_append h.toWellFormed valid
  children p := by
    have older : ∀ id ∈ List.range t.size, decide ((t.append parent node).parent? id = p) =
        decide (t.parent? id = p) := by
      intro id hid
      rw [parent?_extends (extends_append t parent node) (List.mem_range.mp hid)]
    have newest : (t.append parent node).parent? t.size = parent := parent?_append_size valid
    rw [childrenOf_append valid, size_append, List.range_succ, List.filter_append,
      List.filter_congr older, ← h.children]
    by_cases same : p = parent
    · simp [same, newest]
    · simp [same, newest, Ne.symm same]
  levels {id n} hn := by
    have e := extends_append t parent node
    rcases Nat.lt_trichotomy id t.size with hlt | rfl | hgt
    · obtain ⟨m, hm⟩ := getElem?_of_lt_size hlt
      obtain ⟨n', hn', same⟩ := e.node hm
      obtain rfl : n' = n := Option.some.inj (hn'.symm.trans hn)
      have hparent : n'.parent = m.parent := by rw [same]
      have hlevel : n'.level = m.level := by rw [same]
      rw [hparent, hlevel, level_above_extends e fun p hp => parent_lt_size h.toWellFormed hm hp]
      exact h.levels hm
    · rw [getElem?_append_size valid, Option.some.injEq] at hn
      subst hn
      rw [level_above_extends e valid]
      exact fits
    · have bound := lt_size_of_getElem? hn
      rw [size_append] at bound
      omega

theorem linked_named {t : ClassificationTree} (h : t.Linked) (id : Nat) (name : String) :
    (t.named id name).Linked where
  toWellFormed := wellFormed_named h.toWellFormed id name
  children p := by
    have same : ∀ i ∈ List.range t.size, decide ((t.named id name).parent? i = p) =
        decide (t.parent? i = p) := by
      intro i hi
      rw [parent?_extends (extends_named t id name) (List.mem_range.mp hi)]
    rw [childrenOf_named, size_named, List.filter_congr same, h.children]
  levels {i n} hn := by
    have e := extends_named t id name
    rw [getElem?_named] at hn
    obtain ⟨m, hm, rfl⟩ := Option.map_eq_some_iff.mp hn
    have kept := h.levels hm
    rw [← level_above_extends e fun p hp => parent_lt_size h.toWellFormed hm hp] at kept
    split
    · exact kept
    · exact kept

theorem linked_changed {t : ClassificationTree} (h : t.Linked) (c : TreeChange) :
    (t.changed c).Linked := by
  apply changed_induction (P := Linked) h
  · intro parent node valid fits
    exact linked_append h valid fits
  · intro id name _ _
    exact linked_named h id name

theorem linked_after {t : ClassificationTree} (h : t.Linked) (changes : List TreeChange) :
    (t.after changes).Linked := by
  induction changes generalizing t with
  | nil => exact h
  | cons c rest ih => exact ih (linked_changed h c)

namespace Linked

variable {t : ClassificationTree}

theorem lt_size (h : t.Linked) {p : Option Nat} {id : Nat} (hid : id ∈ t.childrenOf p) :
    id < t.size := by
  rw [h.children, List.mem_filter] at hid
  exact List.mem_range.mp hid.1

theorem parent?_eq (h : t.Linked) {p : Option Nat} {id : Nat} (hid : id ∈ t.childrenOf p) :
    t.parent? id = p := by
  rw [h.children, List.mem_filter] at hid
  exact of_decide_eq_true hid.2

theorem lt_child (h : t.Linked) {p id : Nat} (hid : id ∈ t.childrenOf (some p)) : p < id :=
  (parent?_lt h.toWellFormed (h.parent?_eq hid)).1

theorem pairwise_lt (h : t.Linked) (p : Option Nat) : (t.childrenOf p).Pairwise (· < ·) := by
  rw [h.children]
  exact List.pairwise_lt_range.filter _

/-- A node stands once among the children of its parent and nowhere else. -/
theorem count_childrenOf (h : t.Linked) {id : Nat} (hid : id < t.size) (p : Option Nat) :
    (t.childrenOf p).count id = if t.parent? id = p then 1 else 0 := by
  rw [h.children]
  by_cases same : t.parent? id = p
  · rw [if_pos same, List.count_filter (by simpa using same)]
    exact List.count_eq_one_of_mem List.nodup_range (List.mem_range.mpr hid)
  · rw [if_neg same, List.count_eq_zero]
    intro member
    exact same (of_decide_eq_true (List.mem_filter.mp member).2)

/-- Roots are of a level that may stand at the top, and a parent accepts the levels below it. -/
theorem accepts (h : t.Linked) {id : Nat} {n : ClassificationNode} (hn : t.nodes[id]? = some n) :
    (n.parent = none ∧ n.level.isRoot = true) ∨
      ∃ p above, n.parent = some p ∧ t.nodes[p]? = some above ∧
        above.level.accepts n.level = true := by
  have fits := h.levels hn
  cases hp : n.parent with
  | none =>
    rw [hp] at fits
    exact .inl ⟨rfl, fits⟩
  | some p =>
    obtain ⟨above, habove⟩ := getElem?_of_lt_size (parent_lt_size h.toWellFormed hn hp)
    rw [hp, Option.bind_some, habove] at fits
    exact .inr ⟨p, above, rfl, habove, fits⟩

/-- The way up from a node goes from each node to its parent and ends at a root. -/
theorem climb (h : t.Linked) {steps id : Nat} (hid : id < t.size) (enough : id < steps) :
    (t.climb steps (some id)).head? = some id ∧
      (t.climb steps (some id)).IsChain (fun below above => t.parent? below = some above) ∧
      ∃ root ∈ t.roots, (t.climb steps (some id)).getLast? = some root := by
  induction steps generalizing id with
  | zero => omega
  | succ steps ih =>
    change (id :: t.climb steps (t.parent? id)).head? = some id ∧
      (id :: t.climb steps (t.parent? id)).IsChain _ ∧
      ∃ root ∈ t.roots, (id :: t.climb steps (t.parent? id)).getLast? = some root
    refine ⟨rfl, ?_⟩
    cases hp : t.parent? id with
    | none =>
      have root : id ∈ t.roots := by
        have := mem_childrenOf_parent? h.toWellFormed hid
        rwa [hp] at this
      have top : t.climb steps none = [] := by cases steps <;> rfl
      rw [top]
      exact ⟨List.isChain_singleton _, id, root, rfl⟩
    | some p =>
      have below := (parent?_lt h.toWellFormed hp).1
      obtain ⟨first, chain, root, hroot, last⟩ := ih (Nat.lt_trans below hid) (by omega)
      refine ⟨?_, root, hroot, ?_⟩
      · rw [List.isChain_cons, first]
        refine ⟨?_, chain⟩
        rintro above ⟨rfl⟩
        exact hp
      · rw [List.getLast?_cons, last, Option.getD_some]

end Linked

end ClassificationTree

end EnumRegistry
