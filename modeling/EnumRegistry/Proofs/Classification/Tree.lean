import EnumRegistry.Classification.Tree
import EnumRegistry.Proofs.Result

/-!
Classification trees as arenas. Attaching and naming a node each change one place and leave the
rest as it was; in a well-formed tree parents stand before their children, so the way up from a
node ends at a root and later nodes do not alter it.
-/

namespace EnumRegistry.ClassificationTree

/-- The name of a node, if it has one. -/
def name? (t : ClassificationTree) (id : Nat) : Option String := t.nodes[id]?.bind (·.name)

/-- The parent of a node, if it has one. -/
def parent? (t : ClassificationTree) (id : Nat) : Option Nat := t.nodes[id]?.bind (·.parent)

theorem lt_size_of_getElem? {t : ClassificationTree} {id : Nat} {n : ClassificationNode}
    (h : t.nodes[id]? = some n) : id < t.size :=
  (Array.getElem?_eq_some_iff.mp h).1

theorem getElem?_of_lt_size {t : ClassificationTree} {id : Nat} (h : id < t.size) :
    ∃ n, t.nodes[id]? = some n :=
  ⟨t.nodes[id], Array.getElem?_eq_some_iff.mpr ⟨h, rfl⟩⟩

/-! ## Attaching -/

theorem attach_eq_ok {t t' : ClassificationTree} {parent : Option Nat}
    {node : ClassificationNode} {id : Nat} (h : t.attach parent node = .ok (id, t')) :
    id = t.size ∧ t' = t.append parent node ∧ (∀ p, parent = some p → p < t.size) ∧
      admits (parent.bind fun p => t.nodes[p]?.map (·.level)) node.level = true := by
  have added (level : Option Level)
      (h : (if admits level node.level then pure (t.size, t.append parent node)
        else throw (.levelMismatch level node.level) : Except TreeError _) = .ok (id, t')) :
      id = t.size ∧ t' = t.append parent node ∧ admits level node.level = true := by
    split at h
    · simp only [pure_eq_ok, Except.ok.injEq, Prod.mk.injEq] at h
      exact ⟨h.1.symm, h.2.symm, ‹_›⟩
    · cases h
  unfold attach at h
  cases parent with
  | none =>
    obtain ⟨hid, ht, hadmits⟩ := added none h
    exact ⟨hid, ht, by simp, hadmits⟩
  | some p =>
    cases hp : t.nodes[p]? with
    | none => simp [hp, bind_eq_ok] at h
    | some n =>
      simp only [hp] at h
      obtain ⟨hid, ht, hadmits⟩ := added (some n.level) h
      refine ⟨hid, ht, ?_, by simpa [hp] using hadmits⟩
      intro q hq
      cases hq
      exact lt_size_of_getElem? hp

theorem attach_eq_error {t : ClassificationTree} {parent : Option Nat}
    {node : ClassificationNode} {err : TreeError} (h : t.attach parent node = .error err) :
    (∃ p, err = .unknownNode p) ∨ ∃ above child, err = .levelMismatch above child := by
  have refused (level : Option Level)
      (h : (if admits level node.level then pure (t.size, t.append parent node)
        else throw (.levelMismatch level node.level) : Except TreeError _) = .error err) :
      ∃ above child, err = .levelMismatch above child := by
    split at h <;> cases h
    exact ⟨_, _, rfl⟩
  unfold attach at h
  cases parent with
  | none => exact .inr (refused none h)
  | some p =>
    cases hp : t.nodes[p]? with
    | none =>
      simp only [hp] at h
      cases h
      exact .inl ⟨p, rfl⟩
    | some n =>
      simp only [hp] at h
      exact .inr (refused (some n.level) h)

theorem size_append (t : ClassificationTree) (parent : Option Nat) (node : ClassificationNode) :
    (t.append parent node).size = t.size + 1 := by
  cases parent <;> simp [append, size]

theorem getElem?_append_of_lt {t : ClassificationTree} {parent : Option Nat}
    {node : ClassificationNode} {id : Nat} (h : id < t.size) :
    (t.append parent node).nodes[id]? = t.nodes[id]?.map fun n =>
      if parent = some id then { n with children := n.children ++ [t.size] } else n := by
  have push : (t.nodes.push { node with parent, name := none, children := [] })[id]? =
      t.nodes[id]? := by
    have apart : id ≠ t.nodes.size := Nat.ne_of_lt h
    rw [Array.getElem?_push, if_neg apart]
  cases parent with
  | none => simp [append, push]
  | some p =>
    simp only [append, Array.getElem?_modify, push, Option.some.injEq]
    split <;> simp_all

theorem getElem?_append_size {t : ClassificationTree} {parent : Option Nat}
    {node : ClassificationNode} (valid : ∀ p, parent = some p → p < t.size) :
    (t.append parent node).nodes[t.size]? =
      some { node with parent, name := none, children := [] } := by
  cases parent with
  | none => simp [append, size]
  | some p =>
    have hp : p ≠ t.nodes.size := Nat.ne_of_lt (valid p rfl)
    simp only [append, size, Array.getElem?_modify, if_neg hp, Array.getElem?_push_size]

theorem name?_append_of_lt {t : ClassificationTree} {parent : Option Nat}
    {node : ClassificationNode} {id : Nat} (h : id < t.size) :
    (t.append parent node).name? id = t.name? id := by
  simp only [name?, getElem?_append_of_lt h, Option.bind_map]
  apply Option.bind_congr
  intro n _
  simp only [Function.comp]
  split <;> rfl

theorem childrenOf_append {t : ClassificationTree} {parent : Option Nat}
    {node : ClassificationNode} (valid : ∀ p, parent = some p → p < t.size) (p : Option Nat) :
    (t.append parent node).childrenOf p =
      t.childrenOf p ++ if p = parent then [t.size] else [] := by
  cases p with
  | none => cases parent <;> simp [append, childrenOf]
  | some q =>
    by_cases hq : q < t.size
    · obtain ⟨n, hn⟩ := getElem?_of_lt_size hq
      simp only [childrenOf, getElem?_append_of_lt hq, hn, Option.map_some, Option.getD_some]
      by_cases hp : parent = some q
      · simp [hp]
      · simp [hp, Ne.symm hp]
    · have old : t.nodes[q]? = none := by simpa [size] using hq
      have apart : some q ≠ parent := fun h => hq (valid q h.symm)
      rcases Nat.lt_or_eq_of_le (Nat.not_lt.mp hq) with hlt | rfl
      · have fresh : (t.append parent node).nodes[q]? = none := by
          have bound := size_append t parent node
          rw [Array.getElem?_eq_none_iff]
          simp only [size] at bound hlt ⊢
          omega
        simp [childrenOf, old, fresh, apart]
      · simp [childrenOf, old, getElem?_append_size valid, apart]

/-! ## Naming -/

/-- The tree with a node named. -/
def named (t : ClassificationTree) (id : Nat) (name : String) : ClassificationTree :=
  { t with nodes := t.nodes.modify id fun n => { n with name := some name } }

theorem setName_eq_ok {t t' : ClassificationTree} {id : Nat} {name : String}
    (h : t.setName id name = .ok t') : id < t.size ∧ t.name? id = none ∧ t' = t.named id name := by
  unfold setName at h
  split at h
  · cases h
  · rename_i node hnode
    split at h
    · cases h
    · rename_i unnamed
      refine ⟨lt_size_of_getElem? hnode, ?_, (Except.ok.inj h).symm⟩
      simpa [name?, hnode] using unnamed

@[simp] theorem size_named (t : ClassificationTree) (id : Nat) (name : String) :
    (t.named id name).size = t.size := by
  simp [named, size]

theorem getElem?_named (t : ClassificationTree) (id : Nat) (name : String) (i : Nat) :
    (t.named id name).nodes[i]? =
      t.nodes[i]?.map fun n => if id = i then { n with name := some name } else n := by
  simp only [named, Array.getElem?_modify]
  split <;> simp_all

theorem name?_named {t : ClassificationTree} {id : Nat} (h : id < t.size) (name : String)
    (i : Nat) : (t.named id name).name? i = if id = i then some name else t.name? i := by
  simp only [name?, getElem?_named]
  split
  · rename_i same
    obtain ⟨n, hn⟩ := getElem?_of_lt_size (same ▸ h)
    simp [hn]
  · simp

@[simp] theorem childrenOf_named (t : ClassificationTree) (id : Nat) (name : String)
    (p : Option Nat) : (t.named id name).childrenOf p = t.childrenOf p := by
  cases p with
  | none => rfl
  | some q =>
    simp only [childrenOf, getElem?_named, Option.map_map]
    congr 2
    funext n
    simp only [Function.comp]
    split <;> rfl

/-! ## Trees that grow -/

/-- Every node of the one tree is in the other, where it may have more children and a name. -/
structure Extends (t t' : ClassificationTree) : Prop where
  hierarchy : t'.hierarchy = t.hierarchy
  uid : t'.uid = t.uid
  node : ∀ {id : Nat} {n : ClassificationNode}, t.nodes[id]? = some n →
    ∃ n', t'.nodes[id]? = some n' ∧ n' = { n with name := n'.name, children := n'.children }

theorem Extends.refl (t : ClassificationTree) : t.Extends t := ⟨rfl, rfl, fun h => ⟨_, h, rfl⟩⟩

theorem Extends.trans {t u v : ClassificationTree} (htu : t.Extends u) (huv : u.Extends v) :
    t.Extends v where
  hierarchy := huv.hierarchy.trans htu.hierarchy
  uid := huv.uid.trans htu.uid
  node h := by
    obtain ⟨m, hm, same⟩ := htu.node h
    obtain ⟨n', hn', same'⟩ := huv.node hm
    exact ⟨n', hn', by rw [same', same]⟩

theorem extends_append (t : ClassificationTree) (parent : Option Nat) (node : ClassificationNode) :
    t.Extends (t.append parent node) where
  hierarchy := by cases parent <;> rfl
  uid := by cases parent <;> rfl
  node {id n} h := by
    rw [getElem?_append_of_lt (lt_size_of_getElem? h), h]
    refine ⟨_, rfl, ?_⟩
    split <;> rfl

theorem extends_named (t : ClassificationTree) (id : Nat) (name : String) :
    t.Extends (t.named id name) where
  hierarchy := rfl
  uid := rfl
  node {i n} h := by
    rw [getElem?_named, h]
    refine ⟨_, rfl, ?_⟩
    split <;> rfl

/-! ## Well-formed trees -/

/-- Parents stand before their children, and a parent's children are the nodes that name it. -/
structure WellFormed (t : ClassificationTree) : Prop where
  parent_lt : ∀ {id p : Nat} {n : ClassificationNode}, t.nodes[id]? = some n →
    n.parent = some p → p < id
  mem_childrenOf : ∀ {id : Nat} {p : Option Nat},
    id ∈ t.childrenOf p ↔ ∃ n, t.nodes[id]? = some n ∧ n.parent = p

theorem wellFormed_new (hierarchy : Hierarchy) (uid : String) :
    WellFormed { hierarchy, uid } where
  parent_lt h := by simp at h
  mem_childrenOf {id p} := by cases p <;> simp [childrenOf]

theorem wellFormed_append {t : ClassificationTree} {parent : Option Nat}
    {node : ClassificationNode} (h : t.WellFormed) (valid : ∀ p, parent = some p → p < t.size) :
    (t.append parent node).WellFormed where
  parent_lt {id p n} hn hp := by
    rcases Nat.lt_trichotomy id t.size with hlt | rfl | hgt
    · obtain ⟨m, hm⟩ := getElem?_of_lt_size hlt
      obtain ⟨n', hn', same⟩ := (extends_append t parent node).node hm
      obtain rfl : n' = n := Option.some.inj (hn'.symm.trans hn)
      rw [same] at hp
      exact h.parent_lt hm hp
    · rw [getElem?_append_size valid, Option.some.injEq] at hn
      subst hn
      exact valid p hp
    · have bound := lt_size_of_getElem? hn
      rw [size_append] at bound
      omega
  mem_childrenOf {id p} := by
    rw [childrenOf_append valid, List.mem_append, h.mem_childrenOf]
    rcases Nat.lt_trichotomy id t.size with hlt | rfl | hgt
    · obtain ⟨m, hm⟩ := getElem?_of_lt_size hlt
      obtain ⟨n', hn', same⟩ := (extends_append t parent node).node hm
      have hparent : n'.parent = m.parent := by rw [same]
      have old : id ∉ (if p = parent then [t.size] else []) := by
        split <;> simp [Nat.ne_of_lt hlt]
      simp [hm, hn', hparent, old]
    · have absent : t.nodes[t.size]? = none := by simp [size]
      rw [getElem?_append_size valid]
      by_cases hp : p = parent
      · simp [absent, hp]
      · simp [absent, hp, Ne.symm hp]
    · have absent : t.nodes[id]? = none := by
        rw [Array.getElem?_eq_none_iff]
        exact Nat.le_of_lt hgt
      have absent' : (t.append parent node).nodes[id]? = none := by
        have bound := size_append t parent node
        rw [Array.getElem?_eq_none_iff]
        simp only [size] at bound hgt ⊢
        omega
      have old : id ∉ (if p = parent then [t.size] else []) := by
        split <;> simp [Nat.ne_of_gt hgt]
      simp [absent, absent', old]

theorem wellFormed_named {t : ClassificationTree} (h : t.WellFormed) (id : Nat) (name : String) :
    (t.named id name).WellFormed := by
  have look {i : Nat} {n : ClassificationNode} (hn : (t.named id name).nodes[i]? = some n) :
      ∃ m, t.nodes[i]? = some m ∧ n.parent = m.parent := by
    rw [getElem?_named] at hn
    obtain ⟨m, hm, rfl⟩ := Option.map_eq_some_iff.mp hn
    exact ⟨m, hm, by split <;> rfl⟩
  constructor
  · intro i p n hn hp
    obtain ⟨m, hm, same⟩ := look hn
    exact h.parent_lt hm (same ▸ hp)
  · intro i p
    rw [childrenOf_named, h.mem_childrenOf]
    constructor
    · rintro ⟨m, hm, hp⟩
      obtain ⟨n, hn, same⟩ := (extends_named t id name).node hm
      exact ⟨n, hn, by rw [same]; exact hp⟩
    · rintro ⟨n, hn, hp⟩
      obtain ⟨m, hm, same⟩ := look hn
      exact ⟨m, hm, same ▸ hp⟩

theorem mem_childrenOf_parent? {t : ClassificationTree} (h : t.WellFormed) {id : Nat}
    (hid : id < t.size) : id ∈ t.childrenOf (t.parent? id) := by
  obtain ⟨n, hn⟩ := getElem?_of_lt_size hid
  exact h.mem_childrenOf.mpr ⟨n, hn, by simp [parent?, hn]⟩

/-! ## The way up -/

/-- Steps beyond the number of the first node change nothing. -/
theorem climb_enough {t : ClassificationTree} (h : t.WellFormed) {start : Option Nat} {m k : Nat}
    (hm : ∀ p, start = some p → p < m) (hk : ∀ p, start = some p → p < k) :
    t.climb m start = t.climb k start := by
  induction m generalizing start k with
  | zero =>
    cases start with
    | none => cases k <;> rfl
    | some p => exact absurd (hm p rfl) (Nat.not_lt_zero p)
  | succ m ih =>
    cases start with
    | none => cases k <;> rfl
    | some p =>
      obtain ⟨k, rfl⟩ : ∃ j, k = j + 1 := ⟨k - 1, by have := hk p rfl; omega⟩
      have below (q : Nat) (hq : t.nodes[p]?.bind (·.parent) = some q) : q < p := by
        obtain ⟨n, hn, hq⟩ := Option.bind_eq_some_iff.mp hq
        exact h.parent_lt hn hq
      have hpm := hm p rfl
      have hpk := hk p rfl
      simp only [climb, List.cons.injEq, true_and]
      exact ih (fun q hq => by have := below q hq; omega) (fun q hq => by have := below q hq; omega)

/-- The way up from a node is the same in every larger tree. -/
theorem climb_extends {t t' : ClassificationTree} (h : t.WellFormed) (e : t.Extends t')
    {start : Option Nat} (hstart : ∀ p, start = some p → p < t.size) (steps : Nat) :
    t'.climb steps start = t.climb steps start := by
  induction steps generalizing start with
  | zero => cases start <;> rfl
  | succ steps ih =>
    cases start with
    | none => rfl
    | some p =>
      obtain ⟨n, hn⟩ := getElem?_of_lt_size (hstart p rfl)
      obtain ⟨n', hn', same⟩ := e.node hn
      have hparent : n'.parent = n.parent := by rw [same]
      simp only [climb, hn, hn', Option.bind_some, hparent, List.cons.injEq, true_and]
      exact ih fun q hq => Nat.lt_trans (h.parent_lt hn hq) (hstart p rfl)

theorem parent?_extends {t t' : ClassificationTree} (e : t.Extends t') {id : Nat}
    (hid : id < t.size) : t'.parent? id = t.parent? id := by
  obtain ⟨n, hn⟩ := getElem?_of_lt_size hid
  obtain ⟨n', hn', same⟩ := e.node hn
  rw [parent?, parent?, hn, hn', Option.bind_some, Option.bind_some, same]

theorem Extends.size_le {t t' : ClassificationTree} (e : t.Extends t') : t.size ≤ t'.size := by
  apply Nat.le_of_not_lt
  intro hlt
  obtain ⟨n, hn⟩ := getElem?_of_lt_size hlt
  obtain ⟨n', hn', -⟩ := e.node hn
  exact Nat.lt_irrefl _ (lt_size_of_getElem? hn')

theorem parent?_lt {t : ClassificationTree} (h : t.WellFormed) {id p : Nat}
    (hp : t.parent? id = some p) : p < id ∧ id < t.size := by
  obtain ⟨n, hn, hparent⟩ := Option.bind_eq_some_iff.mp hp
  exact ⟨h.parent_lt hn hparent, lt_size_of_getElem? hn⟩

/-- Nodes attached later do not alter the ancestors of a node. -/
theorem ancestors_extends {t t' : ClassificationTree} (h : t.WellFormed) (h' : t'.WellFormed)
    (e : t.Extends t') {id : Nat} (hid : id < t.size) : t'.ancestors id = t.ancestors id := by
  have above (p : Nat) (hp : t.parent? id = some p) : p < t.size :=
    Nat.lt_trans (parent?_lt h hp).1 hid
  change t'.climb t'.size (t'.parent? id) = t.climb t.size (t.parent? id)
  rw [parent?_extends e hid, ← climb_extends h e above t.size]
  exact climb_enough h' (fun p hp => Nat.lt_of_lt_of_le (above p hp) e.size_le) above

theorem mem_climb_lt {t : ClassificationTree} (h : t.WellFormed) {start : Option Nat}
    {bound steps : Nat} (hstart : ∀ p, start = some p → p < bound) :
    ∀ a ∈ t.climb steps start, a < bound := by
  induction steps generalizing start with
  | zero => cases start <;> simp [climb]
  | succ steps ih =>
    cases start with
    | none => simp [climb]
    | some p =>
      intro a ha
      rcases List.mem_cons.mp ha with rfl | ha
      · exact hstart a rfl
      · refine ih ?_ a ha
        intro q hq
        obtain ⟨n, hn, hq⟩ := Option.bind_eq_some_iff.mp hq
        exact Nat.lt_trans (h.parent_lt hn hq) (hstart p rfl)

theorem ancestors_lt {t : ClassificationTree} (h : t.WellFormed) {id a : Nat}
    (ha : a ∈ t.ancestors id) : a < id :=
  mem_climb_lt h (fun _ hp => (parent?_lt h hp).1) a ha

end EnumRegistry.ClassificationTree
