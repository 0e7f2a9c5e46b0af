import EnumRegistry.Proofs.Building.Growth
import Mathlib.Data.List.Nodup

/-!
Codes in a tree that grows. The nodes that only give a path segment never share parent and code, so
the codes on the way down tell them apart; and the path of an element leads to the node with the
element's codes, whether its nodes were found or made.
-/

namespace EnumRegistry

/-- The level that the paths of a hierarchy start with. -/
def Hierarchy.rootLevel : Hierarchy → Level
  | entityTypes => .country
  | objectTypes => .kind
  | jammerTechniques => .jammerKind

theorem Level.isPathOnly_of_accepts {parent child : Level} (accepted : parent.accepts child = true)
    (path : child.isPathOnly = true) : parent.isPathOnly = true := by
  revert accepted path
  cases parent <;> cases child <;> decide

theorem Level.eq_of_accepts {parent first second : Level}
    (accepted : parent.accepts first = true) (accepted' : parent.accepts second = true) :
    first = second := by
  simp only [accepts, beq_iff_eq] at accepted accepted'
  exact Option.some.inj (accepted.symm.trans accepted')

namespace ClassificationTree

variable {t t' : ClassificationTree}

/-! ## The way down -/

/-- The way from the root down to a node, or nothing above the roots. -/
def trailTo (t : ClassificationTree) : Option Nat → List Nat
  | none => []
  | some id => t.trail id

/-- The codes from the root down to a node, or nothing above the roots. -/
def codesTo (t : ClassificationTree) : Option Nat → List Int
  | none => []
  | some id => t.codes id

theorem map_code_trailTo (t : ClassificationTree) (id : Option Nat) :
    (t.trailTo id).map t.code = t.codesTo id := by
  cases id <;> rfl

/-- The way to a node is the way to its parent and one step. -/
theorem trail_eq (h : t.WellFormed) {id : Nat} {n : ClassificationNode}
    (hn : t.nodes[id]? = some n) : t.trail id = t.trailTo n.parent ++ [id] := by
  have above : t.ancestors id = t.climb t.size n.parent := by rw [ancestors, hn, Option.bind_some]
  rw [trail, List.reverse_cons, above]
  congr 1
  cases hp : n.parent with
  | none => cases t.size <;> rfl
  | some p =>
    have below := h.parent_lt hn hp
    have bound := lt_size_of_getElem? hn
    obtain ⟨k, hk⟩ : ∃ k, t.size = k + 1 := ⟨t.size - 1, by omega⟩
    have higher (q : Nat) (hq : t.nodes[p]?.bind (·.parent) = some q) : q < p :=
      (parent?_lt h hq).1
    have rest : t.climb k (t.nodes[p]?.bind (·.parent)) = t.ancestors p := by
      apply climb_enough h <;> intro q hq <;> have := higher q hq <;> omega
    rw [trailTo, trail, hk, climb, rest]

theorem codes_eq (h : t.WellFormed) {id : Nat} {n : ClassificationNode}
    (hn : t.nodes[id]? = some n) : t.codes id = t.codesTo n.parent ++ [n.value] := by
  rw [codes, trail_eq h hn, List.map_append, map_code_trailTo, List.map_singleton, code, hn,
    Option.map_some, Option.getD_some]

theorem codes_ne_nil (t : ClassificationTree) (id : Nat) : t.codes id ≠ [] := by
  simp [codes, trail]

theorem trail_extends (h : t.WellFormed) (h' : t'.WellFormed) (e : t.Extends t') {id : Nat}
    (hid : id < t.size) : t'.trail id = t.trail id := by
  rw [trail, trail, ancestors_extends h h' e hid]

theorem trailTo_extends (h : t.WellFormed) (h' : t'.WellFormed) (e : t.Extends t')
    {id : Option Nat} (hid : ∀ p, id = some p → p < t.size) : t'.trailTo id = t.trailTo id := by
  cases id with
  | none => rfl
  | some p => exact trail_extends h h' e (hid p rfl)

theorem mem_trail_le (h : t.WellFormed) {id a : Nat} (ha : a ∈ t.trail id) : a ≤ id := by
  rcases List.mem_cons.mp (List.mem_reverse.mp ha) with rfl | above
  · exact Nat.le_refl a
  · exact Nat.le_of_lt (ancestors_lt h above)

theorem codes_extends (h : t.WellFormed) (h' : t'.WellFormed) (e : t.Extends t') {id : Nat}
    (hid : id < t.size) : t'.codes id = t.codes id := by
  rw [codes, codes, trail_extends h h' e hid]
  apply List.map_congr_left
  intro a ha
  exact code_extends e (Nat.lt_of_le_of_lt (mem_trail_le h ha) hid)

theorem codesTo_extends (h : t.WellFormed) (h' : t'.WellFormed) (e : t.Extends t')
    {id : Option Nat} (hid : ∀ p, id = some p → p < t.size) : t'.codesTo id = t.codesTo id := by
  cases id with
  | none => rfl
  | some p => exact codes_extends h h' e (hid p rfl)

/-- The way to a node on the way to another is the beginning of the other way. -/
theorem trail_of_getElem? (h : t.WellFormed) {id a k : Nat} (hid : id < t.size)
    (ha : (t.trail id)[k]? = some a) : t.trail a = (t.trail id).take (k + 1) := by
  induction id using Nat.strongRecOn with
  | ind id ih =>
    obtain ⟨n, hn⟩ := getElem?_of_lt_size hid
    rw [trail_eq h hn] at ha ⊢
    rcases Nat.lt_or_ge k (t.trailTo n.parent).length with inside | outside
    · rw [List.getElem?_append_left inside] at ha
      rw [List.take_append_of_le_length inside]
      cases hp : n.parent with
      | none => simp [hp, trailTo] at ha
      | some p =>
        have below := h.parent_lt hn hp
        rw [hp] at ha
        exact ih p below (Nat.lt_trans below hid) ha
    · rw [List.getElem?_append_right outside, List.getElem?_singleton] at ha
      split at ha
      · cases ha
        rw [trail_eq h hn, List.take_of_length_le (by simp; omega)]
      · cases ha

/-! ## Path segments -/

/-- Whether a node only gives a path segment. -/
def isPath (t : ClassificationTree) (id : Nat) : Bool := t.nodes[id]?.any (·.level.isPathOnly)

/-- The nodes with a symbol of their own, in order of attachment. -/
def symbolNodes (t : ClassificationTree) : List Nat :=
  (List.range t.size).filter fun id => !t.isPath id

theorem isPath_eq {id : Nat} {n : ClassificationNode} (hn : t.nodes[id]? = some n) :
    t.isPath id = n.level.isPathOnly := by
  rw [isPath, hn, Option.any_some]

theorem lt_size_of_isPath {id : Nat} (path : t.isPath id = true) : id < t.size := by
  obtain ⟨n, hn, -⟩ := (Option.any_eq_true _ _).mp path
  exact lt_size_of_getElem? hn

theorem isPath_extends (e : t.Extends t') {id : Nat} (hid : id < t.size) :
    t'.isPath id = t.isPath id := by
  obtain ⟨n, hn⟩ := getElem?_of_lt_size hid
  obtain ⟨n', hn', same⟩ := e.node hn
  rw [isPath_eq hn, isPath_eq hn', same]

/-- A node of the larger tree that the smaller one has is there with the same parent and level. -/
theorem Extends.back (e : t.Extends t') {id : Nat} {n' : ClassificationNode}
    (hid : id < t.size) (hn' : t'.nodes[id]? = some n') :
    ∃ n, t.nodes[id]? = some n ∧ n'.parent = n.parent ∧ n'.level = n.level := by
  obtain ⟨n, hn⟩ := getElem?_of_lt_size hid
  obtain ⟨m, hm, same⟩ := e.node hn
  obtain rfl := Option.some.inj (hm.symm.trans hn')
  exact ⟨n, hn, by rw [same], by rw [same]⟩

/-- Levels stand where they may, and path segments with one parent differ in their codes. -/
structure Pathed (t : ClassificationTree) : Prop where
  accepts : ∀ {id p : Nat} {n m : ClassificationNode}, t.nodes[id]? = some n →
    n.parent = some p → t.nodes[p]? = some m → m.level.accepts n.level = true
  roots : ∀ {id : Nat} {n : ClassificationNode}, t.nodes[id]? = some n → n.parent = none →
    n.level.isPathOnly = true → n.level = t.hierarchy.rootLevel
  apart : ∀ parent, (((t.childrenOf parent).filter t.isPath).map t.code).Nodup

theorem pathed_new (hierarchy : Hierarchy) (uid : String) : Pathed { hierarchy, uid } where
  accepts h := by simp at h
  roots h := by simp at h
  apart parent := by cases parent <;> simp [childrenOf]

/-- What segments are among the old children, and what codes they have, does not change. -/
theorem segments_extends (h : t.WellFormed) (e : t.Extends t') (parent : Option Nat) :
    ((t.childrenOf parent).filter t'.isPath).map t'.code =
      ((t.childrenOf parent).filter t.isPath).map t.code := by
  have old (id : Nat) (hid : id ∈ t.childrenOf parent) : id < t.size :=
    lt_size_of_mem_childrenOf h hid
  rw [List.filter_congr fun id hid => isPath_extends e (old id hid)]
  apply List.map_congr_left
  intro id hid
  exact code_extends e (old id (List.mem_filter.mp hid).1)

theorem Pathed.named (pathed : t.Pathed) (h : t.WellFormed) (id : Nat) (name : String) :
    (t.named id name).Pathed := by
  have larger := extends_named t id name
  have inside {i : Nat} {n : ClassificationNode} (hn : (t.named id name).nodes[i]? = some n) :
      i < t.size := size_named t id name ▸ lt_size_of_getElem? hn
  constructor
  · intro i p n m hn hp hm
    obtain ⟨n', hn', parent, level⟩ := larger.back (inside hn) hn
    obtain ⟨m', hm', -, level'⟩ := larger.back (inside hm) hm
    rw [level, level']
    exact pathed.accepts hn' (parent ▸ hp) hm'
  · intro i n hn hp path
    obtain ⟨n', hn', parent, level⟩ := larger.back (inside hn) hn
    rw [level] at path ⊢
    exact pathed.roots hn' (parent ▸ hp) path
  · intro parent
    rw [childrenOf_named, segments_extends h larger]
    exact pathed.apart parent

/-- A code that no child of a segment's level has is new among the segments. -/
theorem Pathed.fresh (pathed : t.Pathed) (h : t.WellFormed) {parent : Option Nat} {level : Level}
    {value : Int} (admitted : admits (parent.bind fun p => t.nodes[p]?.map (·.level)) level = true)
    (valid : ∀ p, parent = some p → p < t.size)
    (root : parent = none → level = t.hierarchy.rootLevel)
    (absent : t.findChild? parent level value = none) :
    value ∉ ((t.childrenOf parent).filter t.isPath).map t.code := by
  intro hmem
  obtain ⟨id, hid, code_eq⟩ := List.mem_map.mp hmem
  obtain ⟨child, path⟩ := List.mem_filter.mp hid
  obtain ⟨n, hn, hparent⟩ := h.mem_childrenOf.mp child
  rw [isPath_eq hn] at path
  have same : n.level = level := by
    cases parent with
    | none => exact (pathed.roots hn hparent path).trans (root rfl).symm
    | some p =>
      obtain ⟨m, hm⟩ := getElem?_of_lt_size (valid p rfl)
      simp only [Option.bind_some, hm, Option.map_some, admits] at admitted
      exact Level.eq_of_accepts (pathed.accepts hn hparent hm) admitted
  have hvalue : n.value = value := by simpa [code, hn] using code_eq
  have fit : t.fits level value id = true := by simp [fits, hn, same, hvalue]
  rw [findChild?_eq, List.find?_eq_none] at absent
  exact absent id child fit

theorem Pathed.append (pathed : t.Pathed) (h : t.WellFormed) {parent : Option Nat}
    (node : ClassificationNode) (valid : ∀ p, parent = some p → p < t.size)
    (admitted : admits (parent.bind fun p => t.nodes[p]?.map (·.level)) node.level = true)
    (segment : node.level.isPathOnly = true → (parent = none → node.level = t.hierarchy.rootLevel) ∧
      t.findChild? parent node.level node.value = none) : (t.append parent node).Pathed := by
  have larger := extends_append t parent node
  have new : (t.append parent node).nodes[t.size]? =
      some { node with parent, name := none, children := [] } := getElem?_append_size valid
  have place {i : Nat} {n : ClassificationNode}
      (hn : (t.append parent node).nodes[i]? = some n) : i < t.size ∨ i = t.size := by
    have bound := lt_size_of_getElem? hn
    rw [size_append] at bound
    omega
  constructor
  · intro i p n m hn hp hm
    rcases place hn with old | rfl
    · obtain ⟨n', hn', same, level⟩ := larger.back old hn
      rw [same] at hp
      obtain ⟨m', hm', -, level'⟩ := larger.back (Nat.lt_trans (h.parent_lt hn' hp) old) hm
      rw [level, level']
      exact pathed.accepts hn' hp hm'
    · obtain rfl := Option.some.inj (new.symm.trans hn)
      change parent = some p at hp
      obtain ⟨m', hm', -, level⟩ := larger.back (valid p hp) hm
      simpa [hp, hm', admits, level] using admitted
  · intro i n hn hp path
    rw [larger.hierarchy]
    rcases place hn with old | rfl
    · obtain ⟨n', hn', same, level⟩ := larger.back old hn
      rw [level] at path ⊢
      exact pathed.roots hn' (same ▸ hp) path
    · obtain rfl := Option.some.inj (new.symm.trans hn)
      exact (segment path).1 hp
  · intro p
    rw [childrenOf_append valid, List.filter_append, List.map_append, segments_extends h larger]
    refine List.nodup_append'.mpr ⟨pathed.apart p, ?_, ?_⟩
    · split
      · exact (List.nodup_singleton _).filter _ |>.map_on (by simp)
      · exact List.nodup_nil
    · split
      · rename_i same
        subst same
        intro c old hnew
        obtain ⟨id, hid, rfl⟩ := List.mem_map.mp hnew
        obtain ⟨rfl, path⟩ : id = t.size ∧ (t.append p node).isPath id = true := by
          simpa using hid
        rw [isPath_eq new] at path
        obtain ⟨root, absent⟩ := segment path
        have value : (t.append p node).code t.size = node.value := by simp [code, new]
        exact pathed.fresh h admitted valid root absent (value ▸ old)
      · simp

/-- Path segments are told apart by the codes on the way down to them. -/
theorem Pathed.eq_of_codes (pathed : t.Pathed) (h : t.WellFormed) {a b : Nat}
    (ha : t.isPath a = true) (hb : t.isPath b = true) (same : t.codes a = t.codes b) : a = b := by
  induction a using Nat.strongRecOn generalizing b with
  | ind a ih =>
    obtain ⟨n, hn⟩ := getElem?_of_lt_size (lt_size_of_isPath ha)
    obtain ⟨m, hm⟩ := getElem?_of_lt_size (lt_size_of_isPath hb)
    rw [codes_eq h hn, codes_eq h hm] at same
    obtain ⟨above, value⟩ := List.append_inj' same rfl
    have parents : n.parent = m.parent := by
      cases hp : n.parent with
      | none =>
        cases hq : m.parent with
        | none => rfl
        | some q =>
          rw [hp, hq] at above
          exact absurd above.symm (codes_ne_nil t q)
      | some p =>
        cases hq : m.parent with
        | none =>
          rw [hp, hq] at above
          exact absurd above (codes_ne_nil t p)
        | some q =>
          rw [hp, hq] at above
          have below := h.parent_lt hn hp
          obtain ⟨n', hn'⟩ := getElem?_of_lt_size (Nat.lt_trans below (lt_size_of_isPath ha))
          obtain ⟨m', hm'⟩ :=
            getElem?_of_lt_size (Nat.lt_trans (h.parent_lt hm hq) (lt_size_of_isPath hb))
          rw [isPath_eq hn] at ha
          rw [isPath_eq hm] at hb
          have path : t.isPath p = true := isPath_eq hn' ▸
            Level.isPathOnly_of_accepts (pathed.accepts hn hp hn') ha
          have path' : t.isPath q = true := isPath_eq hm' ▸
            Level.isPathOnly_of_accepts (pathed.accepts hm hq hm') hb
          rw [ih p below path path' above]
    have first : a ∈ (t.childrenOf n.parent).filter t.isPath :=
      List.mem_filter.mpr ⟨h.mem_childrenOf.mpr ⟨n, hn, rfl⟩, ha⟩
    have second : b ∈ (t.childrenOf n.parent).filter t.isPath :=
      List.mem_filter.mpr ⟨h.mem_childrenOf.mpr ⟨m, hm, parents.symm⟩, hb⟩
    apply List.inj_on_of_nodup_map (pathed.apart n.parent) first second
    simpa [code, hn, hm] using value

/-- Above a path segment there are only path segments. -/
theorem Pathed.isPath_of_mem_trail (pathed : t.Pathed) (h : t.WellFormed) {id a : Nat}
    (path : t.isPath id = true) (ha : a ∈ t.trail id) : t.isPath a = true := by
  induction id using Nat.strongRecOn with
  | ind id ih =>
    obtain ⟨n, hn⟩ := getElem?_of_lt_size (lt_size_of_isPath path)
    rw [trail_eq h hn, List.mem_append, List.mem_singleton] at ha
    rcases ha with above | rfl
    · cases hp : n.parent with
      | none => simp [hp, trailTo] at above
      | some p =>
        have below := h.parent_lt hn hp
        obtain ⟨m, hm⟩ := getElem?_of_lt_size (Nat.lt_trans below (lt_size_of_isPath path))
        rw [isPath_eq hn] at path
        rw [hp] at above
        exact ih p below
          (isPath_eq hm ▸ Level.isPathOnly_of_accepts (pathed.accepts hn hp hm) path) above
    · exact path

/-- Two paths share a node just as far down as their codes agree. -/
theorem Pathed.shared (pathed : t.Pathed) (h : t.WellFormed) {a b k : Nat}
    (ha : t.isPath a = true) (hb : t.isPath b = true) (inside : k < (t.codes a).length)
    (inside' : k < (t.codes b).length) :
    (t.trail a)[k]? = (t.trail b)[k]? ↔ (t.codes a).take (k + 1) = (t.codes b).take (k + 1) := by
  have beginning {id x : Nat} (path : t.isPath id = true) (hx : (t.trail id)[k]? = some x) :
      (t.codes id).take (k + 1) = t.codes x := by
    rw [codes, codes, trail_of_getElem? h (lt_size_of_isPath path) hx, List.map_take]
  obtain ⟨x, hx⟩ : ∃ x, (t.trail a)[k]? = some x :=
    ⟨_, List.getElem?_eq_getElem (by simpa [codes] using inside)⟩
  obtain ⟨y, hy⟩ : ∃ y, (t.trail b)[k]? = some y :=
    ⟨_, List.getElem?_eq_getElem (by simpa [codes] using inside')⟩
  rw [hx, hy, beginning ha hx, beginning hb hy, Option.some.injEq]
  constructor
  · rintro rfl
    rfl
  · intro same
    exact pathed.eq_of_codes h (pathed.isPath_of_mem_trail h ha (List.mem_of_getElem? hx))
      (pathed.isPath_of_mem_trail h hb (List.mem_of_getElem? hy)) same

theorem symbolNodes_append {parent : Option Nat} {node : ClassificationNode}
    (valid : ∀ p, parent = some p → p < t.size) :
    (t.append parent node).symbolNodes =
      t.symbolNodes ++ if node.level.isPathOnly then [] else [t.size] := by
  have old : (List.range t.size).filter (fun id => !(t.append parent node).isPath id) =
      t.symbolNodes := by
    apply List.filter_congr
    intro id hid
    rw [isPath_extends (extends_append t parent node) (List.mem_range.mp hid)]
  rw [symbolNodes, size_append, List.range_succ, List.filter_append, old, List.filter_singleton,
    isPath_eq (getElem?_append_size valid)]
  cases node.level.isPathOnly <;> rfl

theorem symbolNodes_named (t : ClassificationTree) (id : Nat) (name : String) :
    (t.named id name).symbolNodes = t.symbolNodes := by
  rw [symbolNodes, size_named]
  apply List.filter_congr
  intro i hi
  rw [isPath_extends (extends_named t id name) (List.mem_range.mp hi)]

end ClassificationTree

end EnumRegistry
