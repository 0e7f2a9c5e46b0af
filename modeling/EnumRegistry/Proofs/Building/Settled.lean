import EnumRegistry.Building.TreeFrame
import EnumRegistry.Classification.Path
import EnumRegistry.Proofs.Classification.Tree
import EnumRegistry.Proofs.Name.Scope

/-!
The names in a tree that is being assembled. Nodes wait for their names from the opening of their
element to its end; the children of a node that wait for none are named as if their base names had
been claimed one after the other, and nothing else is in their scope.
-/

namespace EnumRegistry

namespace ClassificationTree

/-- The lookup table of a path segment, given the code of the segment above it. -/
def tableAt (hierarchy : Hierarchy) (level : Level) (above : Option Int) : LookupTable :=
  match hierarchy, level with
  | _, .country => .country
  | .entityTypes, .kind => .entityKind
  | _, .kind => .objectKind
  | .entityTypes, .domain => .domainOf (above.getD 0)
  | _, _ => .platformDomain

/-- What a path segment is called: its label, or its level and code. -/
def segmentBase (types : TypeTable) (table : LookupTable) (level : Level) (code : Int) : String :=
  (types.label? table code).getD (level.label ++ toString code)

/-- What a node is called before its siblings are looked at. -/
def baseName (t : NameTables) (tree : ClassificationTree) (id : Nat) : String :=
  match tree.nodes[id]? with
  | none => ""
  | some n =>
    if n.level.isPathOnly then
      segmentBase t.types (tableAt tree.hierarchy n.level (n.parent.map tree.code)) n.level n.value
    else
      (t.overrides.specialCase? tree.uid n.description).getD
        (Name.compose (Name.normalize n.description) (TreeFrame.ancestry tree id))

theorem code_extends {t t' : ClassificationTree} (e : t.Extends t') {id : Nat}
    (hid : id < t.size) : t'.code id = t.code id := by
  obtain ⟨n, hn⟩ := getElem?_of_lt_size hid
  obtain ⟨n', hn', same⟩ := e.node hn
  rw [code, code, hn, hn', Option.map_some, Option.map_some, same]

theorem map_code_extends {t t' : ClassificationTree} (e : t.Extends t') {parent : Option Nat}
    (valid : ∀ p, parent = some p → p < t.size) : parent.map t'.code = parent.map t.code := by
  cases parent with
  | none => rfl
  | some p => simp only [Option.map_some, code_extends e (valid p rfl)]

theorem ancestry_extends {t t' : ClassificationTree} (h : t.WellFormed) (h' : t'.WellFormed)
    (e : t.Extends t') {id : Nat} (hid : id < t.size) :
    TreeFrame.ancestry t' id = TreeFrame.ancestry t id := by
  rw [TreeFrame.ancestry, TreeFrame.ancestry, ancestors_extends h h' e hid]
  apply List.filterMap_congr
  intro a ha
  obtain ⟨n, hn⟩ := getElem?_of_lt_size (Nat.lt_trans (ancestors_lt h ha) hid)
  obtain ⟨n', hn', same⟩ := e.node hn
  rw [hn, hn', Option.map_some, Option.map_some, same]

/-- What a node is called depends on what was there when it was attached. -/
theorem baseName_extends {t : NameTables} {tree tree' : ClassificationTree} (h : tree.WellFormed)
    (h' : tree'.WellFormed) (e : tree.Extends tree') {id : Nat} (hid : id < tree.size) :
    baseName t tree' id = baseName t tree id := by
  obtain ⟨n, hn⟩ := getElem?_of_lt_size hid
  obtain ⟨n', hn', same⟩ := e.node hn
  have codes : n.parent.map tree'.code = n.parent.map tree.code :=
    map_code_extends e fun p hp => Nat.lt_trans (h.parent_lt hn hp) hid
  have level : n'.level = n.level := by rw [same]
  have value : n'.value = n.value := by rw [same]
  have description : n'.description = n.description := by rw [same]
  have parent : n'.parent = n.parent := by rw [same]
  simp only [baseName, hn, hn', level, value, description, parent, e.hierarchy, e.uid, codes,
    ancestry_extends h h' e hid]

theorem lt_size_of_mem_childrenOf {t : ClassificationTree} (h : t.WellFormed) {id : Nat}
    {p : Option Nat} (hid : id ∈ t.childrenOf p) : id < t.size := by
  obtain ⟨n, hn, -⟩ := h.mem_childrenOf.mp hid
  exact lt_size_of_getElem? hn

/-- The names of all children are those that their base names claim in an empty scope. -/
def NamedInOrder (t : NameTables) (tree : ClassificationTree) (p : Option Nat) : Prop :=
  ∃ names scope, NameScope.claimAll {} ((tree.childrenOf p).map (baseName t tree)) =
    .ok (names, scope) ∧ (tree.childrenOf p).map tree.name? = names.map some

/-- The names given so far, the scopes they were claimed in, and the nodes that wait for theirs. -/
structure Settled (t : NameTables) (tree : ClassificationTree) (scope : Option Nat → NameScope)
    (pending : List Nat) : Prop where
  wellFormed : tree.WellFormed
  nodup : pending.Nodup
  pending_lt : ∀ id ∈ pending, id < tree.size
  unnamed : ∀ {id : Nat}, id < tree.size → (tree.name? id = none ↔ id ∈ pending)
  inOrder : ∀ p, ∃ kids names,
    tree.childrenOf p = kids ++ pending.filter (fun id => tree.parent? id == p) ∧
    NameScope.claimAll {} (kids.map (baseName t tree)) = .ok (names, scope p) ∧
    kids.map tree.name? = names.map some

theorem settled_new (t : NameTables) (hierarchy : Hierarchy) (uid : String)
    {scope : Option Nat → NameScope} (fresh : ∀ p, scope p = {}) :
    Settled t { hierarchy, uid } scope [] where
  wellFormed := wellFormed_new hierarchy uid
  nodup := .nil
  pending_lt := by simp
  unnamed h := absurd h (Nat.not_lt_zero _)
  inOrder p := by
    refine ⟨[], [], ?_, ?_, rfl⟩
    · cases p <;> simp [childrenOf]
    · rw [fresh p]; rfl

theorem Settled.namedInOrder {t : NameTables} {tree : ClassificationTree}
    {scope : Option Nat → NameScope} (h : Settled t tree scope []) (p : Option Nat) :
    NamedInOrder t tree p := by
  obtain ⟨kids, names, hkids, hclaims, hnames⟩ := h.inOrder p
  rw [List.filter_nil, List.append_nil] at hkids
  exact ⟨names, scope p, hkids ▸ hclaims, hkids ▸ hnames⟩

/-- A node is attached where no sibling waits for its name. -/
theorem Settled.append {t : NameTables} {tree : ClassificationTree}
    {scope : Option Nat → NameScope} {pending : List Nat} (h : Settled t tree scope pending)
    {parent : Option Nat} (node : ClassificationNode) (valid : ∀ p, parent = some p → p < tree.size)
    (clear : ∀ q ∈ pending, tree.parent? q ≠ parent) :
    Settled t (tree.append parent node) scope (tree.size :: pending) where
  wellFormed := wellFormed_append h.wellFormed valid
  nodup := List.nodup_cons.mpr ⟨fun hmem => Nat.lt_irrefl _ (h.pending_lt _ hmem), h.nodup⟩
  pending_lt id hid := by
    rw [size_append]
    rcases List.mem_cons.mp hid with rfl | hid
    · exact Nat.lt_succ_self _
    · exact Nat.lt_succ_of_lt (h.pending_lt id hid)
  unnamed {id} hid := by
    rw [size_append] at hid
    rcases Nat.lt_or_eq_of_le (Nat.le_of_lt_succ hid) with hlt | rfl
    · rw [name?_append_of_lt hlt, h.unnamed hlt, List.mem_cons]
      exact ⟨.inr, fun hmem => hmem.resolve_left (Nat.ne_of_lt hlt)⟩
    · simp [name?, getElem?_append_size valid]
  inOrder p := by
    obtain ⟨kids, names, hkids, hclaims, hnames⟩ := h.inOrder p
    have inside {k : Nat} (hk : k ∈ kids) : k < tree.size :=
      lt_size_of_mem_childrenOf h.wellFormed (p := p) (hkids ▸ List.mem_append_left _ hk)
    have larger := extends_append tree parent node
    have bases : kids.map (baseName t (tree.append parent node)) = kids.map (baseName t tree) :=
      List.map_congr_left fun k hk =>
        baseName_extends h.wellFormed (wellFormed_append h.wellFormed valid) larger (inside hk)
    have named : kids.map (tree.append parent node).name? = kids.map tree.name? :=
      List.map_congr_left fun k hk => name?_append_of_lt (inside hk)
    have waiting : pending.filter (fun id => (tree.append parent node).parent? id == p) =
        pending.filter (fun id => tree.parent? id == p) :=
      List.filter_congr fun q hq => by rw [parent?_extends larger (h.pending_lt q hq)]
    have new : (tree.append parent node).parent? tree.size = parent := by
      simp [parent?, getElem?_append_size valid]
    refine ⟨kids, names, ?_, bases ▸ hclaims, named ▸ hnames⟩
    rw [childrenOf_append valid, hkids, List.filter_cons, new, waiting]
    by_cases same : p = parent
    · have none : pending.filter (fun id => tree.parent? id == p) = [] := by
        rw [List.filter_eq_nil_iff]
        intro q hq
        simpa [same] using clear q hq
      simp [same, same ▸ none]
    · simp [same, Ne.symm same]

/-- The innermost waiting node is named among its siblings. -/
theorem Settled.named {t : NameTables} {tree : ClassificationTree}
    {scope : Option Nat → NameScope} {pending : List Nat} {id : Nat}
    (h : Settled t tree scope (id :: pending)) {name : String} {taken : NameScope}
    (claimed : (scope (tree.parent? id)).claim (baseName t tree id) = .ok (name, taken)) :
    Settled t (tree.named id name)
      (fun p => if tree.parent? id = p then taken else scope p) pending := by
  have hid : id < tree.size := h.pending_lt id (List.mem_cons_self ..)
  have wellFormed := wellFormed_named h.wellFormed id name
  have larger := extends_named tree id name
  obtain ⟨outside, nodup⟩ := List.nodup_cons.mp h.nodup
  refine ⟨wellFormed, nodup, ?_, ?_, ?_⟩
  · intro q hq
    rw [size_named]
    exact h.pending_lt q (List.mem_cons_of_mem _ hq)
  · intro i hi
    rw [size_named] at hi
    rw [name?_named hid]
    split
    · rename_i same
      simpa using same ▸ outside
    · rename_i other
      rw [h.unnamed hi, List.mem_cons]
      exact ⟨fun hmem => hmem.resolve_left (Ne.symm other), .inr⟩
  · intro p
    obtain ⟨kids, names, hkids, hclaims, hnames⟩ := h.inOrder p
    have inside {k : Nat} (hk : k ∈ kids) : k < tree.size :=
      lt_size_of_mem_childrenOf h.wellFormed (p := p) (hkids ▸ List.mem_append_left _ hk)
    have base {k : Nat} (hk : k < tree.size) :
        baseName t (tree.named id name) k = baseName t tree k :=
      baseName_extends h.wellFormed wellFormed larger hk
    have bases : kids.map (baseName t (tree.named id name)) = kids.map (baseName t tree) :=
      List.map_congr_left fun k hk => base (inside hk)
    -- A named node is not the one that waits.
    have apart {k : Nat} (hk : k ∈ kids) : id ≠ k := by
      rintro rfl
      have given : tree.name? id ∈ names.map some := hnames ▸ List.mem_map_of_mem hk
      rw [(h.unnamed hid).mpr (List.mem_cons_self ..)] at given
      simp at given
    have given : kids.map (tree.named id name).name? = kids.map tree.name? :=
      List.map_congr_left fun k hk => by rw [name?_named hid, if_neg (apart hk)]
    have waiting : pending.filter (fun q => (tree.named id name).parent? q == p) =
        pending.filter (fun q => tree.parent? q == p) :=
      List.filter_congr fun q hq => by
        rw [parent?_extends larger (h.pending_lt q (List.mem_cons_of_mem _ hq))]
    rw [List.filter_cons] at hkids
    by_cases here : tree.parent? id = p
    · refine ⟨kids ++ [id], names ++ [name], ?_, ?_, ?_⟩
      · rw [childrenOf_named, waiting, hkids]
        simp [here]
      · rw [List.map_append, bases, List.map_singleton, base hid, if_pos here]
        exact NameScope.claimAll_concat hclaims (here ▸ claimed)
      · rw [List.map_append, given, hnames, List.map_append, List.map_singleton,
          List.map_singleton, name?_named hid, if_pos rfl]
    · refine ⟨kids, names, ?_, ?_, given ▸ hnames⟩
      · rw [childrenOf_named, waiting, hkids]
        simp [here]
      · rw [bases, if_neg here]
        exact hclaims

end ClassificationTree

end EnumRegistry
