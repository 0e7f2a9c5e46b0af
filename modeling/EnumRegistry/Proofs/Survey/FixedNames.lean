import EnumRegistry.Proofs.Survey.Declarations

/-!
Names of types that are fixed by hand. A fixed name takes part in the uniqueness of type names like
any other: a UID gets the first spelling of it that no earlier declaration has been given. It gets
the name itself unless a type without a fixed name was given one of the fixed names before.
-/

namespace EnumRegistry

/-- The fixed names of types differ by more than case, and none of them is the name of no text. -/
structure Overrides.NamesApart (o : Overrides) : Prop where
  apart : ∀ {uid other name otherName : String}, o.uidName? uid = some name →
    o.uidName? other = some otherName → lookupKey name = lookupKey otherName → uid = other
  usable : ∀ {uid name : String}, o.uidName? uid = some name → name ≠ Name.undefined

/-- One of some UIDs has a name, case aside. -/
def TypeTable.Holds (t : TypeTable) (uids : List String) (name : String) : Prop :=
  ∃ uid ∈ uids, ∃ given, t.name? uid = some given ∧ lookupKey given = lookupKey name

theorem TypeTable.holds_congr {t t' : TypeTable} {uids : List String}
    (same : ∀ uid ∈ uids, t'.name? uid = t.name? uid) (name : String) :
    t'.Holds uids name ↔ t.Holds uids name := by
  constructor <;> rintro ⟨uid, held, given, named, key⟩
  · exact ⟨uid, held, given, same uid held ▸ named, key⟩
  · exact ⟨uid, held, given, (same uid held).symm ▸ named, key⟩

theorem TypeTable.holds_concat {t : TypeTable} {uids : List String} {uid name : String} :
    t.Holds (uids ++ [uid]) name ↔
      t.Holds uids name ∨ ∃ given, t.name? uid = some given ∧ lookupKey given = lookupKey name := by
  simp only [Holds, List.mem_append, List.mem_singleton, or_and_right, exists_or, exists_eq_left]

namespace Survey

variable {overrides : Overrides} {done : List String} {s s' : Survey}

/-- The scope of types holds the names given so far, and each UID with a fixed name has the first
spelling of it that the UIDs declared before it left free. -/
structure FirstFree (overrides : Overrides) (done : List String) (s : Survey) : Prop where
  taken : ∀ name, s.table.types.contains name = true ↔ s.table.Holds done name
  fixed : ∀ {before after : List String} {uid name : String}, done = before ++ uid :: after →
    uid ∉ before → overrides.uidName? uid = some name → name ≠ Name.undefined →
    ∃ attempt, s.table.name? uid = some (NameScope.spelling name attempt) ∧
      ¬ s.table.Holds before (NameScope.spelling name attempt) ∧
      ∀ earlier < attempt, s.table.Holds before (NameScope.spelling name earlier)

theorem firstFree_new (overrides : Overrides) : FirstFree overrides [] {} where
  taken := by simp [TypeTable.Holds]
  fixed := by simp

/-- The UIDs declared so far keep their names. -/
theorem Declares.name?_of_mem {uid other : String} (declares : Declares overrides s uid s')
    (seen : Seen done s) (known : other ∈ done) : s'.table.name? other = s.table.name? other := by
  cases declares with
  | again _ names | unnamed _ _ names => rw [TypeTable.name?, names]; rfl
  | named unseen _ _ names =>
    have apart : uid ≠ other := by
      rintro rfl
      simp [(seen uid).mpr known] at unseen
    rw [TypeTable.name?, names, Std.TreeMap.getElem?_insert]
    simp [apart, TypeTable.name?]

theorem Declares.holds {uid : String} {uids : List String} (declares : Declares overrides s uid s')
    (seen : Seen done s) (known : uids ⊆ done) (name : String) :
    s'.table.Holds uids name ↔ s.table.Holds uids name :=
  TypeTable.holds_congr (fun _ held => declares.name?_of_mem seen (known held)) name

theorem FirstFree.taken_declared {uid : String} (h : FirstFree overrides done s)
    (seen : Seen done s) (declares : Declares overrides s uid s') (name : String) :
    s'.table.types.contains name = true ↔ s'.table.Holds (done ++ [uid]) name := by
  rw [TypeTable.holds_concat, declares.holds seen (List.Subset.refl done), ← h.taken]
  cases declares with
  | again known names _ types =>
    rw [types, TypeTable.name?, names]
    refine ⟨.inl, ?_⟩
    rintro (held | ⟨given, named, key⟩)
    · exact held
    · exact (h.taken name).mpr ⟨uid, (seen uid).mp known, given, named, key⟩
  | unnamed unseen _ names _ types =>
    have unnamed : s.table.names[uid]? = none :=
      Std.TreeMap.getElem?_eq_none_of_contains_eq_false (Bool.or_eq_false_iff.mp unseen).1
    rw [types, TypeTable.name?, names, unnamed]
    simp
  | named _ _ claimed names =>
    rw [(NameScope.claim_eq_ok claimed).2.2, NameScope.contains_insert, TypeTable.name?, names]
    simp [or_comm]

theorem FirstFree.fixed_declared {uid : String} (h : FirstFree overrides done s)
    (seen : Seen done s) (declares : Declares overrides s uid s') (first : uid ∉ done)
    {name : String} (entry : overrides.uidName? uid = some name)
    (usable : name ≠ Name.undefined) :
    ∃ attempt, s'.table.name? uid = some (NameScope.spelling name attempt) ∧
      ¬ s'.table.Holds done (NameScope.spelling name attempt) ∧
      ∀ earlier < attempt, s'.table.Holds done (NameScope.spelling name earlier) := by
  have base (e : Element) : typeBase overrides uid e = name := by rw [typeBase, entry]; rfl
  simp only [declares.holds seen (List.Subset.refl done), ← h.taken]
  cases declares with
  | again known => exact absurd ((seen uid).mp known) first
  | unnamed _ unusable => exact absurd (base _ ▸ unusable) usable
  | named _ _ claimed names =>
    rw [base] at claimed
    obtain ⟨attempt, rfl, taken⟩ := NameScope.claim_first claimed
    obtain ⟨-, free, -⟩ := NameScope.claim_eq_ok claimed
    refine ⟨attempt, ?_, by simp [free], taken⟩
    rw [TypeTable.name?, names, Std.TreeMap.getElem?_insert_self]

theorem FirstFree.declared {uid : String} (h : FirstFree overrides done s) (seen : Seen done s)
    (declares : Declares overrides s uid s') : FirstFree overrides (done ++ [uid]) s' where
  taken := h.taken_declared seen declares
  fixed {before after other name} split first entry usable := by
    rcases List.eq_nil_or_concat' after with rfl | ⟨between, last, rfl⟩
    · obtain ⟨rfl, last⟩ := List.append_inj' split rfl
      cases last
      exact h.fixed_declared seen declares first entry usable
    · rw [← List.cons_append, ← List.append_assoc] at split
      obtain ⟨rfl, -⟩ := List.append_inj' split rfl
      rw [declares.name?_of_mem seen (by simp)]
      simp only [declares.holds seen (List.subset_append_left before _)]
      exact h.fixed rfl first entry usable

theorem ofReader_firstFree {r : Reader} (h : ofReader overrides r = .ok s) :
    FirstFree overrides r.typeUids s := by
  refine ofReader_follows (firstFree_new overrides) ?_
    (fun seen h declares => h.declared seen declares) h
  intro done s s' h same
  have names (uid : String) : s'.table.name? uid = s.table.name? uid := by
    rw [TypeTable.name?, same.names]
    rfl
  have holds (uids : List String) (name : String) :
      s'.table.Holds uids name ↔ s.table.Holds uids name :=
    TypeTable.holds_congr (fun uid _ => names uid) name
  constructor
  · intro name
    rw [same.types, holds]
    exact h.taken name
  · intro before after uid name
    simp only [names, holds]
    exact h.fixed

/-! ## Fixed names that are taken -/

/-- Before a UID whose fixed name is taken, a type without a fixed name was given one of the fixed
names. -/
theorem FirstFree.exists_derived (h : FirstFree overrides done s) (apart : overrides.NamesApart)
    {before after : List String} {uid name : String} (split : done = before ++ uid :: after)
    (first : uid ∉ before) (entry : overrides.uidName? uid = some name)
    (taken : s.table.Holds before name) :
    ∃ other ∈ before, overrides.uidName? other = none ∧ ∃ given fixedUid fixedName,
      s.table.name? other = some given ∧ overrides.uidName? fixedUid = some fixedName ∧
      lookupKey given = lookupKey fixedName := by
  induction length : before.length using Nat.strongRecOn generalizing before after uid name with
  | ind length ih =>
    subst length
    obtain ⟨holder, held, given, named, key⟩ := taken
    cases own : overrides.uidName? holder with
    | none => exact ⟨holder, held, own, given, uid, name, named, entry, key⟩
    | some ownName =>
      obtain ⟨earlier, between, rfl, firstHolder⟩ := List.eq_append_cons_of_mem held
      rw [List.append_assoc, List.cons_append] at split
      obtain ⟨attempt, ownGiven, -, ownTaken⟩ :=
        h.fixed split firstHolder own (apart.usable own)
      -- The holder's own fixed name is another one, so it has got a further spelling of that.
      have further : 0 < attempt := by
        refine Nat.pos_of_ne_zero ?_
        rintro rfl
        obtain rfl := Option.some.inj (named.symm.trans ownGiven)
        exact first (apart.apart entry own key.symm ▸ held)
      obtain ⟨other, known, derived⟩ :=
        ih earlier.length (by simp) split firstHolder own (ownTaken 0 further) rfl
      exact ⟨other, List.mem_append_left _ known, derived⟩

/-- A UID with a fixed name gets the first spelling of it that no UID declared before it has, and so
the name itself if none of them has that. Only where a type without a fixed name was given one of
the fixed names before can it be otherwise. -/
theorem fixed_name_first_free {overrides : Overrides} {document : List UInt8} {s : Survey}
    (apart : overrides.NamesApart) (surveyed : ofReader overrides (.ofBytes document) = .ok s)
    {before after : List String} {uid name : String}
    (declared : (Reader.ofBytes document).typeUids = before ++ uid :: after)
    (first : uid ∉ before) (entry : overrides.uidName? uid = some name) :
    ∃ attempt, s.table.name? uid = some (NameScope.spelling name attempt) ∧
      ¬ s.table.Holds before (NameScope.spelling name attempt) ∧
      (∀ earlier < attempt, s.table.Holds before (NameScope.spelling name earlier)) ∧
      (attempt = 0 ∨ ∃ other ∈ before, overrides.uidName? other = none ∧
        ∃ given fixedUid fixedName, s.table.name? other = some given ∧
          overrides.uidName? fixedUid = some fixedName ∧
          lookupKey given = lookupKey fixedName) := by
  have firstFree := ofReader_firstFree surveyed
  obtain ⟨attempt, given, free, taken⟩ :=
    firstFree.fixed declared first entry (apart.usable entry)
  refine ⟨attempt, given, free, taken, ?_⟩
  rcases Nat.eq_zero_or_pos attempt with none | further
  · exact .inl none
  · exact .inr (firstFree.exists_derived apart declared first entry (taken 0 further))

/-- One fixed name, which is also the name of a type that has no fixed name. -/
def statusOverrides : Overrides where
  uidNames := ({} : Std.TreeMap String String).insert "4" "Status"

def statusDocument : String :=
  "<r><enum uid='1' name='Status' size='8'/><enum uid='4' name='Mode' size='8'/></r>"

theorem statusOverrides_uidName? {uid name : String} :
    statusOverrides.uidName? uid = some name ↔ uid = "4" ∧ name = "Status" := by
  rw [eq_comm (a := uid), eq_comm (a := name)]
  simp [statusOverrides, Overrides.uidName?, Std.TreeMap.getElem?_insert]

theorem statusOverrides_namesApart : statusOverrides.NamesApart where
  apart entry other _ :=
    (statusOverrides_uidName?.mp entry).1.trans (statusOverrides_uidName?.mp other).1.symm
  usable entry := by
    rw [(statusOverrides_uidName?.mp entry).2]
    decide

theorem status_surveyed : ∃ s, ofReader statusOverrides (.ofString statusDocument) = .ok s ∧
    s.table.names.toList = [("1", "Status"), ("4", "Status1")] :=
  exists_ok_of_map (by decide +kernel)

theorem status_declared : (Reader.ofString statusDocument).typeUids = ["1", "4"] := by
  decide +kernel

/-- The second type is given a further spelling of its fixed name: the first one was given that
name before, and has no fixed name. -/
theorem status_first_free : ∃ s attempt,
    ofReader statusOverrides (.ofString statusDocument) = .ok s ∧
    s.table.name? "4" = some (NameScope.spelling "Status" attempt) ∧
    (attempt = 0 ∨ ∃ other ∈ ["1"], statusOverrides.uidName? other = none ∧
      ∃ given fixedUid fixedName, s.table.name? other = some given ∧
        statusOverrides.uidName? fixedUid = some fixedName ∧
        lookupKey given = lookupKey fixedName) := by
  obtain ⟨s, surveyed, -⟩ := status_surveyed
  have declared : (Reader.ofString statusDocument).typeUids = ["1"] ++ "4" :: [] := status_declared
  obtain ⟨attempt, given, -, -, why⟩ := fixed_name_first_free statusOverrides_namesApart surveyed
    declared (by decide) (statusOverrides_uidName?.mpr ⟨rfl, rfl⟩)
  exact ⟨s, attempt, surveyed, given, why⟩

/-- A fixed name need not be the one that is given, although it is the only one. -/
theorem fixed_name_taken : statusOverrides.NamesApart ∧
    "4" ∈ (Reader.ofString statusDocument).typeUids ∧
    statusOverrides.uidName? "4" = some "Status" ∧
    ∃ s, ofReader statusOverrides (.ofString statusDocument) = .ok s ∧
      s.table.name? "4" = some "Status1" := by
  refine ⟨statusOverrides_namesApart, ?_, statusOverrides_uidName?.mpr ⟨rfl, rfl⟩, ?_⟩
  · rw [status_declared]
    decide
  · obtain ⟨s, surveyed, names⟩ := status_surveyed
    refine ⟨s, surveyed, ?_⟩
    rw [TypeTable.name?, Std.TreeMap.getElem?_eq_some_iff_exists_compare_eq_eq_and_mem_toList,
      names]
    exact ⟨"4", by decide, by decide⟩

end Survey

end EnumRegistry
