import EnumRegistry.Proofs.Name.Requests

/-!
Claims in two scopes, one of which has all that the other has. What succeeds in the larger scope
succeeds in the smaller, with numbers that are not larger, and the smaller stays within the larger
although the two may take different names.
-/

namespace EnumRegistry.NameScope

/-- All keys that are taken in a scope are taken in another. -/
def Within (s t : NameScope) : Prop := ∀ key ∈ s.taken, key ∈ t.taken

/-- Of two spellings of a base name, the number of the first is not the larger one. -/
def NotLater (base first second : String) : Prop :=
  ∃ j k, first = spelling base j ∧ second = spelling base k ∧ j ≤ k ∧ k < maxAttempts

/-- Each base name with two spellings, the first of which does not come later. -/
inductive NoneLater : (bases firsts seconds : List String) → Prop
  | nil : NoneLater [] [] []
  | cons {base first second : String} {bases firsts seconds : List String}
      (head : NotLater base first second) (rest : NoneLater bases firsts seconds) :
      NoneLater (base :: bases) (first :: firsts) (second :: seconds)

theorem empty_within (t : NameScope) : Within {} t := by
  intro key taken
  simp at taken

namespace Within

variable {s t : NameScope}

theorem contains (h : s.Within t) {name : String} (taken : s.contains name = true) :
    t.contains name = true :=
  Std.TreeSet.contains_iff_mem.mpr (h _ (Std.TreeSet.contains_iff_mem.mp taken))

/-- The larger scope may have taken a name before. -/
theorem insert_left (h : s.Within t) {name : String} (taken : t.contains name = true) :
    (s.insert name).Within t := by
  intro key hkey
  rcases (s.mem_insert name key).mp hkey with rfl | hkey
  · exact Std.TreeSet.contains_iff_mem.mp taken
  · exact h key hkey

theorem insert_right (h : s.Within t) (name : String) : s.Within (t.insert name) :=
  fun key hkey => (t.mem_insert name key).mpr (.inr (h key hkey))

/-- The smaller scope has a free spelling no later than the larger one. If it is an earlier one, the
larger has passed over it, and so has taken it already. -/
theorem claim (h : s.Within t) {t' : NameScope} {base second : String}
    (claimed : t.claim base = .ok (second, t')) : ∃ first s',
      s.claim base = .ok (first, s') ∧ NotLater base first second ∧ s'.Within t' := by
  obtain ⟨⟨k, tried, rfl, free, passed⟩, rfl⟩ := claim_eq_ok_iff.mp claimed
  have free' : s.contains (spelling base k) = false := by
    by_contra taken
    rw [h.contains (by simpa using taken)] at free
    cases free
  rcases s.claim_cases base with ⟨_, ⟨j, -, rfl, -, passed'⟩, claimed'⟩ | ⟨taken, -⟩
  · have notLater : j ≤ k := by
      by_contra later
      rw [passed' k (by omega)] at free'
      cases free'
    refine ⟨_, _, claimed', ⟨j, k, rfl, rfl, notLater, tried⟩, ?_⟩
    rcases Nat.eq_or_lt_of_le notLater with rfl | sooner
    · exact (h.insert_right _).insert_left (by simp [contains_insert])
    · exact (h.insert_left (passed j sooner)).insert_right _
  · rw [taken k tried] at free'
    cases free'

theorem claimAll (h : s.Within t) {t' : NameScope} {bases seconds : List String}
    (claims : t.claimAll bases = .ok (seconds, t')) : ∃ firsts s',
      s.claimAll bases = .ok (firsts, s') ∧ NoneLater bases firsts seconds ∧ s'.Within t' := by
  induction bases generalizing s t seconds with
  | nil =>
    cases claims
    exact ⟨[], s, rfl, .nil, h⟩
  | cons base bases ih =>
    obtain ⟨second, between, rest, claimed, others, rfl⟩ := claimAll_cons_eq_ok.mp claims
    obtain ⟨first, between', claimed', notLater, h⟩ := h.claim claimed
    obtain ⟨firsts, s', others', noneLater, h⟩ := ih h others
    refine ⟨first :: firsts, s', ?_, .cons notLater noneLater, h⟩
    exact claimAll_cons_eq_ok.mpr ⟨first, between', firsts, claimed', others', rfl⟩

end Within

end EnumRegistry.NameScope
