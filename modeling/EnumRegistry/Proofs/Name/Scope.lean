import EnumRegistry.Name.Scope
import EnumRegistry.Proofs.Result
import Mathlib.Data.List.Forall2

/-!
What scopes of names promise. A claim gives a spelling of its base name whose lookup key was free
and takes exactly that key; so names claimed one after the other differ by more than case.
-/

namespace EnumRegistry.NameScope

@[simp] theorem contains_empty (name : String) : ({} : NameScope).contains name = false := by
  simp [contains]

theorem contains_insert (s : NameScope) (name other : String) :
    (s.insert name).contains other = (lookupKey name == lookupKey other || s.contains other) := by
  have same : (compare (lookupKey name) (lookupKey other) == .eq) =
      (lookupKey name == lookupKey other) := by
    rw [Bool.eq_iff_iff, beq_iff_eq, beq_iff_eq, Std.LawfulEqCmp.compare_eq_iff_eq]
  rw [contains, contains, NameScope.insert, Std.TreeSet.contains_insert, same]

theorem contains_congr (s : NameScope) {a b : String} (h : lookupKey a = lookupKey b) :
    s.contains a = s.contains b := by
  simp only [contains, h]

theorem contains_insert_of_contains {s : NameScope} {name other : String}
    (h : s.contains other = true) : (s.insert name).contains other = true := by
  simp [contains_insert, h]

theorem freeFrom_eq_some {s : NameScope} {base : String} {attempt count k : Nat}
    (h : s.freeFrom base attempt count = some k) : s.contains (spelling base k) = false := by
  induction count generalizing attempt with
  | zero => simp [freeFrom] at h
  | succ count ih =>
    simp only [freeFrom] at h
    split at h
    · exact ih h
    · rename_i free
      obtain rfl := Option.some.inj h
      simpa using free

/-- The attempts before the first free one are those whose spelling is taken. -/
theorem freeFrom_least {s : NameScope} {base : String} {attempt count k : Nat}
    (h : s.freeFrom base attempt count = some k) {j : Nat} (notBefore : attempt ≤ j)
    (earlier : j < k) : s.contains (spelling base j) = true := by
  induction count generalizing attempt with
  | zero => simp [freeFrom] at h
  | succ count ih =>
    simp only [freeFrom] at h
    split at h
    · rename_i taken
      rcases Nat.eq_or_lt_of_le notBefore with rfl | later
      · exact taken
      · exact ih h later
    · obtain rfl := Option.some.inj h
      exact absurd earlier (Nat.not_lt.mpr notBefore)

/-- A name is one of the spellings that a claim tries for its base. -/
def Spells (base name : String) : Prop := ∃ attempt, name = spelling base attempt

theorem claim_eq_ok {s s' : NameScope} {base name : String}
    (h : s.claim base = .ok (name, s')) :
    Spells base name ∧ s.contains name = false ∧ s' = s.insert name := by
  unfold claim at h
  split at h
  · rename_i attempt found
    simp only [Except.ok.injEq, Prod.mk.injEq] at h
    obtain ⟨rfl, rfl⟩ := h
    exact ⟨⟨attempt, rfl⟩, freeFrom_eq_some found, rfl⟩
  · cases h

/-- A claim gives the first spelling that is free. -/
theorem claim_first {s s' : NameScope} {base name : String} (h : s.claim base = .ok (name, s')) :
    ∃ attempt, name = spelling base attempt ∧
      ∀ earlier < attempt, s.contains (spelling base earlier) = true := by
  unfold claim at h
  split at h
  · rename_i attempt found
    simp only [Except.ok.injEq, Prod.mk.injEq] at h
    exact ⟨attempt, h.1.symm, fun _ => freeFrom_least found (Nat.zero_le _)⟩
  · cases h

/-- A base name that is free is claimed as it stands. -/
theorem claim_free {s : NameScope} {base : String} (free : s.contains base = false) :
    s.claim base = .ok (base, s.insert base) := by
  have own : spelling base 0 = base := rfl
  have first : s.freeFrom base 0 (999 + 1) = some 0 := by
    rw [freeFrom, own, free, if_neg Bool.false_ne_true]
  have first : s.freeFrom base 0 maxAttempts = some 0 := first
  simp only [claim, first, own]

theorem claimAll_cons_eq_ok {s s' : NameScope} {base : String} {bases names : List String} :
    s.claimAll (base :: bases) = .ok (names, s') ↔
      ∃ name t rest, s.claim base = .ok (name, t) ∧ t.claimAll bases = .ok (rest, s') ∧
        names = name :: rest := by
  simp only [claimAll, bind_eq_ok, Prod.exists, pure, Except.pure, Except.ok.injEq, Prod.mk.injEq]
  constructor
  · rintro ⟨name, t, hc, rest, u, hr, rfl, rfl⟩
    exact ⟨name, t, rest, hc, hr, rfl⟩
  · rintro ⟨name, t, rest, hc, hr, rfl⟩
    exact ⟨name, t, hc, rest, s', hr, rfl, rfl⟩

/-- One more claim behind a run of them. -/
theorem claimAll_concat {s t u : NameScope} {bases names : List String} {base name : String}
    (hall : s.claimAll bases = .ok (names, t)) (hone : t.claim base = .ok (name, u)) :
    s.claimAll (bases ++ [base]) = .ok (names ++ [name], u) := by
  induction bases generalizing s names with
  | nil =>
    simp only [claimAll, Except.ok.injEq, Prod.mk.injEq] at hall
    obtain ⟨rfl, rfl⟩ := hall
    exact claimAll_cons_eq_ok.mpr ⟨name, u, [], hone, rfl, rfl⟩
  | cons b bs ih =>
    obtain ⟨n, v, ns, hn, hns, rfl⟩ := claimAll_cons_eq_ok.mp hall
    exact claimAll_cons_eq_ok.mpr ⟨n, v, ns ++ [name], hn, ih hns, rfl⟩

/-- The first claims of a run are a run of their own. -/
theorem claimAll_take {s t : NameScope} {bases names : List String}
    (h : s.claimAll bases = .ok (names, t)) (count : Nat) :
    ∃ u, s.claimAll (bases.take count) = .ok (names.take count, u) := by
  induction bases generalizing s names count with
  | nil =>
    simp only [claimAll, Except.ok.injEq, Prod.mk.injEq] at h
    obtain ⟨rfl, rfl⟩ := h
    exact ⟨s, by simp [claimAll]⟩
  | cons b bs ih =>
    obtain ⟨n, v, ns, hn, hns, rfl⟩ := claimAll_cons_eq_ok.mp h
    cases count with
    | zero => exact ⟨s, rfl⟩
    | succ count =>
      obtain ⟨u, hu⟩ := ih hns count
      exact ⟨u, claimAll_cons_eq_ok.mpr ⟨n, v, ns.take count, hn, hu, rfl⟩⟩

theorem claimAll_fresh {s t : NameScope} {bases names : List String}
    (h : s.claimAll bases = .ok (names, t)) : ∀ name ∈ names, s.contains name = false := by
  induction bases generalizing s names with
  | nil =>
    simp only [claimAll, Except.ok.injEq, Prod.mk.injEq] at h
    simp [← h.1]
  | cons b bs ih =>
    obtain ⟨n, v, ns, hn, hns, rfl⟩ := claimAll_cons_eq_ok.mp h
    obtain ⟨-, hfree, rfl⟩ := claim_eq_ok hn
    intro name hname
    rcases List.mem_cons.mp hname with rfl | hname
    · exact hfree
    · have later := ih hns name hname
      rw [contains_insert, Bool.or_eq_false_iff] at later
      exact later.2

/-- Names claimed one after the other in one scope differ by more than case. -/
theorem claimAll_nodup {s t : NameScope} {bases names : List String}
    (h : s.claimAll bases = .ok (names, t)) : (names.map lookupKey).Nodup := by
  induction bases generalizing s names with
  | nil =>
    simp only [claimAll, Except.ok.injEq, Prod.mk.injEq] at h
    simp [← h.1]
  | cons b bs ih =>
    obtain ⟨n, v, ns, hn, hns, rfl⟩ := claimAll_cons_eq_ok.mp h
    obtain ⟨-, -, rfl⟩ := claim_eq_ok hn
    refine List.nodup_cons.mpr ⟨?_, ih hns⟩
    intro hmem
    obtain ⟨other, hother, hkey⟩ := List.mem_map.mp hmem
    have later := claimAll_fresh hns other hother
    simp [contains_insert, hkey] at later

theorem claimAll_spells {s t : NameScope} {bases names : List String}
    (h : s.claimAll bases = .ok (names, t)) : List.Forall₂ Spells bases names := by
  induction bases generalizing s names with
  | nil =>
    simp only [claimAll, Except.ok.injEq, Prod.mk.injEq] at h
    rw [← h.1]
    exact .nil
  | cons b bs ih =>
    obtain ⟨n, v, ns, hn, hns, rfl⟩ := claimAll_cons_eq_ok.mp h
    exact .cons (claim_eq_ok hn).1 (ih hns)

/-- What holds of all base names, and of a name with a number if it does of the name, holds of all
names that are claimed. -/
theorem claimAll_forall {P : String → Prop}
    (keeps : ∀ {base name : String}, Spells base name → P base → P name) {s t : NameScope}
    {bases names : List String} (h : s.claimAll bases = .ok (names, t))
    (all : ∀ base ∈ bases, P base) : ∀ name ∈ names, P name := by
  have spelled := claimAll_spells h
  clear h
  induction spelled with
  | nil => nofun
  | cons spells rest ih =>
    obtain ⟨first, others⟩ := List.forall_mem_cons.mp all
    exact List.forall_mem_cons.mpr ⟨keeps spells first, ih others⟩

/-- The names are what some base names claim in order in an empty scope, and the scope is what they
leave. -/
def ClaimedIn (names : List String) (scope : NameScope) : Prop :=
  ∃ bases, claimAll {} bases = .ok (names, scope)

theorem claimedIn_nil : ClaimedIn [] {} := ⟨[], rfl⟩

theorem ClaimedIn.concat {names : List String} {scope scope' : NameScope} {base name : String}
    (h : ClaimedIn names scope) (claimed : scope.claim base = .ok (name, scope')) :
    ClaimedIn (names ++ [name]) scope' := by
  obtain ⟨bases, hclaims⟩ := h
  exact ⟨bases ++ [base], claimAll_concat hclaims claimed⟩

theorem ClaimedIn.nodup {names : List String} {scope : NameScope} (h : ClaimedIn names scope) :
    (names.map lookupKey).Nodup := by
  obtain ⟨bases, hclaims⟩ := h
  exact claimAll_nodup hclaims

end EnumRegistry.NameScope
