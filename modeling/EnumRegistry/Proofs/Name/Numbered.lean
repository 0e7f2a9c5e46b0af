import EnumRegistry.Proofs.Name.Requests

/-!
Claims beside names that were reserved before. Base names that differ from one another get a number
only where one is like a reserved name; another may then be like that name with its number and get
a number in turn, so that every name with a number goes back to a reserved one.
-/

namespace EnumRegistry.NameScope

/-- Digits behind a name, as the two are compared. -/
def DigitsBehind (digits : List Char) (name longer : String) : Prop :=
  (∀ c ∈ digits, c.isDigit = true) ∧
    (lookupKey longer).toList = (lookupKey name).toList ++ digits

theorem digitsBehind_spelling (base : String) (k : Nat) :
    DigitsBehind (Nat.toDigits 10 (k + 1)) base (spelling base (k + 1)) := by
  refine ⟨fun c hc => Nat.isDigit_of_mem_toDigits (by decide) (by decide) hc, ?_⟩
  rw [spelling, if_neg (Nat.succ_ne_zero k), lookupKey_append, lookupKey_repr, String.toList_append,
    Nat.toString_eq_ofList_toDigits, String.toList_ofList]

theorem DigitsBehind.append {name longer longest : String} {digits more : List Char}
    (h : DigitsBehind digits name longer) (h' : DigitsBehind more longer longest) :
    DigitsBehind (digits ++ more) name longest := by
  refine ⟨List.forall_mem_append.mpr ⟨h.1, h'.1⟩, ?_⟩
  rw [h'.2, h.2, List.append_assoc]

theorem DigitsBehind.isPrefix {name longer : String} {digits : List Char}
    (h : DigitsBehind digits name longer) : (lookupKey name).toList <+: (lookupKey longer).toList :=
  ⟨digits, h.2.symm⟩

/-- A name is like a reserved one with a number behind, which some base name is like. -/
def Displaced (reserved bases : List String) (name : String) : Prop :=
  ∃ own ∈ reserved, (∃ base ∈ bases, lookupKey base = lookupKey own) ∧
    ∃ digits, digits ≠ [] ∧ DigitsBehind digits own name

/-- What is taken in a scope: reserved names, base names that were claimed, and displaced ones. -/
def Accounted (reserved bases claimed : List String) (s : NameScope) : Prop :=
  ∀ name, s.contains name = true →
    (∃ own ∈ reserved, lookupKey own = lookupKey name) ∨
      (∃ base ∈ claimed, lookupKey base = lookupKey name) ∨ Displaced reserved bases name

variable {reserved bases claimed : List String} {s t : NameScope}

theorem accounted_insertAll (reserved bases : List String) :
    Accounted reserved bases [] (empty.insertAll reserved) := by
  intro name taken
  rw [contains, Std.TreeSet.contains_iff_mem, mem_insertAll] at taken
  rcases taken with none | own
  · simp [empty] at none
  · exact .inl own

/-- A base name that is not like any that was claimed before keeps its spelling or is displaced. -/
theorem Accounted.kept_or_displaced {base name : String} (h : s.Accounted reserved bases claimed)
    (among : base ∈ bases) (apart : ∀ other ∈ claimed, lookupKey other ≠ lookupKey base)
    (made : s.claim base = .ok (name, t)) : name = base ∨ Displaced reserved bases name := by
  obtain ⟨attempt, rfl, taken⟩ := claim_first made
  cases attempt with
  | zero => exact .inl rfl
  | succ k =>
    right
    have number := digitsBehind_spelling base k
    have some : Nat.toDigits 10 (k + 1) ≠ [] := Nat.toDigits_ne_nil
    -- The base name itself was taken: by a reserved name, or by one that goes back to such.
    rcases h base (taken 0 (Nat.succ_pos k)) with ⟨own, hown, same⟩ | ⟨other, hother, same⟩ |
      ⟨own, hown, hit, digits, -, behind⟩
    · refine ⟨own, hown, ⟨base, among, same.symm⟩, _, some, number.1, ?_⟩
      rw [same, number.2]
    · exact absurd same (apart other hother)
    · exact ⟨own, hown, hit, _, by simp [some], behind.append number⟩

theorem Accounted.claim {base name : String} (h : s.Accounted reserved bases claimed)
    (among : base ∈ bases) (apart : ∀ other ∈ claimed, lookupKey other ≠ lookupKey base)
    (made : s.claim base = .ok (name, t)) : t.Accounted reserved bases (base :: claimed) := by
  have origin := h.kept_or_displaced among apart made
  obtain ⟨-, -, rfl⟩ := claim_eq_ok made
  intro other taken
  rw [contains_insert, Bool.or_eq_true, beq_iff_eq] at taken
  rcases taken with same | before
  · rcases origin with rfl | ⟨own, hown, hit, digits, some, behind⟩
    · exact .inr (.inl ⟨name, List.mem_cons_self, same⟩)
    · exact .inr (.inr ⟨own, hown, hit, digits, some, behind.1, same ▸ behind.2⟩)
  · rcases h other before with own | ⟨earlier, hearlier, same⟩ | displaced
    · exact .inl own
    · exact .inr (.inl ⟨earlier, List.mem_cons_of_mem _ hearlier, same⟩)
    · exact .inr (.inr displaced)

/-- Of base names that differ by more than case, each is kept or displaced. -/
theorem claimAll_kept_or_displaced {todo names : List String}
    (h : s.Accounted reserved bases claimed) (among : todo ⊆ bases)
    (apart : (todo.map lookupKey).Nodup)
    (new : ∀ base ∈ todo, ∀ other ∈ claimed, lookupKey other ≠ lookupKey base)
    (made : s.claimAll todo = .ok (names, t)) :
    ∀ name ∈ names, name ∈ bases ∨ Displaced reserved bases name := by
  induction todo generalizing s claimed names with
  | nil =>
    cases made
    nofun
  | cons base todo ih =>
    obtain ⟨name, between, rest, first, others, rfl⟩ := claimAll_cons_eq_ok.mp made
    obtain ⟨here, later⟩ := List.cons_subset.mp among
    obtain ⟨fresh, apart⟩ := List.nodup_cons.mp apart
    obtain ⟨free, new⟩ := List.forall_mem_cons.mp new
    refine List.forall_mem_cons.mpr ⟨?_, ih (h.claim here free first) later apart ?_ others⟩
    · rcases h.kept_or_displaced here free first with rfl | displaced
      · exact .inl here
      · exact .inr displaced
    · intro other hother
      refine List.forall_mem_cons.mpr ⟨fun same => ?_, new other hother⟩
      exact fresh (same ▸ List.mem_map_of_mem hother)

theorem claimAll_insertAll_displaced {names : List String} (apart : (bases.map lookupKey).Nodup)
    (made : (empty.insertAll reserved).claimAll bases = .ok (names, t)) :
    ∀ name ∈ names, name ∈ bases ∨ Displaced reserved bases name :=
  claimAll_kept_or_displaced (accounted_insertAll reserved bases) (List.Subset.refl bases) apart
    (fun _ _ => nofun) made

end EnumRegistry.NameScope
