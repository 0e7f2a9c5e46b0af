import EnumRegistry.Proofs.Name.Alphabet
import Mathlib.Data.List.Nodup
import Mathlib.Data.List.Perm.Subperm
import Std.Data.String.ToNat

/-!
Requests to a scope of names. A claim takes the first free spelling of its base name; it fails only
if all spellings are taken, which are as many names as there are attempts, and then nothing is taken
by it. Whatever is asked of a scope, in whatever order, the names it grants differ by more than case
from one another and from all names that were reserved before.
-/

namespace EnumRegistry

/-! ## Keys of spellings -/

theorem upper_of_isDigit {c : Char} (h : c.isDigit = true) : Text.upper c = [c] := by
  have ascii : c.toNat < 128 :=
    toNat_lt_of_isNameChar (Name.isNameChar_of_isAlphanum (by simp [Char.isAlphanum, h]))
  exact of_ascii (P := fun c => c.isDigit = true → Text.upper c = [c]) (by decide) ascii h

theorem lookupKey_append (s t : String) : lookupKey (s ++ t) = lookupKey s ++ lookupKey t := by
  simp [lookupKey, Text.upperCase, String.toList_append, String.ofList_append]

theorem lookupKey_repr (n : Nat) : lookupKey (toString n) = toString n := by
  have digits : ∀ c ∈ Nat.toDigits 10 n, Text.upper c = [c] := fun c hc =>
    upper_of_isDigit (Nat.isDigit_of_mem_toDigits (by decide) (by decide) hc)
  rw [Nat.toString_eq_ofList_toDigits, lookupKey, Text.upperCase, String.toList_ofList,
    List.flatMap_congr digits, List.flatMap_singleton']

namespace NameScope

/-- Letter case is decided by the base name alone. -/
theorem lookupKey_spelling (base : String) (attempt : Nat) :
    lookupKey (spelling base attempt) = spelling (lookupKey base) attempt := by
  unfold spelling
  split
  · rfl
  · rw [lookupKey_append, lookupKey_repr]

theorem spelling_injective (base : String) : Function.Injective (spelling base) := by
  have numbered (n : Nat) : toString n ≠ "" := by
    rw [Nat.toString_eq_ofList_toDigits, Ne, String.ofList_eq_empty_iff]
    exact Nat.toDigits_ne_nil
  intro j k same
  unfold spelling at same
  split at same <;> split at same
  · omega
  · exact absurd (String.append_eq_left_iff.mp same.symm) (numbered k)
  · exact absurd (String.append_eq_left_iff.mp same) (numbered j)
  · exact Nat.repr_injective ((String.append_right_inj base).mp same)

/-! ## One claim -/

theorem mem_insert (s : NameScope) (name key : String) :
    key ∈ (s.insert name).taken ↔ lookupKey name = key ∨ key ∈ s.taken := by
  rw [NameScope.insert, Std.TreeSet.mem_insert, Std.LawfulEqCmp.compare_eq_iff_eq]

theorem insert_of_contains {s : NameScope} {name : String} (h : s.contains name = true) :
    s.insert name = s := by
  unfold NameScope.insert Std.TreeSet.insert Std.TreeMap.insertIfNew Std.DTreeMap.insertIfNew
  unfold contains Std.TreeSet.contains Std.TreeMap.contains Std.DTreeMap.contains at h
  simp only [Std.DTreeMap.Internal.Impl.insertIfNew, h, if_true]

theorem size_insert {s : NameScope} {name : String} (free : s.contains name = false) :
    (s.insert name).size = s.size + 1 := by
  have fresh : ¬ s.taken.contains (lookupKey name) = true := ne_true_of_eq_false free
  rw [size, NameScope.insert, Std.TreeSet.size_insert, if_neg fresh, size]

theorem freeFrom_lt {s : NameScope} {base : String} {attempt count k : Nat}
    (h : s.freeFrom base attempt count = some k) : k < attempt + count := by
  induction count generalizing attempt with
  | zero => cases h
  | succ count ih =>
    simp only [freeFrom] at h
    split at h
    · have bound := ih h
      omega
    · obtain rfl := Option.some.inj h
      omega

theorem freeFrom_eq_none {s : NameScope} {base : String} {attempt count : Nat}
    (h : s.freeFrom base attempt count = none) {k : Nat} (notBefore : attempt ≤ k)
    (within : k < attempt + count) : s.contains (spelling base k) = true := by
  induction count generalizing attempt with
  | zero => omega
  | succ count ih =>
    simp only [freeFrom] at h
    split at h
    · rename_i taken
      rcases Nat.eq_or_lt_of_le notBefore with rfl | later
      · exact taken
      · exact ih h later (by omega)
    · cases h

/-- A name is the first spelling of a base name that is free, of as many as a claim tries. -/
def FirstFree (s : NameScope) (base name : String) : Prop :=
  ∃ k < maxAttempts, name = spelling base k ∧ s.contains name = false ∧
    ∀ j < k, s.contains (spelling base j) = true

theorem FirstFree.eq {s : NameScope} {base name other : String} (h : s.FirstFree base name)
    (h' : s.FirstFree base other) : name = other := by
  obtain ⟨k, -, rfl, free, earlier⟩ := h
  obtain ⟨j, -, rfl, free', earlier'⟩ := h'
  rcases Nat.lt_trichotomy k j with less | rfl | less
  · cases free.symm.trans (earlier' k less)
  · rfl
  · cases free'.symm.trans (earlier j less)

/-- What a claim comes to, as the scope has a free spelling or none. -/
theorem claim_cases (s : NameScope) (base : String) :
    (∃ name, s.FirstFree base name ∧ s.claim base = .ok (name, s.insert name)) ∨
      (∀ k < maxAttempts, s.contains (spelling base k) = true) ∧ s.claim base = .error ⟨base⟩ := by
  unfold claim
  cases found : s.freeFrom base 0 maxAttempts with
  | some k =>
    refine .inl ⟨_, ⟨k, ?_, rfl, freeFrom_eq_some found, fun j => ?_⟩, rfl⟩
    · simpa using freeFrom_lt found
    · exact freeFrom_least found (Nat.zero_le j)
  | none =>
    refine .inr ⟨fun k within => ?_, rfl⟩
    exact freeFrom_eq_none found (Nat.zero_le k) (by omega)

theorem claim_eq_ok_iff {s s' : NameScope} {base name : String} :
    s.claim base = .ok (name, s') ↔ s.FirstFree base name ∧ s' = s.insert name := by
  rcases s.claim_cases base with ⟨first, free, claimed⟩ | ⟨taken, failed⟩
  · rw [claimed, Except.ok.injEq, Prod.mk.injEq]
    constructor
    · rintro ⟨rfl, rfl⟩
      exact ⟨free, rfl⟩
    · rintro ⟨free', rfl⟩
      obtain rfl := free.eq free'
      exact ⟨rfl, rfl⟩
  · rw [failed]
    refine iff_of_false nofun ?_
    rintro ⟨⟨k, within, rfl, free, -⟩, -⟩
    cases free.symm.trans (taken k within)

theorem claim_eq_error_iff {s : NameScope} {base : String} {e : Exhausted} :
    s.claim base = .error e ↔
      e = ⟨base⟩ ∧ ∀ k < maxAttempts, s.contains (spelling base k) = true := by
  rcases s.claim_cases base with ⟨name, ⟨k, within, rfl, free, -⟩, claimed⟩ | ⟨taken, failed⟩
  · rw [claimed]
    refine iff_of_false nofun ?_
    rintro ⟨-, taken⟩
    cases free.symm.trans (taken k within)
  · rw [failed, Except.error.injEq]
    exact ⟨fun h => ⟨h.symm, taken⟩, fun h => h.1.symm⟩

/-! ## Claims one after the other -/

theorem mem_insertAll (s : NameScope) (names : List String) (key : String) :
    key ∈ (s.insertAll names).taken ↔ key ∈ s.taken ∨ ∃ name ∈ names, lookupKey name = key := by
  induction names generalizing s with
  | nil => simp [insertAll]
  | cons name names ih =>
    have step : s.insertAll (name :: names) = (s.insert name).insertAll names := rfl
    rw [step, ih, mem_insert]
    simp only [List.mem_cons, exists_eq_or_imp, or_assoc, or_left_comm]

/-- Claims take the names that they return and nothing else. -/
theorem claimAll_insertAll {s t : NameScope} {bases names : List String}
    (h : s.claimAll bases = .ok (names, t)) :
    t = s.insertAll names ∧ t.size = s.size + names.length := by
  induction bases generalizing s names with
  | nil =>
    cases h
    exact ⟨rfl, rfl⟩
  | cons base bases ih =>
    obtain ⟨name, between, rest, claimed, others, rfl⟩ := claimAll_cons_eq_ok.mp h
    obtain ⟨-, free, rfl⟩ := claim_eq_ok claimed
    obtain ⟨scope, count⟩ := ih others
    refine ⟨scope, ?_⟩
    rw [count, size_insert free, List.length_cons]
    omega

/-! ## Room in a scope -/

/-- As many spellings as are taken, so many names are: no two spellings have one key. -/
theorem le_size_of_taken {s : NameScope} {base : String} {count : Nat}
    (taken : ∀ k < count, s.contains (spelling base k) = true) : count ≤ s.size := by
  let keys := (List.range count).map fun k => lookupKey (spelling base k)
  have distinct : keys.Nodup := by
    refine List.Nodup.map (fun j k same => ?_) List.nodup_range
    rw [lookupKey_spelling, lookupKey_spelling] at same
    exact spelling_injective _ same
  have held : keys ⊆ s.taken.toList := by
    intro key hkey
    obtain ⟨k, hk, rfl⟩ := List.mem_map.mp hkey
    rw [Std.TreeSet.mem_toList, ← Std.TreeSet.contains_iff_mem]
    exact taken k (List.mem_range.mp hk)
  have fewer := (List.subperm_of_subset distinct held).length_le
  simpa [keys, size, Std.TreeSet.length_toList] using fewer

/-! ## A claim that changes the scope as it goes -/

/-- Reserves the spellings of a base name from an attempt on, each in the scope that the one before
left, up to the first that was free. -/
def takeFrom (s : NameScope) (base : String) : (attempt count : Nat) → Option String × NameScope
  | _, 0 => (none, s)
  | attempt, count + 1 =>
    match s.reserve (spelling base attempt) with
    | (true, s') => (some (spelling base attempt), s')
    | (false, s') => takeFrom s' base (attempt + 1) count

theorem takeFrom_eq (s : NameScope) (base : String) (attempt count : Nat) :
    s.takeFrom base attempt count =
      match s.freeFrom base attempt count with
      | some k => (some (spelling base k), s.insert (spelling base k))
      | none => (none, s) := by
  induction count generalizing attempt with
  | zero => rfl
  | succ count ih =>
    cases taken : s.contains (spelling base attempt) with
    | false => simp [takeFrom, freeFrom, reserve, taken]
    | true => simp [takeFrom, freeFrom, reserve, taken, insert_of_contains taken, ih]

/-- What is tried in vain is not taken by it. -/
theorem takeFrom_claim (s : NameScope) (base : String) :
    s.takeFrom base 0 maxAttempts =
      match s.claim base with
      | .ok (name, s') => (some name, s')
      | .error _ => (none, s) := by
  rw [takeFrom_eq, claim]
  cases s.freeFrom base 0 maxAttempts <;> rfl

/-! ## Requests one after the other -/

/-- What can be asked of a scope. -/
inductive Request
  | claim (base : String)
  | reserve (name : String)
  deriving DecidableEq, Repr

/-- A request with its answer. -/
inductive Served
  | claimed (base name : String)
  | refused (base : String)
  | reserved (name : String) (free : Bool)
  deriving DecidableEq, Repr

namespace Served

def request : Served → Request
  | claimed base _ | refused base => .claim base
  | reserved name _ => .reserve name

/-- The name that a claim returned. -/
def granted? : Served → Option String
  | claimed _ name => some name
  | refused _ | reserved _ _ => none

/-- The name that is taken from then on. -/
def held? : Served → Option String
  | claimed _ name | reserved name _ => some name
  | refused _ => none

/-- Whether the name was not taken before. -/
def adds : Served → Bool
  | claimed _ _ => true
  | refused _ => false
  | reserved _ free => free

end Served

def serve (s : NameScope) : Request → Served × NameScope
  | .claim base =>
    match s.takeFrom base 0 maxAttempts with
    | (some name, s') => (.claimed base name, s')
    | (none, s') => (.refused base, s')
  | .reserve name =>
    let (free, s') := s.reserve name
    (.reserved name free, s')

def serveAll (s : NameScope) : List Request → List Served × NameScope
  | [] => ([], s)
  | request :: rest =>
    let (served, s) := s.serve request
    let (others, s) := s.serveAll rest
    (served :: others, s)

/-- The ways in which a request is served. -/
inductive Serves (s : NameScope) : Served → NameScope → Prop
  | claimed {base name : String} (first : s.FirstFree base name) :
      Serves s (.claimed base name) (s.insert name)
  | refused {base : String} (taken : ∀ k < maxAttempts, s.contains (spelling base k) = true) :
      Serves s (.refused base) s
  | reserved {name : String} (free : s.contains name = false) :
      Serves s (.reserved name true) (s.insert name)
  | held {name : String} (taken : s.contains name = true) : Serves s (.reserved name false) s

theorem serve_serves (s : NameScope) (request : Request) :
    (s.serve request).1.request = request ∧ s.Serves (s.serve request).1 (s.serve request).2 := by
  cases request with
  | claim base =>
    rcases s.claim_cases base with ⟨name, first, claimed⟩ | ⟨taken, failed⟩
    · simp only [serve, takeFrom_claim, claimed]
      exact ⟨rfl, .claimed first⟩
    · simp only [serve, takeFrom_claim, failed]
      exact ⟨rfl, .refused taken⟩
  | reserve name =>
    cases taken : s.contains name with
    | false =>
      simp only [serve, reserve, taken]
      exact ⟨rfl, .reserved taken⟩
    | true =>
      simp only [serve, reserve, taken, insert_of_contains taken]
      exact ⟨rfl, .held taken⟩

namespace Serves

variable {s s' : NameScope} {served : Served}

theorem keeps (h : s.Serves served s') {name : String} (taken : s.contains name = true) :
    s'.contains name = true := by
  cases h with
  | claimed | reserved => exact contains_insert_of_contains taken
  | refused | held => exact taken

/-- The name of a request is taken from then on, whether it was free or not. -/
theorem holds (h : s.Serves served s') : ∀ name ∈ served.held?, s'.contains name = true := by
  rintro name held
  cases h with
  | claimed | reserved =>
    cases held
    simp [contains_insert]
  | refused => cases held
  | held taken =>
    cases held
    exact taken

theorem fresh (h : s.Serves served s') : ∀ name ∈ served.granted?, s.contains name = false := by
  rintro name granted
  cases h with
  | claimed first =>
    cases granted
    obtain ⟨k, -, -, free, -⟩ := first
    exact free
  | refused | reserved | held => cases granted

theorem size (h : s.Serves served s') : s'.size = s.size + [served].countP (·.adds) := by
  cases h with
  | claimed first =>
    obtain ⟨k, -, -, free, -⟩ := first
    exact size_insert free
  | reserved free => exact size_insert free
  | refused | held => rfl

end Serves

/-- Served requests, each of which finds its granted names free of all that was held before. -/
structure ToldApart (s : NameScope) (served : List Served) (s' : NameScope) : Prop where
  fresh : ∀ answer ∈ served, ∀ name ∈ answer.granted?, s.contains name = false
  apart : served.Pairwise fun earlier later => ∀ held ∈ earlier.held?, ∀ name ∈ later.granted?,
    lookupKey name ≠ lookupKey held
  size : s'.size = s.size + served.countP (·.adds)

/-- The names of one request are told apart from those of all that follow: what it holds is taken in
the scope that they are served from. -/
theorem ToldApart.cons {s between s' : NameScope} {served : Served} {others : List Served}
    (first : s.Serves served between) (rest : between.ToldApart others s') :
    s.ToldApart (served :: others) s' where
  fresh := by
    intro answer hanswer name granted
    rcases List.mem_cons.mp hanswer with rfl | hanswer
    · exact first.fresh name granted
    · by_contra taken
      have free := rest.fresh answer hanswer name granted
      rw [first.keeps (by simpa using taken)] at free
      cases free
  apart := by
    refine List.pairwise_cons.mpr ⟨?_, rest.apart⟩
    intro later hlater held hheld name granted same
    have free := rest.fresh later hlater name granted
    rw [contains_congr between same, first.holds held hheld] at free
    cases free
  size := by
    rw [rest.size, first.size, Nat.add_assoc, ← List.countP_append, List.singleton_append]

theorem serveAll_toldApart (s : NameScope) (requests : List Request) :
    (s.serveAll requests).1.map (·.request) = requests ∧
      s.ToldApart (s.serveAll requests).1 (s.serveAll requests).2 := by
  induction requests generalizing s with
  | nil => exact ⟨rfl, nofun, .nil, rfl⟩
  | cons request rest ih =>
    obtain ⟨asked, first⟩ := s.serve_serves request
    obtain ⟨others, apart⟩ := ih (s.serve request).2
    exact ⟨congrArg₂ List.cons asked others, .cons first apart⟩

/-- A claim returns the first free one of a base name and its numbered forms and takes exactly that
name's key. It fails just where all of them are taken, so never in a scope of fewer names, and what
it has tried leaves the scope as it was. Of requests that are served one after the other, refused
ones among them, no two return names that are alike but for case, nor is any returned name like one
that was reserved before; as many names are added as were free when they were asked for. -/
theorem granted_names_apart (s : NameScope) :
    (∀ base name s', s.claim base = .ok (name, s') ↔ s.FirstFree base name ∧ s' = s.insert name) ∧
    (∀ name key, key ∈ (s.insert name).taken ↔ lookupKey name = key ∨ key ∈ s.taken) ∧
    (∀ base e, s.claim base = .error e ↔
      e = ⟨base⟩ ∧ ∀ k < maxAttempts, s.contains (spelling base k) = true) ∧
    (∀ base, s.takeFrom base 0 maxAttempts =
      match s.claim base with
      | .ok (name, s') => (some name, s')
      | .error _ => (none, s)) ∧
    (∀ base, (∃ name s', s.claim base = .ok (name, s')) ∨ maxAttempts ≤ s.size) ∧
    ∀ requests, (s.serveAll requests).1.map (·.request) = requests ∧
      s.ToldApart (s.serveAll requests).1 (s.serveAll requests).2 := by
  refine ⟨fun _ _ _ => claim_eq_ok_iff, s.mem_insert, fun _ _ => claim_eq_error_iff,
    s.takeFrom_claim, fun base => ?_, s.serveAll_toldApart⟩
  rcases s.claim_cases base with ⟨name, -, claimed⟩ | ⟨taken, -⟩
  · exact .inl ⟨name, _, claimed⟩
  · exact .inr (le_size_of_taken taken)

example : (empty.serveAll [.claim "a1", .claim "a", .reserve "A2", .claim "A"]).1 =
    [.claimed "a1" "a1", .claimed "a" "a", .reserved "A2" true, .claimed "A" "A3"] := by
  decide +kernel

end NameScope

end EnumRegistry
