import EnumRegistry.Text.Integer
import EnumRegistry.Proofs.Text.Blank
import Mathlib.Data.Nat.Digits.Defs
import Mathlib.Data.List.Forall2

/-!
Integers in text. Digits, naturals and signed numbers are described apart from how they are read,
with the value that they stand for; what is read is just these, and of the signed numbers just those
of 64 signed bits. Every integer is read back from its decimal digits.
-/

namespace EnumRegistry.Text

/-- A digit of a radix and what it counts. Capital letters count as small ones do. -/
def IsDigit (radix : Nat) (c : Char) (d : Nat) : Prop :=
  d < radix ∧ c.toLower = Nat.digitChar d

/-- One or more digits and the number they stand for, the first counting most. -/
def IsNatural (radix : Nat) (cs : List Char) (n : Nat) : Prop :=
  cs ≠ [] ∧ ∃ digits, List.Forall₂ (IsDigit radix) cs digits ∧
    n = Nat.ofDigits radix digits.reverse

/-- A natural behind an optional sign. -/
inductive IsSigned (radix : Nat) : List Char → Int → Prop
  | unsigned {cs : List Char} {n : Nat} : IsNatural radix cs n → IsSigned radix cs n
  | plus {cs : List Char} {n : Nat} : IsNatural radix cs n → IsSigned radix ('+' :: cs) n
  | minus {cs : List Char} {n : Nat} : IsNatural radix cs n → IsSigned radix ('-' :: cs) (-n)

/-! ## Digits -/

section
variable {radix : Nat} {c : Char} {d : Nat}

theorem isAlphanum_of_digit? (h : digit? radix c = some d) : c.isAlphanum = true := by
  by_contra sign
  change ¬ ((c.isUpper || c.isLower) || c.isDigit) = true at sign
  simp only [Bool.or_eq_true, not_or, Bool.not_eq_true] at sign
  simp [digit?, sign] at h

theorem digit?_ascii : ∀ n < 128, ∀ d < 16,
    digit? 16 (Char.ofNat n) = some d ↔ (Char.ofNat n).toLower = Nat.digitChar d := by
  decide

theorem digitChar_small : ∀ d < 16, (Nat.digitChar d).toNat < 128 ∧
    (Nat.digitChar d).toLower = Nat.digitChar d := by
  decide

theorem ascii_of_toLower (h : c.toLower.toNat < 128) : c.toNat < 128 := by
  unfold Char.toLower at h
  split at h
  · rename_i capital
    have bound : c.toNat ≤ 90 := UInt32.le_iff_toNat_le.mp capital.2
    omega
  · exact h

/-- Up to sixteen, a radix has the first of the hexadecimal digits. -/
theorem digit?_small (known : radix ≤ 16) :
    digit? radix c = some d ↔ d < radix ∧ digit? 16 c = some d := by
  simp only [digit?, Option.ite_none_right_eq_some, Option.some.injEq]
  split_ifs <;> omega

theorem digit?_eq_some_iff (known : radix ≤ 16) :
    digit? radix c = some d ↔ IsDigit radix c d := by
  rw [digit?_small known, IsDigit]
  refine and_congr_right fun bound => ?_
  have small : d < 16 := by omega
  have table (ascii : c.toNat < 128) : digit? 16 c = some d ↔ c.toLower = Nat.digitChar d :=
    of_ascii (P := fun c => ∀ d < 16, digit? 16 c = some d ↔ c.toLower = Nat.digitChar d)
      digit?_ascii ascii d small
  constructor
  · intro read
    have alphanum : c.isAlphanum = true := isAlphanum_of_digit? read
    exact (table (toNat_lt_of_isAlphanum alphanum)).mp read
  · intro written
    have ascii : c.toNat < 128 := ascii_of_toLower (written ▸ (digitChar_small d small).1)
    exact (table ascii).mpr written

end

/-! ## Numbers -/

section
variable {radix : Nat} (known : radix ≤ 16)
include known

/-- The digits behind a value move it up by as many places as they take. -/
theorem digitsOnto_eq_some_iff {value n : Nat} {cs : List Char} :
    digitsOnto radix value cs = some n ↔
      ∃ digits, List.Forall₂ (IsDigit radix) cs digits ∧
        n = value * radix ^ digits.length + Nat.ofDigits radix digits.reverse := by
  -- The value read so far changes with every digit, so the equation is carried for any value.
  induction cs generalizing value with
  | nil => simp [digitsOnto, eq_comm]
  | cons c rest ih =>
    have moved (d : Nat) (digits : List Nat) :
        (value * radix + d) * radix ^ digits.length + Nat.ofDigits radix digits.reverse =
          value * radix ^ (d :: digits).length + Nat.ofDigits radix (d :: digits).reverse := by
      rw [List.reverse_cons, Nat.ofDigits_append, Nat.ofDigits_singleton, List.length_reverse,
        List.length_cons]
      ring
    rw [digitsOnto]
    constructor
    · intro h
      cases read : digit? radix c with
      | none =>
        rw [read] at h
        cases h
      | some d =>
        rw [read] at h
        obtain ⟨digits, written, rfl⟩ := ih.mp h
        exact ⟨d :: digits, .cons ((digit?_eq_some_iff known).mp read) written, moved d digits⟩
    · rintro ⟨_, written, rfl⟩
      cases written with
      | @cons _ d _ digits first behind =>
        rw [(digit?_eq_some_iff known).mpr first]
        exact ih.mpr ⟨digits, behind, (moved d digits).symm⟩

theorem natural?_eq_some_iff {n : Nat} {cs : List Char} :
    natural? radix cs = some n ↔ IsNatural radix cs n := by
  cases cs with
  | nil => simp [natural?, IsNatural]
  | cons c rest => simp [natural?, IsNatural, digitsOnto_eq_some_iff known]

theorem IsNatural.isAlphanum {n : Nat} {cs : List Char} (h : IsNatural radix cs n) :
    ∀ c ∈ cs, c.isAlphanum = true := by
  obtain ⟨-, digits, written, -⟩ := h
  induction written with
  | nil => exact List.forall_mem_nil _
  | cons first _ ih =>
    exact List.forall_mem_cons.mpr
      ⟨isAlphanum_of_digit? ((digit?_eq_some_iff known).mpr first), ih⟩

theorem IsSigned.chars {v : Int} {cs : List Char} (h : IsSigned radix cs v) :
    ∀ c ∈ cs, c.isAlphanum = true ∨ c = '+' ∨ c = '-' := by
  have digits {cs : List Char} {n : Nat} (h : IsNatural radix cs n) :
      ∀ c ∈ cs, c.isAlphanum = true ∨ c = '+' ∨ c = '-' :=
    fun c hc => .inl (h.isAlphanum known c hc)
  cases h with
  | unsigned natural => exact digits natural
  | plus natural => exact List.forall_mem_cons.mpr ⟨.inr (.inl rfl), digits natural⟩
  | minus natural => exact List.forall_mem_cons.mpr ⟨.inr (.inr rfl), digits natural⟩

theorem signed?_eq_some_iff {v : Int} {cs : List Char} :
    signed? radix cs = some v ↔ IsSigned radix cs v := by
  constructor
  · intro h
    unfold signed? at h
    split at h
    · obtain ⟨n, read, rfl⟩ := Option.map_eq_some_iff.mp h
      exact .plus ((natural?_eq_some_iff known).mp read)
    · obtain ⟨n, read, rfl⟩ := Option.map_eq_some_iff.mp h
      exact .minus ((natural?_eq_some_iff known).mp read)
    · obtain ⟨n, read, rfl⟩ := Option.map_eq_some_iff.mp h
      exact .unsigned ((natural?_eq_some_iff known).mp read)
  · intro h
    cases h with
    | @unsigned cs n natural =>
      have read := (natural?_eq_some_iff known).mpr natural
      -- A natural begins with a digit, so no sign is taken off it.
      have unlike {sign : Char} (h : sign.isAlphanum = false) (rest : List Char) :
          cs ≠ sign :: rest := by
        rintro rfl
        have first := natural.isAlphanum known sign (List.mem_cons_self ..)
        rw [h] at first
        cases first
      rw [signed?, read]
      · rfl
      · exact unlike (by decide)
      · exact unlike (by decide)
    | plus natural =>
      rw [signed?, (natural?_eq_some_iff known).mpr natural]
      rfl
    | minus natural =>
      rw [signed?, (natural?_eq_some_iff known).mpr natural]
      rfl

/-- What is read is a signed number, and neither bound is passed. -/
theorem int64?_eq_some_iff {v : Int} {cs : List Char} :
    int64? radix cs = some v ↔ IsSigned radix cs v ∧ -2 ^ 63 ≤ v ∧ v ≤ 2 ^ 63 - 1 := by
  rw [int64?, Option.filter_eq_some_iff, signed?_eq_some_iff known]
  refine and_congr_right fun _ => ?_
  simp only [fitsInt64, Bool.and_eq_true, decide_eq_true_eq]
  omega

end

/-! ## Decimal digits -/

theorem IsNatural.digit {radix d : Nat} (known : radix ≤ 16) (bound : d < radix) :
    IsNatural radix [Nat.digitChar d] d := by
  refine ⟨List.cons_ne_nil _ _, [d], .cons ⟨bound, (digitChar_small d (by omega)).2⟩ .nil, ?_⟩
  simp

theorem IsNatural.append_digit {radix n d : Nat} {cs : List Char} (known : radix ≤ 16)
    (h : IsNatural radix cs n) (bound : d < radix) :
    IsNatural radix (cs ++ [Nat.digitChar d]) (radix * n + d) := by
  obtain ⟨-, digits, written, rfl⟩ := h
  have last : IsDigit radix (Nat.digitChar d) d := ⟨bound, (digitChar_small d (by omega)).2⟩
  refine ⟨by simp, digits ++ [d], List.rel_append written (.cons last .nil), ?_⟩
  rw [List.reverse_append, List.reverse_singleton, List.singleton_append, Nat.ofDigits_cons]
  exact Nat.add_comm _ _

theorem isNatural_toDigits {radix : Nat} (known : radix ≤ 16) (two : 1 < radix) (n : Nat) :
    IsNatural radix (Nat.toDigits radix n) n := by
  induction n using Nat.strongRecOn with
  | ind n ih =>
    by_cases one : n < radix
    · rw [Nat.toDigits_of_lt_base one]
      exact .digit known one
    · have shorter : n / radix < n := Nat.div_lt_self (by omega) two
      have whole := (ih (n / radix) shorter).append_digit known (Nat.mod_lt n (by omega))
      rw [Nat.div_add_mod] at whole
      rw [Nat.toDigits_of_base_le two (by omega)]
      exact whole

theorem toList_toString_negSucc (n : Nat) :
    (toString (Int.negSucc n)).toList = '-' :: (toString (n + 1)).toList := by
  change ("-" ++ Nat.repr (n + 1)).toList = _
  rw [String.toList_append]
  rfl

theorem isSigned_toString (v : Int) : IsSigned 10 (toString v).toList v := by
  have digits (n : Nat) : IsNatural 10 (toString n).toList n := by
    rw [Nat.toString_eq_ofList_toDigits, String.toList_ofList]
    exact isNatural_toDigits (by decide) (by decide) n
  cases v with
  | ofNat n => exact .unsigned (digits n)
  | negSucc n =>
    rw [toList_toString_negSucc]
    exact .minus (digits (n + 1))

end EnumRegistry.Text
