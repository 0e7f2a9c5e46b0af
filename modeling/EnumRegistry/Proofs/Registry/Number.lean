import EnumRegistry.Proofs.Text.Integer
import EnumRegistry.Registry.Element

/-!
Numbers in attributes. A number is decimal, or hexadecimal behind `0x`, with an optional sign and
with blanks around it; an attribute is read as the exact value of the number that it is, if 64
signed bits hold it, and refused as it stands otherwise.
-/

namespace EnumRegistry

namespace Element

/-- A decimal number, or a hexadecimal one behind `0x`. -/
inductive IsNumber : List Char → Int → Prop
  | decimal {cs : List Char} {v : Int} : Text.IsSigned 10 cs v → IsNumber cs v
  | hexadecimal {mark : Char} {cs : List Char} {v : Int} :
      mark = 'x' ∨ mark = 'X' → Text.IsSigned 16 cs v → IsNumber ('0' :: mark :: cs) v

/-- A text that is a number but for blanks around it. -/
def IsNumberText (text : String) (v : Int) : Prop :=
  ∃ before cs after, text.toList = before ++ cs ++ after ∧
    (∀ c ∈ before, Text.isBlank c = true) ∧ (∀ c ∈ after, Text.isBlank c = true) ∧ IsNumber cs v

theorem IsNumber.solid {cs : List Char} {v : Int} (h : IsNumber cs v) :
    ∀ c ∈ cs, Text.isBlank c = false := by
  have signed {radix : Nat} (known : radix ≤ 16) {cs : List Char}
      (h : Text.IsSigned radix cs v) : ∀ c ∈ cs, Text.isBlank c = false := by
    intro c hc
    rcases h.chars known c hc with alphanum | rfl | rfl
    · exact Text.isBlank_of_isAlphanum alphanum
    · decide
    · decide
  cases h with
  | decimal number => exact signed (by decide) number
  | hexadecimal mark number =>
    refine List.forall_mem_cons.mpr ⟨by decide, List.forall_mem_cons.mpr ⟨?_, ?_⟩⟩
    · rcases mark with rfl | rfl <;> decide
    · exact signed (by decide) number

theorem isNumberText_iff {text : String} {v : Int} :
    IsNumberText text v ↔ IsNumber (Text.trimEnds Text.isBlank text.toList) v := by
  constructor
  · rintro ⟨before, cs, after, whole, hb, ha, number⟩
    rw [whole, Text.trimEnds_between hb ha number.solid]
    exact number
  · intro number
    obtain ⟨before, after, whole, hb, ha⟩ := Text.exists_trimEnds Text.isBlank text.toList
    exact ⟨before, _, after, whole, hb, ha, number⟩

/-- The mark of a hexadecimal number is no decimal digit. -/
theorem isNumber_marked {mark : Char} (hexadecimal : mark = 'x' ∨ mark = 'X') {cs : List Char}
    {v : Int} : IsNumber ('0' :: mark :: cs) v ↔ Text.IsSigned 16 cs v := by
  constructor
  · intro h
    cases h with
    | decimal number =>
      have read : Text.signed? 10 ('0' :: mark :: cs) = some v :=
        (Text.signed?_eq_some_iff (by decide)).mpr number
      rcases hexadecimal with rfl | rfl <;> cases read
    | hexadecimal _ number => exact number
  · exact .hexadecimal hexadecimal

theorem number?_eq_some_iff {text : String} {v : Int} :
    number? text = some v ↔ IsNumberText text v ∧ -2 ^ 63 ≤ v ∧ v ≤ 2 ^ 63 - 1 := by
  rw [isNumberText_iff]
  unfold number?
  -- Behind the two marks a number is hexadecimal, and it is decimal without them.
  split
  · rename_i digits trimmed
    rw [trimmed, isNumber_marked (.inl rfl), Text.int64?_eq_some_iff (by decide)]
  · rename_i digits trimmed
    rw [trimmed, isNumber_marked (.inr rfl), Text.int64?_eq_some_iff (by decide)]
  · rename_i small capital
    rw [Text.int64?_eq_some_iff (by decide)]
    refine and_congr_left fun _ => ⟨.decimal, ?_⟩
    intro number
    generalize Text.trimEnds Text.isBlank text.toList = cs at *
    cases number with
    | decimal number => exact number
    | @hexadecimal mark cs v hexa number =>
      rcases hexa with rfl | rfl
      · exact absurd rfl (small cs)
      · exact absurd rfl (capital cs)

theorem isNumberText_toString (v : Int) : IsNumberText (toString v) v :=
  ⟨[], _, [], by simp, List.forall_mem_nil _, List.forall_mem_nil _,
    .decimal (Text.isSigned_toString v)⟩

section
variable {e : Element} {name text : String}

theorem int?_absent (h : e.attr? name = none) : e.int? name = .ok none := by
  rw [int?, h]

theorem int?_number {v : Int} (h : e.attr? name = some text) (read : number? text = some v) :
    e.int? name = .ok (some v) := by
  rw [int?, h]
  dsimp only
  rw [read]

theorem int?_other (h : e.attr? name = some text) (refused : number? text = none) :
    e.int? name = .error (.invalidNumber e.tag name text e.position) := by
  rw [int?, h]
  dsimp only
  rw [refused]

end

/-- An attribute is read if it is a number that 64 signed bits hold, and as exactly that number; it
is refused with its text as it stands if it is none, and may be absent. So every such number is
read back from its decimal digits. -/
theorem int?_reads_numbers (e : Element) (name : String) :
    (e.int? name = .ok none ↔ e.attr? name = none) ∧
      (∀ v, e.int? name = .ok (some v) ↔
        ∃ text, e.attr? name = some text ∧ IsNumberText text v ∧ -2 ^ 63 ≤ v ∧ v ≤ 2 ^ 63 - 1) ∧
      (∀ err, e.int? name = .error err ↔
        ∃ text, e.attr? name = some text ∧
          (¬ ∃ v, IsNumberText text v ∧ -2 ^ 63 ≤ v ∧ v ≤ 2 ^ 63 - 1) ∧
          err = .invalidNumber e.tag name text e.position) ∧
      (∀ v : Int, -2 ^ 63 ≤ v → v ≤ 2 ^ 63 - 1 → e.attr? name = some (toString v) →
        e.int? name = .ok (some v)) := by
  have digits (v : Int) (least : -2 ^ 63 ≤ v) (most : v ≤ 2 ^ 63 - 1)
      (h : e.attr? name = some (toString v)) : e.int? name = .ok (some v) :=
    int?_number h (number?_eq_some_iff.mpr ⟨isNumberText_toString v, least, most⟩)
  rw [← and_assoc, ← and_assoc]
  refine ⟨?_, digits⟩
  simp only [← number?_eq_some_iff]
  cases given : e.attr? name with
  | none => simp [int?_absent given]
  | some text =>
    cases read : number? text with
    | none => simp [int?_other given read, read, eq_comm]
    | some v => simp [int?_number given read, read]

/-- A row whose values lie at the bounds. -/
def atBounds : Element where
  kind := .enumerationRange
  tag := "enumrow_range"
  attributes := .ofList [("value", "\t0X-1f "), ("value_min", "-9223372036854775808"),
    ("value_max", " 9223372036854775808")]
  position := 7

theorem bounds_read :
    atBounds.int? "name" = .ok none ∧ atBounds.int? "value" = .ok (some (-31)) ∧
      atBounds.int? "value_min" = .ok (some (-2 ^ 63)) ∧
      atBounds.int? "value_max" =
        .error (.invalidNumber "enumrow_range" "value_max" " 9223372036854775808" 7) := by
  have hexadecimal : IsNumberText "\t0X-1f " (-31) := by
    have tab : ∀ c ∈ ['\t'], Text.isBlank c = true := List.forall_mem_singleton.mpr (by decide)
    have space : ∀ c ∈ [' '], Text.isBlank c = true := List.forall_mem_singleton.mpr (by decide)
    refine ⟨['\t'], ['0', 'X', '-', '1', 'f'], [' '], rfl, tab, space, ?_⟩
    exact .hexadecimal (.inr rfl) (.minus ⟨by decide, [1, 15], by simp [Text.IsDigit], rfl⟩)
  have beyond : ¬ ∃ v, IsNumberText " 9223372036854775808" v ∧ -2 ^ 63 ≤ v ∧ v ≤ 2 ^ 63 - 1 := by
    rintro ⟨v, number⟩
    have read : number? " 9223372036854775808" = some v := number?_eq_some_iff.mpr number
    have refused : number? " 9223372036854775808" = none := by decide
    rw [refused] at read
    cases read
  obtain ⟨absent, -, -, -⟩ := atBounds.int?_reads_numbers "name"
  obtain ⟨-, read, -, -⟩ := atBounds.int?_reads_numbers "value"
  obtain ⟨-, -, -, digits⟩ := atBounds.int?_reads_numbers "value_min"
  obtain ⟨-, -, refused, -⟩ := atBounds.int?_reads_numbers "value_max"
  exact ⟨absent.mpr (by decide), (read _).mpr ⟨_, by decide, hexadecimal, by decide⟩,
    digits _ (by decide) (by decide) (by decide), (refused _).mpr ⟨_, by decide, beyond, rfl⟩⟩

end Element

end EnumRegistry
