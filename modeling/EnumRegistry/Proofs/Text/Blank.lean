import EnumRegistry.Text.Blank
import Mathlib.Data.List.TakeWhile

/-!
Blanks and the ends of texts. No letter and no digit is blank. Trimming takes from both ends the
characters of a class and nothing behind them: a text that begins and ends with others is kept
whole, and one without any comes back from between characters of the class.
-/

namespace EnumRegistry

/-! ## Characters -/

theorem of_ascii {P : Char → Prop} (h : ∀ n < 128, P (Char.ofNat n)) {c : Char}
    (hc : c.toNat < 128) : P c := by
  rw [← Char.ofNat_toNat c]
  exact h c.toNat hc

namespace Text

theorem toNat_lt_of_isAlphanum {c : Char} (h : c.isAlphanum = true) : c.toNat < 128 := by
  -- The tests for upper and for lower case and for digits, as the intervals they stand for.
  change ((decide (65 ≤ c.val ∧ c.val ≤ 90) || (decide (97 ≤ c.val) && decide (c.val ≤ 122))) ||
    (decide (48 ≤ c.val) && decide (c.val ≤ 57))) = true at h
  simp only [Bool.or_eq_true, Bool.and_eq_true, decide_eq_true_eq, UInt32.le_iff_toNat_le] at h
  change ((65 ≤ c.toNat ∧ c.toNat ≤ 90) ∨ 97 ≤ c.toNat ∧ c.toNat ≤ 122) ∨
    48 ≤ c.toNat ∧ c.toNat ≤ 57 at h
  omega

theorem isBlank_of_isAlphanum {c : Char} (h : c.isAlphanum = true) : isBlank c = false :=
  of_ascii (P := fun c => c.isAlphanum = true → isBlank c = false) (by decide)
    (toNat_lt_of_isAlphanum h) h

/-! ## Trimming -/

section
variable {edge : Char → Bool} {cs : List Char} {c : Char}

theorem mem_dropWhile_of_not (h : c ∈ cs) (hc : edge c = false) : c ∈ cs.dropWhile edge := by
  induction cs with
  | nil => cases h
  | cons d cs ih =>
    rw [List.dropWhile_cons]
    split
    · rename_i drop
      rcases List.mem_cons.mp h with rfl | h
      · simp [hc] at drop
      · exact ih h
    · exact h

theorem not_edge_of_dropWhile (h : (cs.dropWhile edge).head? = some c) : edge c = false := by
  have := List.head?_dropWhile_not edge cs
  rw [h] at this
  simpa using this

theorem trimEnds_isPrefix (edge : Char → Bool) (cs : List Char) :
    trimEnds edge cs <+: cs.dropWhile edge := by
  rw [trimEnds, ← List.reverse_suffix, List.reverse_reverse]
  exact List.dropWhile_suffix _

theorem mem_trimEnds (h : c ∈ trimEnds edge cs) : c ∈ cs :=
  (List.dropWhile_sublist edge).subset ((trimEnds_isPrefix edge cs).subset h)

theorem mem_trimEnds_of_not (h : c ∈ cs) (hc : edge c = false) : c ∈ trimEnds edge cs := by
  rw [trimEnds, List.mem_reverse]
  exact mem_dropWhile_of_not (List.mem_reverse.mpr (mem_dropWhile_of_not h hc)) hc

theorem head?_trimEnds_eq (edge : Char → Bool) (cs : List Char) :
    (trimEnds edge cs).head? = (cs.dropWhile edge).head? := by
  obtain ⟨rest, hrest⟩ := trimEnds_isPrefix edge cs
  cases hdrop : cs.dropWhile edge with
  | nil =>
    rw [hdrop, List.append_eq_nil_iff] at hrest
    rw [hrest.1]
  | cons c ds =>
    -- The first character that is no edge is not trimmed from behind either.
    have kept : edge c = false := not_edge_of_dropWhile (by rw [hdrop, List.head?_cons])
    have member : c ∈ trimEnds edge cs := by
      apply mem_trimEnds_of_not _ kept
      exact (List.dropWhile_sublist edge).subset (hdrop ▸ List.mem_cons_self ..)
    rw [hdrop] at hrest
    cases htrim : trimEnds edge cs with
    | nil => simp [htrim] at member
    | cons d ds' =>
      rw [htrim, List.cons_append] at hrest
      rw [List.head?_cons, List.head?_cons, (List.cons.inj hrest).1]

theorem head?_trimEnds (h : (trimEnds edge cs).head? = some c) : edge c = false := by
  rw [head?_trimEnds_eq] at h
  exact not_edge_of_dropWhile h

theorem getLast?_trimEnds (h : (trimEnds edge cs).getLast? = some c) : edge c = false := by
  rw [trimEnds, List.getLast?_reverse] at h
  exact not_edge_of_dropWhile h

theorem dropWhile_of_edge (start : ∀ c, cs.head? = some c → edge c = false) :
    cs.dropWhile edge = cs := by
  cases cs with
  | nil => rfl
  | cons c rest => rw [List.dropWhile_cons, start c rfl, if_neg Bool.false_ne_true]

theorem trimEnds_of_edges (start : ∀ c, cs.head? = some c → edge c = false)
    (finish : ∀ c, cs.getLast? = some c → edge c = false) : trimEnds edge cs = cs := by
  rw [trimEnds, dropWhile_of_edge start, dropWhile_of_edge (by simpa using finish),
    List.reverse_reverse]

/-- What is trimmed off is of the class. -/
theorem exists_trimEnds (edge : Char → Bool) (cs : List Char) :
    ∃ before after, cs = before ++ trimEnds edge cs ++ after ∧
      (∀ c ∈ before, edge c = true) ∧ ∀ c ∈ after, edge c = true := by
  refine ⟨cs.takeWhile edge, ((cs.dropWhile edge).reverse.takeWhile edge).reverse, ?_,
    fun c hc => List.mem_takeWhile_imp hc,
    fun c hc => List.mem_takeWhile_imp (List.mem_reverse.mp hc)⟩
  rw [trimEnds, List.append_assoc, ← List.reverse_append, List.takeWhile_append_dropWhile,
    List.reverse_reverse, List.takeWhile_append_dropWhile]

theorem trimEnds_between {before after : List Char} (hb : ∀ c ∈ before, edge c = true)
    (ha : ∀ c ∈ after, edge c = true) (solid : ∀ c ∈ cs, edge c = false) :
    trimEnds edge (before ++ cs ++ after) = cs := by
  have start : cs.dropWhile edge = cs :=
    dropWhile_of_edge fun c hc => solid c (List.mem_of_mem_head? hc)
  have finish : cs.reverse.dropWhile edge = cs.reverse :=
    dropWhile_of_edge fun c hc => solid c (List.mem_reverse.mp (List.mem_of_mem_head? hc))
  rw [trimEnds, List.append_assoc, List.dropWhile_append_of_pos hb, List.dropWhile_append, start]
  split
  · rename_i empty
    rw [List.dropWhile_eq_nil_iff.mpr ha, List.isEmpty_iff.mp empty]
    rfl
  · rw [List.reverse_append, List.dropWhile_append_of_pos (by simpa using ha), finish,
      List.reverse_reverse]

end

end Text

end EnumRegistry
