import EnumRegistry.Proofs.Text.OneLine
import EnumRegistry.Target.Spelling

/-!
Texts in comments. Whatever a text is, in a comment it stands on one line and ends no block comment;
but it ends as it did, so a backslash that is its last character is the last of the comment too.
-/

namespace EnumRegistry

theorem mem_partCommentEnds {cs : List Char} {c : Char} (h : c ∈ partCommentEnds cs) :
    c = ' ' ∨ c ∈ cs := by
  fun_induction partCommentEnds cs with
  | case1 rest ih =>
    simp only [List.mem_cons] at h ⊢
    rcases h with rfl | rfl | rfl | h
    · exact .inr (.inl rfl)
    · exact .inl rfl
    · exact .inr (.inr (.inl rfl))
    · exact (ih h).imp_right fun h => .inr (.inr h)
  | case2 d rest _ ih =>
    rcases List.mem_cons.mp h with rfl | h
    · exact .inr (List.mem_cons_self ..)
    · exact (ih h).imp_right (List.mem_cons_of_mem _)
  | case3 => cases h

theorem head?_partCommentEnds (cs : List Char) : (partCommentEnds cs).head? = cs.head? := by
  fun_cases partCommentEnds cs <;> rfl

theorem getLast?_partCommentEnds (cs : List Char) :
    (partCommentEnds cs).getLast? = cs.getLast? := by
  fun_induction partCommentEnds cs with
  | case1 rest ih => simp [List.getLast?_cons, ih]
  | case2 d rest _ ih => rw [List.getLast?_cons, List.getLast?_cons, ih]
  | case3 => rfl

/-- No end of a block comment is left, and none comes to be where another was parted. -/
theorem not_infix_partCommentEnds (cs : List Char) :
    ¬ ['*', '/'] <:+: partCommentEnds cs := by
  fun_induction partCommentEnds cs with
  | case1 rest ih => simpa [List.infix_cons_iff] using ih
  | case2 d rest unended ih =>
    rw [List.infix_cons_iff]
    rintro (begins | inside)
    · rw [List.cons_prefix_cons] at begins
      obtain ⟨rfl, ⟨more, slash⟩⟩ := begins
      have first := head?_partCommentEnds rest
      rw [← slash] at first
      obtain ⟨others, rfl⟩ := List.head?_eq_some_iff.mp first.symm
      exact unended others rfl rfl
    · exact ih inside
  | case3 => simp

theorem commentText_onOneLine (s : String) : Text.OnOneLine (commentText s) := by
  intro c hc
  rw [commentText, String.toList_ofList] at hc
  rcases mem_partCommentEnds hc with rfl | hc
  · decide
  · exact Text.onOneLine_oneLine s c hc

theorem commentText_ends_no_block (s : String) : ¬ Text.Holds (commentText s) "*/" := by
  simpa [Text.Holds, commentText] using not_infix_partCommentEnds (Text.oneLine s).toList

/-- A comment ends as its text does, but for blanks. -/
theorem getLast?_commentText (s : String) :
    (commentText s).toList.getLast? = Text.lastSolid? s := by
  rw [commentText, String.toList_ofList, getLast?_partCommentEnds, Text.getLast?_oneLine]

end EnumRegistry
