import EnumRegistry.Proofs.Emission.Rendering
import EnumRegistry.Proofs.Target.Comment
import EnumRegistry.Proofs.Target.Literal

/-!
The note on where a file comes from. It stands in a comment of the header, or in the docstring of a
module, between words of its own that end neither; so whether it stays there is decided by the
texts of the registry that it shows.
-/

namespace EnumRegistry

/-- What ends a block comment, what ends a docstring, and what changes the meaning of what follows
in a docstring. -/
def noteMarks : List String := ["*/", "\"\"\"", "\\"]

/-- How a note names the revision of a registry. -/
def revisionNote : Option Revision → String
  | some r => " from " ++ Text.oneLine r.title ++ " (" ++ Text.oneLine r.date ++ ")"
  | none => ""

/-- How a note names the UID of a symbol. -/
def uidNote : Option String → String
  | some uid => "; UID " ++ uid
  | none => ""

/-- What stands around the texts of a note parts them, whatever mark is looked for. -/
theorem noteMarks_parted {gap mark : String} (h : mark ∈ noteMarks)
    (known : gap ∈ ["Generated by disenum-gen", " from ", " (", ")", "; UID ", "."]) :
    Text.Parts gap mark := by
  have parts : ∀ gap ∈ ["Generated by disenum-gen", " from ", " (", ")", "; UID ", "."],
      ∀ mark ∈ noteMarks, Text.Parts gap mark := by decide
  exact parts gap known mark h

theorem holds_oneLine_of_noteMarks {mark : String} (h : mark ∈ noteMarks) (s : String) :
    Text.Holds (Text.oneLine s) mark ↔ Text.Holds s mark := by
  have solid : ∀ mark ∈ noteMarks, mark.toList.all (fun c => !Text.isBlank c) = true ∧
      mark.toList ≠ [] := by decide
  exact Text.holds_oneLine (solid mark h).1 (solid mark h).2 s

namespace RenderContext

variable (cx : RenderContext)

/-- The texts of a registry that a note shows: title and date of its revision, and the UID of the
symbol. -/
def noted : List String :=
  (cx.revision.elim [] fun r => [r.title, r.date]) ++ cx.uid.toList

theorem provenance_eq : cx.provenance =
    "Generated by disenum-gen" ++ (revisionNote cx.revision ++ (uidNote cx.uid ++ ".")) := by
  rw [← String.append_assoc, ← String.append_assoc]
  rfl

/-- A note holds what its texts hold, and no mark comes to be where they are put together. -/
theorem holds_provenance {mark : String} (h : mark ∈ noteMarks) :
    Text.Holds cx.provenance mark ↔ ∃ text ∈ cx.noted, Text.Holds text mark := by
  have ending : Text.Holds (uidNote cx.uid ++ ".") mark ↔
      ∃ text ∈ cx.uid.toList, Text.Holds text mark := by
    rw [Text.holds_append_gap (noteMarks_parted h (by simp))]
    cases cx.uid with
    | none => simpa [uidNote] using Text.not_holds_empty (noteMarks_parted h (.head _))
    | some uid =>
      rw [uidNote, Text.holds_gap_append (noteMarks_parted h (by simp))]
      simp
  rw [provenance_eq, Text.holds_gap_append (noteMarks_parted h (by simp)), noted]
  cases cx.revision with
  | none =>
    rw [revisionNote, String.empty_append, ending]
    rfl
  | some r =>
    simp only [revisionNote, String.append_assoc]
    rw [Text.holds_gap_append (noteMarks_parted h (by simp)),
      Text.holds_append_gap_append (noteMarks_parted h (by simp)),
      Text.holds_append_gap_append (noteMarks_parted h (by simp)),
      holds_oneLine_of_noteMarks h, holds_oneLine_of_noteMarks h, ending]
    simp

/-- Title and date are put on one line, and the UID is not. -/
theorem onOneLine_provenance :
    Text.OnOneLine cx.provenance ↔ ∀ uid ∈ cx.uid.toList, Text.OnOneLine uid := by
  have before : Text.OnOneLine (revisionNote cx.revision) := by
    cases cx.revision with
    | none => decide
    | some r =>
      simp only [revisionNote, Text.onOneLine_append, Text.onOneLine_oneLine]
      decide
  have behind : Text.OnOneLine (uidNote cx.uid) ↔ ∀ uid ∈ cx.uid.toList, Text.OnOneLine uid := by
    cases cx.uid with
    | none => simp [uidNote, Text.OnOneLine]
    | some uid =>
      have word : Text.OnOneLine "; UID " := by decide
      simp [uidNote, Text.onOneLine_append, word]
  have word : Text.OnOneLine "Generated by disenum-gen" ∧ Text.OnOneLine "." := by decide
  rw [provenance_eq, Text.onOneLine_append, Text.onOneLine_append, Text.onOneLine_append, behind]
  simp only [word, before, true_and, and_true]

end RenderContext

/-! ## Headers -/

/-- A mark that goes over no end of a line stands in one of the lines. -/
theorem Lines.holds_text {mark : String} (parts : Text.Parts "\n" mark) (lines : Lines) :
    Text.Holds lines.text mark ↔ ∃ line ∈ lines, Text.Holds line mark := by
  induction lines with
  | nil => simpa [Lines.text] using Text.not_holds_empty parts
  | cons line lines ih =>
    have first : Lines.text (line :: lines) = line ++ ("\n" ++ Lines.text lines) := by
      rw [Lines.text, List.map_cons, String.join_cons, String.append_assoc, Lines.text]
    rw [first, Text.holds_append_gap_append parts, ih, List.exists_mem_cons_iff]

namespace Java

variable (cx : RenderContext) (title : String)

/-- What stands between the lines that open and close the comment of a header. -/
def note : Lines := [" * " ++ commentText title, " *", " * " ++ cx.provenance]

theorem header_eq : header cx title =
    ["package " ++ cx.namespacePath ++ ";", "", "/**"] ++ note cx title ++ [" */"] := rfl

/-- The star that begins a line ends no comment. -/
theorem holds_starred (s : String) : Text.Holds (" * " ++ s) "*/" ↔ Text.Holds s "*/" := by
  simp [Text.Holds, List.infix_cons_iff]

theorem holds_note :
    Text.Holds (note cx title).text "*/" ↔ Text.Holds cx.provenance "*/" := by
  have star : ¬ Text.Holds " *" "*/" := by decide
  rw [Lines.holds_text (by decide), note]
  simp [holds_starred, commentText_ends_no_block, star]

end Java

namespace Python

variable (cx : RenderContext) (title : String)

/-- What stands between the quotes of the docstring of a module. -/
def note : Lines := [docText title, "", cx.provenance]

theorem text_header :
    (header cx title).text = "\"\"\"" ++ (note cx title).text ++ "\"\"\"\n\n" := by
  simp [header, note, Lines.text, String.append_assoc]

theorem holds_note : Text.Holds (note cx title).text "\"\"\"" ↔
    Text.Holds cx.provenance "\"\"\"" := by
  have shown : ¬ Text.Holds (docText title) "\"\"\"" := by
    intro quotes
    refine Literal.literalText_no_quotes (commentText title) (List.IsInfix.trans ?_ quotes)
    decide
  have empty : ¬ Text.Holds "" "\"\"\"" := by decide
  rw [Lines.holds_text (by decide), note]
  simp [shown, empty]

end Python

/-- A note stays on one line exactly if the UID does; whatever ends a comment or a docstring, or
escapes in one, stands in the note exactly if it stands in the title, the date or the UID. So these
decide whether the comment of a Java header ends where it is closed, and the docstring of a Python
module. -/
theorem note_holds_texts (cx : RenderContext) :
    (Text.OnOneLine cx.provenance ↔ ∀ uid ∈ cx.uid.toList, Text.OnOneLine uid) ∧
      (∀ mark ∈ noteMarks,
        (Text.Holds cx.provenance mark ↔ ∃ text ∈ cx.noted, Text.Holds text mark)) ∧
      ∀ title,
        (∃ inner, Java.header cx title =
            ["package " ++ cx.namespacePath ++ ";", "", "/**"] ++ inner ++ [" */"] ∧
          (Text.Holds inner.text "*/" ↔ ∃ text ∈ cx.noted, Text.Holds text "*/")) ∧
        ∃ inner, (Python.header cx title).text = "\"\"\"" ++ inner ++ "\"\"\"\n\n" ∧
          (Text.Holds inner "\"\"\"" ↔ ∃ text ∈ cx.noted, Text.Holds text "\"\"\"") := by
  refine ⟨cx.onOneLine_provenance, fun mark => cx.holds_provenance, fun title => ⟨?_, ?_⟩⟩
  · refine ⟨_, Java.header_eq cx title, ?_⟩
    rw [Java.holds_note, cx.holds_provenance (by decide)]
  · refine ⟨_, Python.text_header cx title, ?_⟩
    rw [Python.holds_note, cx.holds_provenance (by decide)]

/-- A revision whose title ends a block comment, and a UID of two lines. -/
def brokenNoteDocument : String :=
  "<r><revision title=\"R */\" date=\"1\"/><enum uid=\"1&#10;2\" name=\"E\" size=\"8\"/></r>"

theorem broken_note_escapes : ∃ run,
    FirstRendered.IsRun ⟨.java, "a"⟩ brokenNoteDocument run ∧ ∃ note,
      (run.emission.contextOf run.placed).provenance = note ∧
      note = "Generated by disenum-gen from R */ (1); UID 1\n2." ∧ " * " ++ note ∈ run.lines ∧
      ¬ Text.OnOneLine note ∧ Text.Holds note "*/" := by
  have seen : (FirstRendered.ofDocument? ⟨.java, "a"⟩ brokenNoteDocument).map (fun run =>
      ((run.emission.contextOf run.placed).provenance,
        run.lines.contains " * Generated by disenum-gen from R */ (1); UID 1\n2.")) =
      some ("Generated by disenum-gen from R */ (1); UID 1\n2.", true) := by
    decide +kernel
  obtain ⟨run, made, found⟩ := FirstRendered.isRun_of_seen seen
  simp only [Prod.mk.injEq, List.contains_iff_mem] at found
  exact ⟨run, made, _, found.1, rfl, found.2, by decide, by decide⟩

end EnumRegistry
