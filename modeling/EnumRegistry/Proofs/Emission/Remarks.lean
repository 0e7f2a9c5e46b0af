import EnumRegistry.Proofs.Emission.FieldLines
import EnumRegistry.Proofs.Emission.Rendering
import EnumRegistry.Proofs.Target.Comment

/-!
Remarks in C++ headers: the title and what is said of rows, each in a comment up to the end of its
line. No remark ends its line early, and none closes a block comment. But one that ends in a
backslash makes its line go on in the next, which then is comment and no code; as many lines are
lost as there are such remarks.
-/

namespace EnumRegistry

/-- What a header says in comments: its title, and what is said of each row. -/
def SymbolBody.remarks : SymbolBody → List String
  | enumeration e => e.rawName :: e.rows.map (·.description)
  | bitfield b => b.rawName :: b.rows.map (·.description)
  | dictionary d => d.rawName :: d.rows.map (·.description)
  | classification t id => t.nodes[id]?.toList.map (·.description)

/-- The last character of a text is a backslash, blanks aside. -/
def Text.endsInBackslash (s : String) : Bool := lastSolid? s == some '\\'

namespace Cpp

/-! ## Spliced lines -/

/-- A line that ends in a backslash goes on in the next. -/
def continues (line : String) : Bool := line.toList.getLast? == some '\\'

/-- Lines as they are read, before comments are looked for: where one goes on in the next, they are
one line without the backslash. -/
def spliced : Lines → Lines
  | [] => []
  | line :: rest =>
    match spliced rest with
    | [] => [line]
    | next :: others =>
      if continues line then (String.ofList line.toList.dropLast ++ next) :: others
      else line :: next :: others

theorem spliced_cons_cons (line next : String) (rest : Lines) : ∃ read others,
    spliced (next :: rest) = read :: others ∧ spliced (line :: next :: rest) =
      if continues line then (String.ofList line.toList.dropLast ++ read) :: others
      else line :: read :: others := by
  cases h : spliced (next :: rest) with
  | nil =>
    rw [spliced] at h
    split at h
    · cases h
    · split at h <;> cases h
  | cons read others => exact ⟨read, others, rfl, by rw [spliced, h]⟩

/-- Every line that goes on in the next is one line less. -/
theorem length_spliced (lines : Lines) :
    (spliced lines).length + lines.dropLast.countP continues = lines.length := by
  induction lines with
  | nil => rfl
  | cons line rest ih =>
    cases rest with
    | nil => rfl
    | cons next rest =>
      obtain ⟨read, others, below, whole⟩ := spliced_cons_cons line next rest
      rw [below] at ih
      rw [whole, List.dropLast_cons_cons, List.countP_cons]
      by_cases on : continues line = true
      · rw [if_pos on, if_pos on]
        simp only [List.length_cons] at ih ⊢
        omega
      · rw [if_neg on, if_neg on]
        simp only [List.length_cons] at ih ⊢
        omega

theorem spliced_eq_self {lines : Lines} (h : ∀ line ∈ lines.dropLast, continues line = false) :
    spliced lines = lines := by
  induction lines with
  | nil => rfl
  | cons line rest ih =>
    cases rest with
    | nil => rfl
    | cons next rest =>
      rw [List.dropLast_cons_cons] at h
      obtain ⟨here, below⟩ := List.forall_mem_cons.mp h
      obtain ⟨read, others, same, whole⟩ := spliced_cons_cons line next rest
      rw [whole, if_neg (Bool.eq_false_iff.mp here), ← same, ih below]

/-! ## Remarked lines -/

/-- Lines of code, some of them with a remark behind, and the remarks in their order. No code goes
on in the next line. -/
inductive Remarked : Lines → List String → Prop
  | nil : Remarked [] []
  | code {line : String} {lines : Lines} {remarks : List String} :
      continues line = false → Remarked lines remarks → Remarked (line :: lines) remarks
  | remark {code text line : String} {lines : Lines} {remarks : List String} :
      line = code ++ "// " ++ commentText text → Remarked lines remarks →
        Remarked (line :: lines) (text :: remarks)

/-- A line with a remark goes on in the next if and only if the remark ends in a backslash. -/
theorem continues_remark (code text : String) :
    continues (code ++ "// " ++ commentText text) = Text.endsInBackslash text := by
  have last : (code ++ "// " ++ commentText text).toList.getLast? =
      (Text.lastSolid? text).or (some ' ') := by
    rw [String.toList_append, List.getLast?_append, getLast?_commentText, String.toList_append,
      List.getLast?_append]
    rfl
  rw [continues, last, Text.endsInBackslash]
  cases Text.lastSolid? text with
  | none => decide
  | some c => rfl

namespace Remarked

variable {lines lines' : Lines} {remarks remarks' : List String}

theorem append (h : Remarked lines remarks) (h' : Remarked lines' remarks') :
    Remarked (lines ++ lines') (remarks ++ remarks') := by
  induction h with
  | nil => exact h'
  | code ends _ ih => exact .code ends ih
  | remark line _ ih => exact .remark line ih

theorem of_code (h : ∀ line ∈ lines, continues line = false) : Remarked lines [] := by
  induction lines with
  | nil => exact .nil
  | cons line lines ih =>
    obtain ⟨here, below⟩ := List.forall_mem_cons.mp h
    exact .code here (ih below)

theorem flatMap {α : Type} {zs : List α} {text : α → Lines} {remark : α → String}
    (h : ∀ z, Remarked (text z) [remark z]) : Remarked (zs.flatMap text) (zs.map remark) := by
  induction zs with
  | nil => exact .nil
  | cons z zs ih => exact (h z).append ih

theorem map {α : Type} {zs : List α} {text remark : α → String}
    (h : ∀ z, Remarked [text z] [remark z]) : Remarked (zs.map text) (zs.map remark) := by
  rw [List.map_eq_flatMap (f := text)]
  exact flatMap h

theorem countP_continues (h : Remarked lines remarks) :
    lines.countP continues = remarks.countP Text.endsInBackslash := by
  induction h with
  | nil => rfl
  | code ends _ ih => rw [List.countP_cons_of_neg (Bool.eq_false_iff.mp ends), ih]
  | remark line _ ih => rw [List.countP_cons, List.countP_cons, line, continues_remark, ih]

end Remarked

/-! ## Headers -/

/-- How a line ends decides. -/
theorem continues_append (code : String) {ending : String} (nonempty : ending ≠ "") :
    continues (code ++ ending) = continues ending := by
  have some : ending.toList ≠ [] := by simpa using nonempty
  rw [continues, String.toList_append, List.getLast?_append_of_ne_nil _ some, continues]

theorem not_continues {ending : String} (h : ending ≠ "" ∧ continues ending = false)
    (code : String) : continues (code ++ ending) = false := by
  rw [continues_append code h.1, h.2]

theorem map_zip_left {α β γ : Type} (f : α → γ) {as : List α} {bs : List β}
    (lengths : bs.length = as.length) : (as.zip bs).map (fun x => f x.1) = as.map f := by
  have firsts : (as.zip bs).map Prod.fst = as := List.map_fst_zip lengths.ge
  conv_rhs => rw [← firsts, List.map_map]
  rfl

section
variable (cx : RenderContext)

theorem provenance_continues : continues ("// " ++ cx.provenance) = false := by
  unfold RenderContext.provenance
  dsimp only
  rw [← String.append_assoc]
  exact not_continues (by decide) _

theorem header_remarked {title : String} {includes : List String} {body : Lines}
    {remarks : List String} (files : ∀ file ∈ includes, continues ("#include " ++ file) = false)
    (h : Remarked body remarks) :
    Remarked (header cx title includes body).dropLast (title :: remarks) := by
  have opening : Remarked ["// " ++ commentText title, "// " ++ cx.provenance, "#pragma once", "",
      "#include <cstdint>"] [title] := by
    have whole : "// " ++ commentText title = "" ++ "// " ++ commentText title := by simp
    refine .remark whole (.of_code ?_)
    simp only [List.forall_mem_cons, provenance_continues]
    decide
  have included : Remarked (includes.map ("#include " ++ ·)) [] :=
    .of_code (List.forall_mem_map.mpr files)
  have opened : Remarked ["", "namespace " ++ cx.namespacePath ++ " \x7b", ""] [] := by
    refine .code (by decide) (.code ?_ (.code (by decide) .nil))
    exact not_continues (by decide) _
  have closing : Remarked [""] [] := .code (by decide) .nil
  rw [header, List.dropLast_append_of_ne_nil (by simp)]
  have all := (((opening.append included).append opened).append h).append closing
  simpa using all

/-- One line above a declaration says what it is. -/
theorem remark_above (text : String) {lines : Lines} (h : ∀ line ∈ lines, continues line = false) :
    Remarked (("    // " ++ commentText text) :: lines) [text] := by
  have parted : "    // " = "    " ++ "// " := by decide
  exact .remark (by rw [parted]) (.of_code h)

theorem enumeration_remarked (e : Enumeration) {members : List String}
    (lengths : members.length = e.rows.length) :
    Remarked (enumeration cx e members).dropLast (SymbolBody.enumeration e).remarks := by
  rw [enumeration, SymbolBody.remarks, ← map_zip_left (·.description) lengths]
  refine header_remarked cx nofun ?_
  have opened : Remarked
      ["enum class " ++ cx.identifier ++ " : " ++ underlying e.width ++ " \x7b"] [] :=
    .code (not_continues (by decide) _) .nil
  have rows : Remarked ((e.rows.zip members).map fun x =>
      "    " ++ x.2 ++ " = " ++ toString x.1.value ++ ",  // " ++ commentText x.1.description)
      ((e.rows.zip members).map (·.1.description)) := by
    have parted : ",  // " = ",  " ++ "// " := by decide
    refine .map fun x => ?_
    rw [parted, ← String.append_assoc]
    exact .remark rfl .nil
  have signature : Remarked ["\x7d;", "", "inline const char* description(" ++ cx.identifier ++
      " value) \x7b", "    switch (value) \x7b"] [] := by
    refine .code (by decide) (.code (by decide) (.code ?_ (.code (by decide) .nil)))
    exact not_continues (by decide) _
  have cases : Remarked ((firstOfValue {} (e.rows.zip members)).map fun x =>
      "        case " ++ cx.identifier ++ "::" ++ x.2 ++ ": return \"" ++
        literalText x.1.description ++ "\";") [] :=
    .of_code (List.forall_mem_map.mpr fun x _ => not_continues (by decide) _)
  have closing : Remarked ["        default: return \"\";", "    \x7d", "\x7d"] [] :=
    .of_code (by decide)
  have all := (((opened.append rows).append signature).append cases).append closing
  rw [List.append_nil, List.append_nil, List.append_nil] at all
  exact all

theorem accessor_ends (row : BitfieldRow) (member : String) :
    ∀ line ∈ (field cx row member).drop 2, continues line = false := by
  rw [field]
  refine List.forall_mem_singleton.mpr ?_
  cases cx.enumerationOf? row.reference with
  | none => exact not_continues (by decide) _
  | some type => exact not_continues (by decide) _

theorem bitfield_remarked (b : Bitfield) {members : List String}
    (lengths : members.length = b.rows.length) :
    Remarked (bitfield cx b members).dropLast (SymbolBody.bitfield b).remarks := by
  rw [bitfield, SymbolBody.remarks, ← map_zip_left (·.description) lengths]
  have files : ∀ file ∈ includes cx b, continues ("#include " ++ file) = false := by
    intro file hfile
    simp only [includes, mem_sorted, List.mem_filterMap, Option.map_eq_some_iff] at hfile
    obtain ⟨row, -, type, -, rfl⟩ := hfile
    rw [← String.append_assoc]
    exact not_continues (by decide) _
  have opened : Remarked ["struct " ++ cx.identifier ++ " \x7b",
      "    static constexpr unsigned kSizeBits = " ++ toString b.totalBits ++ ";",
      "    static constexpr unsigned kPaddingBits = " ++ toString b.paddingBits ++ ";", "",
      "    std::uint64_t bits = 0;"] [] := by
    refine .code (not_continues (by decide) _) (.code (not_continues (by decide) _)
      (.code (not_continues (by decide) _) (.of_code (by decide))))
  have rows : Remarked ((b.rows.zip members).flatMap fun x => field cx x.1 x.2)
      ((b.rows.zip members).map (·.1.description)) :=
    .flatMap fun x => .code (by decide) (remark_above _ (accessor_ends cx x.1 x.2))
  have closing : Remarked ["\x7d;"] [] := .of_code (by decide)
  have all := (opened.append rows).append closing
  rw [List.append_nil] at all
  exact header_remarked cx files all

theorem dictionary_remarked (d : Dictionary) {members : List String}
    (lengths : members.length = d.rows.length) :
    Remarked (dictionary cx d members).dropLast (SymbolBody.dictionary d).remarks := by
  rw [dictionary, SymbolBody.remarks, ← map_zip_left (·.description) lengths]
  refine header_remarked cx nofun ?_
  have opened : Remarked ["struct " ++ cx.identifier ++ " \x7b"] [] :=
    .code (not_continues (by decide) _) .nil
  have rows : Remarked ((d.rows.zip members).flatMap fun x =>
      ["    // " ++ commentText x.1.description, "    static constexpr const char* " ++ x.2 ++
        " = \"" ++ literalText x.1.code ++ "\";"])
      ((d.rows.zip members).map (·.1.description)) :=
    .flatMap fun x => remark_above _
      (List.forall_mem_singleton.mpr (not_continues (by decide) _))
  have closing : Remarked ["\x7d;"] [] := .of_code (by decide)
  have all := (opened.append rows).append closing
  rw [List.append_nil] at all
  exact all

theorem classification_remarked (t : ClassificationTree) (id : Nat) (n : ClassificationNode) :
    Remarked (classification cx t id n).dropLast [n.description] := by
  rw [classification]
  refine header_remarked cx nofun (.of_code ?_)
  simp only [List.forall_mem_cons]
  refine ⟨not_continues (by decide) _, not_continues (by decide) _, not_continues (by decide) _,
    not_continues (by decide) _, ?_, by decide, nofun⟩
  exact not_continues (by decide) _

end

/-- The lines of a header but for the last, which closes its namespace. -/
theorem render_remarked {cx : RenderContext} (cpp : cx.language = .cpp) {body : SymbolBody}
    {lines : Lines} (rendered : cx.render body = .ok lines) :
    Remarked lines.dropLast body.remarks := by
  cases body with
  | enumeration e =>
    obtain ⟨members, made, rfl⟩ := map_eq_ok.mp rendered
    rw [RenderContext.enumerationLines, cpp]
    exact enumeration_remarked cx e ((cx.length_members made).trans (List.length_map _))
  | bitfield b =>
    obtain ⟨members, made, rfl⟩ := map_eq_ok.mp rendered
    rw [RenderContext.bitfieldLines, cpp]
    exact bitfield_remarked cx b ((cx.length_members made).trans (List.length_map _))
  | dictionary d =>
    obtain ⟨members, made, rfl⟩ := map_eq_ok.mp rendered
    rw [RenderContext.dictionaryLines, cpp]
    exact dictionary_remarked cx d ((cx.length_members made).trans (List.length_map _))
  | classification t id =>
    cases rendered
    cases found : t.nodes[id]? with
    | none =>
      rw [SymbolBody.remarks, found]
      exact .nil
    | some n =>
      have lines : cx.classificationLines t id n = classification cx t id n := by
        rw [RenderContext.classificationLines, cpp]
      have remarked := classification_remarked cx t id n
      rw [← lines] at remarked
      rw [SymbolBody.remarks, found]
      exact remarked

/-- A header shows its remarks in order, each behind the code of a line. None ends its line early or
closes a block comment. A line goes on in the next exactly if its remark ends in a backslash, and so
the lines are read as they stand if and only if no remark does; otherwise as many lines are lost as
there are such remarks. -/
theorem remarks_within_lines {cx : RenderContext} (cpp : cx.language = .cpp) {body : SymbolBody}
    {lines : Lines} (rendered : cx.render body = .ok lines) :
    Remarked lines.dropLast body.remarks ∧
      (∀ text ∈ body.remarks, Text.OnOneLine (commentText text) ∧
        ¬ Text.Holds (commentText text) "*/" ∧
        ∀ code, continues (code ++ "// " ++ commentText text) = Text.endsInBackslash text) ∧
      (spliced lines = lines ↔ ∀ text ∈ body.remarks, Text.endsInBackslash text = false) ∧
      (spliced lines).length + body.remarks.countP Text.endsInBackslash = lines.length := by
  have remarked := render_remarked cpp rendered
  have lost : (spliced lines).length + body.remarks.countP Text.endsInBackslash =
      lines.length := by
    rw [← remarked.countP_continues]
    exact length_spliced lines
  refine ⟨remarked, ?_, ?_, lost⟩
  · intro text _
    exact ⟨commentText_onOneLine text, commentText_ends_no_block text,
      fun code => continues_remark code text⟩
  · constructor
    · intro same text htext
      rw [same, Nat.add_eq_left, List.countP_eq_zero] at lost
      exact Bool.eq_false_iff.mpr (lost text htext)
    · intro none
      have quiet : lines.dropLast.countP continues = 0 := by
        rw [remarked.countP_continues]
        exact List.countP_eq_zero.mpr fun text htext => Bool.eq_false_iff.mp (none text htext)
      refine spliced_eq_self fun line hline => ?_
      exact Bool.eq_false_iff.mpr (List.countP_eq_zero.mp quiet line hline)

/-- Two enumerators; the first remark ends in a backslash. -/
def backslashDocument : String :=
  "<enum uid=\"1\" name=\"E\" size=\"8\"><enumrow value=\"1\" description=\"A\\\"/>" ++
    "<enumrow value=\"2\" description=\"B\"/></enum>"

/-- The second enumerator is read as part of the first one's remark. -/
theorem backslash_hides_enumerator : ∃ run,
    FirstRendered.IsRun ⟨.cpp, "a"⟩ backslashDocument run ∧
      "    A = 1,  // A\\" ∈ run.lines ∧ "    B = 2,  // B" ∈ run.lines ∧
      "    A = 1,  // A    B = 2,  // B" ∈ spliced run.lines ∧
      "    B = 2,  // B" ∉ spliced run.lines := by
  have seen : (FirstRendered.ofDocument? ⟨.cpp, "a"⟩ backslashDocument).map (fun run =>
      (run.lines.contains "    A = 1,  // A\\", run.lines.contains "    B = 2,  // B",
        (spliced run.lines).contains "    A = 1,  // A    B = 2,  // B",
        (spliced run.lines).contains "    B = 2,  // B")) = some (true, true, true, false) := by
    decide +kernel
  obtain ⟨run, made, found⟩ := FirstRendered.isRun_of_seen seen
  simp only [Prod.mk.injEq, List.contains_iff_mem, ← Bool.not_eq_true] at found
  exact ⟨run, made, found⟩

/-- A remark with a backslash and the end of a block comment inside. -/
def blockEndDocument : String :=
  "<dict uid=\"1\" name=\"D\"><dictrow value=\"a\" description=\"up \\ */\"/>" ++
    "<dictrow value=\"b\" description=\"down\"/></dict>"

theorem block_end_within_line : ∃ run,
    FirstRendered.IsRun ⟨.cpp, "a"⟩ blockEndDocument run ∧
      run.placed.1.body.remarks = ["D", "up \\ */", "down"] ∧
      Remarked run.lines.dropLast ["D", "up \\ */", "down"] ∧ spliced run.lines = run.lines := by
  have seen : (FirstRendered.ofDocument? ⟨.cpp, "a"⟩ blockEndDocument).map (fun run =>
      ((run.emission.contextOf run.placed).language, run.placed.1.body.remarks)) =
        some (.cpp, ["D", "up \\ */", "down"]) := by
    decide +kernel
  obtain ⟨run, made, found⟩ := FirstRendered.isRun_of_seen seen
  obtain ⟨cpp, remarks⟩ := Prod.mk.inj found
  obtain ⟨remarked, -, read, -⟩ := remarks_within_lines cpp made.rendered
  rw [remarks] at remarked read
  exact ⟨run, made, remarks, remarked, read.mpr (by decide)⟩

end Cpp

end EnumRegistry
