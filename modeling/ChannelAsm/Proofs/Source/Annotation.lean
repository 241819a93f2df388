import ChannelAsm.Proofs.Source.Closing

/-!
# Annotated sources

A source is annotated by putting comments behind its lines and idle lines between them, which are
blank or hold a comment only, and by ending lines with a carriage return as well. None of this is
code: `Listing.Annotates.filterMap_code?` says so line by line, and by `Listing.clean_annotated` an
annotated source has the clean form of the plain one.
-/

namespace ChannelAsm.Listing

variable {line : List Char} {lines others : List (List Char)}

/-- The line holds no code: it is blank, or starts behind blanks with a comment. -/
def IsIdle (line : List Char) : Prop :=
  ∃ blanks note, (∀ c ∈ blanks, Text.isBlank c = true) ∧
    (line = blanks ∨ line = blanks ++ ';' :: note)

/-- The second row of lines is the first with comments put directly behind lines and idle lines put
anywhere. -/
inductive Annotates : List (List Char) → List (List Char) → Prop
  | nil : Annotates [] []
  | keep {lines others : List (List Char)} (line : List Char) :
      Annotates lines others → Annotates (line :: lines) (line :: others)
  | comment {lines others : List (List Char)} (line note : List Char) :
      Annotates lines others → Annotates (line :: lines) ((line ++ ';' :: note) :: others)
  | idle {line : List Char} {lines others : List (List Char)} :
      IsIdle line → Annotates lines others → Annotates lines (line :: others)

/-- The text holds the lines of the source, annotated. -/
def Annotated (source text : List Char) : Prop :=
  ∃ others, Annotates (Text.lines source) others ∧ Text.Spells others text

/-! ## The code of a line -/

/-- The code of a line, unless that is blank. -/
def code? (line : List Char) : Option (List Char) :=
  (some (code line)).filter fun line => !line.all Text.isBlank

/-- The code lines of a source are the code of its lines. -/
theorem retained_eq_filterMap (source : List Char) :
    retained source = (Text.lines source).filterMap code? := by
  unfold retained
  induction Text.lines source with
  | nil => rfl
  | cons line rest ih =>
      rw [List.map_cons, List.filter_cons, List.filterMap_cons, code?, Option.filter_some, ih]
      split <;> rfl

/-- A line has no code when there is nothing left of it once it is cut and trimmed. -/
theorem code?_eq_none_iff : code? line = none ↔ Text.trim (code line) = [] := by
  rw [Text.trim_eq_nil_iff]
  simp [code?]

/-- A comment behind a line is cut off. -/
theorem code_comment (line note : List Char) : code (line ++ ';' :: note) = code line := by
  rw [code, List.takeWhile_append]
  split
  · -- The line holds no comment of its own.
    rename_i hlength
    exact (List.append_nil line).trans ((List.takeWhile_prefix _).eq_of_length hlength).symm
  · rfl

/-- A comment behind a line is no code. -/
theorem code?_comment (line note : List Char) : code? (line ++ ';' :: note) = code? line := by
  rw [code?, code_comment]
  rfl

/-- An idle line has no code. -/
theorem IsIdle.code?_eq_none (h : IsIdle line) : code? line = none := by
  obtain ⟨blanks, note, hblanks, hline⟩ := h
  have hcode : code line = code blanks := by
    rcases hline with rfl | rfl
    · rfl
    · exact code_comment blanks note
  rw [code?_eq_none_iff, hcode]
  exact Text.trim_eq_nil_of_all (List.all_eq_true.mpr fun c hc =>
    hblanks c ((List.takeWhile_sublist _).mem hc))

/-- A carriage return that is dropped with the end of an annotated line does not matter to its
code. -/
theorem Annotates.code?_dropReturn (h : Annotates lines others)
    (hreturn : ∀ line ∈ lines, '\r' ∉ line) :
    ∀ line ∈ others, code? (Text.dropReturn line) = code? line := by
  induction h with
  | nil => simp
  | keep line _ ih =>
      obtain ⟨hline, hreturn⟩ := List.forall_mem_cons.mp hreturn
      refine List.forall_mem_cons.mpr ⟨?_, ih hreturn⟩
      rw [Text.dropReturn_of_not_mem hline]
  | comment line note _ ih =>
      obtain ⟨_, hreturn⟩ := List.forall_mem_cons.mp hreturn
      refine List.forall_mem_cons.mpr ⟨?_, ih hreturn⟩
      rw [Text.dropReturn_append_cons (by decide), code?_comment, code?_comment]
  | idle hidle _ ih =>
      refine List.forall_mem_cons.mpr ⟨?_, ih hreturn⟩
      have hcode := hidle.code?_eq_none
      rw [hcode, code?_eq_none_iff, trim_code_dropReturn, ← code?_eq_none_iff, hcode]

/-- Annotated lines have the same code. -/
theorem Annotates.filterMap_code? (h : Annotates lines others) :
    others.filterMap code? = lines.filterMap code? := by
  induction h with
  | nil => rfl
  | keep line _ ih => rw [List.filterMap_cons, List.filterMap_cons, ih]
  | comment line note _ ih => rw [List.filterMap_cons, List.filterMap_cons, code?_comment, ih]
  | idle hidle _ ih => rw [List.filterMap_cons_none hidle.code?_eq_none, ih]

/-! ## The code of a text -/

/-- A text has the code of the lines that it holds, when the carriage returns at their ends do not
matter to it. -/
theorem filterMap_lines_of_spells {text : List Char} (h : Text.Spells lines text)
    (hreturn : ∀ line ∈ lines, code? (Text.dropReturn line) = code? line) :
    (Text.lines text).filterMap code? = lines.filterMap code? := by
  induction h with
  | nil => rfl
  | @last line hline =>
      rw [Text.lines_of_not_mem hline]
      by_cases hnil : line = []
      · rw [hnil]
        rfl
      · simp [hnil]
  | feed hline _ ih =>
      obtain ⟨hfirst, hreturn⟩ := List.forall_mem_cons.mp hreturn
      rw [Text.lines_append_newline hline, List.filterMap_cons, List.filterMap_cons, hfirst,
        ih hreturn]
  | @returnFeed line text lines hline _ ih =>
      have hend : '\n' ∉ line ++ ['\r'] := by simpa using hline
      obtain ⟨_, hreturn⟩ := List.forall_mem_cons.mp hreturn
      rw [List.append_cons, Text.lines_append_newline hend, Text.dropReturn_concat,
        List.filterMap_cons, List.filterMap_cons, ih hreturn]

/-- An annotated source without carriage returns has the clean form of the source. -/
theorem clean_annotated {source text : String} (hreturn : '\r' ∉ source.toList)
    (h : Annotated source.toList text.toList) : clean text = clean source := by
  obtain ⟨others, hothers, htext⟩ := h
  have hlines : ∀ line ∈ Text.lines source.toList, '\r' ∉ line :=
    fun line hline hmem => hreturn ((Text.spells_lines source.toList hreturn).mem hline hmem)
  have hretained : retained text.toList = retained source.toList :=
    calc retained text.toList = (Text.lines text.toList).filterMap code? :=
          retained_eq_filterMap text.toList
      _ = others.filterMap code? :=
          filterMap_lines_of_spells htext (hothers.code?_dropReturn hlines)
      _ = (Text.lines source.toList).filterMap code? := hothers.filterMap_code?
      _ = retained source.toList := (retained_eq_filterMap source.toList).symm
  rw [clean, clean, cleanLines_eq, cleanLines_eq, hretained]

/-- A source of two sections, whose last line has no end. -/
def plainSource : String :=
  ".section data\n---\n.section text\nint 0"

/-- The same source with comments, idle lines and carriage returns. -/
def annotatedSource : String :=
  "\t; .section\n.section data;---\r\n---; .section\n \r\n.section text\nint 0;\r\n"

/-- The annotated source has the clean form of the plain one. -/
theorem clean_annotated_sections :
    '\r' ∉ plainSource.toList ∧ Annotated plainSource.toList annotatedSource.toList ∧
      clean annotatedSource = clean plainSource := by
  have hreturn : '\r' ∉ plainSource.toList := by simp [plainSource]
  have hlines : Text.lines plainSource.toList =
      [".section data".toList, "---".toList, ".section text".toList, "int 0".toList] :=
    rfl
  have hcomment : IsIdle "\t; .section".toList :=
    ⟨['\t'], _, List.forall_mem_singleton.mpr (by decide), .inr rfl⟩
  have hblank : IsIdle " ".toList :=
    ⟨[' '], [], List.forall_mem_singleton.mpr (by decide), .inl rfl⟩
  have htext : annotatedSource.toList =
      "\t; .section".toList ++ '\n' :: (".section data;---".toList ++ '\r' :: '\n' ::
        ("---; .section".toList ++ '\n' :: (" ".toList ++ '\r' :: '\n' ::
          (".section text".toList ++ '\n' :: ("int 0;".toList ++ '\r' :: '\n' :: []))))) := by
    simp [annotatedSource]
  have hannotated : Annotated plainSource.toList annotatedSource.toList := by
    rw [Annotated, hlines, htext]
    refine ⟨_, ?_, .feed ?_ (.returnFeed ?_ (.feed ?_ (.returnFeed ?_ (.feed ?_
      (.returnFeed ?_ .nil)))))⟩
    · exact .idle hcomment (.comment _ "---".toList (.comment _ " .section".toList
        (.idle hblank (.keep _ (.comment _ [] .nil)))))
    all_goals decide
  exact ⟨hreturn, hannotated, clean_annotated hreturn hannotated⟩

end ChannelAsm.Listing
