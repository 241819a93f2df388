import ChannelAsm.Proofs.Program.Likeness
import ChannelAsm.Proofs.Source.Closing

/-!
# The order of the sections

A program finds its declarations behind the first header of a data section and the block of an event
behind the first line with its label, `Program.stretch?` in both cases. Either is cut off by a
sentinel, and cleaning puts one at the end of every section; so by `Program.build_swap` it does not
matter which of the two sections comes first.
-/

namespace ChannelAsm

/-! ## Lines by their texts -/

namespace Line

variable {line other : Line} {number : Nat} {text : List Char} {texts : List (List Char)}

/-- A numbered line has one of the texts. -/
theorem exists_of_mem_numbered {count : Nat} (h : line ∈ numbered count texts) :
    ∃ number, ∃ text ∈ texts, line = ofText number (String.ofList text) := by
  obtain ⟨index, hindex, rfl⟩ := List.mem_mapIdx.mp h
  exact ⟨_, _, List.getElem_mem hindex, rfl⟩

/-- A line that keeps the words of code which opens no event has no label. -/
theorem label?_of_opensEvent {uncut : List Char}
    (hwords : Text.words text = Text.words (Listing.code uncut))
    (h : Listing.opensEvent uncut = false) (number : Nat) :
    (ofText number (String.ofList text)).label? = none := by
  rw [Listing.opensEvent, ← hwords] at h
  rw [label?, words_ofText, List.head?_map]
  cases hword : (Text.words text).head? with
  | none => rfl
  | some word =>
      rw [hword, Option.any_some] at h
      simp [h]

/-- A numbered sentinel is one. -/
theorem isSentinel_ofText (number : Nat) :
    (ofText number (String.ofList Listing.sentinel)).isSentinel = true := by
  show (ofText 0 (String.ofList Listing.sentinel)).isSentinel = true
  decide

/-- Lines behind which a section is closed end in a sentinel. -/
theorem exists_numbered_closed (header : List Char) (texts : List (List Char)) (count : Nat) :
    ∃ front last, numbered count (header :: Listing.closed texts) = front ++ [last] ∧
      last.isSentinel = true := by
  obtain ⟨front, hfront⟩ := Listing.exists_closed_eq texts
  refine ⟨numbered count (header :: front),
    ofText (front.length + 1 + count + 1) (String.ofList Listing.sentinel), ?_,
    isSentinel_ofText _⟩
  rw [hfront, ← List.cons_append, numbered_append]
  simp [numbered]

/-- Numbered lines have the same texts, whatever number they start from. -/
theorem map_text_congr (count start : Nat) (texts : List (List Char)) :
    (numbered count texts).map (·.text) = (numbered start texts).map (·.text) := by
  refine List.ext_getElem (by simp [numbered]) fun index _ _ => ?_
  simp [numbered]

/-- A sentinel opens no event. -/
theorem label?_of_isSentinel (h : line.isSentinel = true) : line.label? = none := by
  have htext : line.text = sentinel := beq_iff_eq.mp h
  rw [label?, line.words_eq, htext]
  decide

/-- A sentinel opens no section. -/
theorem sectionName?_of_isSentinel (h : line.isSentinel = true) : line.sectionName? = none := by
  have htext : line.text = sentinel := beq_iff_eq.mp h
  rw [sectionName?, line.words_eq, htext]
  decide

/-- A line whose text starts with no header opens no section. -/
theorem sectionName?_of_isHeader (h : Listing.isHeader text = false) (number : Nat) :
    (ofText number (String.ofList text)).sectionName? = none := by
  refine Option.eq_none_iff_forall_ne_some.mpr fun name hname => ?_
  obtain ⟨rest, hwords⟩ := sectionName?_eq_some_iff.mp hname
  rw [words_ofText] at hwords
  obtain ⟨word, others, htext, hword, _⟩ := List.map_eq_cons_iff.mp hwords
  rw [← Text.words_trim] at htext
  have hstart := Text.prefix_of_words_eq_cons htext (Text.trimStart_trim text)
  rw [← Listing.isHeader_trim, Listing.isHeader, Text.trimStart_trim, ← hword,
    String.toList_ofList, ← Bool.not_eq_true, List.isPrefixOf_iff_prefix] at h
  exact h hstart

end Line

namespace Program

/-! ## Two sections -/

/-- The lines of a data section and those of another one. Both end in a sentinel, no line of the
first opens an event, and none of the second a data section. -/
structure Halves (data text : List Line) : Prop where
  data_closed : ∃ front last, data = front ++ [last] ∧ last.isSentinel = true
  text_closed : ∃ front last, text = front ++ [last] ∧ last.isSentinel = true
  label : ∀ line ∈ data, line.label? = none
  header : ∀ line ∈ text, line.sectionName? ≠ some dataSection

namespace Halves

variable {data text : List Line}

/-- The declarations are those of the data section, wherever it stands. -/
theorem declarations?_eq (h : Halves data text) :
    declarations? (data ++ text) = declarations? data ∧
      declarations? (text ++ data) = declarations? data := by
  obtain ⟨front, last, hdata, hlast⟩ := h.data_closed
  have hopens : ¬ last.sectionName? = some dataSection := by
    simp [Line.sectionName?_of_isSentinel hlast]
  simp only [declarations?_eq_stretch?]
  refine ⟨?_, stretch?_append_left h.header data⟩
  rw [hdata]
  exact stretch?_append_right hlast hopens h.header front

/-- The events are those of the other section, wherever it stands. -/
theorem stretch?_eq (h : Halves data text) (label : String) :
    stretch? (fun line => line.label? = some label) (data ++ text) =
        stretch? (fun line => line.label? = some label) text ∧
      stretch? (fun line => line.label? = some label) (text ++ data) =
        stretch? (fun line => line.label? = some label) text := by
  obtain ⟨front, last, htext, hlast⟩ := h.text_closed
  have hopens : ¬ last.label? = some label := by
    simp [Line.label?_of_isSentinel hlast]
  have hdata : ∀ line ∈ data, ¬ line.label? = some label := fun line hline => by
    simp [h.label line hline]
  refine ⟨stretch?_append_left hdata text, ?_⟩
  rw [htext]
  exact stretch?_append_right hlast hopens hdata front

/-- The labels are those of the other section, wherever it stands. -/
theorem filterMap_label? (h : Halves data text) :
    (data ++ text).filterMap Line.label? = text.filterMap Line.label? ∧
      (text ++ data).filterMap Line.label? = text.filterMap Line.label? := by
  have hnone : data.filterMap Line.label? = [] := List.filterMap_eq_nil_iff.mpr h.label
  rw [List.filterMap_append, List.filterMap_append, hnone]
  exact ⟨List.nil_append _, List.append_nil _⟩

end Halves

/-- The two sections of a source, as cleaning leaves them, are such lines. -/
theorem halves_numbered {lines body : List (List Char)}
    (hlines : ∀ line ∈ lines, Listing.opensEvent line = false)
    (hbody : ∀ line ∈ body, Listing.isHeader line = false) (count start : Nat) :
    Halves (Line.numbered count (".section data".toList :: Listing.closed (Listing.kept lines)))
      (Line.numbered start (".section text".toList :: Listing.closed (Listing.kept body))) where
  data_closed := Line.exists_numbered_closed _ _ count
  text_closed := Line.exists_numbered_closed _ _ start
  label := by
    intro line hline
    obtain ⟨number, text, htext, rfl⟩ := Line.exists_of_mem_numbered hline
    rcases List.mem_cons.mp htext with rfl | htext
    · show (Line.ofText 0 (String.ofList ".section data".toList)).label? = none
      decide
    rcases Listing.mem_of_mem_closed htext with htext | rfl
    · obtain ⟨uncut, huncut, hwords⟩ := Listing.exists_words_of_mem_kept htext
      exact Line.label?_of_opensEvent hwords (hlines uncut huncut) number
    · exact Line.label?_of_isSentinel (Line.isSentinel_ofText number)
  header := by
    intro line hline
    obtain ⟨number, text, htext, rfl⟩ := Line.exists_of_mem_numbered hline
    rcases List.mem_cons.mp htext with rfl | htext
    · show (Line.ofText 0 (String.ofList ".section text".toList)).sectionName? ≠ some "data"
      decide
    rcases Listing.mem_of_mem_closed htext with htext | rfl
    · rw [Line.sectionName?_of_isHeader (Listing.isHeader_of_mem_kept hbody htext)]
      exact (Option.some_ne_none _).symm
    · rw [Line.sectionName?_of_isSentinel (Line.isSentinel_ofText number)]
      exact (Option.some_ne_none _).symm

/-! ## Linking -/

/-- The programs have the same memory, symbols and labels, and the blocks of their events have the
same texts. -/
structure Twins (left right : Program) : Prop where
  memory_eq : left.memory = right.memory
  symbols_eq : left.symbols = right.symbols
  events_eq : left.events = right.events
  texts_eq : ∀ name, (left.event? name).map (List.map (·.text)) =
    (right.event? name).map (List.map (·.text))

/-- Such programs are equivalent. -/
theorem Twins.equivalent {left right : Program} (h : left.Twins right) : left.Equivalent right where
  values_eq := by
    intro token
    rw [values, values, h.memory_eq, h.symbols_eq]
  texts_eq := h.texts_eq

/-- Linking the two sections in either order fails alike, but for the number that a diagnostic
tells, or gives programs that differ in their lines only. -/
theorem Halves.link_cases {data text others body : List Line} {first second : String}
    (h : Halves data text) (hother : Halves others body)
    (hdata : data.map (·.text) = others.map (·.text))
    (htext : text.map (·.text) = body.map (·.text))
    (hfirst : Line.ofListing first = data ++ text)
    (hsecond : Line.ofListing second = body ++ others) (layout : Layout) :
    (∃ diagnostic other, (link layout first).result = .error diagnostic ∧
      (link layout second).result = .error other ∧ diagnostic.unplaced = other.unplaced) ∨
    ∃ left right, (link layout first).result = .ok left ∧
      (link layout second).result = .ok right ∧ left.Twins right := by
  have hdeclared := map_declarations? Line.decides_text hdata
  rw [← h.declarations?_eq.1, ← hother.declarations?_eq.2, ← hfirst, ← hsecond] at hdeclared
  refine (Program.link_cases Line.decides_text hdeclared layout).imp_right ?_
  rintro ⟨left, right, hleft, hright, hmemory, hsymbols⟩
  refine ⟨left, right, hleft, hright, hmemory, hsymbols, ?_, fun name => ?_⟩
  · rw [events, events, lines_of_link hleft, lines_of_link hright, hfirst, hsecond,
      h.filterMap_label?.1, hother.filterMap_label?.2]
    exact filterMap_label?_congr Line.decides_text htext
  · rw [event?_eq_stretch?, event?_eq_stretch?, lines_of_link hleft, lines_of_link hright, hfirst,
      hsecond, (h.stretch?_eq _).1, (hother.stretch?_eq _).2]
    exact map_stretch?_label Line.decides_text htext _

/-- The source of a data section and another one, in that order. -/
def dataFirst (lines body : List (List Char)) : String :=
  String.ofList (Text.unlines
    (".section data".toList :: (lines ++ ".section text".toList :: body)))

/-- The source of the same sections the other way round. -/
def dataLast (lines body : List (List Char)) : String :=
  String.ofList (Text.unlines
    (".section text".toList :: (body ++ ".section data".toList :: lines)))

variable {lines body : List (List Char)}

/-- The lines of the two sources are those of the sections, each behind its header and closed. -/
theorem ofListing_sections (hnewline : ∀ line ∈ lines ++ body, '\n' ∉ line)
    (hheader : ∀ line ∈ lines ++ body, Listing.isHeader line = false) :
    let data := ".section data".toList :: Listing.closed (Listing.kept lines)
    let text := ".section text".toList :: Listing.closed (Listing.kept body)
    Line.ofListing (Listing.clean (dataFirst lines body)) =
        Line.numbered 0 data ++ Line.numbered data.length text ∧
      Line.ofListing (Listing.clean (dataLast lines body)) =
        Line.numbered 0 text ++ Line.numbered text.length data := by
  have hdata : Listing.IsTitle ".section data".toList := ⟨by decide, by decide, by decide⟩
  have htext : Listing.IsTitle ".section text".toList := ⟨by decide, by decide, by decide⟩
  refine ⟨?_, ?_⟩
  · rw [Line.ofListing_clean, dataFirst, String.toList_ofList,
      Listing.cleanLines_sections hdata htext hnewline hheader, Line.numbered_append]
    rfl
  · have hswap {line : List Char} (hline : line ∈ body ++ lines) : line ∈ lines ++ body :=
      List.mem_append.mpr (List.mem_append.mp hline).symm
    rw [Line.ofListing_clean, dataLast, String.toList_ofList,
      Listing.cleanLines_sections htext hdata (fun line hline => hnewline line (hswap hline))
        (fun line hline => hheader line (hswap hline)), Line.numbered_append]
    rfl

/-- Whether the data section of a source comes first or last, building it fails with the same code,
message and statement, or gives programs with the same memory, symbols, labels and texts of every
block. These programs answer requests alike, but for the number that a diagnostic tells, and leave
the same bank. The lines of the sections may be any that are no headers, as long as none in the data
section opens an event. -/
theorem build_swap (hnewline : ∀ line ∈ lines ++ body, '\n' ∉ line)
    (hheader : ∀ line ∈ lines ++ body, Listing.isHeader line = false)
    (hlabel : ∀ line ∈ lines, Listing.opensEvent line = false) (capacity : Nat) :
    (∃ diagnostic other, (build capacity (dataFirst lines body)).result = .error diagnostic ∧
      (build capacity (dataLast lines body)).result = .error other ∧
      diagnostic.code = other.code ∧ diagnostic.message = other.message ∧
      diagnostic.statement = other.statement) ∨
    ∃ left right, (build capacity (dataFirst lines body)).result = .ok left ∧
      (build capacity (dataLast lines body)).result = .ok right ∧
      left.memory = right.memory ∧ left.symbols = right.symbols ∧ left.events = right.events ∧
      (∀ name, (left.event? name).map (List.map (·.text)) =
        (right.event? name).map (List.map (·.text))) ∧
      ∀ requests bank, (left.answers requests bank).map (·.mapFailure Diagnostic.unplaced) =
          (right.answers requests bank).map (·.mapFailure Diagnostic.unplaced) ∧
        left.bankAfter requests bank = right.bankAfter requests bank := by
  obtain ⟨_, hbody⟩ := List.forall_mem_append.mp hheader
  obtain ⟨hfirst, hsecond⟩ := ofListing_sections hnewline hheader
  rcases Halves.link_cases (halves_numbered hlabel hbody _ _) (halves_numbered hlabel hbody _ _)
    (Line.map_text_congr _ _ _) (Line.map_text_congr _ _ _) hfirst hsecond (.empty capacity) with
    ⟨diagnostic, other, hleft, hright, htold⟩ | ⟨left, right, hleft, hright, htwins⟩
  · refine .inl ⟨diagnostic, other, hleft, hright, ?_, ?_, ?_⟩
    · exact congrArg (·.code) htold
    · exact congrArg (·.message) htold
    · exact congrArg (·.statement) htold
  · exact .inr ⟨left, right, hleft, hright, htwins.memory_eq, htwins.symbols_eq, htwins.events_eq,
      htwins.texts_eq, htwins.equivalent.answers_eq⟩

/-- A data section with a comment and an indented sentinel, before an event and behind it. -/
theorem build_swap_padded :
    ∃ left right,
      (build 2 (dataFirst ["m db 7;".toList, " ---".toList] ["event_a".toList])).result =
        .ok left ∧
      (build 2 (dataLast ["m db 7;".toList, " ---".toList] ["event_a".toList])).result =
        .ok right ∧
      left.memory = right.memory ∧ left.symbols = right.symbols ∧ left.events = right.events ∧
      ∀ requests bank, (left.answers requests bank).map (·.mapFailure Diagnostic.unplaced) =
          (right.answers requests bank).map (·.mapFailure Diagnostic.unplaced) ∧
        left.bankAfter requests bank = right.bankAfter requests bank := by
  have hbuilds :
      (build 2 (dataFirst ["m db 7;".toList, " ---".toList] ["event_a".toList])).result.isOk =
        true := by
    decide +kernel
  rcases @build_swap ["m db 7;".toList, " ---".toList] ["event_a".toList] (by decide) (by decide)
    (by decide) 2 with
    ⟨_, _, hfails, _⟩ | ⟨left, right, hleft, hright, hmemory, hsymbols, hevents, _, hanswers⟩
  · rw [hfails] at hbuilds
    cases hbuilds
  · exact ⟨left, right, hleft, hright, hmemory, hsymbols, hevents, hanswers⟩

end Program

end ChannelAsm
