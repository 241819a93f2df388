import ChannelAsm.Proofs.Program.Rebuild
import ChannelAsm.Proofs.Program.SectionOrder

/-!
# Where sections end

A source marks the end of a section by a sentinel or by the header of the next section; a linked
program knows sentinels only. `Listing.takeWhile_separate` says that cleaning turns the one into the
other: behind any line of an open section, the lines up to a sentinel of the clean form are those up
to a sentinel or a header of the source. So by `Program.sections_apart` neither the declarations of
a program nor the block of an event run on into another section.
-/

namespace ChannelAsm

namespace Listing

variable {line : List Char} {lines front back body : List (List Char)} {opened closed : Bool}

/-! ## Ends of sections -/

/-- The line is a sentinel once it is trimmed. -/
def isSentinel (line : List Char) : Bool :=
  Text.trim line == sentinel

/-- The line ends the section in front of it: it is a sentinel, or the header of another one. -/
def endsSection (line : List Char) : Bool :=
  isSentinel line || isHeader line

/-- A line is a header exactly when, trimmed, it starts with the section marker. -/
theorem isHeader_iff_marked :
    isHeader line = true ↔ ".section".toList <+: Text.trim line := by
  rw [← isHeader_trim, isHeader, Text.trimStart_trim, List.isPrefixOf_iff_prefix]
  rfl

/-- A line that is no sentinel when trimmed is not exactly one. -/
theorem ne_sentinel_of_isSentinel (h : isSentinel line = false) : line ≠ sentinel := by
  rintro rfl
  revert h
  decide

/-- Behind an open section, cleaning ends the section at the first line that ends it in the
source. -/
theorem takeWhile_separate (lines : List (List Char)) :
    (separate true false lines).takeWhile (fun line => !isSentinel line) =
      lines.takeWhile fun line => !endsSection line := by
  have hsentinel : isSentinel sentinel = true := by decide
  induction lines with
  | nil => simp [separate, hsentinel]
  | cons line rest ih =>
      cases hheader : isHeader line with
      | true => simp [separate, hheader, hsentinel, endsSection]
      | false =>
          rw [separate_cons_of_false (by simp [hheader]), Bool.true_or]
          cases hline : isSentinel line with
          | true => simp [hline, endsSection]
          | false =>
              -- The line is not exactly a sentinel either, so nothing has been closed.
              rw [beq_eq_false_iff_ne.mpr (ne_sentinel_of_isSentinel hline)]
              simp [hline, hheader, endsSection, ih]

/-- A line of a clean form that is no sentinel stands in the source, behind the same lines but for
sentinels, and what follows it is the clean form of what follows it there. -/
theorem exists_of_separate_eq (h : separate opened closed lines = front ++ line :: back)
    (hline : line ≠ sentinel) :
    ∃ before rest, lines = before ++ line :: rest ∧
      back = separate (opened || before.any isHeader || isHeader line) false rest ∧
      before ⊆ front ∧ ∀ other ∈ front, other ∈ before ∨ other = sentinel := by
  induction lines generalizing opened closed front with
  | nil =>
      have hmem : line ∈ separate opened closed [] := by simp [h]
      rcases mem_of_mem_separate hmem with rfl | hmem
      · exact absurd rfl hline
      · cases hmem
  | cons first rest ih =>
      have hfollowing {front : List (List Char)}
          (h : first :: separate (opened || isHeader first) (first == sentinel) rest =
            front ++ line :: back) :
          ∃ before others, first :: rest = before ++ line :: others ∧
            back = separate (opened || before.any isHeader || isHeader line) false others ∧
            before ⊆ front ∧ ∀ other ∈ front, other ∈ before ∨ other = sentinel := by
        cases front with
        | nil =>
            obtain ⟨rfl, hback⟩ := List.cons.inj h
            rw [beq_eq_false_iff_ne.mpr hline] at hback
            exact ⟨[], rest, rfl, by simp [← hback], List.nil_subset _, by simp⟩
        | cons other front =>
            obtain ⟨rfl, hrest⟩ := List.cons.inj h
            obtain ⟨before, others, rfl, hback, hbefore, hfront⟩ := ih hrest
            refine ⟨first :: before, others, rfl, ?_, List.cons_subset_cons _ hbefore, ?_⟩
            · rw [hback, List.any_cons, Bool.or_assoc opened]
            · simpa using fun other hother => (hfront other hother).imp_left .inr
      rw [separate] at h
      split at h
      · cases front with
        | nil => exact absurd (List.cons.inj h).1.symm hline
        | cons other front =>
            obtain ⟨rfl, hrest⟩ := List.cons.inj h
            obtain ⟨before, others, hsplit, hback, hbefore, hfront⟩ := hfollowing hrest
            refine ⟨before, others, hsplit, hback, List.subset_cons_of_subset _ hbefore, ?_⟩
            simpa using hfront
      · exact hfollowing h

/-! ## The data section of a source -/

/-- The line is the header of a data section: its first two words say so. -/
def OpensData (line : List Char) : Prop :=
  ∃ rest, Text.wordsOf (String.ofList line) = ".section" :: "data" :: rest

/-- The header of a data section is a header. -/
theorem isHeader_of_opensData (h : OpensData line) : isHeader line = true := by
  obtain ⟨rest, hwords⟩ := h
  rw [Text.wordsOf, String.toList_ofList] at hwords
  obtain ⟨word, others, htext, hword, _⟩ := List.map_eq_cons_iff.mp hwords
  rw [← Text.words_trim] at htext
  have hstart := Text.prefix_of_words_eq_cons htext (Text.trimStart_trim line)
  rw [isHeader_iff_marked, ← hword, String.toList_ofList]
  exact hstart

/-- `UnderData lines body` says that the body stands behind the first header of a data section, and
that it goes up to the next line that ends a section, or to the last line. -/
def UnderData (lines body : List (List Char)) : Prop :=
  ∃ before header rest, lines = before ++ header :: (body ++ rest) ∧
    (∀ line ∈ before, ¬ OpensData line) ∧ OpensData header ∧
    (∀ line ∈ body, endsSection line = false) ∧
    ∀ line, rest.head? = some line → endsSection line = true

/-- The body of a data section is what stands behind its header up to a line that ends it. -/
theorem underData_takeWhile {header : List Char} (hfront : ∀ line ∈ front, ¬ OpensData line)
    (hheader : OpensData header) (back : List (List Char)) :
    UnderData (front ++ header :: back) (back.takeWhile fun line => !endsSection line) := by
  refine ⟨front, header, back.dropWhile fun line => !endsSection line, ?_, hfront, hheader, ?_, ?_⟩
  · rw [List.takeWhile_append_dropWhile]
  · intro line hline
    simpa using List.mem_takeWhile_imp hline
  · intro line hline
    have hends := List.head?_dropWhile_not (fun line => !endsSection line) back
    rw [hline] at hends
    simpa using hends

end Listing

namespace Line

variable {line : Line} {lines : List Line} {text : List Char} {texts : List (List Char)}

/-- Lines with the texts that trimming leaves have each the text of one of these. -/
theorem exists_text_of_mem (h : lines.map (·.text.toList) = texts.map Text.trim)
    (hline : line ∈ lines) : ∃ text ∈ texts, line.text.toList = Text.trim text := by
  have htext := List.mem_map_of_mem (f := (·.text.toList)) hline
  rw [h] at htext
  obtain ⟨text, hmem, htrim⟩ := List.mem_map.mp htext
  exact ⟨text, hmem, htrim.symm⟩

/-- A line whose text is what trimming leaves of another opens a data section if that does. -/
theorem opensData_iff (h : line.text.toList = Text.trim text) :
    line.OpensData ↔ Listing.OpensData text := by
  rw [OpensData, Listing.OpensData, line.words_eq, Text.wordsOf, Text.wordsOf, h,
    Text.words_trim, String.toList_ofList]

/-- The header of a data section is no sentinel. -/
theorem OpensData.isSentinel_eq (h : line.OpensData) : line.isSentinel = false := by
  rw [← Bool.not_eq_true]
  intro hsentinel
  have hname := Program.opensData_iff.mp h
  rw [sectionName?_of_isSentinel hsentinel] at hname
  cases hname

/-- A sentinel is told by its text. -/
theorem isSentinel_eq (line : Line) :
    line.isSentinel = (line.text.toList == Listing.sentinel) := by
  rw [Bool.eq_iff_iff, isSentinel, beq_iff_eq, beq_iff_eq, Listing.sentinel, String.toList_inj]

end Line

namespace Program

variable {layout : Layout} {source : String} {program : Program} {line first : Line}
  {before following lines : List Line} {sources : List (List Char)}

/-- A program that is linked from a clean form has the code lines of the source with its sections
closed, trimmed. -/
theorem map_text_of_link (h : (link layout (Listing.clean source)).result = .ok program) :
    program.lines.map (·.text.toList) =
      (Listing.separate false false (Listing.retained source.toList)).map Text.trim := by
  rw [lines_of_link h, Line.ofListing_clean, Line.map_text_numbered, Listing.cleanLines_eq]

/-- The texts of a block are those up to a sentinel. -/
theorem map_toList_block {texts : List (List Char)}
    (h : lines.map (·.text.toList) = texts.map Text.trim) :
    (block lines).map (·.text.toList) =
      (texts.takeWhile fun text => !Listing.isSentinel text).map Text.trim := by
  have hblock : (block lines).map (·.text.toList) =
      (lines.map (·.text.toList)).takeWhile fun text => !(text == Listing.sentinel) := by
    simp only [block, Line.isSentinel_eq, List.takeWhile_map]
    rfl
  rw [hblock, h, List.takeWhile_map]
  rfl

/-- `Reaches sources lead line rest block` says that the line stands in the source between these
lines, and that the block is what follows up to the end of the section. -/
structure Reaches (sources lead : List (List Char)) (line : List Char) (rest : List (List Char))
    (block : List Line) : Prop where
  split : sources = lead ++ line :: rest
  texts : block.map (·.text.toList) =
    (rest.takeWhile fun line => !Listing.endsSection line).map Text.trim

/-- Behind a line of a program that is no sentinel, with a header at it or in front of it, the block
goes as far as the section of the source. -/
theorem exists_reaches
    (htexts : (before ++ first :: following).map (·.text.toList) =
      (Listing.separate false false sources).map Text.trim)
    (hfirst : first.isSentinel = false)
    (hheader : ∃ header ∈ before ++ [first], ".section".toList <+: header.text.toList) :
    ∃ lead line rest, Reaches sources lead line rest (block following) ∧
      first.text.toList = Text.trim line ∧
      ∀ other ∈ lead, ∃ earlier ∈ before, earlier.text.toList = Text.trim other := by
  rw [List.map_append, List.map_cons, eq_comm] at htexts
  obtain ⟨front, _, hsplit, hfront, hrest⟩ := List.map_eq_append_iff.mp htexts
  obtain ⟨line, back, rfl, hline, hback⟩ := List.map_eq_cons_iff.mp hrest
  have hne : line ≠ Listing.sentinel := by
    rintro rfl
    rw [Line.isSentinel_eq, ← hline] at hfirst
    revert hfirst
    decide
  obtain ⟨lead, rest, rfl, rfl, hlead, hmem⟩ := Listing.exists_of_separate_eq hsplit hne
  have hopened : (false || lead.any Listing.isHeader || Listing.isHeader line) = true := by
    obtain ⟨header, hheader, hstart⟩ := hheader
    rcases List.mem_append.mp hheader with hheader | hheader
    · -- The header is no sentinel, so it stands in the source as well.
      obtain ⟨other, hother, htext⟩ := Line.exists_text_of_mem hfront.symm hheader
      rw [htext, ← Listing.isHeader_iff_marked] at hstart
      rcases hmem other hother with hother | rfl
      · simp [List.any_eq_true.mpr ⟨other, hother, hstart⟩]
      · rw [Listing.isHeader_sentinel] at hstart
        cases hstart
    · rw [List.mem_singleton.mp hheader, ← hline, ← Listing.isHeader_iff_marked] at hstart
      rw [hstart, Bool.or_true]
  refine ⟨lead, line, rest, ⟨rfl, ?_⟩, hline.symm, fun other hother => ?_⟩
  · rw [map_toList_block hback.symm, hopened, Listing.takeWhile_separate]
  · have hother := List.mem_map_of_mem (f := Text.trim) (hlead hother)
    rw [hfront] at hother
    exact List.mem_map.mp hother

/-- A block that goes as far as the section of the source holds no header. -/
theorem Reaches.unmarked {lead rest : List (List Char)} {header : List Char}
    (h : Reaches sources lead header rest lines) (hline : line ∈ lines) :
    ¬ ".section".toList <+: line.text.toList := by
  obtain ⟨text, hmem, htext⟩ := Line.exists_text_of_mem h.texts hline
  have hends : Listing.endsSection text = false := by simpa using List.mem_takeWhile_imp hmem
  rw [htext, ← Listing.isHeader_iff_marked, Bool.not_eq_true]
  exact (Bool.or_eq_false_iff.mp hends).2

/-- Sections do not run into each other in a program that is linked from a clean form. The lines
that are declared, one after the other, are what the source keeps behind the first header of a data
section, up to a line that is a sentinel when trimmed or a header, or to the end; so none of them
starts with the section marker. Nor does any line in the block of an event whose label stands behind
a line that does, and none of these is a sentinel. -/
theorem sections_apart (h : (link layout (Listing.clean source)).result = .ok program) :
    ∃ declared records final body,
      Behind Line.OpensData program.lines declared ∧
      Outcome.Chain (fun line layout => Layout.addLine layout line) declared layout records final ∧
      program.memory = final.memory ∧ program.symbols = final.symbols ∧
      (∀ line ∈ declared, ¬ ".section".toList <+: line.text.toList) ∧
      Listing.UnderData (Listing.retained source.toList) body ∧
      declared.map (·.text.toList) = body.map Text.trim ∧
      ∀ name before label following, program.lines = before ++ label :: following →
        (∀ line ∈ before, line.label? ≠ some (Event.label name)) →
        label.label? = some (Event.label name) →
        (∃ header ∈ before, ".section".toList <+: header.text.toList) →
        ∃ lines, program.event? name = some lines ∧
          ∀ line ∈ lines, ¬ ".section".toList <+: line.text.toList ∧ line.isSentinel = false := by
  have htexts := map_text_of_link h
  obtain ⟨declared, records, final, hdeclared, hchain, hprogram⟩ := link_eq_ok h
  rw [← lines_of_link h, declarations?_eq_some_iff_behind] at hdeclared
  have ⟨before, header, rest, hsplit, hbefore, hopens, hstretch, hrest⟩ := hdeclared
  have hmarked : ".section".toList <+: header.text.toList := by
    have hmem : header ∈ program.lines := by simp [hsplit]
    obtain ⟨text, _, htext⟩ := Line.exists_text_of_mem htexts hmem
    rw [htext, ← Listing.isHeader_iff_marked]
    exact Listing.isHeader_of_opensData ((Line.opensData_iff htext).mp hopens)
  obtain ⟨lead, line, others, hreaches, hline, hlead⟩ :=
    exists_reaches (hsplit ▸ htexts) hopens.isSentinel_eq ⟨header, by simp, hmarked⟩
  rw [block_of_head? hstretch hrest] at hreaches
  refine ⟨declared, records, final, others.takeWhile fun line => !Listing.endsSection line,
    hdeclared, hchain, by rw [hprogram], by rw [hprogram], fun _ => hreaches.unmarked, ?_,
    hreaches.texts, ?_⟩
  · rw [hreaches.split]
    refine Listing.underData_takeWhile (fun other hother hopens => ?_)
      ((Line.opensData_iff hline).mp hopens) others
    obtain ⟨earlier, hearlier, htext⟩ := hlead other hother
    exact hbefore earlier hearlier ((Line.opensData_iff htext).mpr hopens)
  · intro name before label following hsplit hbefore hlabel hheader
    have hevent : program.event? name = some (block following) := by
      rw [event?_eq_stretch?, hsplit, stretch?_append_left hbefore, stretch?_cons_of_pos hlabel]
    have hsentinel : label.isSentinel = false := by
      rw [← Bool.not_eq_true]
      intro hsentinel
      rw [Line.label?_of_isSentinel hsentinel] at hlabel
      cases hlabel
    obtain ⟨header, hheader, hmarked⟩ := hheader
    obtain ⟨_, _, _, hreaches, _, _⟩ := exists_reaches (hsplit ▸ htexts) hsentinel
      ⟨header, List.mem_append_left _ hheader, hmarked⟩
    refine ⟨block following, hevent, fun line hline => ⟨hreaches.unmarked hline, ?_⟩⟩
    simpa using List.mem_takeWhile_imp hline

/-- A source with headers that carry a comment, start like one and have no name. -/
def oddHeaders : String :=
  ".section data;\nm db 7\n ---\n.sections\nevent_a\nint 7\n.section ;"

/-- Headers with a comment, with another name and without one, and an indented sentinel. -/
theorem sections_apart_odd_headers :
    ∃ program, (link (.empty 2) (Listing.clean oddHeaders)).result = .ok program ∧
      (∃ declared body, Behind Line.OpensData program.lines declared ∧
        (∀ line ∈ declared, ¬ ".section".toList <+: line.text.toList) ∧
        Listing.UnderData (Listing.retained oddHeaders.toList) body ∧
        declared.map (·.text.toList) = body.map Text.trim) ∧
      ∃ lines, program.event? "a" = some lines ∧
        ∀ line ∈ lines, ¬ ".section".toList <+: line.text.toList ∧ line.isSentinel = false := by
  have hlinks : (link (.empty 2) (Listing.clean oddHeaders)).result.isOk = true := by
    decide +kernel
  obtain ⟨program, hlink⟩ := exists_of_isOk hlinks
  have hlines : program.lines = [.ofText 1 ".section data", .ofText 2 "m db 7", .ofText 3 "---",
      .ofText 4 "---", .ofText 5 ".sections", .ofText 6 "event_a", .ofText 7 "int 7",
      .ofText 8 "---", .ofText 9 ".section", .ofText 10 "---"] := by
    rw [lines_of_link hlink]
    decide +kernel
  obtain ⟨declared, _, _, body, hbehind, _, _, _, hmarked, hunder, htexts, hevents⟩ :=
    sections_apart hlink
  refine ⟨program, hlink, ⟨declared, body, hbehind, hmarked, hunder, htexts⟩, ?_⟩
  refine hevents "a" (program.lines.take 5) (.ofText 6 "event_a") (program.lines.drop 6) ?_ ?_ ?_ ?_
  · rw [hlines]
    rfl
  · rw [hlines]
    decide
  · decide
  · rw [hlines]
    decide

end Program

end ChannelAsm
