import ChannelAsm.Program.Build
import ChannelAsm.Proofs.Source.Separation
import ChannelAsm.Proofs.Text.Lines

/-!
# Clean lines

`Listing.IsCode` is the form of a line that cleaning writes: one line, without a comment, and not
blank. `Listing.separate_map_separate` says that sections which have been closed stay closed when
every line is put differently, as long as headers and sentinels keep their roles; so by
`Listing.cleanLines_unlines_trim` a clean listing stays as it is when its lines are trimmed and it
is cleaned again. `Line.ofListing_clean` says which lines a clean listing has.
-/

namespace ChannelAsm

namespace Listing

variable {line : List Char} {lines : List (List Char)} {source : List Char}

/-! ## The form of a clean line -/

/-- The line is what cleaning can write: it has no line feed and no comment, and holds more than
blanks. -/
structure IsCode (line : List Char) : Prop where
  newline : '\n' ∉ line
  comment : ';' ∉ line
  blank : line.all Text.isBlank = false

/-- A sentinel has that form. -/
theorem isCode_sentinel : IsCode sentinel := by
  refine ⟨?_, ?_, ?_⟩ <;> decide

/-- The code lines of a source have that form. -/
theorem isCode_of_mem_retained (h : line ∈ retained source) : IsCode line := by
  obtain ⟨hcode, hblank⟩ := List.mem_filter.mp h
  obtain ⟨uncut, huncut, rfl⟩ := List.mem_map.mp hcode
  refine ⟨fun hnewline => ?_, fun hcomment => ?_, by simpa using hblank⟩
  · exact Text.not_mem_newline_of_mem_lines huncut ((List.takeWhile_sublist _).mem hnewline)
  · simpa using List.mem_takeWhile_imp hcomment

/-- Closing sections writes no line but sentinels and those that are there. -/
theorem mem_of_mem_separate {opened closed : Bool} (h : line ∈ separate opened closed lines) :
    line = sentinel ∨ line ∈ lines := by
  induction lines generalizing opened closed with
  | nil =>
      cases closed with
      | true => cases h
      | false => exact .inl (List.mem_singleton.mp h)
  | cons first rest ih =>
      have hfollowing {opened closed : Bool} (h : line ∈ first :: separate opened closed rest) :
          line = sentinel ∨ line ∈ first :: rest := by
        rcases List.mem_cons.mp h with rfl | h
        · exact .inr List.mem_cons_self
        · exact (ih h).imp_right (List.mem_cons_of_mem first)
      rw [separate] at h
      split at h
      · rcases List.mem_cons.mp h with rfl | h
        · exact .inl rfl
        · exact hfollowing h
      · exact hfollowing h

/-- A clean line is a sentinel or a code line of the source. -/
theorem mem_of_mem_cleanLines (h : line ∈ cleanLines source) :
    line = sentinel ∨ line ∈ retained source :=
  mem_of_mem_separate (cleanLines_eq source ▸ h)

/-- The lines of a clean form have that form. -/
theorem isCode_of_mem_cleanLines (h : line ∈ cleanLines source) : IsCode line := by
  rcases mem_of_mem_cleanLines h with rfl | h
  · exact isCode_sentinel
  · exact isCode_of_mem_retained h

/-- Trimming keeps that form. -/
theorem IsCode.trim (h : IsCode line) : IsCode (Text.trim line) where
  newline := fun hnewline => h.newline (Text.mem_of_mem_trim hnewline)
  comment := fun hcomment => h.comment (Text.mem_of_mem_trim hcomment)
  blank := by
    have hne : Text.trim line ≠ [] := fun hnil => by
      simpa [h.blank] using Text.trim_eq_nil_iff.mp hnil
    rw [← Bool.not_eq_true, ← Text.trim_eq_nil_iff, Text.trim_trim]
    exact hne

/-- A line of that form without the carriage return at its end has that form. -/
theorem IsCode.dropReturn (h : IsCode line) : IsCode (Text.dropReturn line) := by
  obtain ⟨trail, hline, _⟩ := Text.exists_eq_dropReturn line
  refine ⟨fun hnewline => h.newline ?_, fun hcomment => h.comment ?_, ?_⟩
  · rw [hline]
    exact List.mem_append_left trail hnewline
  · rw [hline]
    exact List.mem_append_left trail hcomment
  · rw [← Bool.not_eq_true, ← Text.trim_eq_nil_iff, Text.trim_dropReturn, Text.trim_eq_nil_iff,
      Bool.not_eq_true]
    exact h.blank

/-- A line of that form is all code. -/
theorem IsCode.code_eq (h : IsCode line) : code line = line :=
  List.takeWhile_eq_self_iff.mpr fun c hc => by
    simpa using fun heq : c = ';' => h.comment (heq ▸ hc)

/-- The code of lines, without the blank ones. -/
def kept (lines : List (List Char)) : List (List Char) :=
  (lines.map fun line => code (Text.dropReturn line)).filter fun line => !line.all Text.isBlank

/-- The code lines of written lines are what is kept of them. -/
theorem retained_unlines (h : ∀ line ∈ lines, '\n' ∉ line) :
    retained (Text.unlines lines) = kept lines := by
  rw [retained, Text.lines_unlines h, List.map_map]
  rfl

/-- Written lines that are code are read back without the carriage returns at their ends. -/
theorem retained_unlines_of_isCode (h : ∀ line ∈ lines, IsCode line) :
    retained (Text.unlines lines) = lines.map Text.dropReturn := by
  have hcode : lines.map (fun line => code (Text.dropReturn line)) = lines.map Text.dropReturn :=
    List.map_congr_left fun line hline => (h line hline).dropReturn.code_eq
  rw [retained_unlines fun line hline => (h line hline).newline, kept, hcode]
  refine List.filter_eq_self.mpr fun line hline => ?_
  obtain ⟨text, htext, rfl⟩ := List.mem_map.mp hline
  simp [(h text htext).dropReturn.blank]

/-! ## Closing sections -/

/-- No character of the section marker is blank. -/
theorem isBlank_of_mem_sectionMarker {c : Char} (h : c ∈ Line.sectionMarker.toList) :
    Text.isBlank c = false := by
  have hall : Line.sectionMarker.toList.all (fun c => !Text.isBlank c) = true := by decide
  simpa using List.all_eq_true.mp hall c h

/-- Trimming neither makes nor hides a header. -/
theorem isHeader_trim (line : List Char) : isHeader (Text.trim line) = isHeader line := by
  rw [isHeader, Text.trimStart_trim, Text.isPrefixOf_trim fun _ => isBlank_of_mem_sectionMarker]
  rfl

/-- A carriage return at the end of a line neither makes nor hides a header. -/
theorem isHeader_dropReturn (line : List Char) :
    isHeader (Text.dropReturn line) = isHeader line := by
  rw [← isHeader_trim, Text.trim_dropReturn, isHeader_trim]

/-- A header that opens a further section behind a line that is no sentinel gets one in front. -/
theorem separate_cons_of_true {opened closed : Bool}
    (h : (isHeader line && opened && !closed) = true) (rest : List (List Char)) :
    separate opened closed (line :: rest) =
      sentinel :: line :: separate (opened || isHeader line) (line == sentinel) rest :=
  if_pos h

/-- In front of any other line nothing is put. -/
theorem separate_cons_of_false {opened closed : Bool}
    (h : (isHeader line && opened && !closed) = false) (rest : List (List Char)) :
    separate opened closed (line :: rest) =
      line :: separate (opened || isHeader line) (line == sentinel) rest :=
  if_neg (by simp [h])

/-- A sentinel is no header. -/
theorem isHeader_sentinel : isHeader sentinel = false := by
  decide

/-- Sections that have been closed stay so when lines are put differently, as long as headers and
sentinels remain. That the line before is a sentinel may only be found in more cases than at
first. -/
theorem separate_map_separate {f : List Char → List Char}
    (hheader : ∀ line, isHeader (f line) = isHeader line) (hsentinel : f sentinel = sentinel)
    (lines : List (List Char)) (opened : Bool) {closed known : Bool}
    (hclosed : closed = true → known = true) :
    separate opened known ((separate opened closed lines).map f) =
      (separate opened closed lines).map f := by
  induction lines generalizing opened closed known with
  | nil =>
      cases closed with
      | true => simp [separate, hclosed rfl]
      | false => simp [separate, hsentinel, isHeader_sentinel]
  | cons line rest ih =>
      have hline : (line == sentinel) = true → (f line == sentinel) = true := by
        intro hline
        rw [beq_iff_eq.mp hline, hsentinel]
        exact beq_self_eq_true _
      cases hopens : isHeader line && opened && !closed with
      | true =>
          -- The sentinel that is put here is found the second time, and no other is put.
          have hquiet : (isHeader (f line) && (opened || false) && !true) = false := by simp
          rw [separate_cons_of_true hopens, List.map_cons, List.map_cons, hsentinel,
            separate_cons_of_false (by simp [isHeader_sentinel]), isHeader_sentinel,
            beq_self_eq_true, separate_cons_of_false hquiet, Bool.or_false, hheader, ih _ hline]
      | false =>
          have hquiet : (isHeader (f line) && opened && !known) = false := by
            cases closed with
            | true => simp [hclosed rfl]
            | false => simp_all
          rw [separate_cons_of_false hopens, List.map_cons, separate_cons_of_false hquiet, hheader,
            ih _ hline]

/-- Cleaning a clean listing again changes nothing when its lines are trimmed. -/
theorem cleanLines_unlines_trim (source : List Char) :
    cleanLines (Text.unlines ((cleanLines source).map Text.trim)) =
      (cleanLines source).map Text.trim := by
  have hcode : ∀ line ∈ (cleanLines source).map Text.trim, IsCode line := by
    intro line hline
    obtain ⟨other, hother, rfl⟩ := List.mem_map.mp hline
    exact (isCode_of_mem_cleanLines hother).trim
  have hreturn : ((cleanLines source).map Text.trim).map Text.dropReturn =
      (cleanLines source).map Text.trim := by
    simp [Text.dropReturn_trim]
  rw [cleanLines_eq, retained_unlines_of_isCode hcode, hreturn, cleanLines_eq source]
  exact separate_map_separate isHeader_trim (by decide) _ false id

end Listing

/-! ## The lines of a clean listing -/

namespace Line

variable {texts others : List (List Char)}

/-- A line is a sentinel when trimming leaves one of its text. -/
theorem isSentinel_ofText_iff_trim (number : Nat) (text : List Char) :
    (ofText number (String.ofList text)).isSentinel = true ↔
      Text.trim text = Listing.sentinel := by
  rw [isSentinel, beq_iff_eq, text_ofText, Text.trimmed, String.toList_ofList,
    ← String.toList_inj, String.toList_ofList]
  rfl

/-- Lines with the given texts, numbered behind a count. -/
def numbered (count : Nat) (texts : List (List Char)) : List Line :=
  texts.mapIdx fun index text => ofText (index + count + 1) (String.ofList text)

/-- The words of a numbered line are those of its text. -/
theorem words_ofText (number : Nat) (text : List Char) :
    (ofText number (String.ofList text)).words = (Text.words text).map String.ofList := by
  rw [words_eq, text_ofText, Text.wordsOf, Text.trimmed, String.toList_ofList,
    String.toList_ofList, Text.words_trim]

/-- A line depends on what trimming leaves of a text. -/
theorem ofText_congr {text other : List Char} (h : Text.trim text = Text.trim other)
    (number : Nat) :
    ofText number (String.ofList text) = ofText number (String.ofList other) := by
  apply Line.ext
  · rfl
  · simp [Text.trimmed, h]

/-- Numbered lines depend on what trimming leaves of their texts. -/
theorem numbered_congr (h : texts.map Text.trim = others.map Text.trim) (count : Nat) :
    numbered count texts = numbered count others := by
  have hlength : texts.length = others.length := by simpa using congrArg List.length h
  refine List.ext_getElem (by simpa [numbered] using hlength) fun index hleft hright => ?_
  have hindex := List.getElem_of_eq h (by simpa [numbered] using hleft)
  simp only [numbered, List.getElem_mapIdx]
  exact ofText_congr (by simpa using hindex) _

/-- The text of a numbered line is trimmed. -/
theorem map_text_numbered (count : Nat) (texts : List (List Char)) :
    (numbered count texts).map (·.text.toList) = texts.map Text.trim := by
  refine List.ext_getElem (by simp [numbered]) fun index _ _ => ?_
  simp [numbered, Text.trimmed]

/-- Numbering goes on from one row of lines to the next. -/
theorem numbered_append (count : Nat) (texts others : List (List Char)) :
    numbered count (texts ++ others) =
      numbered count texts ++ numbered (texts.length + count) others := by
  simp [numbered, List.mapIdx_append, Nat.add_assoc]

/-- The lines of written lines that are code are those lines. -/
theorem ofListing_unlines (h : ∀ text ∈ texts, Listing.IsCode text) :
    ofListing (String.ofList (Text.unlines texts)) = numbered 0 texts := by
  have hkept : (texts.map Text.dropReturn).filter (fun line => !line.all Text.isBlank) =
      texts.map Text.dropReturn := by
    refine List.filter_eq_self.mpr fun line hline => ?_
    obtain ⟨text, htext, rfl⟩ := List.mem_map.mp hline
    simp [(h text htext).dropReturn.blank]
  rw [ofListing, String.toList_ofList, Text.lines_unlines fun text htext => (h text htext).newline,
    hkept]
  exact numbered_congr (by simp [Function.comp_def, Text.trim_dropReturn]) 0

/-- The lines of a clean form are those that cleaning writes. -/
theorem ofListing_clean (source : String) :
    ofListing (Listing.clean source) = numbered 0 (Listing.cleanLines source.toList) :=
  ofListing_unlines fun _ => Listing.isCode_of_mem_cleanLines

end Line

end ChannelAsm
