import ChannelAsm.Proofs.Program.Likeness
import ChannelAsm.Proofs.Source.Listing

/-!
# The wording of a text

`Text.wordRows` keeps of a text the words of its lines and drops all else: blank lines, how lines
end, and what blanks stand around and between words. Linking and running see no more than that, but
for the statements that diagnostics quote and the records that quote a line. So texts with the same
rows of words link alike and give programs that run alike: `Program.link_wordRows`.
-/

namespace ChannelAsm

/-- The words of the lines of a text, without the lines that hold blanks only. -/
def Text.wordRows (text : String) : List (List String) :=
  ((lines text.toList).filter fun line => !line.all isBlank).map fun line =>
    wordsOf (String.ofList line)

/-- The diagnostic without the statement that it quotes. -/
def Diagnostic.unstated (diagnostic : Diagnostic) : Diagnostic :=
  { diagnostic with statement := "" }

/-- What a located diagnostic tells besides the statement depends on the number of the line. -/
theorem Diagnostic.unstated_locate {line other : Line} (h : line.number = other.number)
    (diagnostic : Diagnostic) :
    (diagnostic.locate line).unstated = (diagnostic.locate other).unstated := by
  have hstated (statement : String) (located : Diagnostic) :
      (located.inStatement statement).unstated = located.unstated := by
    rw [inStatement]
    split <;> rfl
  rw [locate, locate, hstated, hstated, h]

namespace Line

/-- What is seen of a line besides its text: its number, its words, and whether it is a
sentinel. -/
def reading (line : Line) : Nat × List String × Bool :=
  (line.number, line.words, line.isSentinel)

/-- The reading of a line decides all but the statement that a diagnostic quotes. -/
theorem decides_reading : Decides reading Diagnostic.unstated where
  words_eq := fun h => (Prod.mk.inj (Prod.mk.inj h).2).1
  isSentinel_eq := fun h => (Prod.mk.inj (Prod.mk.inj h).2).2
  view_eq := fun h => Diagnostic.unstated_locate (Prod.mk.inj h).1

/-- A line is a sentinel when that is its only word. -/
theorem isSentinel_ofText_iff (number : Nat) (text : List Char) :
    (ofText number (String.ofList text)).isSentinel = true ↔
      Text.words text = [Listing.sentinel] := by
  rw [isSentinel_ofText_iff_trim]
  constructor
  · intro h
    rw [← Text.words_trim, h]
    decide
  · exact Text.trim_eq_of_words_eq_singleton

/-- A line is read the same from texts of the same words. -/
theorem reading_ofText_congr {text other : List Char} (h : Text.words text = Text.words other)
    (number : Nat) : (ofText number (String.ofList text)).reading =
      (ofText number (String.ofList other)).reading := by
  have hsentinel : (ofText number (String.ofList text)).isSentinel =
      (ofText number (String.ofList other)).isSentinel := by
    rw [Bool.eq_iff_iff, isSentinel_ofText_iff, isSentinel_ofText_iff, h]
  have hwords : (ofText number (String.ofList text)).words =
      (ofText number (String.ofList other)).words := by
    rw [words_ofText, words_ofText, h]
  rw [reading, reading, hsentinel, hwords, number_ofText, number_ofText]

/-- Texts of the same rows of words have lines of the same readings. -/
theorem map_reading_ofListing {first second : String}
    (h : Text.wordRows first = Text.wordRows second) :
    (ofListing first).map reading = (ofListing second).map reading := by
  have hlength := congrArg List.length h
  rw [Text.wordRows, Text.wordRows, List.length_map, List.length_map] at hlength
  refine List.ext_getElem (by simpa [ofListing] using hlength) fun index hleft hright => ?_
  have hindex := List.getElem_of_eq h (by simpa [ofListing, Text.wordRows] using hleft)
  simp only [Text.wordRows, List.getElem_map, Text.wordsOf, String.toList_ofList] at hindex
  simp only [ofListing, List.getElem_map, List.getElem_mapIdx]
  have hwords := List.map_injective_iff.mpr (fun _ _ => String.ofList_injective) hindex
  exact reading_ofText_congr hwords _

end Line

/-! ## Outputs -/

namespace Outcome

variable {State Failure Item : Type}

/-- The outcome with its outputs but without its records. -/
def unrecorded (outcome : Outcome State Report Failure) : Outcome State Output Failure :=
  ⟨outcome.state, Report.outputs outcome.reports, outcome.result⟩

/-- The outputs of what follows come behind those before. -/
theorem unrecorded_andThen (outcome : Outcome State Report Failure)
    (next : State → Outcome State Report Failure) :
    (outcome.andThen next).unrecorded =
      outcome.unrecorded.andThen fun state => (next state).unrecorded := by
  rcases outcome with ⟨state, reports, failure | ⟨⟨⟩⟩⟩
  · rfl
  · simp [unrecorded, Report.outputs_append]

/-- A list puts out what its items do. -/
theorem unrecorded_sequence (step : Item → State → Outcome State Report Failure)
    (items : List Item) (state : State) :
    (sequence step items state).unrecorded =
      sequence (fun item state => (step item state).unrecorded) items state := by
  induction items generalizing state with
  | nil => rfl
  | cons item items ih =>
      rw [sequence_cons, unrecorded_andThen, sequence_cons]
      exact congrArg _ (funext ih)

end Outcome

namespace Program

variable {left right : Program}

section

variable (hvalues : ∀ token, left.values token = right.values token)
include hvalues

/-- Lines of the same words put out the same where operands stand for the same. -/
theorem unrecorded_step {line other : Line} (h : line.words = other.words) (bank : Bank) :
    (left.step line bank).unrecorded = (right.step other bank).unrecorded := by
  rw [step, step, h]
  split
  · rfl
  · split
    · rfl
    · rw [Outcome.unrecorded_andThen, Outcome.unrecorded_andThen, action_congr hvalues]
      rfl

/-- Rows of lines of the same readings put out the same, but for the statement that a diagnostic
quotes. -/
theorem unrecorded_runLines {lines others : List Line}
    (h : lines.map Line.reading = others.map Line.reading) (bank : Bank) :
    (left.runLines lines bank).unrecorded.mapFailure Diagnostic.unstated =
      (right.runLines others bank).unrecorded.mapFailure Diagnostic.unstated := by
  rw [runLines, runLines, Outcome.unrecorded_sequence, Outcome.unrecorded_sequence]
  exact Outcome.mapFailure_sequence_locate Line.decides_reading
    (fun _ _ hline => funext (unrecorded_step hvalues (Line.decides_reading.words_eq hline)))
    h bank

/-- Programs whose blocks have lines of the same readings run an event alike, but for the records
and the statement that a diagnostic quotes. -/
theorem unrecorded_run {name : String}
    (hblock : (left.event? name).map (List.map Line.reading) =
      (right.event? name).map (List.map Line.reading)) (bank : Bank) :
    (left.run name bank).unrecorded.mapFailure Diagnostic.unstated =
      (right.run name bank).unrecorded.mapFailure Diagnostic.unstated := by
  refine run_congr (·.unrecorded.mapFailure Diagnostic.unstated) hblock ?_
  intro lines others hlines
  simp only [Outcome.unrecorded_andThen, Outcome.mapFailure_andThen,
    unrecorded_runLines hvalues hlines]
  rfl

end

/-- Texts with the same rows of words link alike. Both are refused, with the same code, line and
message, or both give programs with the same memory, symbols and labels. These programs answer every
request with the same outputs, leave the same bank each time and end alike, but for the statement
that a diagnostic quotes. -/
theorem link_wordRows {first second : String} (h : Text.wordRows first = Text.wordRows second)
    (layout : Layout) :
    (∃ diagnostic other, (link layout first).result = .error diagnostic ∧
      (link layout second).result = .error other ∧ diagnostic.code = other.code ∧
      diagnostic.line = other.line ∧ diagnostic.message = other.message) ∨
    ∃ left right, (link layout first).result = .ok left ∧
      (link layout second).result = .ok right ∧ left.memory = right.memory ∧
      left.symbols = right.symbols ∧ left.events = right.events ∧
      ∀ requests bank,
        (left.answers requests bank).map (·.unrecorded.mapFailure Diagnostic.unstated) =
          (right.answers requests bank).map (·.unrecorded.mapFailure Diagnostic.unstated) ∧
        left.bankAfter requests bank = right.bankAfter requests bank := by
  have hlines := Line.map_reading_ofListing h
  rcases link_cases Line.decides_reading (map_declarations? Line.decides_reading hlines) layout with
    ⟨diagnostic, other, hfails, hfailsToo, htold⟩ |
      ⟨left, right, hleft, hright, hmemory, hsymbols⟩
  · refine .inl ⟨diagnostic, other, hfails, hfailsToo, ?_, ?_, ?_⟩
    · exact congrArg (·.code) htold
    · exact congrArg (·.line) htold
    · exact congrArg (·.message) htold
  · rw [← lines_of_link hleft, ← lines_of_link hright] at hlines
    have hvalues (token : String) : left.values token = right.values token := by
      rw [values, values, hmemory, hsymbols]
    refine .inr ⟨left, right, hleft, hright, hmemory, hsymbols,
      filterMap_label?_congr Line.decides_reading hlines, ?_⟩
    refine answers_eq_of_run (fun hview => (Outcome.cases_of_mapFailure_eq hview).1) fun name => ?_
    refine unrecorded_run hvalues ?_
    rw [event?_eq_stretch?, event?_eq_stretch?]
    exact map_stretch?_label Line.decides_reading hlines _

/-- A text whose words have one blank between them. -/
def plainText : String :=
  ".section data\n---\nevent_a\nint 7\nmov eco 1"

/-- The same words among tabs, other blanks, carriage returns and blank lines. -/
def spacedText : String :=
  "\t.section\u00a0data\r\n\n\u3000---\r\n event_a\nint\t7\n \nmov  eco 1\r"

/-- A sentinel between blanks, and a carriage return behind the last word. -/
theorem link_wordRows_spaced :
    Text.wordRows plainText = Text.wordRows spacedText ∧
    ∃ left right, (link (.empty 4) plainText).result = .ok left ∧
      (link (.empty 4) spacedText).result = .ok right ∧ left.memory = right.memory ∧
      left.symbols = right.symbols ∧ left.events = right.events ∧
      ∀ requests bank,
        (left.answers requests bank).map (·.unrecorded.mapFailure Diagnostic.unstated) =
          (right.answers requests bank).map (·.unrecorded.mapFailure Diagnostic.unstated) ∧
        left.bankAfter requests bank = right.bankAfter requests bank := by
  have hrows : Text.wordRows plainText = Text.wordRows spacedText := by
    decide +kernel
  have hlinks : (link (.empty 4) plainText).result.isOk = true := by
    decide +kernel
  obtain ⟨program, hlink⟩ := exists_of_isOk hlinks
  rcases link_wordRows hrows (.empty 4) with ⟨_, _, hfails, _⟩ | hlinked
  · rw [hlink] at hfails
    cases hfails
  · exact ⟨hrows, hlinked⟩

end Program

end ChannelAsm
