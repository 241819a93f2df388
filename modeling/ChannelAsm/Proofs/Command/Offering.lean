import ChannelAsm.Proofs.Command.Session
import ChannelAsm.Proofs.Program.Section
import ChannelAsm.Proofs.Text.Trim

/-!
# The words that are offered for events

For each of its events a program offers the label without markers, and the prompt puts one marker in
front of the name that is typed. `Session.names_iff_plain` says for which labels the one undoes the
other: those with a single marker, in front of a name that is neither empty nor a command. By
`Session.reply_offered` what is offered for such a label, typed in full or completed by a tab, runs
the block of the event. What is offered for another label names no event, or a different one.
-/

namespace ChannelAsm

namespace Event

/-- No marker is left in front of a text without markers. -/
theorem not_isPrefixOf_unmarked (text : List Char) :
    marker.toList.isPrefixOf (unmarked text) = false := by
  fun_induction unmarked text with
  | case1 rest ih => exact ih
  | case2 text hmarked =>
      rw [← Bool.not_eq_true, List.isPrefixOf_iff_prefix]
      rintro ⟨rest, rfl⟩
      exact hmarked rest rfl

/-- Without a marker in front nothing is taken off. -/
theorem unmarked_eq_self {text : List Char} (h : marker.toList.isPrefixOf text = false) :
    unmarked text = text := by
  fun_cases unmarked text with
  | case1 rest => cases h
  | case2 => rfl

/-- The end of a text is left when its markers are taken off. -/
theorem unmarked_suffix (text : List Char) : unmarked text <:+ text := by
  fun_induction unmarked text with
  | case1 rest ih => exact ih.trans (List.suffix_append marker.toList rest)
  | case2 text => exact List.suffix_rfl

end Event

namespace Completion

/-- The word that is offered for an event with a label. -/
def offer (label : String) : String :=
  String.ofList (Event.unmarked label.toList)

/-- A program offers a word for each of its events, and the commands. -/
theorem words_eq (program : Program) :
    words program = program.events.map offer ++ [symbolsCommand, registersCommand] :=
  rfl

/-- The words offered for a start are those that begin with it. -/
theorem mem_candidates {program : Program} {start word : String} :
    word ∈ candidates program start ↔ word ∈ words program ∧ start.toList <+: word.toList := by
  rw [candidates, List.mem_filter, List.isPrefixOf_iff_prefix]

/-- A start without a break leaves one word to choose from, however often it is offered. -/
structure Chooses (breaks : List Char) (words : List String) (start word : String) : Prop where
  unbroken : ∀ c ∈ start.toList, c ∉ breaks
  mem : word ∈ words
  prefix_word : start.toList <+: word.toList
  only : ∀ other ∈ words, start.toList <+: other.toList → other = word

/-- A terminal that completes words makes the chosen one of a start and a tab, perhaps with a blank
behind it. -/
theorem Chooses.typed_eq {terminal : Terminal} {program : Program} {start word : String}
    (h : Chooses terminal.breaks (words program) start word) (hcompletes : terminal.Completes) :
    terminal.typed (candidates program) (start ++ "\t") = word ∨
      terminal.typed (candidates program) (start ++ "\t") = word ++ " " := by
  refine hcompletes.typed_tab _ _ _ h.unbroken (mem_candidates.mpr ⟨h.mem, h.prefix_word⟩) ?_
  intro other hother
  obtain ⟨hmem, hprefix⟩ := mem_candidates.mp hother
  exact h.only other hmem hprefix

end Completion

namespace Session

/-- `Names input label` says that the prompt takes a line for a name of the event with a label. -/
structure Names (input label : String) : Prop where
  isName : isName (Text.trimmed input) = true
  label_eq : Event.label (Text.trimmed input) = label

/-- The label is a single marker in front of the name of an event. -/
def Plain (label : String) : Prop :=
  ∃ name, label = Event.marker ++ name ∧ isName name = true ∧ Event.isLabel name = false

/-- `Offers terminal program label input` says that the line is what is offered for the event with
the label, typed in full or, on a terminal that completes words, made of a start and a tab. -/
inductive Offers (terminal : Terminal) (program : Program) (label : String) : String → Prop where
  | word : Offers terminal program label (Completion.offer label)
  | tab {start : String} (hcompletes : terminal.Completes)
      (hchooses : Completion.Chooses terminal.breaks (Completion.words program) start
        (Completion.offer label)) :
      Offers terminal program label
        (terminal.typed (Completion.candidates program) (start ++ "\t"))

variable {terminal : Terminal} {program : Program} {level : Level} {bank : Bank}
  {label input : String}

/-- A line that names an event is answered like its label. -/
theorem Names.reply_eq (h : Names input label) (program : Program) (terminal : Terminal)
    (level : Level) (bank : Bank) :
    reply program terminal level bank input =
      (eventReply terminal level (program.run label bank), (program.run label bank).state) := by
  rw [reply_of_isName h.isName, ← h.label_eq, Program.run_label]

/-- The label of an event is a word with the marker in front. -/
theorem isLabel_of_mem_events (h : label ∈ program.events) :
    Event.isLabel label = true ∧ ∀ c ∈ label.toList, Text.isBlank c = false := by
  obtain ⟨line, -, hline⟩ := List.mem_filterMap.mp h
  obtain ⟨hhead, hlabel⟩ := Option.filter_eq_some_iff.mp hline
  refine ⟨hlabel, ?_⟩
  have hmem : label ∈ line.words := List.mem_of_mem_head? hhead
  rw [line.words_eq] at hmem
  obtain ⟨word, hword, rfl⟩ := List.mem_map.mp hmem
  rw [String.toList_ofList]
  exact Text.not_isBlank_of_mem_words hword

/-- What is offered is left of the line by trimming. -/
theorem Offers.trimmed_eq (h : Offers terminal program label input)
    (hlabel : ∀ c ∈ label.toList, Text.isBlank c = false) :
    Text.trimmed input = Completion.offer label := by
  have hoffer : ∀ c ∈ (Completion.offer label).toList, Text.isBlank c = false := by
    intro c hc
    rw [Completion.offer, String.toList_ofList] at hc
    exact hlabel c ((Event.unmarked_suffix label.toList).subset hc)
  have hself := Text.trim_eq_self hoffer
  cases h with
  | word => rw [Text.trimmed, hself, String.ofList_toList]
  | tab hcompletes hchooses =>
      have hblank : ∀ c ∈ [' '], Text.isBlank c = true :=
        List.forall_mem_singleton.mpr (by decide)
      rcases hchooses.typed_eq hcompletes with htyped | htyped
      · rw [htyped, Text.trimmed, hself, String.ofList_toList]
      · rw [htyped, Text.trimmed, String.toList_append]
        exact congrArg String.ofList ((Text.trim_append hblank).trans hself) |>.trans
          String.ofList_toList

/-- A plain label is offered without its marker. -/
theorem offer_marker_append {name : String} (h : Event.isLabel name = false) :
    Completion.offer (Event.marker ++ name) = name := by
  rw [Completion.offer, String.toList_append]
  show String.ofList (Event.unmarked name.toList) = name
  rw [Event.unmarked_eq_self h, String.ofList_toList]

/-- What is offered for an event names it exactly when the label is plain. -/
theorem names_iff_plain (hlabel : label ∈ program.events)
    (hoffers : Offers terminal program label input) : Names input label ↔ Plain label := by
  obtain ⟨-, hblank⟩ := isLabel_of_mem_events hlabel
  have htrimmed := hoffers.trimmed_eq hblank
  constructor
  · -- What is offered has no marker, so completing it to a label puts one in front.
    rintro ⟨hname, hlabel⟩
    rw [htrimmed] at hname hlabel
    have hunmarked : Event.isLabel (Completion.offer label) = false := by
      rw [Event.isLabel, Completion.offer, String.toList_ofList]
      exact Event.not_isPrefixOf_unmarked label.toList
    rw [Event.label, if_neg (by simp [hunmarked])] at hlabel
    exact ⟨_, hlabel.symm, hname, hunmarked⟩
  · rintro ⟨name, rfl, hname, hunmarked⟩
    rw [offer_marker_append hunmarked] at htrimmed
    refine ⟨by rw [htrimmed]; exact hname, ?_⟩
    rw [htrimmed, Event.label, if_neg (by simp [hunmarked])]

/-- What is offered for an event names it exactly when its label is plain, and is then answered with
the run of the event's block. -/
theorem reply_offered (hlabel : label ∈ program.events)
    (hoffers : Offers terminal program label input) :
    (Names input label ↔ Plain label) ∧ ∃ block, program.event? label = some block ∧
      (Plain label → ∀ level bank,
        let outcome := (Outcome.reporting bank
          #[.record (.eventStarted label block.length)]).andThen (program.runLines block)
        reply program terminal level bank input =
          (eventReply terminal level outcome, outcome.state)) := by
  have hnames := names_iff_plain hlabel hoffers
  obtain ⟨hmarked, -⟩ := isLabel_of_mem_events hlabel
  cases hblock : program.event? label with
  | none =>
      rw [Program.event?_eq_none_iff, Event.label_of_isLabel hmarked] at hblock
      exact absurd hlabel hblock
  | some block =>
      refine ⟨hnames, block, rfl, fun hplain level bank => ?_⟩
      rw [(hnames.mpr hplain).reply_eq, Program.run, hblock, Event.label_of_isLabel hmarked]

/-- A source with the events `init` and `tick`. -/
def tickingSource : String :=
  ".section data\n---\n.section text\nevent_init\n---\nevent_tick\nadd ecx 1\n---\n"

/-- The name `tick` is completed from its first letter. -/
theorem reply_offered_tick :
    ∃ program, (Program.link (.empty 4) tickingSource).result = .ok program ∧
      let input := Terminal.standard.typed (Completion.candidates program) ("t" ++ "\t")
      "event_tick" ∈ program.events ∧ Offers .standard program "event_tick" input ∧
      Names input "event_tick" := by
  have hchecked : (Program.link (.empty 4) tickingSource).result.toOption.any
      (fun program => program.events = ["event_init", "event_tick"]) = true := by
    decide +kernel
  obtain ⟨program, hlink, hevents⟩ := exists_of_any hchecked
  have hevents : program.events = ["event_init", "event_tick"] := of_decide_eq_true hevents
  have hwords : Completion.words program = ["init", "tick", ".symbols", ".registers"] := by
    rw [Completion.words_eq, hevents]
    rfl
  have hlabel : "event_tick" ∈ program.events := by
    rw [hevents]
    decide
  have hchooses : Completion.Chooses Terminal.standard.breaks (Completion.words program) "t"
      "tick" := by
    rw [hwords]
    exact ⟨List.forall_mem_singleton.mpr (by decide), by decide, by decide, by decide⟩
  have hoffers : Offers .standard program "event_tick"
      (Terminal.standard.typed (Completion.candidates program) ("t" ++ "\t")) :=
    .tab Terminal.standard_completes hchooses
  have hplain : Plain "event_tick" := ⟨"tick", by decide, by decide, by decide⟩
  exact ⟨program, hlink, hlabel, hoffers, (reply_offered hlabel hoffers).1.mpr hplain⟩

/-- A source with an event whose label repeats the marker. -/
def repeatingSource : String :=
  ".section data\n---\n.section text\nevent_init\n---\nevent_event_x\nmov eco 65\nint 7\n---\n"

/-- For a label that repeats the marker the name of no event is offered. -/
theorem not_names_repeating :
    ∃ program, (Program.link (.empty 4) repeatingSource).result = .ok program ∧
      "event_event_x" ∈ program.events ∧ Offers .standard program "event_event_x" "x" ∧
      ¬ Names "x" "event_event_x" ∧ program.event? "x" = none := by
  have hchecked : (Program.link (.empty 4) repeatingSource).result.toOption.any
      (fun program => program.events = ["event_init", "event_event_x"]) = true := by
    decide +kernel
  obtain ⟨program, hlink, hevents⟩ := exists_of_any hchecked
  have hevents : program.events = ["event_init", "event_event_x"] := of_decide_eq_true hevents
  have hlabel : "event_event_x" ∈ program.events := by
    rw [hevents]
    decide
  have hmissing : program.event? "x" = none := by
    rw [Program.event?_eq_none_iff, hevents]
    decide
  exact ⟨program, hlink, hlabel, .word, fun hnames => absurd hnames.label_eq (by decide), hmissing⟩

end Session

end ChannelAsm
