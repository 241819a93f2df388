import ChannelAsm.Proofs.Command.Batch
import ChannelAsm.Proofs.Command.Terminal
import ChannelAsm.Proofs.Machine.History

/-!
# What a session answers

A session takes lines one after the other and runs an event for each that is neither blank nor a
command; `Session.names` are the names of these events. `Session.Replies` says what the answer to a
line is, word by word. By `Command.execute_session` every line is answered from the bank that the
names before it leave, whether their runs failed or not, and as long as none fails a batch of the
same names reports the same.
-/

namespace ChannelAsm.Session

variable {program : Program} {terminal : Terminal} {level : Level} {bank : Bank} {input : String}

/-! ## Single lines -/

/-- A trimmed line is the name of an event when it is neither blank nor a command. -/
def isName (command : String) : Bool :=
  command ∉ ["", ".symbols", ".registers"]

/-- The text does not end its last line. -/
def Unended (text : String) : Prop :=
  text ≠ "" ∧ ∀ before, text ≠ before ++ "\n"

/-- `Closes text ending` says that the ending is a line feed where the text needs one to end its
last line, and empty elsewhere. -/
def Closes (text ending : String) : Prop :=
  (Unended text ∧ ending = "\n") ∨ (¬ Unended text ∧ ending = "")

/-- `Logged terminal level reports text` says that the text is what a log of the level takes of the
records among reports. -/
def Logged (terminal : Terminal) (level : Level) (reports : Array Report) (text : String) : Prop :=
  ∃ lines, List.Forall₂ (Record.Enters terminal level) (Report.records reports).toList lines ∧
    text = String.join lines.flatten

/-- `Described terminal reports text` says that the text is what is read of the outputs among
reports. -/
def Described (terminal : Terminal) (reports : Array Report) (text : String) : Prop :=
  ∃ texts, List.Forall₂ (Output.Reads terminal) (Report.outputs reports).toList texts ∧
    text = String.join texts

/-- `Lists bank channel line` says that the line tells the height and the newest entry of a
channel. -/
inductive Lists (bank : Bank) (channel : Channel) : String → Prop where
  | empty : (bank.stack channel).toList = [] →
      Lists bank channel (channel.mnemonic ++ " size 0 top -\n")
  | top {below value} : (bank.stack channel).toList = below ++ [value] →
      Lists bank channel (channel.mnemonic ++ " size " ++ (below.length + 1).repr ++ " top "
        ++ value.toInt.repr ++ "\n")

/-- `Replies program terminal level bank command text` says that the text is the answer to a trimmed
line from the bank: none to a blank one, a list to a command, and what the run of an event
reports. -/
inductive Replies (program : Program) (terminal : Terminal) (level : Level) (bank : Bank)
    (command : String) : String → Prop where
  | blank : command = "" → Replies program terminal level bank command ""
  | symbols : command = ".symbols" →
      Replies program terminal level bank command
        (String.join (program.symbols.toList.map fun symbol =>
          symbol.name ++ " @" ++ symbol.offset.repr ++ " [" ++ symbol.length.repr ++ "]" ++ "\n"))
  | registers {lines} : command = ".registers" → List.Forall₂ (Lists bank) Channel.all lines →
      Replies program terminal level bank command (String.join lines)
  | succeeded {reports left logged described ending} : isName command = true →
      program.run command bank = ⟨left, reports, .ok ()⟩ → Logged terminal level reports logged →
      Described terminal reports described → Closes described ending →
      Replies program terminal level bank command (logged ++ (described ++ ending))
  | failed {reports left logged described ending diagnostic} : isName command = true →
      program.run command bank = ⟨left, reports, .error diagnostic⟩ →
      Logged terminal level reports logged → Described terminal reports described →
      Closes described ending →
      Replies program terminal level bank command
        (logged ++ (described ++ ending) ++ terminal.failureLine diagnostic)

/-- The log takes what is shown of the records. -/
theorem logged_shown (terminal : Terminal) (level : Level) (reports : Array Report) :
    Logged terminal level reports
      (String.join ((Report.records reports).toList.flatMap (Record.shown terminal level))) := by
  refine ⟨_, List.forall₂_map_right_iff.mpr (List.forall₂_same.mpr fun record _ =>
    Record.enters_iff.mpr rfl), ?_⟩
  rw [List.flatMap_def]

/-- What is read of outputs are their descriptions. -/
theorem described_describe (terminal : Terminal) (reports : Array Report) :
    Described terminal reports
      (String.join ((Report.outputs reports).toList.map (Output.describe terminal))) :=
  ⟨_, List.forall₂_map_right_iff.mpr (List.forall₂_same.mpr fun _ _ =>
    Output.reads_iff.mpr rfl), rfl⟩

/-- The line of a channel tells its height and its newest entry. -/
theorem lists_channelLine (bank : Bank) (channel : Channel) :
    Lists bank channel (channelLine bank channel) := by
  rcases hstack : bank.stack channel with ⟨entries, size, hsize⟩
  subst hsize
  cases entries with
  | nil =>
      have hline : channelLine bank channel = channel.mnemonic ++ " size 0 top -\n" := by
        simp only [channelLine, hstack, Stack.top?, String.append_assoc]
        rfl
      rw [hline]
      exact .empty (by rw [hstack]; rfl)
  | cons value below =>
      have hline : channelLine bank channel = channel.mnemonic ++ " size "
          ++ (below.reverse.length + 1).repr ++ " top " ++ value.toInt.repr ++ "\n" := by
        simp only [channelLine, hstack, Stack.top?, List.length_reverse]
        rfl
      rw [hline]
      exact .top (by rw [hstack]; exact List.reverse_cons)

/-- A text ends in a line feed when that is its last character. -/
theorem getLast?_toList_eq_newline {text : String} :
    text.toList.getLast? = some '\n' ↔ ∃ before, text = before ++ "\n" := by
  rw [List.getLast?_eq_some_iff]
  constructor
  · rintro ⟨before, hbefore⟩
    exact ⟨String.ofList before, by simp [← String.toList_inj, hbefore]⟩
  · rintro ⟨before, rfl⟩
    exact ⟨before.toList, String.toList_append⟩

/-- The last line of a text is ended by what closes it. -/
theorem exists_endLine_eq (text : String) :
    ∃ ending, endLine text = text ++ ending ∧ Closes text ending := by
  rw [endLine]
  cases hlast : text.toList.getLast? with
  | none =>
      have hempty : text = "" := by simpa using List.getLast?_eq_none_iff.mp hlast
      exact ⟨"", by simp, .inr ⟨fun hunended => hunended.1 hempty, rfl⟩⟩
  | some last =>
      have hne : text ≠ "" := by
        rintro rfl
        cases hlast
      dsimp only
      split
      · rename_i hnewline
        obtain ⟨before, hbefore⟩ := getLast?_toList_eq_newline.mp (hnewline ▸ hlast)
        exact ⟨"", by simp, .inr ⟨fun hunended => hunended.2 before hbefore, rfl⟩⟩
      · rename_i hother
        refine ⟨"\n", by simp [← String.toList_inj], .inl ⟨⟨hne, fun before hbefore => ?_⟩, rfl⟩⟩
        apply hother
        have hnewline := getLast?_toList_eq_newline.mpr ⟨before, hbefore⟩
        exact Option.some.inj (hlast.symm.trans hnewline)

/-- A line that is a name runs the event. -/
theorem reply_of_isName (h : isName (Text.trimmed input) = true) :
    reply program terminal level bank input =
      (eventReply terminal level (program.run (Text.trimmed input) bank),
        (program.run (Text.trimmed input) bank).state) := by
  simp only [isName, decide_eq_true_eq, List.mem_cons, List.not_mem_nil, or_false, not_or] at h
  obtain ⟨hblank, hsymbols, hregisters⟩ := h
  exact (if_neg hblank).trans ((if_neg hsymbols).trans (if_neg hregisters))

/-- A line that is no name is answered without a run and leaves the bank alone. -/
theorem reply_of_not_isName (h : isName (Text.trimmed input) = false) :
    Replies program terminal level bank (Text.trimmed input)
        (reply program terminal level bank input).1 ∧
      (reply program terminal level bank input).2 = bank := by
  simp only [isName, decide_eq_false_iff_not, Decidable.not_not, List.mem_cons, List.not_mem_nil,
    or_false] at h
  rcases h with hblank | hsymbols | hregisters
  · rw [reply, if_pos hblank]
    exact ⟨.blank hblank, rfl⟩
  · have hcommand : Text.trimmed input = Completion.symbolsCommand := hsymbols
    rw [reply, if_neg (by rw [hsymbols]; decide), if_pos hcommand]
    exact ⟨.symbols hsymbols, rfl⟩
  · have hcommand : Text.trimmed input = Completion.registersCommand := hregisters
    have hlists : List.Forall₂ (Lists bank) Channel.all (Channel.all.map (channelLine bank)) :=
      List.forall₂_map_right_iff.mpr (List.forall₂_same.mpr fun channel _ =>
        lists_channelLine bank channel)
    rw [reply, if_neg (by rw [hregisters]; decide), if_neg (by rw [hregisters]; decide),
      if_pos hcommand]
    exact ⟨.registers hregisters hlists, rfl⟩

/-- The answer to a line is one to what is left of it by trimming. -/
theorem replies_reply (program : Program) (terminal : Terminal) (level : Level) (bank : Bank)
    (input : String) :
    Replies program terminal level bank (Text.trimmed input)
      (reply program terminal level bank input).1 := by
  cases hname : isName (Text.trimmed input) with
  | false => exact (reply_of_not_isName hname).1
  | true =>
      rw [reply_of_isName hname]
      generalize hrun : program.run (Text.trimmed input) bank = outcome
      have hlogged := logged_shown terminal level outcome.reports
      have hdescribed := described_describe terminal outcome.reports
      obtain ⟨ending, hending, hcloses⟩ := exists_endLine_eq
        (String.join ((Report.outputs outcome.reports).toList.map (Output.describe terminal)))
      rw [eventReply]
      dsimp only
      rw [hending]
      rcases outcome with ⟨left, reports, diagnostic | ⟨⟨⟩⟩⟩
      · dsimp only
        rw [← Terminal.failureLine_eq]
        exact .failed hname hrun hlogged hdescribed hcloses
      · dsimp only
        rw [String.append_empty]
        exact .succeeded hname hrun hlogged hdescribed hcloses

/-! ## Sessions -/

/-- The names of the events that typed lines run, in order. -/
def names (inputs : List String) : List String :=
  (inputs.map Text.trimmed).filter isName

section Lines

variable (program : Program) (terminal : Terminal) (level : Level) (bank : Bank)

/-- The bank after typed lines. -/
def bankAfter (inputs : List String) : Bank :=
  inputs.foldl (fun bank input => (reply program terminal level bank input).2) bank

/-- Typed lines leave the bank that the names among them do. -/
theorem bankAfter_eq (inputs : List String) :
    bankAfter program terminal level bank inputs =
      program.bankAfter ((names inputs).map .run) bank := by
  induction inputs generalizing bank with
  | nil => rfl
  | cons input inputs ih =>
      rw [bankAfter, List.foldl_cons, ← bankAfter, ih, names, names, List.map_cons]
      cases hname : isName (Text.trimmed input) with
      | true =>
          rw [List.filter_cons_of_pos hname, reply_of_isName hname]
          rfl
      | false =>
          rw [List.filter_cons_of_neg (by simp [hname]), (reply_of_not_isName hname).2]

variable {terminal} in
/-- A line without a tab is answered as it is typed, and the lines behind it from the bank that it
leaves. -/
theorem replies_cons (hverbatim : terminal.Verbatim) (h : '\t' ∉ input.toList)
    (inputs : List String) :
    replies program terminal level bank (input :: inputs) =
      (reply program terminal level bank input).1 ::
        replies program terminal level (reply program terminal level bank input).2 inputs := by
  rw [replies, hverbatim.typed_eq _ _ h]

variable {terminal} in
/-- Every line is answered from the bank that the lines before it leave. -/
theorem getElem?_replies (hverbatim : terminal.Verbatim) {inputs : List String}
    (htabs : ∀ input ∈ inputs, '\t' ∉ input.toList) (index : Nat) :
    (replies program terminal level bank inputs)[index]? = inputs[index]?.map fun input =>
      (reply program terminal level
        (bankAfter program terminal level bank (inputs.take index)) input).1 := by
  induction inputs generalizing bank index with
  | nil => rfl
  | cons input inputs ih =>
      obtain ⟨hinput, hinputs⟩ := List.forall_mem_cons.mp htabs
      rw [replies_cons program level bank hverbatim hinput]
      cases index with
      | zero => rfl
      | succ index =>
          rw [List.getElem?_cons_succ, List.getElem?_cons_succ, List.take_succ_cons, bankAfter,
            List.foldl_cons, ← bankAfter]
          exact ih _ hinputs index

variable {terminal} in
/-- Every line has an answer. -/
theorem length_replies (hverbatim : terminal.Verbatim) {inputs : List String}
    (htabs : ∀ input ∈ inputs, '\t' ∉ input.toList) :
    (replies program terminal level bank inputs).length = inputs.length := by
  induction inputs generalizing bank with
  | nil => rfl
  | cons input inputs ih =>
      obtain ⟨hinput, hinputs⟩ := List.forall_mem_cons.mp htabs
      rw [replies_cons program level bank hverbatim hinput, List.length_cons, List.length_cons,
        ih _ hinputs]

end Lines

end ChannelAsm.Session

namespace ChannelAsm

/-- Runs that all succeed are a chain, which reports what they do. -/
theorem Program.exists_chain_of_answers {program : Program} {names : List String} {bank : Bank}
    (h : ∀ outcome ∈ program.answers (names.map .run) bank, outcome.result = .ok ()) :
    ∃ reports, Outcome.Chain program.run names bank reports
        (program.bankAfter (names.map .run) bank) ∧
      reports.toList = (program.answers (names.map .run) bank).flatMap (·.reports.toList) := by
  induction names generalizing bank with
  | nil => exact ⟨#[], .nil bank, rfl⟩
  | cons name names ih =>
      rw [List.map_cons, answers] at h
      obtain ⟨hname, hnames⟩ := List.forall_mem_cons.mp h
      obtain ⟨reports, hchain, hreports⟩ := ih hnames
      refine ⟨(program.run name bank).reports ++ reports, ?_, ?_⟩
      · refine .cons ?_ hchain
        rw [← hname]
        rfl
      · rw [Array.toList_append, hreports]
        rfl

namespace Command

open Session

/-- A session whose initial and chosen events succeed answers every line from the bank that the
names on the lines before it leave. It never fails, and a failed run undoes nothing. As long as no
run fails, a batch of the same names runs to its end and reports the same. -/
theorem execute_session {given : Arguments} {surroundings : Surroundings} {records : Array Record}
    {program : Program} {reports : Array Report} {start : Bank} {written : List Writing}
    {inputs : List String}
    (hverbatim : surroundings.terminal.Verbatim)
    (hbuilds : Builds given surroundings records program)
    (hinteractive : given.interactive = true) (htick : given.tick = none)
    (hstart : Outcome.Chain program.run ("init" :: given.events) .initial reports start)
    (hwritten : Report.Recounts surroundings.terminal given.level
      (records.map .record ++ reports) written)
    (htabs : ∀ input ∈ inputs, '\t' ∉ input.toList) (ticks : Nat) :
    ∃ answered, execute given surroundings inputs ticks = ⟨written, false, answered⟩ ∧
      answered.length = inputs.length ∧
      (∀ index input text, inputs[index]? = some input → answered[index]? = some text →
        Replies program surroundings.terminal given.level
          (program.bankAfter ((names (inputs.take index)).map .run) start)
          (Text.trimmed input) text) ∧
      (∀ index,
        Session.bankAfter program surroundings.terminal given.level start (inputs.take index) =
          program.bankAfter ((names (inputs.take index)).map .run) start) ∧
      ((∀ outcome ∈ program.answers ((names inputs).map .run) start, outcome.result = .ok ()) →
        ∃ more behind, execute
            { given with events := given.events ++ names inputs, interactive := false } surroundings
            [] ticks = ⟨written ++ behind, false, []⟩ ∧
          Report.Recounts surroundings.terminal given.level more behind ∧
          more.toList =
            (program.answers ((names inputs).map .run) start).flatMap (·.reports.toList)) := by
  have hschedule : Outcome.Chain program.run
      (Program.schedule given.events given.tick ticks) .initial reports start := by
    rwa [htick, Program.schedule_none]
  refine ⟨replies program surroundings.terminal given.level start inputs, ?_,
    length_replies program _ start hverbatim htabs, ?_, fun index => bankAfter_eq .., ?_⟩
  · rw [execute_of_chain hbuilds hschedule htick hwritten, hinteractive]
    rfl
  · intro index input text hinput htext
    rw [getElem?_replies program _ start hverbatim htabs, hinput, Option.map_some, bankAfter_eq]
      at htext
    obtain rfl := Option.some.inj htext
    exact replies_reply ..
  · intro hsucceeds
    obtain ⟨more, hmore, hreports⟩ := Program.exists_chain_of_answers hsucceeds
    refine ⟨more, Report.transcript surroundings.terminal given.level more, ?_,
      Report.recounts_transcript .., hreports⟩
    have hbatch : Builds
        { given with events := given.events ++ names inputs, interactive := false } surroundings
        records program := hbuilds
    -- The batch comes to the names in the bank from which the session has started.
    have hchain := hstart.append hmore
    rw [List.cons_append, ← Program.schedule_none _ ticks, ← htick] at hchain
    have hrecounts : Report.Recounts surroundings.terminal given.level
        (records.map .record ++ (reports ++ more))
        (written ++ Report.transcript surroundings.terminal given.level more) := by
      obtain rfl := Report.recounts_iff.mp hwritten
      rw [Report.recounts_iff, ← Array.append_assoc, Report.transcript_append _ _ _ more]
    exact execute_of_chain hbatch hchain htick hrecounts []

/-- A source with a named cell, an event that prints and one that fails half way. -/
def talkingSource : String :=
  ".section data\nw db 1 2\n---\nevent_p\nmov eco 65\nint 7\n---\nevent_f\nmov ecx 7\nmov x 1"

/-- A source from the net; a padded name, a blank line, a failing event, both commands and a missing
event. -/
theorem execute_session_talking :
    let given : Arguments := ⟨"http://a", ["p"], none, 0, true, .info⟩
    let surroundings : Surroundings := ⟨⟨[]⟩, fun _ => .ok talkingSource, .standard⟩
    let inputs := [" p ", " ", "f", ".registers", "q", ".symbols"]
    let written : List Writing :=
      [.out "INFO  [mcasm::term] Fetching http://a\n",
        .out "INFO  [mcasm::mach::link] Linked 1 symbols into 3 of 256 cells\n",
        .out "WARN  [mcasm::mach::runtime] Failed to find event event_init to run\n",
        .err "\x1b[1mNO EVENT event_init\x1b[0m\n", .out "A"]
    let answered :=
      ["A\n", "",
        "\x1b[1mSEGMENTATION FAULT IN 10; stack x at 0xA000 not found: `mov x 1`\x1b[0m\n",
        "eax size 1 top 0\nebx size 1 top 0\necx size 2 top 7\neco size 1 top 0\n" ++
          "ero size 1 top 0\newo size 1 top 0\newi size 1 top 0\neki size 1 top 0\n" ++
          "emi size 1 top 0\n",
        "WARN  [mcasm::mach::runtime] Failed to find event event_q to run\n" ++
          "\x1b[1mNO EVENT event_q\x1b[0m\n",
        "w @0 [2]\n"]
    ∃ records program reports start, surroundings.terminal.Verbatim ∧
      Builds given surroundings records program ∧ given.interactive = true ∧ given.tick = none ∧
      Outcome.Chain program.run ["init", "p"] .initial reports start ∧
      Report.Recounts surroundings.terminal given.level (records.map .record ++ reports) written ∧
      (∀ input ∈ inputs, '\t' ∉ input.toList) ∧
      execute given surroundings inputs 0 = ⟨written, false, answered⟩ ∧
      ∀ index input text, inputs[index]? = some input → answered[index]? = some text →
        Replies program surroundings.terminal given.level
          (program.bankAfter ((names (inputs.take index)).map .run) start)
          (Text.trimmed input) text := by
  intro given surroundings inputs written answered
  have hexecute : execute given surroundings inputs 0 = ⟨written, false, answered⟩ := by
    decide +kernel
  have htabs : ∀ input ∈ inputs, '\t' ∉ input.toList := by
    decide
  rcases batch_or_chain given surroundings inputs 0 with
    ⟨hfailed, -⟩ | ⟨-, records, program, reports, start, hbuilds, hchain⟩
  · cases hfailed.symm.trans (congrArg Finished.failed hexecute)
  · have hsame : execute given surroundings inputs 0 = _ :=
      execute_of_chain hbuilds hchain rfl (Report.recounts_transcript ..) inputs
    have hwritten : Report.Recounts surroundings.terminal given.level _ written :=
      Report.recounts_iff.mpr (congrArg Finished.transcript (hexecute.symm.trans hsame))
    obtain ⟨texts, htexts, _, hreplies, _⟩ :=
      execute_session Terminal.standard_verbatim hbuilds rfl rfl hchain hwritten htabs 0
    obtain rfl : texts = answered :=
      congrArg Finished.replies (htexts.symm.trans hexecute)
    exact ⟨records, program, reports, start, Terminal.standard_verbatim, hbuilds, rfl, rfl, hchain,
      hwritten, htabs, hexecute, hreplies⟩

end Command

end ChannelAsm
