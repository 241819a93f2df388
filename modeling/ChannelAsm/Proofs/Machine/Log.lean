import ChannelAsm.Proofs.Machine.Location
import ChannelAsm.Proofs.Machine.Transfer
import ChannelAsm.Proofs.Outcome.Trace
import ChannelAsm.Proofs.Source.Listing
import Mathlib.Tactic.IntervalCases

/-!
# The log of a run

A run tells what it does twice, in the log and in its outputs. `Program.Tells` says what a single
line adds to either: a note of the line itself, and at most one more, which is an error exactly when
the line puts out a status, and is about a code without a service exactly when the line asks for
one. By `Program.tells_step` every line of a linked program does so in every state, and
`Program.run_recounts` puts the lines of a run together, also of one that stops half-way.
-/

namespace ChannelAsm

/-! ## Logs and statuses -/

namespace Report

/-- What a log shows of reports: the level and the text of every record. -/
def log (reports : Array Report) : List (Level × String) :=
  (records reports).toList.map fun record => (record.level, record.text)

/-- The statuses with which reports say that the program leaves. -/
def statuses (reports : Array Report) : List Int32 :=
  (outputs reports).toList.filterMap fun
    | .exit status => some status
    | _ => none

/-- The log of reports that follow others follows their log. -/
theorem log_append (first second : Array Report) :
    log (first ++ second) = log first ++ log second := by
  simp [log, records]

/-- The statuses of reports that follow others follow their statuses. -/
theorem statuses_append (first second : Array Report) :
    statuses (first ++ second) = statuses first ++ statuses second := by
  simp [statuses, outputs]

/-- The note that the program leaves with a status. -/
def exitNote (status : Int32) : Level × String :=
  (.error, "System call failed: interrupt 0x00 read exit code " ++ status.toInt.repr
    ++ " from register 0x" ++ "0000" ++ ", expected 0")

/-- A report that the program leaves is noted. -/
theorem log_exited (status : Int32) :
    log #[.record (.exited status), .output (.exit status)] = [exitNote status] := by
  rw [exitNote, ← Record.text_exited]
  rfl

/-- The note that no service has a code. -/
def unhandledNote (code : Int32) : Level × String :=
  (.trace, "No handler for interrupt 0x" ++ Text.hexadecimal 2 code.toUInt32.toNat)

end Report

/-- The note of a line that is worked on: its text, or a warning that it is passed over when its
first word is no mnemonic. -/
def Line.note (line : Line) : Level × String :=
  if (line.words.head?.bind Mnemonic.ofWord?).isSome then (.trace, line.text)
  else (.warn, "Skipping unknown instruction " ++ line.text)

namespace Program

/-- The line asks for the service of a code that has none. -/
def AsksInVain (program : Program) (line : Line) (code : Int32) : Prop :=
  ∃ operand rest, line.words = "int" :: operand :: rest ∧
    program.values operand = .ok [code] ∧ (code.toInt < 0 ∨ 7 < code.toInt)

/-- What a line tells: it is noted, and either nothing else is, or that the program leaves with a
status, which is put out as well, or that a code has no service. -/
inductive Tells (program : Program) (line : Line) (reports : Array Report) : Prop where
  | plain : Report.log reports = [line.note] → Report.statuses reports = [] →
      (∀ code, ¬ program.AsksInVain line code) → Tells program line reports
  | leaves {status : Int32} : status ≠ 0 →
      Report.log reports = [line.note, Report.exitNote status] →
      Report.statuses reports = [status] → (∀ code, ¬ program.AsksInVain line code) →
      Tells program line reports
  | unhandled {code : Int32} : program.AsksInVain line code →
      Report.log reports = [line.note, Report.unhandledNote code] →
      Report.statuses reports = [] → Tells program line reports

end Program

/-! ## What actions report -/

/-- A step taken from a computation reports nothing. -/
theorem Outcome.reports_ofExcept {State Report Failure : Type} (state : State)
    (computation : Except Failure State) :
    (ofExcept state computation : Outcome State Report Failure).reports = #[] := by
  cases computation <;> rfl

/-- The codes without a service are those outside of 0 to 7. -/
theorem Interrupt.ofCode?_eq_none_iff {code : Int32} :
    ofCode? code = none ↔ code.toInt < 0 ∨ 7 < code.toInt := by
  constructor
  · intro h
    by_contra hrange
    obtain ⟨hlow, hhigh⟩ : 0 ≤ code.toInt ∧ code.toInt ≤ 7 := by omega
    have hcode : code = Int32.ofInt code.toInt := (Int32.ofInt_toInt code).symm
    generalize code.toInt = value at hcode hlow hhigh
    subst hcode
    interval_cases value <;> revert h <;> decide
  · intro h
    cases hservice : ofCode? code with
    | none => rfl
    | some interrupt =>
        obtain rfl := ofCode?_eq_some_iff.mp hservice
        revert h
        rcases interrupt with _ | device | _
        · decide
        · cases device <;> decide
        · decide

namespace Bank

/-- Moving entries reports nothing. -/
theorem reports_move (target : Channel) (count : Nat) (bank : Bank) :
    (bank.move target count).reports = #[] := by
  induction count generalizing bank with
  | zero => rfl
  | succ count ih =>
      rw [move]
      cases bank.pop .data with
      | error fault => rfl
      | ok taken =>
          dsimp only
          cases taken.2.push target taken.1 with
          | error fault => rfl
          | ok pushed => exact ih pushed

/-- A service reports nothing but a text to print, or that the program leaves with a status. -/
theorem reports_serve (bank : Bank) (interrupt : Interrupt) :
    (Report.log (bank.serve interrupt).reports = [] ∧
        Report.statuses (bank.serve interrupt).reports = []) ∨
      ∃ status, status ≠ 0 ∧ (bank.serve interrupt).reports =
        #[.record (.exited status), .output (.exit status)] := by
  cases interrupt with
  | exit =>
      rw [serve, leave]
      cases bank.pop .accumulator with
      | error fault => exact .inl ⟨rfl, rfl⟩
      | ok taken =>
          dsimp only
          split
          · exact .inl ⟨rfl, rfl⟩
          · exact .inr ⟨taken.1 - 1, ‹_›, rfl⟩
  | transfer device =>
      have hreports : (bank.transfer device.channel).reports = #[] := by
        rw [transfer]
        cases bank.pop .accumulator with
        | error fault => rfl
        | ok taken => exact reports_move ..
      rw [serve, hreports]
      exact .inl ⟨rfl, rfl⟩
  | flush =>
      rw [serve, flush]
      rcases (bank.stack .console).drain with ⟨_ | ⟨value, values⟩, rest⟩
      · exact .inl ⟨rfl, rfl⟩
      · exact .inl ⟨rfl, rfl⟩

end Bank

/-- An action that asks for no service reports nothing. -/
theorem Action.reports_perform {action : Action} (h : ∀ code, action ≠ .interrupt code)
    (bank : Bank) : (action.perform bank).reports = #[] := by
  cases action with
  | push channel values =>
      obtain ⟨reached, hpush, -⟩ := bank.exists_pushAll_eq channel values
      rw [perform, hpush]
  | combine operation channel value => exact Outcome.reports_ofExcept ..
  | interrupt code => exact absurd rfl (h code)

/-! ## What lines tell -/

/-- Every line of a listing has a word. -/
theorem Line.words_ne_nil {text : String} {line : Line} (h : line ∈ ofListing text) :
    line.words ≠ [] := by
  obtain ⟨index, hindex, rfl⟩ := List.mem_mapIdx.mp h
  have hblank := (List.mem_filter.mp (List.getElem_mem hindex)).2
  rw [words_ofText, Ne, List.map_eq_nil_iff, Text.words_eq_nil_iff]
  simpa using hblank

namespace Program

variable {program : Program} {line : Line} {word : String} {arguments : List String}
  {mnemonic : Mnemonic}

/-- A line asks for a service in vain exactly when its words make that interrupt. -/
theorem asksInVain_iff (hwords : line.words = word :: arguments)
    (hmnemonic : Mnemonic.ofWord? word = some mnemonic) {code : Int32} :
    program.AsksInVain line code ↔
      program.action mnemonic arguments = .ok (.interrupt code) ∧
        Interrupt.ofCode? code = none := by
  obtain rfl := Mnemonic.ofWord?_eq_some_iff.mp hmnemonic
  rw [Interrupt.ofCode?_eq_none_iff]
  constructor
  · rintro ⟨operand, rest, hint, hvalues, hrange⟩
    obtain ⟨hword, rfl⟩ := List.cons.inj (hwords.symm.trans hint)
    obtain rfl : mnemonic = .int := by
      rw [hword] at hmnemonic
      exact Option.some.inj (hmnemonic.symm.trans (Mnemonic.ofWord?_eq_some_iff.mpr rfl))
    exact ⟨action_of_reads (.interrupt rest hvalues), hrange⟩
  · rintro ⟨haction, hrange⟩
    generalize hinterrupt : Action.interrupt code = action at haction
    cases reads_of_action haction with
    | push | combine => cases hinterrupt
    | interrupt rest hvalues =>
        cases hinterrupt
        exact ⟨_, rest, hwords, hvalues, hrange⟩

/-- A line with a mnemonic is noted as it stands. -/
theorem note_of_mnemonic (hwords : line.words = word :: arguments)
    (hmnemonic : Mnemonic.ofWord? word = some mnemonic) : line.note = (.trace, line.text) := by
  simp [Line.note, hwords, hmnemonic]

/-- What a line with a mnemonic tells depends on what its action reports. -/
theorem tells_of_action {action : Action} (hwords : line.words = word :: arguments)
    (hmnemonic : Mnemonic.ofWord? word = some mnemonic)
    (haction : program.action mnemonic arguments = .ok action) (bank : Bank) :
    program.Tells line (#[.record (.executed line.text)] ++ (action.perform bank).reports) := by
  have hlog (reports : Array Report) :
      Report.log (#[.record (.executed line.text)] ++ reports) =
        line.note :: Report.log reports := by
    rw [Report.log_append, note_of_mnemonic hwords hmnemonic]
    rfl
  have hstatuses (reports : Array Report) :
      Report.statuses (#[.record (.executed line.text)] ++ reports) = Report.statuses reports := by
    rw [Report.statuses_append]
    rfl
  have hasks {code : Int32} : program.AsksInVain line code ↔
      action = .interrupt code ∧ Interrupt.ofCode? code = none := by
    rw [asksInVain_iff hwords hmnemonic, haction, Except.ok.injEq]
  by_cases hinterrupt : ∃ code, action = .interrupt code
  · obtain ⟨code, rfl⟩ := hinterrupt
    rw [Action.perform, Bank.interrupt]
    cases hservice : Interrupt.ofCode? code with
    | none =>
        exact .unhandled (hasks.mpr ⟨rfl, hservice⟩) (hlog _) (hstatuses _)
    | some service =>
        have hserved (other : Int32) : ¬ program.AsksInVain line other := by
          intro hother
          obtain ⟨⟨⟩, hnone⟩ := hasks.mp hother
          rw [hservice] at hnone
          cases hnone
        dsimp only
        rcases bank.reports_serve service with ⟨hquiet, hstays⟩ | ⟨status, hstatus, hreports⟩
        · refine .plain ?_ ?_ hserved
          · rw [hlog, hquiet]
          · rw [hstatuses, hstays]
        · rw [hreports]
          refine .leaves hstatus ?_ (hstatuses _) hserved
          rw [hlog, Report.log_exited]
  · have hother (code : Int32) : action ≠ .interrupt code := fun h => hinterrupt ⟨code, h⟩
    rw [Action.reports_perform hother]
    exact .plain (hlog _) (hstatuses _) fun code hcode => hother code (hasks.mp hcode).1

/-- A line with a word tells what it does in every state. -/
theorem tells_step (hline : line.words ≠ []) (bank : Bank) :
    program.Tells line (program.step line bank).reports := by
  obtain ⟨word, arguments, hwords⟩ := List.exists_cons_of_ne_nil hline
  rw [step, hwords]
  dsimp only
  cases hmnemonic : Mnemonic.ofWord? word with
  | none =>
      have hnote : line.note = (.warn, "Skipping unknown instruction " ++ line.text) := by
        simp [Line.note, hwords, hmnemonic]
      refine .plain (hnote ▸ rfl) rfl ?_
      rintro code ⟨operand, rest, hint, -⟩
      obtain ⟨rfl, -⟩ := List.cons.inj (hwords.symm.trans hint)
      cases hmnemonic
  | some mnemonic =>
      dsimp only
      rw [Outcome.reporting, Outcome.ok_andThen]
      cases haction : program.action mnemonic arguments with
      | error fault =>
          have hnote := note_of_mnemonic hwords hmnemonic
          refine .plain (hnote ▸ rfl) rfl fun code hcode => ?_
          have hinterrupt := ((asksInVain_iff hwords hmnemonic).mp hcode).1
          rw [haction] at hinterrupt
          cases hinterrupt
      | ok action => exact tells_of_action hwords hmnemonic haction bank

/-- The errors among the notes of a line are those of the statuses that it puts out. -/
theorem Tells.errors_eq {reports : Array Report} (h : program.Tells line reports) :
    (Report.log reports).filter (·.1 = .error) = (Report.statuses reports).map Report.exitNote := by
  have hnote : line.note.1 ≠ .error := by
    unfold Line.note
    split <;> simp
  cases h with
  | plain hlog hstatuses => simp [hlog, hstatuses, hnote]
  | leaves _ hlog hstatuses => simp [hlog, hstatuses, hnote, Report.exitNote]
  | unhandled _ hlog hstatuses => simp [hlog, hstatuses, hnote, Report.unhandledNote]

end Program

/-! ## What runs tell -/

/-- A line that is carried out, and how that ends. -/
abbrev Line.Moment := Outcome.Moment Line Bank Report Fault

namespace Report

variable {reports : Array Report} {moments : List Line.Moment}

/-- The log of what moments report is that of each in turn. -/
theorem log_of_moments (h : reports.toList = Outcome.Moment.reports moments) :
    log reports = moments.flatMap fun moment => log moment.outcome.reports := by
  simp [log, records, h, Outcome.Moment.reports, List.filterMap_flatMap, List.map_flatMap]

/-- The outputs of what moments report are those of each in turn. -/
theorem outputs_of_moments (h : reports.toList = Outcome.Moment.reports moments) :
    (outputs reports).toList =
      moments.flatMap fun moment => (outputs moment.outcome.reports).toList := by
  simp [outputs, h, Outcome.Moment.reports, List.filterMap_flatMap]

end Report

namespace Program

/-- How far lines are carried out: all of them with success, or up to one that fails. -/
inductive Covers (lines : List Line) : List Line.Moment → Except Diagnostic Unit → Prop where
  | complete {executed : List Line.Moment} : executed.map (·.item) = lines →
      (∀ moment ∈ executed, moment.outcome.result = .ok ()) → Covers lines executed (.ok ())
  | broken {earlier : List Line.Moment} {last : Line.Moment} {fault : Fault} :
      (earlier ++ [last]).map (·.item) <+: lines →
      (∀ moment ∈ earlier, moment.outcome.result = .ok ()) → last.outcome.result = .error fault →
      Covers lines (earlier ++ [last]) (.error (diagnosticAt last.item fault))

/-- What there is to say of running an event whose lines are carried out in these moments: the log
is the note that it starts and then what its lines tell in turn, the outputs are theirs, and the
errors in the log are those of the statuses put out. -/
structure Recounts (program : Program) (name : String) (block : List Line) (bank : Bank)
    (executed : List Line.Moment) : Prop where
  follows : Outcome.Moment.Follows program.step bank executed
  covers : Covers block executed (program.run name bank).result
  log_eq : Report.log (program.run name bank).reports =
    (.debug, "Running " ++ Event.label name ++ " (" ++ block.length.repr ++ " lines)") ::
      executed.flatMap fun moment => Report.log moment.outcome.reports
  outputs_eq : (Report.outputs (program.run name bank).reports).toList =
    executed.flatMap fun moment => (Report.outputs moment.outcome.reports).toList
  tells : ∀ moment ∈ executed, program.Tells moment.item moment.outcome.reports
  errors_eq : (Report.log (program.run name bank).reports).filter (·.1 = .error) =
    (Report.statuses (program.run name bank).reports).map Report.exitNote

variable {program : Program} {name : String} {block : List Line}

/-- Carrying out lines reports what their trace does, and ends as it does. -/
theorem covers_trace (block : List Line) (bank : Bank) :
    (program.runLines block bank).reports.toList =
        Outcome.Moment.reports (Outcome.trace program.step block bank) ∧
      Covers block (Outcome.trace program.step block bank)
        (program.runLines block bank).result := by
  rcases Outcome.chain_or_break program.step block bank with
    ⟨reports, final, hchain⟩ | ⟨index, line, reports, left, fault, hbreak⟩
  · obtain ⟨hitems, hresults⟩ := hchain.trace_eq
    rw [Outcome.reports_trace, hchain.sequence_eq, runLines_of_chain hchain]
    exact ⟨rfl, .complete hitems hresults⟩
  · obtain ⟨earlier, last, htrace, hitems, hresults⟩ := hbreak.trace_eq
    rw [htrace] at hitems
    rw [Outcome.reports_trace, hbreak.sequence_eq, runLines_of_break hbreak, htrace]
    exact ⟨rfl, .broken (hitems ▸ List.take_prefix _ _) hresults rfl⟩

/-- Running an event of a linked program tells the same in its log and in its outputs. When there is
no such event, the log warns of that and the only output says so. Otherwise the lines of the block
are carried out in order, all of them or up to the one that fails. The log says that the event
starts and how many lines it has. Then every line that is carried out is noted, and at most one more
thing behind it: that the program leaves with a status, exactly when the line puts that status out,
or that a code has no service, exactly when the line asks for it. So the errors in the log are those
of the statuses put out, one by one. -/
theorem run_recounts (hlinked : program.IsLinked) (name : String) (bank : Bank) :
    (program.event? name = none →
      Report.log (program.run name bank).reports =
          [(.warn, "Failed to find event " ++ Event.label name ++ " to run")] ∧
        Report.outputs (program.run name bank).reports = #[.missingEvent (Event.label name)]) ∧
      ∀ block, program.event? name = some block →
        program.Recounts name block bank (Outcome.trace program.step block bank) := by
  refine ⟨fun hnone => ?_, fun block hblock => ?_⟩
  · rw [run, hnone]
    exact ⟨rfl, rfl⟩
  · obtain ⟨text, htext⟩ := hlinked.exists_listing
    obtain ⟨hreports, hcovers⟩ := covers_trace block bank
    have hfollows := Outcome.follows_trace program.step block bank
    have hrun := run_of_event? hblock bank
    have hlog : Report.log (program.run name bank).reports =
        (.debug, "Running " ++ Event.label name ++ " (" ++ block.length.repr ++ " lines)") ::
          (Outcome.trace program.step block bank).flatMap fun moment =>
            Report.log moment.outcome.reports := by
      rw [hrun, Report.log_append, Report.log_of_moments hreports]
      rfl
    have houtputs : (Report.outputs (program.run name bank).reports).toList =
        (Outcome.trace program.step block bank).flatMap fun moment =>
          (Report.outputs moment.outcome.reports).toList := by
      rw [hrun, outputs_started, Report.outputs_of_moments hreports]
    have htells : ∀ moment ∈ Outcome.trace program.step block bank,
        program.Tells moment.item moment.outcome.reports := by
      intro moment hmoment
      obtain ⟨hitem, reached, houtcome⟩ := Outcome.exists_of_mem_trace hmoment
      have hmem : moment.item ∈ program.lines := (event?_eq_some_iff.mp hblock).mem hitem
      rw [houtcome]
      exact tells_step (Line.words_ne_nil (htext ▸ hmem)) reached
    refine ⟨hfollows, hrun ▸ hcovers, hlog, houtputs, htells, ?_⟩
    rw [hlog, Report.statuses, houtputs, List.filter_cons_of_neg (by simp), List.filter_flatMap,
      List.filterMap_flatMap, List.map_flatMap]
    exact List.flatMap_congr fun moment hmoment => (htells moment hmoment).errors_eq

/-- An event with a line that is no instruction, a code without a service and a status that is put
out, which stops before its last line; and one that is not there. -/
theorem run_recounts_halfway :
    ∃ program block,
      (link (.empty 0) ".section data\n---\nevent_a\nnop\nint 9\nint 0\nint 0\nint 7\n").result =
        .ok program ∧
      program.IsLinked ∧ program.event? "b" = none ∧
      (Report.log (program.run "b" .initial).reports =
          [(.warn, "Failed to find event " ++ Event.label "b" ++ " to run")] ∧
        Report.outputs (program.run "b" .initial).reports = #[.missingEvent (Event.label "b")]) ∧
      program.event? "a" = some block ∧
      program.Recounts "a" block .initial (Outcome.trace program.step block .initial) := by
  have hlinks : (link (.empty 0)
      ".section data\n---\nevent_a\nnop\nint 9\nint 0\nint 0\nint 7\n").result.toOption.any
        (fun program => (program.event? "a").isSome && (program.event? "b").isNone) = true := by
    decide +kernel
  obtain ⟨program, hlink, hevents⟩ := exists_of_any hlinks
  obtain ⟨hsome, hnone⟩ := Bool.and_eq_true_iff.mp hevents
  obtain ⟨block, hblock⟩ := Option.isSome_iff_exists.mp hsome
  have hmissing : program.event? "b" = none := Option.isNone_iff_eq_none.mp hnone
  have hlinked : program.IsLinked := ⟨0, [], _, hlink⟩
  exact ⟨program, block, hlink, hlinked, hmissing,
    (run_recounts hlinked "b" .initial).1 hmissing, hblock,
    (run_recounts hlinked "a" .initial).2 block hblock⟩

end Program

end ChannelAsm
