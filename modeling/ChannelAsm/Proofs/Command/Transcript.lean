import ChannelAsm.Command.Transcript
import ChannelAsm.Proofs.Diagnostic
import Mathlib.Data.List.Forall2

/-!
# What a transcript recounts

The words that a command writes, in one place: `Record.Notes` is the table of the notes for a log,
`Level.upTo` says which of them a log takes, `Output.Reads` says what is read of an output and
`Terminal.failureLine` what is read of a failure. By `Report.recounts_iff` reports are written in
their order, each to its stream, and nothing else is written for them.
-/

namespace ChannelAsm

/-- Items are related one by one to what a function gives for them when the relation is that
function. -/
theorem forall₂_iff_eq_map {α β : Type} {R : α → β → Prop} {f : α → β} {items : List α}
    {results : List β} (h : ∀ item result, R item result ↔ result = f item) :
    List.Forall₂ R items results ↔ results = items.map f := by
  have hrel : R = fun item result => f item = result := by
    funext item result
    exact propext ((h item result).trans eq_comm)
  rw [hrel, ← List.forall₂_map_left_iff (R := Eq), List.forall₂_eq_eq_eq, eq_comm]

/-! ## Records -/

namespace Record

/-- The notes on the work of the machine and of the command: how severe they are, who makes them,
and their words. A code without a service is written in two's complement. -/
inductive Notes : Record → Level → String → String → Prop where
  | fetching (address : String) :
      Notes (.fetching address) .info "mcasm::term" ("Fetching " ++ address)
  | symbolDeclared (name : String) (offset length : Nat) :
      Notes (.symbolDeclared ⟨name, offset, length⟩) .debug "mcasm::mach::link"
        ("Symbol " ++ (name ++ " @" ++ offset.repr ++ " [" ++ length.repr ++ "]"))
  | linked (symbols cells capacity : Nat) :
      Notes (.linked symbols cells capacity) .info "mcasm::mach::link"
        ("Linked " ++ symbols.repr ++ " symbols into " ++ cells.repr ++ " of " ++ capacity.repr
          ++ " cells")
  | eventMissing (label : String) :
      Notes (.eventMissing label) .warn "mcasm::mach::runtime"
        ("Failed to find event " ++ label ++ " to run")
  | eventStarted (label : String) (lines : Nat) :
      Notes (.eventStarted label lines) .debug "mcasm::mach::runtime"
        ("Running " ++ label ++ " (" ++ lines.repr ++ " lines)")
  | executed (text : String) : Notes (.executed text) .trace "mcasm::mach::runtime" text
  | skipped (text : String) :
      Notes (.skipped text) .warn "mcasm::mach::runtime" ("Skipping unknown instruction " ++ text)
  | unhandled (code : Int32) :
      Notes (.unhandled code) .trace "mcasm::mach::runtime"
        ("No handler for interrupt 0x" ++
          String.ofList ((Nat.toDigits 16 code.toUInt32.toNat).leftpad 2 '0'))
  | exited (status : Int32) :
      Notes (.exited status) .error "mcasm::mach::runtime"
        ("System call failed: interrupt 0x00 read exit code " ++ status.toInt.repr
          ++ " from register 0x" ++ "0000" ++ ", expected 0")

variable {record : Record} {level : Level} {target text : String}

/-- A record is noted with its level, its target and its text. -/
theorem notes_iff :
    Notes record level target text ↔
      level = record.level ∧ target = record.target ∧ text = record.text := by
  constructor
  · intro h
    cases h with
    | exited status => exact ⟨rfl, rfl, (text_exited status).symm⟩
    | fetching | symbolDeclared | linked | eventMissing | eventStarted | executed | skipped |
      unhandled => exact ⟨rfl, rfl, rfl⟩
  · rintro ⟨rfl, rfl, rfl⟩
    cases record with
    | fetching address => exact .fetching address
    | symbolDeclared symbol => exact .symbolDeclared symbol.name symbol.offset symbol.length
    | linked symbols cells capacity => exact .linked symbols cells capacity
    | eventMissing label => exact .eventMissing label
    | eventStarted label lines => exact .eventStarted label lines
    | executed text => exact .executed text
    | skipped text => exact .skipped text
    | unhandled code => exact .unhandled code
    | exited status =>
        rw [text_exited]
        exact .exited status

end Record

/-- The levels of the records that a log takes. -/
def Level.upTo : Level → List Level
  | .error => [.error]
  | .warn => [.error, .warn]
  | .info => [.error, .warn, .info]
  | .debug => [.error, .warn, .info, .debug]
  | .trace => [.error, .warn, .info, .debug, .trace]

/-- A log shows the records that it takes. -/
theorem Level.shows_iff {log level : Level} : log.shows level = true ↔ level ∈ log.upTo := by
  cases log <;> cases level <;> decide

variable {terminal : Terminal} {log : Level}

/-- `Enters terminal log record lines` says that these are the lines that a record adds to the log:
one when the log takes it, and none otherwise. -/
inductive Record.Enters (terminal : Terminal) (log : Level) (record : Record) :
    List String → Prop where
  | shown {level target text} : record.Notes level target text → level ∈ log.upTo →
      Enters terminal log record [terminal.logLine level target text]
  | hidden {level target text} : record.Notes level target text → level ∉ log.upTo →
      Enters terminal log record []

/-- A record adds to the log what is shown of it. -/
theorem Record.enters_iff {record : Record} {lines : List String} :
    record.Enters terminal log lines ↔ lines = record.shown terminal log := by
  rw [shown]
  constructor
  · intro h
    cases h with
    | shown hnotes hlevel =>
        obtain ⟨rfl, rfl, rfl⟩ := notes_iff.mp hnotes
        rw [if_pos (Level.shows_iff.mpr hlevel)]
    | hidden hnotes hlevel =>
        obtain ⟨rfl, rfl, rfl⟩ := notes_iff.mp hnotes
        rw [if_neg fun hshows => hlevel (Level.shows_iff.mp hshows)]
  · rintro rfl
    have hnotes : record.Notes record.level record.target record.text :=
      notes_iff.mpr ⟨rfl, rfl, rfl⟩
    split
    · exact .shown hnotes (Level.shows_iff.mp ‹_›)
    · exact .hidden hnotes fun hlevel => ‹¬ _› (Level.shows_iff.mpr hlevel)

/-! ## Outputs and failures -/

/-- `Reads terminal output text` says that the text is what is read of an output: what is printed,
or a bold line on an exit or on a missing event. -/
inductive Output.Reads (terminal : Terminal) : Output → String → Prop where
  | print (text : String) : Reads terminal (.print text) text
  | exit (status : Int32) :
      Reads terminal (.exit status) (terminal.bold ("EXIT STATUS " ++ status.toInt.repr) ++ "\n")
  | missingEvent (label : String) :
      Reads terminal (.missingEvent label) (terminal.bold ("NO EVENT " ++ label) ++ "\n")

/-- What is read of an output is its description. -/
theorem Output.reads_iff {output : Output} {text : String} :
    output.Reads terminal text ↔ text = output.describe terminal := by
  constructor
  · intro h
    cases h <;> rfl
  · rintro rfl
    cases output with
    | print text => exact .print text
    | exit status => exact .exit status
    | missingEvent label => exact .missingEvent label

/-- What is read of a failure: its title and the parts that are known, in bold. -/
def Terminal.failureLine (terminal : Terminal) (diagnostic : Diagnostic) : String :=
  terminal.bold (diagnostic.code.title ++ String.join
    (Diagnostic.parts diagnostic.line (Diagnostic.given diagnostic.message)
      (Diagnostic.given diagnostic.statement))) ++ "\n"

/-- A failure is read as the bold line of its text. -/
theorem Terminal.failureLine_eq (terminal : Terminal) (diagnostic : Diagnostic) :
    terminal.failureLine diagnostic = terminal.boldLine diagnostic.render := by
  rw [failureLine, ← Diagnostic.render_eq, boldLine]

/-! ## Reports -/

namespace Report

/-- `Writes terminal log report written` says what is written for a report: a record goes to the
log, which is on the output stream like what is printed, and a notice goes to the error stream. -/
inductive Writes (terminal : Terminal) (log : Level) : Report → List Writing → Prop where
  | record {entry lines} : entry.Enters terminal log lines →
      Writes terminal log (.record entry) (lines.map .out)
  | print (text : String) : Writes terminal log (.output (.print text)) [.out text]
  | notice {output : Output} {text} : (∀ printed, output ≠ .print printed) →
      output.Reads terminal text → Writes terminal log (.output output) [.err text]

/-- What is written for a report. -/
theorem writes_iff {report : Report} {written : List Writing} :
    report.Writes terminal log written ↔ written = report.writings terminal log := by
  constructor
  · intro h
    cases h with
    | record henters => rw [writings, Record.enters_iff.mp henters]
    | print text => rfl
    | @notice output text hnotice hreads =>
        obtain rfl := Output.reads_iff.mp hreads
        cases output with
        | print text => exact absurd rfl (hnotice text)
        | exit | missingEvent => rfl
  · rintro rfl
    cases report with
    | record entry => exact .record (Record.enters_iff.mpr rfl)
    | output effect =>
        cases effect with
        | print text => exact .print text
        | exit status => exact .notice (fun _ => Output.noConfusion) (.exit status)
        | missingEvent label => exact .notice (fun _ => Output.noConfusion) (.missingEvent label)

/-- `Recounts terminal log reports written` says that what is written is what is written for each
of the reports, in order. -/
def Recounts (terminal : Terminal) (log : Level) (reports : Array Report)
    (written : List Writing) : Prop :=
  ∃ parts, List.Forall₂ (Writes terminal log) reports.toList parts ∧ written = parts.flatten

/-- What recounts reports is their transcript. -/
theorem recounts_iff {reports : Array Report} {written : List Writing} :
    Recounts terminal log reports written ↔ written = transcript terminal log reports := by
  have hparts (parts : List (List Writing)) :
      List.Forall₂ (Writes terminal log) reports.toList parts ↔
        parts = reports.toList.map (writings terminal log) :=
    forall₂_iff_eq_map fun _ _ => writes_iff
  simp only [Recounts, hparts, exists_eq_left, transcript, List.flatMap_def]

/-- A transcript recounts its own reports. -/
theorem recounts_transcript (terminal : Terminal) (log : Level) (reports : Array Report) :
    Recounts terminal log reports (transcript terminal log reports) :=
  recounts_iff.mpr rfl

/-- The transcript of reports that follow others follows their transcript. -/
theorem transcript_append (terminal : Terminal) (log : Level) (first second : Array Report) :
    transcript terminal log (first ++ second) =
      transcript terminal log first ++ transcript terminal log second := by
  rw [transcript, Array.toList_append, List.flatMap_append]
  rfl

end Report

end ChannelAsm
