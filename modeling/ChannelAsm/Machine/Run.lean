import ChannelAsm.Machine.Service

/-!
# Running events

Running an event carries out the lines of its block in order. A line whose first word is no
mnemonic is passed over; the first fault ends the run and is located at its line. What was done
before stays done. `run_label` says that an event can be named with or without its marker.
-/

namespace ChannelAsm.Program

/-- Carry out one line. -/
def step (program : Program) (line : Line) (bank : Bank) : Outcome Bank Report Fault :=
  match line.words with
  | [] => .done bank
  | word :: arguments =>
      match Mnemonic.ofWord? word with
      | none => .reporting bank #[.record (.skipped line.text)]
      | some mnemonic =>
          (Outcome.reporting bank #[.record (.executed line.text)]).andThen fun bank =>
            match program.action mnemonic arguments with
            | .error fault => .fail bank fault
            | .ok action => action.perform bank

/-- Carry out lines in order, up to the first that fails. -/
def runLines (program : Program) (lines : List Line) (bank : Bank) :
    Outcome Bank Report Diagnostic :=
  Outcome.sequence
    (fun line bank => (program.step line bank).mapFailure (·.diagnostic.locate line)) lines bank

/-- Run the event of a name. An event that does not exist is reported, and is no failure. -/
def run (program : Program) (name : String) (bank : Bank) : Outcome Bank Report Diagnostic :=
  let label := Event.label name
  match program.event? name with
  | none =>
      .reporting bank #[.record (.eventMissing label), .output (.missingEvent label)]
  | some lines =>
      (Outcome.reporting bank #[.record (.eventStarted label lines.length)]).andThen
        (program.runLines lines)

/-- What a run leaves for a host that waits for its end. -/
structure Collected where
  bank : Bank
  records : Array Record
  result : Except Diagnostic (Array Output)

/-- Run an event and gather its outputs, which a failure gives up. -/
def collect (program : Program) (name : String) (bank : Bank) : Collected :=
  let outcome := program.run name bank
  ⟨outcome.state, Report.records outcome.reports,
    outcome.result.map fun () => Report.outputs outcome.reports⟩

/-- Run an event again and again, at most the given number of times and up to the first run that
fails; also how often it was run. -/
def runTimes (program : Program) (name : String) (times : Nat) (bank : Bank) :
    Nat × Outcome Bank Report Diagnostic :=
  Outcome.iterate (program.run name) times 0 (.done bank)

/-- A label and the name that it completes run the same event. -/
theorem run_label (program : Program) (name : String) (bank : Bank) :
    program.run (Event.label name) bank = program.run name bank := by
  simp [run, event?, Event.label_label]

end ChannelAsm.Program
