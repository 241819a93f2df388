import ChannelAsm.Command.Arguments
import ChannelAsm.Command.Batch
import ChannelAsm.Command.Session
import ChannelAsm.Command.Surroundings
import ChannelAsm.Command.Usage
import ChannelAsm.Program.Build

/-!
# The command

The `mcasm` command. It reads and builds its source, runs the initial event and the chosen ones, and
then lets an event tick or answers typed lines, when it is asked to. `Command.begin` and
`Command.tick` do this step by step; `Command.execute` puts the steps together, as a function of the
arguments, the surroundings and the lines that are typed. The command fails when its source cannot
be read or built, or when an event fails before the prompt; what the events report is no failure.
-/

namespace ChannelAsm

/-- What a command is about to do. -/
inductive Stage where
  /-- It ends. -/
  | over (failed : Bool)
  /-- It lets an event tick. -/
  | ticking (program : Program) (name : String) (bank : Bank)
  /-- It asks for lines. -/
  | asking (program : Program) (bank : Bank)

/-- What a command writes, and what it is about to do then. -/
structure Step where
  transcript : List Writing
  next : Stage

/-- What a command leaves behind. -/
structure Finished where
  transcript : List Writing
  failed : Bool
  replies : List String := []
  deriving DecidableEq, Repr

/-- The step, behind more that is written before. -/
def Step.behind (transcript : List Writing) (step : Step) : Step :=
  { step with transcript := transcript ++ step.transcript }

/-- The step, and what is done about what it leads to. -/
def Step.andThen (step : Step) (next : Stage → Step) : Step :=
  (next step.next).behind step.transcript

namespace Command

/-- End with the text of a failure. -/
def fail (terminal : Terminal) (message : String) : Step :=
  ⟨[.err (terminal.boldLine message)], .over true⟩

variable (given : Arguments) (terminal : Terminal)

/-- Write what is reported, and go on from the bank that is left unless there is a failure. -/
def settle (outcome : Outcome Bank Report Diagnostic) (goOn : Bank → Stage) : Step :=
  let shown := Report.transcript terminal given.level outcome.reports
  match outcome.result with
  | .ok () => ⟨shown, goOn outcome.state⟩
  | .error diagnostic => (fail terminal diagnostic.render).behind shown

/-- What comes behind the chosen events. -/
def goOn (program : Program) (bank : Bank) : Stage :=
  match given.tick with
  | some name => .ticking program name bank
  | none => if given.interactive then .asking program bank else .over false

/-- Run the initial event and the chosen ones. -/
def host (program : Program) : Step :=
  settle given terminal (program.start given.events) (goOn given program)

/-- Build a source and run the initial event and the chosen ones. -/
def begin (loaded : Loaded) : Step :=
  let shown (records : Array Record) :=
    Report.transcript terminal given.level (records.map .record)
  match loaded.source with
  | .error problem => (fail terminal problem).behind (shown loaded.records)
  | .ok source =>
      let linked := Program.build Memory.defaultCapacity source
      let records := loaded.records ++ linked.records
      match linked.result with
      | .error diagnostic => (fail terminal diagnostic.render).behind (shown records)
      | .ok program => (host given terminal program).behind (shown records)

/-- Let an event tick once. -/
def tick (program : Program) (name : String) (bank : Bank) : Step :=
  settle given terminal (program.run name bank) (.ticking program name)

/-- Let an event tick until it fails, at most the given number of times. -/
def ticked : Nat → Stage → Step
  | times + 1, .ticking program name bank =>
      (tick given terminal program name bank).andThen (ticked times)
  | _, stage => ⟨[], stage⟩

/-- What is left behind after a step when these lines are typed and no event ticks any more. -/
def finish (inputs : List String) (step : Step) : Finished :=
  match step.next with
  | .over failed => { transcript := step.transcript, failed }
  | .ticking .. => { transcript := step.transcript, failed := false }
  | .asking program bank =>
      { transcript := step.transcript, failed := false
        replies := Session.replies program terminal given.level bank inputs }

/-- Read, build and host the source that the arguments name. Ticking is given up after the given
number of times. -/
def execute (given : Arguments) (surroundings : Surroundings) (inputs : List String)
    (ticks : Nat) : Finished :=
  let terminal := surroundings.terminal
  let started := begin given terminal (surroundings.load given.source)
  finish given terminal inputs (started.andThen (ticked given terminal ticks))

/-- Run the command. There is nothing to leave behind when the arguments are wrong. -/
def run (arguments : List String) (surroundings : Surroundings) (inputs : List String)
    (ticks : Nat) : Option Finished :=
  match Arguments.parse arguments with
  | .error .usage => none
  | .error .help => some { transcript := [.out Usage.help], failed := false }
  | .error .version => some { transcript := [.out Usage.version], failed := false }
  | .ok given => some (execute given surroundings inputs ticks)

end Command

end ChannelAsm
