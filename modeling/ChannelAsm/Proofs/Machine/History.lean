import ChannelAsm.Proofs.Machine.Primitive
import ChannelAsm.Proofs.Outcome.Trace

/-!
# Histories

A host asks one request after the other of a bank: to run an event or to reset. A failed run undoes
nothing and ends nothing. `Program.trace` is what a history comes down to, one primitive after the
other; `follows_trace`, `after_trace` and `reports_trace` say that it starts every primitive where
the one before has ended, ends in the bank that the requests leave, and reports what they do.
-/

namespace ChannelAsm

/-- What a host asks for. -/
inductive Request where
  /-- Run the event of a name. -/
  | run (name : String)
  /-- Bring every channel back to its first entry. -/
  | reset
  deriving DecidableEq

/-- A primitive that is carried out on a bank, and how that ends. -/
abbrev Bank.Moment := Outcome.Moment Primitive Bank Report Fault

namespace Program

variable (program : Program)

/-- What a request gives. -/
def answer : Request → Bank → Outcome Bank Report Diagnostic
  | .run name, bank => program.run name bank
  | .reset, _ => .done .initial

/-- What requests give in order, each from the bank that the one before has left. -/
def answers : List Request → Bank → List (Outcome Bank Report Diagnostic)
  | [], _ => []
  | request :: rest, bank =>
      program.answer request bank :: answers rest (program.answer request bank).state

/-- The bank that requests leave. -/
def bankAfter (requests : List Request) (bank : Bank) : Bank :=
  requests.foldl (fun bank request => (program.answer request bank).state) bank

/-! ## Primitives -/

/-- The primitives of lines. Those behind a line that fails are of no account. -/
def linesPrimitives : List Line → Bank → List Primitive
  | [], _ => []
  | line :: rest, bank =>
      program.primitives line bank ++ linesPrimitives rest (program.step line bank).state

/-- The primitives of running an event. -/
def eventPrimitives (name : String) (bank : Bank) : List Primitive :=
  match program.event? name with
  | none => [.miss (Event.label name)]
  | some lines =>
      .record (.eventStarted (Event.label name) lines.length) ::
        program.linesPrimitives lines bank

/-- The primitives of a request. -/
def requestPrimitives : Request → Bank → List Primitive
  | .run name, bank => program.eventPrimitives name bank
  | .reset, _ => [.reset]

/-- The moments of requests. -/
def trace : List Request → Bank → List Bank.Moment
  | [], _ => []
  | request :: rest, bank =>
      Outcome.trace Primitive.perform (program.requestPrimitives request bank) bank ++
        trace rest (program.answer request bank).state

/-- Carrying out lines is carrying out their primitives, but for the place that a failure tells. -/
theorem runLines_eq_sequence (lines : List Line) (bank : Bank) :
    ∃ place, program.runLines lines bank =
      (Outcome.sequence Primitive.perform (program.linesPrimitives lines bank) bank).mapFailure
        place := by
  induction lines generalizing bank with
  | nil => exact ⟨Fault.diagnostic, rfl⟩
  | cons line rest ih =>
      rw [linesPrimitives, Outcome.sequence_append, ← program.step_eq, runLines,
        Outcome.sequence_cons]
      -- The place is that of the line which fails: this one, or one of the rest.
      rcases program.step line bank with ⟨reached, first, fault | ⟨⟨⟩⟩⟩
      · exact ⟨(·.diagnostic.locate line), rfl⟩
      · obtain ⟨place, hrest⟩ := ih reached
        refine ⟨place, ?_⟩
        rw [Outcome.mapFailure_ok, Outcome.ok_andThen, Outcome.ok_andThen, ← runLines, hrest]
        rfl

/-- A request is carrying out its primitives, but for the place that a failure tells. -/
theorem answer_eq_sequence (request : Request) (bank : Bank) :
    ∃ place, program.answer request bank =
      (Outcome.sequence Primitive.perform (program.requestPrimitives request bank) bank).mapFailure
        place := by
  cases request with
  | reset => exact ⟨Fault.diagnostic, rfl⟩
  | run name =>
      rw [answer, run, requestPrimitives, eventPrimitives]
      cases program.event? name with
      | none => exact ⟨Fault.diagnostic, rfl⟩
      | some lines =>
          obtain ⟨place, hlines⟩ := program.runLines_eq_sequence lines bank
          refine ⟨place, ?_⟩
          dsimp only
          rw [Outcome.sequence_cons, Outcome.reporting, Outcome.ok_andThen, hlines]
          rfl

/-- A request leaves the bank that its primitives leave. -/
theorem state_answer (request : Request) (bank : Bank) :
    (program.answer request bank).state =
      (Outcome.sequence Primitive.perform (program.requestPrimitives request bank) bank).state := by
  obtain ⟨place, hanswer⟩ := program.answer_eq_sequence request bank
  exact congrArg Outcome.state hanswer

/-- A request reports what its primitives report. -/
theorem reports_answer (request : Request) (bank : Bank) :
    (program.answer request bank).reports =
      (Outcome.sequence Primitive.perform (program.requestPrimitives request bank)
        bank).reports := by
  obtain ⟨place, hanswer⟩ := program.answer_eq_sequence request bank
  exact congrArg Outcome.reports hanswer

/-! ## Traces -/

/-- Every primitive of a history starts from the bank that the one before has left. -/
theorem follows_trace (requests : List Request) (bank : Bank) :
    Outcome.Moment.Follows Primitive.perform bank (program.trace requests bank) := by
  induction requests generalizing bank with
  | nil => trivial
  | cons request rest ih =>
      refine Outcome.Moment.follows_append.mpr ⟨Outcome.follows_trace .., ?_⟩
      rw [Outcome.after_trace, ← state_answer]
      exact ih (program.answer request bank).state

/-- The primitives of a history end in the bank that the requests leave. -/
theorem after_trace (requests : List Request) (bank : Bank) :
    Outcome.Moment.after bank (program.trace requests bank) =
      program.bankAfter requests bank := by
  induction requests generalizing bank with
  | nil => rfl
  | cons request rest ih =>
      rw [trace, Outcome.Moment.after_append, Outcome.after_trace, ← state_answer, ih]
      rfl

/-- The primitives of a history report what the requests do. -/
theorem reports_trace (requests : List Request) (bank : Bank) :
    Outcome.Moment.reports (program.trace requests bank) =
      (program.answers requests bank).flatMap (·.reports.toList) := by
  induction requests generalizing bank with
  | nil => rfl
  | cons request rest ih =>
      rw [trace, Outcome.Moment.reports_append, Outcome.reports_trace, ← reports_answer, ih,
        answers, List.flatMap_cons]

end Program

end ChannelAsm
