import ChannelAsm.Machine.Run

/-!
# Batches

A batch runs events one after the other on one bank and stops at the first that fails. It starts
with the initial event. Missing events and exits do not stop a batch.
-/

namespace ChannelAsm.Program

/-- The name of the event that runs before all others. -/
def initialEvent : String := "init"

/-- Run events in order, up to the first that fails. -/
def runEach (program : Program) (names : List String) (bank : Bank) :
    Outcome Bank Report Diagnostic :=
  Outcome.sequence program.run names bank

/-- Run the initial event and the chosen ones on a fresh bank. -/
def start (program : Program) (events : List String) : Outcome Bank Report Diagnostic :=
  program.runEach (initialEvent :: events) .initial

end ChannelAsm.Program
