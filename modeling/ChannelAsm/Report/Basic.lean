import ChannelAsm.Report.Record

/-!
# Reports

What running an event lets the outside see, in the order in which it happens: records for the log
and outputs for the user.
-/

namespace ChannelAsm

/-- Something that a program does to the outside. -/
inductive Output where
  /-- Text for the console. -/
  | print (text : String)
  /-- Leaving with a status that is not zero. -/
  | exit (status : Int32)
  /-- The event to run does not exist. -/
  | missingEvent (label : String)
  deriving DecidableEq

/-- A record or an output. -/
inductive Report where
  | record (entry : Record)
  | output (effect : Output)
  deriving DecidableEq

namespace Report

/-- The record, unless the report is an output. -/
def record? : Report → Option Record
  | record entry => some entry
  | output _ => none

/-- The output, unless the report is a record. -/
def output? : Report → Option Output
  | record _ => none
  | output effect => some effect

/-- The records among reports, in order. -/
def records (reports : Array Report) : Array Record :=
  reports.filterMap record?

/-- The outputs among reports, in order. -/
def outputs (reports : Array Report) : Array Output :=
  reports.filterMap output?

/-- The outputs of reports that follow others follow their outputs. -/
theorem outputs_append (first second : Array Report) :
    outputs (first ++ second) = outputs first ++ outputs second :=
  Array.filterMap_append Array.size_append

/-- A record is no output. -/
theorem outputs_record (entry : Record) : outputs #[.record entry] = #[] :=
  rfl

end Report

end ChannelAsm
