import ChannelAsm.Command.Terminal
import ChannelAsm.Report.Basic

/-!
# Transcripts

What a command writes, in the order in which it does. Printed text and the log share the output
stream; notices about events and the final failure are bold and go to the error stream.
-/

namespace ChannelAsm

/-- A text that is written to one of the two streams. -/
inductive Writing where
  | out (text : String)
  | err (text : String)
  deriving DecidableEq, Repr

variable (terminal : Terminal)

/-- A bold line. -/
def Terminal.boldLine (text : String) : String :=
  terminal.bold text ++ "\n"

/-- The text of an output: what is printed, or a bold notice. -/
def Output.describe : Output → String
  | print text => text
  | exit status => terminal.boldLine ("EXIT STATUS " ++ status.toInt.repr)
  | missingEvent label => terminal.boldLine ("NO EVENT " ++ label)

/-- The line of a record, if a log of the level shows it. -/
def Record.shown (log : Level) (record : Record) : List String :=
  if log.shows record.level then [terminal.logLine record.level record.target record.text] else []

namespace Report

/-- What is written for a report, as far as a log of the level shows it. -/
def writings (log : Level) : Report → List Writing
  | record entry => (entry.shown terminal log).map .out
  | output (.print text) => [.out text]
  | output effect => [.err (effect.describe terminal)]

/-- What is written for reports, in order. -/
def transcript (log : Level) (reports : Array Report) : List Writing :=
  reports.toList.flatMap (writings terminal log)

end Report

end ChannelAsm
