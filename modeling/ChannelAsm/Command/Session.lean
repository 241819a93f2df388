import ChannelAsm.Command.Completion
import ChannelAsm.Command.Transcript
import ChannelAsm.Machine.Run

/-!
# Sessions

A session answers typed lines one after the other on one bank. A blank line has no answer, two
commands list the symbols and the channels, and any other line runs an event. A failure is
answered like the rest: it ends nothing and undoes nothing.
-/

namespace ChannelAsm.Session

/-- The symbols of a program, one a line. -/
def symbolList (program : Program) : String :=
  String.join (program.symbols.toList.map fun symbol => symbol.render ++ "\n")

/-- The height and the newest entry of a channel. -/
def channelLine (bank : Bank) (channel : Channel) : String :=
  let stack := bank.stack channel
  let top := match stack.top? with
    | some value => value.toInt.repr
    | none => "-"
  channel.mnemonic ++ " size " ++ stack.size.repr ++ " top " ++ top ++ "\n"

/-- The channels of a bank, one a line. -/
def channelList (bank : Bank) : String :=
  String.join (Channel.all.map (channelLine bank))

/-- The text with its last line ended. The empty text has no line. -/
def endLine (text : String) : String :=
  match text.toList.getLast? with
  | none => text
  | some last => if last = '\n' then text else text.push '\n'

variable (program : Program) (terminal : Terminal) (log : Level)

/-- The answer to an event: its records as far as they are shown, then its outputs, then its
failure. -/
def eventReply (outcome : Outcome Bank Report Diagnostic) : String :=
  let lines := (Report.records outcome.reports).toList.flatMap (Record.shown terminal log)
  let described := (Report.outputs outcome.reports).toList.map (Output.describe terminal)
  let failure := match outcome.result with
    | .ok () => ""
    | .error diagnostic => terminal.boldLine diagnostic.render
  String.join lines ++ endLine (String.join described) ++ failure

/-- The answer to a typed line, and the bank after it. -/
def reply (bank : Bank) (input : String) : String × Bank :=
  let command := Text.trimmed input
  if command = "" then ("", bank)
  else if command = Completion.symbolsCommand then (symbolList program, bank)
  else if command = Completion.registersCommand then (channelList bank, bank)
  else
    let outcome := program.run command bank
    (eventReply terminal log outcome, outcome.state)

/-- The answers to typed lines, in order. -/
def replies : Bank → List String → List String
  | _, [] => []
  | bank, input :: inputs =>
      let line := terminal.typed (Completion.candidates program) input
      let (text, next) := reply program terminal log bank line
      text :: replies next inputs

end ChannelAsm.Session
