import ChannelAsm.Image.Symbol
import ChannelAsm.Isa.Channel
import ChannelAsm.Text.Hexadecimal

/-!
# Records

The records of a log: what the machine notes about its own work, with a level of severity. A log
shows a record when its level is at least as severe as the log's.
-/

namespace ChannelAsm

/-- How severe a record is. -/
inductive Level where
  | error
  | warn
  | info
  | debug
  | trace
  deriving DecidableEq, Repr

namespace Level

/-- The word for a level. -/
def word : Level → String
  | error => "ERROR"
  | warn => "WARN"
  | info => "INFO"
  | debug => "DEBUG"
  | trace => "TRACE"

/-- The position of a level, from the most severe to the least. -/
def rank : Level → Nat
  | error => 0
  | warn => 1
  | info => 2
  | debug => 3
  | trace => 4

/-- A log of this level shows records of the other. -/
def shows (log level : Level) : Bool :=
  level.rank ≤ log.rank

end Level

/-- A note on the work of the machine or of the command around it. -/
inductive Record where
  /-- The source is fetched from an address. -/
  | fetching (address : String)
  /-- A symbol was declared. -/
  | symbolDeclared (symbol : Symbol)
  /-- A program was linked, with this many symbols and cells in a memory of this capacity. -/
  | linked (symbols cells capacity : Nat)
  /-- No event has the label. -/
  | eventMissing (label : String)
  /-- An event of this many lines starts. -/
  | eventStarted (label : String) (lines : Nat)
  /-- The line is carried out. -/
  | executed (text : String)
  /-- The line is no instruction and is passed over. -/
  | skipped (text : String)
  /-- No service has the code. -/
  | unhandled (code : Int32)
  /-- The program asked to leave with a status that is not zero. -/
  | exited (status : Int32)
  deriving DecidableEq

namespace Record

/-- The level of a record. -/
def level : Record → Level
  | fetching _ => .info
  | symbolDeclared _ => .debug
  | linked .. => .info
  | eventMissing _ => .warn
  | eventStarted .. => .debug
  | executed _ => .trace
  | skipped _ => .warn
  | unhandled _ => .trace
  | exited _ => .error

/-- The part of the machine or the command that makes a record. -/
def target : Record → String
  | fetching _ => "mcasm::term"
  | symbolDeclared _ => "mcasm::mach::link"
  | linked .. => "mcasm::mach::link"
  | _ => "mcasm::mach::runtime"

/-- The text of a record. A code without a service is written in two's complement. -/
def text : Record → String
  | fetching address => "Fetching " ++ address
  | symbolDeclared symbol => "Symbol " ++ symbol.render
  | linked symbols cells capacity =>
      "Linked " ++ symbols.repr ++ " symbols into " ++ cells.repr ++ " of " ++ capacity.repr
        ++ " cells"
  | eventMissing label => "Failed to find event " ++ label ++ " to run"
  | eventStarted label lines => "Running " ++ label ++ " (" ++ lines.repr ++ " lines)"
  | executed text => text
  | skipped text => "Skipping unknown instruction " ++ text
  | unhandled code =>
      "No handler for interrupt 0x" ++ Text.hexadecimal 2 code.toUInt32.toNat
  | exited status =>
      "System call failed: interrupt 0x00 read exit code " ++ status.toInt.repr
        ++ " from register 0x" ++ Text.upperHexadecimal 4 Channel.accumulator.location
        ++ ", expected 0"

/-- The register that an exit code is read from is the first of all. -/
theorem text_exited (status : Int32) :
    (exited status).text = "System call failed: interrupt 0x00 read exit code "
      ++ status.toInt.repr ++ " from register 0x" ++ "0000" ++ ", expected 0" := by
  have hlocation : Text.upperHexadecimal 4 Channel.accumulator.location = "0000" := by
    decide +kernel
  rw [← hlocation]
  rfl

end Record

end ChannelAsm
