import ChannelAsm.Isa.Interrupt
import ChannelAsm.Machine.Action
import ChannelAsm.Machine.Bank
import ChannelAsm.Report.Basic

/-!
# Services of the bank

What actions do to the channels: pushing values, arithmetic on the newest entry, and the services
behind the interrupts. Each is an outcome, so the bank that a failure leaves is part of what is
said: values pushed or moved before the failure stay where they are.
-/

namespace ChannelAsm

/-- The character that a cell stands for. A value that is no Unicode scalar stands for the
replacement character. -/
def glyph (value : Int32) : Char :=
  if h : value.toUInt32.isValidChar then ⟨value.toUInt32, h⟩ else '\uFFFD'

namespace Bank

/-- Push values in order, up to the first that finds the channel full. -/
def pushAll (channel : Channel) (values : List Int32) (bank : Bank) : Outcome Bank Report Fault :=
  Outcome.sequence (fun value bank => .ofExcept bank (bank.push channel value)) values bank

/-- Push the result of an operation on the newest entry of a channel. -/
def combine (operation : Arithmetic) (channel : Channel) (value : Int32) (bank : Bank) :
    Outcome Bank Report Fault :=
  .ofExcept bank do
    let newest ← bank.peek channel
    bank.push channel (operation.apply newest value)

/-- Move entries one by one from the data channel to another. An entry that finds the target full
has left the data channel already. -/
def move (target : Channel) : Nat → Bank → Outcome Bank Report Fault
  | 0, bank => .done bank
  | count + 1, bank =>
      match bank.pop .data with
      | .error fault => .fail bank fault
      | .ok (value, popped) =>
          match popped.push target value with
          | .error fault => .fail popped fault
          | .ok pushed => pushed.move target count

/-- Move as many entries as the newest entry of the accumulator says, which it loses. A negative
number moves none. -/
def transfer (target : Channel) (bank : Bank) : Outcome Bank Report Fault :=
  match bank.pop .accumulator with
  | .error fault => .fail bank fault
  | .ok (count, popped) => popped.move target count.toInt.toNat

/-- Leave with the status in the accumulator, which is stored one above its value. The status zero
goes unnoticed. -/
def leave (bank : Bank) : Outcome Bank Report Fault :=
  match bank.pop .accumulator with
  | .error fault => .fail bank fault
  | .ok (value, popped) =>
      let status := value - 1
      if status = 0 then .done popped
      else .reporting popped #[.record (.exited status), .output (.exit status)]

/-- Print what waits on the console channel, the newest entry first, down to the bottom entry. -/
def flush (bank : Bank) : Outcome Bank Report Fault :=
  let (values, rest) := (bank.stack .console).drain
  let reports := match values with
    | [] => #[]
    | _ => #[.output (.print (String.ofList (values.map glyph)))]
  .reporting (bank.set .console rest) reports

/-- Carry out a service. -/
def serve (bank : Bank) : Interrupt → Outcome Bank Report Fault
  | .exit => bank.leave
  | .transfer device => bank.transfer device.channel
  | .flush => bank.flush

/-- Ask for the service with a code. A code without a service is recorded. -/
def interrupt (code : Int32) (bank : Bank) : Outcome Bank Report Fault :=
  match Interrupt.ofCode? code with
  | some interrupt => bank.serve interrupt
  | none => .reporting bank #[.record (.unhandled code)]

end Bank

/-- Carry out an action. -/
def Action.perform : Action → Bank → Outcome Bank Report Fault
  | push channel values, bank => bank.pushAll channel values
  | combine operation channel value, bank => bank.combine operation channel value
  | interrupt code, bank => bank.interrupt code

end ChannelAsm
