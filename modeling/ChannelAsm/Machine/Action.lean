import ChannelAsm.Program.Basic

/-!
# Actions

An action is an instruction whose operand has been looked up, so that what it does depends on the
channels alone. `Program.action` finds the action of an instruction, or the first fault that its
text shows: a missing word, an operand without cells or with too many, an unknown channel.
-/

namespace ChannelAsm

/-- An operation on the newest entry of a channel. -/
inductive Arithmetic where
  | add
  | mul
  deriving DecidableEq, Repr

namespace Arithmetic

/-- The mnemonic of an operation. -/
def mnemonic : Arithmetic → Mnemonic
  | add => .add
  | mul => .mul

/-- The result of an operation, which wraps at 32 bits. -/
def apply : Arithmetic → Int32 → Int32 → Int32
  | add, left, right => left + right
  | mul, left, right => left * right

end Arithmetic

/-- An instruction with its operand looked up. -/
inductive Action where
  /-- Push the values in order. -/
  | push (channel : Channel) (values : List Int32)
  /-- Push the result of an operation on the newest entry. -/
  | combine (operation : Arithmetic) (channel : Channel) (value : Int32)
  /-- Ask for the service with a code. -/
  | interrupt (code : Int32)
  deriving DecidableEq

/-- The word at a position of an instruction. -/
def Position.require (position : Position) : Option String → Except Fault String
  | some word => .ok word
  | none => .error (.missingOperand position)

/-- The only value of an operand that must have one. -/
def Mnemonic.single (mnemonic : Mnemonic) : List Int32 → Except Fault Int32
  | [value] => .ok value
  | values => .error (.wrongArgumentCount mnemonic values.length)

/-- The channel that a word names, or the fault that no channel is mapped there. -/
def Channel.ofWord (word : String) : Except Fault Channel :=
  match ofMnemonic? word with
  | some channel => .ok channel
  | none => .error (.segmentationFault word)

namespace Program

/-- The action of an arithmetic instruction. -/
def arithmetic (program : Program) (operation : Arithmetic) (arguments : List String) :
    Except Fault Action := do
  let target ← Position.channel.require arguments[0]?
  let operand ← Position.operand.require arguments[1]?
  let value ← operation.mnemonic.single (← program.values operand)
  return .combine operation (← Channel.ofWord target) value

/-- The action of an instruction. Words after those that the mnemonic needs are ignored. -/
def action (program : Program) (mnemonic : Mnemonic) (arguments : List String) :
    Except Fault Action := do
  match mnemonic with
  | .mov =>
      let target ← Position.channel.require arguments[0]?
      let operand ← Position.operand.require arguments[1]?
      let values ← program.values operand
      return .push (← Channel.ofWord target) values
  | .add => program.arithmetic .add arguments
  | .mul => program.arithmetic .mul arguments
  | .int =>
      let operand ← Position.operand.require arguments[0]?
      return .interrupt (← Mnemonic.int.single (← program.values operand))

end Program

end ChannelAsm
