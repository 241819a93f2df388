import ChannelAsm.Diagnostic.Basic
import ChannelAsm.Isa.Channel
import ChannelAsm.Isa.Mnemonic
import ChannelAsm.Text.Hexadecimal

/-!
# Faults

The causes of failure, each with the data that its message needs. A fault has no location;
`Fault.diagnostic` is the diagnostic before one is added.
-/

namespace ChannelAsm

/-- Why a program cannot be built or cannot go on. -/
inductive Fault where
  | missingDataSection
  | invalidDeclaration
  | unknownStorageMethod (method : String)
  | invalidEquSyntax
  | invalidLiteral (token : String)
  | pointerNotFound (name : String)
  | outOfMemory (cells address capacity : Nat)
  | missingOperand (expected : Position)
  | wrongArgumentCount (mnemonic : Mnemonic) (found : Nat)
  | segmentationFault (name : String)
  | stackUnderflow (stack : String)
  | stackOverflow (stack : String)
  deriving DecidableEq, Repr

namespace Fault

/-- The kind of failure that a fault is reported as. -/
def code : Fault → ErrorCode
  | missingDataSection => .missingDataSection
  | invalidDeclaration => .invalidDeclaration
  | unknownStorageMethod _ => .unknownStorageMethod
  | invalidEquSyntax => .invalidEquSyntax
  | invalidLiteral _ => .invalidLiteral
  | pointerNotFound _ => .pointerNotFound
  | outOfMemory .. => .outOfMemory
  | missingOperand _ => .missingOperand
  | wrongArgumentCount .. => .wrongArgumentCount
  | segmentationFault _ => .segmentationFault
  | stackUnderflow _ => .stackUnderflow
  | stackOverflow _ => .stackOverflow

/-- The details of a fault in words. -/
def message : Fault → String
  | missingDataSection => ""
  | invalidDeclaration => "expected db or equ"
  | unknownStorageMethod method => method
  | invalidEquSyntax => "expected $ - <name>"
  | invalidLiteral token => token
  | pointerNotFound name => name
  | outOfMemory cells address capacity =>
      cells.repr ++ " cells at " ++ address.repr ++ " exceed capacity of " ++ capacity.repr
  | missingOperand expected => "expected " ++ expected.name
  | wrongArgumentCount mnemonic found =>
      mnemonic.word ++ " found " ++ found.repr ++ " values, expected 1"
  | segmentationFault name =>
      "stack " ++ name ++ " at 0x" ++ Text.upperHexadecimal 4 Channel.unmappedLocation
        ++ " not found"
  | stackUnderflow stack => stack
  | stackOverflow stack => stack

/-- The diagnostic of a fault, without a location. -/
def diagnostic (fault : Fault) : Diagnostic :=
  { code := fault.code, message := fault.message }

end Fault

end ChannelAsm
