import ChannelAsm.Diagnostic.Fault
import ChannelAsm.Text.Numeral

/-!
# Literals and operands

A literal is a numeral, in base sixteen behind `0x` and in base ten otherwise. An operand is read
from the spelling of a word alone: `0x` and what follows is hexadecimal, a row of decimal digits
is decimal, and any other word is a symbol.
-/

namespace ChannelAsm

/-- The value of a literal. -/
def literalValue (token : String) : Except Fault Int32 :=
  let value? := match token.toList with
    | '0' :: 'x' :: digits => Text.int32? 16 digits
    | digits => Text.int32? 10 digits
  match value? with
  | some value => .ok value
  | none => .error (.invalidLiteral token)

/-- An operand of an instruction, by its spelling. -/
inductive Operand where
  /-- The digits behind `0x`. -/
  | hexadecimal (digits : String)
  | decimal (digits : String)
  | symbol (name : String)
  deriving DecidableEq, Repr

namespace Operand

/-- The operand that a word spells. -/
def ofToken (token : String) : Operand :=
  match token.toList with
  | '0' :: 'x' :: digits => .hexadecimal (String.ofList digits)
  | digits => if digits ≠ [] ∧ digits.all Char.isDigit then .decimal token else .symbol token

/-- The value of a numeric operand: none for a symbol, and a fault for digits that make no 32-bit
integer. -/
def value? : Operand → Option (Except Fault Int32)
  | .hexadecimal digits =>
      some <| match Text.int32? 16 digits.toList with
        | some value => .ok value
        | none => .error (.invalidLiteral ("0x" ++ digits))
  | .decimal digits =>
      some <| match Text.int32? 10 digits.toList with
        | some value => .ok value
        | none => .error (.invalidLiteral digits)
  | .symbol _ => none

end Operand

end ChannelAsm
