/-!
# Hexadecimal spelling

Fixed-width hexadecimal text of a natural number, in either case. A number with more digits than
the width is written in full.
-/

namespace ChannelAsm.Text

/-- The hexadecimal digits of a number, in lower case, with zeros in front up to the width. -/
def hexadecimal (width value : Nat) : String :=
  String.ofList ((Nat.toDigits 16 value).leftpad width '0')

/-- The hexadecimal digits of a number, in upper case, with zeros in front up to the width. -/
def upperHexadecimal (width value : Nat) : String :=
  (hexadecimal width value).toUpper

end ChannelAsm.Text
