/-!
# Numerals

Whole numbers in a given base with an optional sign, and their 32-bit form. A numeral is a single
optional `+` or `-` followed by at least one digit of the base; letters of either case stand for
the digits from ten on. `int32? base` reads a numeral and refuses a value outside the 32-bit
range.
-/

namespace ChannelAsm.Text

/-- The value of a digit or letter, in any base up to thirty-six. -/
def digitValue? (c : Char) : Option Nat :=
  if '0' ≤ c ∧ c ≤ '9' then some (c.toNat - '0'.toNat)
  else if 'a' ≤ c ∧ c ≤ 'z' then some (c.toNat - 'a'.toNat + 10)
  else if 'A' ≤ c ∧ c ≤ 'Z' then some (c.toNat - 'A'.toNat + 10)
  else none

/-- The value of a character as a digit of the base. -/
def digit? (base : Nat) (c : Char) : Option Nat :=
  (digitValue? c).filter (· < base)

/-- The value of a nonempty row of digits, the most significant first. -/
def natural? (base : Nat) (text : List Char) : Option Nat :=
  match text with
  | [] => none
  | _ => (text.mapM (digit? base)).map (·.foldl (fun value digit => value * base + digit) 0)

/-- The value of a row of digits behind at most one sign. -/
def integer? (base : Nat) (text : List Char) : Option Int :=
  match text with
  | '-' :: digits => (natural? base digits).map fun value => -(value : Int)
  | '+' :: digits => (natural? base digits).map Int.ofNat
  | digits => (natural? base digits).map Int.ofNat

/-- The integer is representable in 32 bits, with a sign. -/
def Fits32 (value : Int) : Prop :=
  -0x80000000 ≤ value ∧ value < 0x80000000

/-- `Fits32` is decidable by two comparisons. -/
instance (value : Int) : Decidable (Fits32 value) :=
  inferInstanceAs (Decidable (_ ∧ _))

/-- The numeral's value as a 32-bit integer, when it is one. -/
def int32? (base : Nat) (text : List Char) : Option Int32 :=
  ((integer? base text).filter fun value => decide (Fits32 value)).map Int32.ofInt

/-- The value of an unsigned numeral in base ten below a bound: an optional `+`, then digits. -/
def boundedNatural? (bound : Nat) (text : List Char) : Option Nat :=
  let digits := match text with
    | '+' :: digits => digits
    | digits => digits
  (natural? 10 digits).filter (· < bound)

end ChannelAsm.Text
