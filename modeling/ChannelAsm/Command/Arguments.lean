import ChannelAsm.Report.Record
import ChannelAsm.Text.Numeral

/-!
# Command line arguments

The arguments of the `mcasm` command are read from left to right into items; the first that is
wrong, or that asks for help or the version, ends the reading. What the items say together is
checked at the end by `Arguments.ofItems?`.
-/

namespace ChannelAsm

/-- An option with a value. -/
inductive ValueOption where
  | event
  | tick
  | period
  deriving DecidableEq, Repr

/-- An option without a value. -/
inductive Flag where
  | help
  | version
  | interactive
  | verbose
  deriving DecidableEq, Repr

/-- What an argument, or a part of one, stands for. -/
inductive ArgumentItem where
  | flag (flag : Flag)
  /-- The option is named; its value stands in an item of its own. -/
  | named (option : ValueOption)
  | value (option : ValueOption) (text : String)
  | source (name : String)
  deriving DecidableEq, Repr

/-- Why arguments are not a program to run. -/
inductive ArgumentStop where
  | help
  | version
  | usage
  deriving DecidableEq, Repr

/-- The state of reading arguments: the items so far, the option that waits for a value, and
whether only sources can follow. -/
structure ArgumentReader where
  items : Array ArgumentItem := #[]
  waiting : Option ValueOption := none
  sourcesOnly : Bool := false

namespace ArgumentReader

/-- Take the name of a source. There can be only one. -/
def source (reader : ArgumentReader) (name : String) : Except ArgumentStop ArgumentReader :=
  let again := reader.items.any fun item => match item with
    | .source _ => true
    | _ => false
  if again then .error .usage
  else .ok { reader with items := reader.items.push (.source name) }

/-- Take a flag. Help and version end the reading. -/
def flag (reader : ArgumentReader) : Flag → Except ArgumentStop ArgumentReader
  | .help => .error .help
  | .version => .error .version
  | flag => .ok { reader with items := reader.items.push (.flag flag), waiting := none }

/-- Take the name of an option and the value attached to it, which loses every equals sign in
front. Without one the option waits for the next argument. -/
def option (reader : ArgumentReader) (option : ValueOption) (attached : List Char) :
    ArgumentReader :=
  let named := reader.items.push (.named option)
  match attached with
  | [] => { reader with items := named, waiting := some option }
  | _ =>
      let text := String.ofList (attached.dropWhile (· = '='))
      { reader with items := named.push (.value option text), waiting := none }

/-- Take a row of one-letter options. The first one with a value has the rest of the row
attached. -/
def letters (reader : ArgumentReader) : List Char → Except ArgumentStop ArgumentReader
  | [] => .ok reader
  | 'e' :: attached => .ok (reader.option .event attached)
  | 't' :: attached => .ok (reader.option .tick attached)
  | 'h' :: rest => reader.flag .help >>= (·.letters rest)
  | 'V' :: rest => reader.flag .version >>= (·.letters rest)
  | 'i' :: rest => reader.flag .interactive >>= (·.letters rest)
  | 'v' :: rest => reader.flag .verbose >>= (·.letters rest)
  | _ => .error .usage

/-- Take a long option: its name up to an equals sign, and what is attached from there on. A flag
ignores what is attached. -/
def long (reader : ArgumentReader) (text : List Char) : Except ArgumentStop ArgumentReader :=
  let attached := text.dropWhile (· ≠ '=')
  match String.ofList (text.takeWhile (· ≠ '=')) with
  | "event" => .ok (reader.option .event attached)
  | "tick" => .ok (reader.option .tick attached)
  | "period" => .ok (reader.option .period attached)
  | "help" => reader.flag .help
  | "version" => reader.flag .version
  | "interactive" => reader.flag .interactive
  | _ => .error .usage

/-- Take one argument. A lone hyphen is no option, and two hyphens alone leave only sources to
follow. -/
def read (reader : ArgumentReader) (argument : String) : Except ArgumentStop ArgumentReader :=
  if reader.sourcesOnly then reader.source argument
  else
    match argument.toList with
    | ['-', '-'] => .ok { reader with sourcesOnly := true }
    | '-' :: '-' :: rest => reader.long (rest.dropWhile (· = '-'))
    | '-' :: first :: rest => reader.letters (first :: rest)
    | _ =>
        match reader.waiting with
        | some option =>
            .ok { reader with items := reader.items.push (.value option argument), waiting := none }
        | none => reader.source argument

end ArgumentReader

/-- What the command is asked to do. -/
structure Arguments where
  source : String
  events : List String
  tick : Option String
  period : Nat
  interactive : Bool
  level : Level
  deriving DecidableEq

namespace Arguments

/-- The milliseconds between ticks when none are given. -/
def defaultPeriod : Nat := 50

/-- Periods are below this number, the first that needs more than 64 bits. -/
def periodBound : Nat := 0x10000000000000000

/-- The level of a log that was asked to be verbose so many times. -/
def levelOf : Nat → Level
  | 0 => .warn
  | 1 => .info
  | 2 => .debug
  | _ => .trace

/-- The values given to an option, in order. -/
def valuesOf (items : List ArgumentItem) (option : ValueOption) : List String :=
  items.filterMap fun item => match item with
    | .value given text => if given = option then some text else none
    | _ => none

/-- What the items ask for. An option that is named has a value; all options but events, sources
and verbosity come at most once; ticks exclude a session; and a period is a 64-bit number that
goes with a tick. -/
def ofItems? (items : List ArgumentItem) : Option Arguments := do
  let values := valuesOf items
  let times (item : ArgumentItem) := items.count item
  let single (option : ValueOption) := times (.named option) ≤ 1
  let valued (option : ValueOption) := times (.named option) = 0 ∨ values option ≠ []
  let source ← items.findSome? fun item => match item with
    | .source name => some name
    | _ => none
  guard (valued .event ∧ valued .tick ∧ valued .period)
  guard (single .tick ∧ single .period ∧ times (.flag .interactive) ≤ 1)
  let tick := (values .tick).head?
  let interactive := 0 < times (.flag .interactive)
  guard ¬(interactive ∧ tick.isSome)
  let period ← match (values .period).head? with
    | none => some defaultPeriod
    | some text => do
        guard tick.isSome
        Text.boundedNatural? periodBound text.toList
  return {
    source, tick, period, interactive
    events := values .event
    level := levelOf (times (.flag .verbose)) }

/-- Read the arguments of the command. -/
def parse (arguments : List String) : Except ArgumentStop Arguments := do
  let reader ← arguments.foldlM ArgumentReader.read {}
  match ofItems? reader.items.toList with
  | some given => .ok given
  | none => .error .usage

end Arguments

end ChannelAsm
