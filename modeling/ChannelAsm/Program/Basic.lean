import ChannelAsm.Image.Layout

/-!
# Programs

A program is a list of numbered lines together with the memory and the symbols of its data
section. Operands denote lists of cells, and the name of an event denotes the lines of its block.
-/

namespace ChannelAsm

/-- A program that is ready to run. -/
structure Program where
  lines : List Line
  memory : Memory
  symbols : SymbolTable
  deriving DecidableEq

namespace Program

/-- The cells that an operand denotes: a single value when it is numeric, and otherwise the block
of the first symbol of that name. -/
def values (program : Program) (token : String) : Except Fault (List Int32) :=
  match (Operand.ofToken token).value? with
  | some value => value.map ([·])
  | none =>
      match program.symbols.get? token with
      | some symbol => program.memory.read symbol.offset symbol.length
      | none => .error (.pointerNotFound token)

/-- The lines up to the next sentinel. -/
def block (lines : List Line) : List Line :=
  lines.takeWhile (!·.isSentinel)

/-- The block of an event: what follows the first line with its label, up to a sentinel. -/
def event? (program : Program) (name : String) : Option (List Line) :=
  match program.lines.dropWhile fun line => line.label? ≠ some (Event.label name) with
  | [] => none
  | _ :: following => some (block following)

/-- The labels of all events, in the order of the lines. -/
def events (program : Program) : List String :=
  program.lines.filterMap Line.label?

end Program

end ChannelAsm
