import ChannelAsm.Image.Declaration
import ChannelAsm.Image.Memory
import ChannelAsm.Image.Symbol
import ChannelAsm.Outcome
import ChannelAsm.Report.Record

/-!
# Laying out the data section

A layout is a memory under construction: the cells before the cursor are taken by declarations,
those from it on are free. A block takes its cells and a terminator behind them; a length takes
one cell and leaves one free before it. The room for a declaration is checked first; its cells are
then written one by one, and its name is entered last.
-/

namespace ChannelAsm

/-- A memory under construction. -/
structure Layout where
  memory : Memory
  symbols : SymbolTable
  cursor : Nat
  deriving DecidableEq

namespace Layout

/-- The cell behind every block. -/
def terminator : Int32 := -1

/-- The layout of a zeroed memory, before any declaration. -/
def empty (capacity : Nat) : Layout :=
  ⟨Memory.zeroed capacity, .empty, 0⟩

/-- Go on when consecutive cells are within bounds. -/
def reserve (address count : Nat) (layout : Layout) : Outcome Layout Record Fault :=
  .ofExcept layout ((layout.memory.check address count).map fun () => layout)

/-- Write one cell and move the cursor behind it. -/
def writeAt (address : Nat) (value : Int32) (layout : Layout) : Outcome Layout Record Fault :=
  .ofExcept layout <| (layout.memory.write address value).map fun memory =>
    { layout with memory, cursor := address + 1 }

/-- Write cells one by one from the cursor on. -/
def writeAll (values : List Int32) (layout : Layout) : Outcome Layout Record Fault :=
  Outcome.sequence (fun value layout => layout.writeAt layout.cursor value) values layout

/-- Give a name to cells. -/
def enter (symbol : Symbol) (layout : Layout) : Outcome Layout Record Fault :=
  .reporting { layout with symbols := layout.symbols.push symbol } #[.symbolDeclared symbol]

/-- Place a block at the cursor and the terminator behind it. -/
def placeBlock (name : String) (values : List Int32) (layout : Layout) :
    Outcome Layout Record Fault :=
  ((layout.reserve layout.cursor (values.length + 1)).andThen (writeAll (values ++ [terminator]))
    ).andThen (enter ⟨name, layout.cursor, values.length⟩)

/-- Place the length of a name behind a free cell. -/
def placeLength (name target : String) (layout : Layout) : Outcome Layout Record Fault :=
  match layout.symbols.get? target with
  | none => .fail layout (.pointerNotFound target)
  | some measured =>
      let address := layout.cursor + 1
      ((layout.reserve address 1).andThen (writeAt address (Int32.ofNat measured.length))
        ).andThen (enter ⟨name, address, 1⟩)

/-- Place a declaration at the cursor. -/
def place : Declaration → Layout → Outcome Layout Record Fault
  | .block name values => placeBlock name values
  | .lengthOf name target => placeLength name target

/-- Place what a line declares. A success is recorded with the symbol. -/
def addLine (layout : Layout) (line : Line) : Outcome Layout Record Fault :=
  match Declaration.ofWords line.words with
  | .error fault => .fail layout fault
  | .ok declaration => layout.place declaration

/-- Place what lines declare, in order. The first fault ends the work and is located. -/
def addLines (layout : Layout) (lines : List Line) : Outcome Layout Record Diagnostic :=
  Outcome.sequence
    (fun line layout => (layout.addLine line).mapFailure (·.diagnostic.locate line)) lines layout

end Layout

end ChannelAsm
