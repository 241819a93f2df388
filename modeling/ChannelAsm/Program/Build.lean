import ChannelAsm.Program.Basic
import ChannelAsm.Source.Listing

/-!
# Building programs

Linking numbers the lines of a clean listing, lays out those of its data section and keeps all of
them for the events. Building cleans a source first.
-/

namespace ChannelAsm

/-- What linking gives: its records, and a program or the reason why there is none. -/
structure Linked where
  records : Array Record
  result : Except Diagnostic Program

namespace Line

/-- The lines of a text that hold more than blanks, numbered from one. -/
def ofListing (text : String) : List Line :=
  ((Text.lines text.toList).filter fun line => !line.all Text.isBlank).mapIdx fun index line =>
    ofText (index + 1) (String.ofList line)

end Line

namespace Program

/-- The name of the section that holds the declarations. -/
def dataSection : String := "data"

/-- The declarations among lines: what follows the first header of a data section, up to a
sentinel. -/
def declarations? (lines : List Line) : Option (List Line) :=
  match lines.dropWhile fun line => line.sectionName? ≠ some dataSection with
  | [] => none
  | _ :: following => some (block following)

/-- Link a clean listing into a layout, which may hold declarations already. -/
def link (layout : Layout) (text : String) : Linked :=
  let lines := Line.ofListing text
  match declarations? lines with
  | none => ⟨#[], .error Fault.missingDataSection.diagnostic⟩
  | some declarations =>
      let laid := layout.addLines declarations
      match laid.result with
      | .error diagnostic => ⟨laid.reports, .error diagnostic⟩
      | .ok () =>
          let summary := Record.linked laid.state.symbols.size laid.state.cursor
            laid.state.memory.capacity
          ⟨laid.reports.push summary, .ok ⟨lines, laid.state.memory, laid.state.symbols⟩⟩

/-- Clean a source and link it into a fresh memory. -/
def build (capacity : Nat) (source : String) : Linked :=
  link (.empty capacity) (Listing.clean source)

end Program

end ChannelAsm
