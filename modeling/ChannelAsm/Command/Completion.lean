import ChannelAsm.Program.Basic

/-!
# Completion

At the prompt a tab asks for the words that begin like the one before it: the names of the program's
events, without their markers, and two commands.
-/

namespace ChannelAsm

/-- Characters without every event marker in front. -/
def Event.unmarked : List Char → List Char
  | 'e' :: 'v' :: 'e' :: 'n' :: 't' :: '_' :: rest => unmarked rest
  | text => text

namespace Completion

/-- The command that lists the symbols. -/
def symbolsCommand : String := ".symbols"

/-- The command that lists the channels. -/
def registersCommand : String := ".registers"

/-- The words that a program offers: the names of its events, then the commands. -/
def words (program : Program) : List String :=
  program.events.map (fun label => String.ofList (Event.unmarked label.toList))
    ++ [symbolsCommand, registersCommand]

/-- The words that can complete a start. -/
def candidates (program : Program) (start : String) : List String :=
  (words program).filter fun word => start.toList.isPrefixOf word.toList

end Completion

end ChannelAsm
