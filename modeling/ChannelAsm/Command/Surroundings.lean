import ChannelAsm.Command.Folder
import ChannelAsm.Command.Terminal

/-!
# Surroundings

What a command finds around it: files, addresses from which a source can be fetched, and a terminal.
A source is named by an address or by the path of a file.
-/

namespace ChannelAsm

/-- A source that has been looked for: what was recorded meanwhile, and its text or why there is
none. -/
structure Loaded where
  records : Array Record
  source : Except String String

namespace Loaded

/-- The name is that of a place in the net. -/
def isAddress (name : String) : Bool :=
  "http://".toList.isPrefixOf name.toList || "https://".toList.isPrefixOf name.toList

/-- Fetch a source from its address or read it from its file. A file that cannot be read is named
in front of the reason. -/
def load {m : Type → Type} [Monad m] (fetch read : String → m (Except String String))
    (name : String) : m Loaded := do
  if isAddress name then return ⟨#[.fetching name], ← fetch name⟩
  else return ⟨#[], (← read name).mapError fun problem => name ++ ": " ++ problem⟩

end Loaded

/-- What is around a command. -/
structure Surroundings where
  folder : Folder
  /-- The text at an address, or the words for why there is none. -/
  fetch : String → Except String String
  terminal : Terminal

/-- Look for the source of a name. -/
def Surroundings.load (surroundings : Surroundings) (name : String) : Loaded :=
  Id.run <| Loaded.load (fun address => pure (surroundings.fetch address))
    (fun path => pure ((surroundings.folder.read path).mapError FileProblem.message)) name

end ChannelAsm
