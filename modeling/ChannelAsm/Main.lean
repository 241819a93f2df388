import ChannelAsm.Command.Basic

/-!
# The `mcasm` program

The command on real files and streams. Every decision is the library's; what stands here reads,
waits and writes. There is no way into the net.
-/

namespace ChannelAsm.Command

/-- Write to one of the streams. -/
def write : Writing → IO Unit
  | .out text => do
      IO.print text
      (← IO.getStdout).flush
  | .err text => IO.eprint text

/-- The text of a source file, or the words for why there is none. -/
def readFile (name : String) : IO (Except String String) := do
  try
    let bytes ← IO.FS.readBinFile name
    return (Folder.textOf bytes).mapError (·.message)
  catch
    | .noFileOrDirectory .. => return .error FileProblem.notFound.message
    | .inappropriateType _ code _ =>
        let problem : FileProblem := if code = 20 then .notFolder else .isFolder
        return .error problem.message
    | .invalidArgument _ 36 _ => return .error FileProblem.nameTooLong.message
    | problem => return .error problem.toString

/-- Nothing can be fetched. -/
def fetchNothing (_ : String) : IO (Except String String) :=
  return .error "no way into the net"

/-- Go on until the command is over. -/
partial def proceed (given : Arguments) (terminal : Terminal) : Stage → IO UInt32
  | .over failed => return if failed then 1 else 0
  | .ticking program name bank => do
      let step := tick given terminal program name bank
      step.transcript.forM write
      if let .ticking .. := step.next then
        IO.sleep (UInt32.ofNat (min given.period 0xFFFFFFFF))
      proceed given terminal step.next
  | .asking program bank => do
      write (.out "EVENT> ")
      let line ← (← IO.getStdin).getLine
      if line.isEmpty then return 0
      let (text, bank) := Session.reply program terminal given.level bank
        (terminal.typed (Completion.candidates program) line)
      write (.out text)
      proceed given terminal (.asking program bank)

end ChannelAsm.Command

open ChannelAsm

/-- Read, build and run the source that the arguments name. -/
def main (arguments : List String) : IO UInt32 := do
  match Arguments.parse arguments with
  | .error .help => do IO.print Usage.help; return 0
  | .error .version => do IO.print Usage.version; return 0
  | .error .usage => do
      IO.eprintln ("error: the arguments are not of the form\n\n" ++ Usage.form)
      return 1
  | .ok given => do
      let loaded ← Loaded.load Command.fetchNothing Command.readFile given.source
      let step := Command.begin given .standard loaded
      step.transcript.forM Command.write
      Command.proceed given .standard step.next
