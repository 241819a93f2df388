import ChannelAsm.Report.Record

/-!
# Terminals

How a text is put in bold type, how a record becomes a line of the log and how a line is typed with
the help of completion is left to the terminal, which can be any. What the command relies on is said
by `Terminal.Verbatim` and `Terminal.Completes`. `Terminal.standard` is a terminal that is made of
escape sequences, plain log lines without a time, and an editor that completes words at a tab.
-/

namespace ChannelAsm

/-- What a terminal does with texts and typed characters. -/
structure Terminal where
  /-- The text in bold type. -/
  bold : String → String
  /-- The line of the log for a level, a target and a text. -/
  logLine : Level → String → String → String
  /-- The characters that a word to complete ends at. -/
  breaks : List Char
  /-- The line that is taken for what is typed, when these are the words that can complete a
  start. -/
  typed : (String → List String) → String → String

namespace Terminal

/-- A line is taken as it is typed when there is no tab in it. -/
structure Verbatim (terminal : Terminal) : Prop where
  typed_eq (candidates : String → List String) (input : String) :
    '\t' ∉ input.toList → terminal.typed candidates input = input

/-- A start that leaves one word to choose from, however often it is offered, is completed by a tab
to that word, perhaps with a blank behind it. -/
structure Completes (terminal : Terminal) : Prop where
  typed_tab (candidates : String → List String) (start word : String) :
    (∀ c ∈ start.toList, c ∉ terminal.breaks) → word ∈ candidates start →
    (∀ other ∈ candidates start, other = word) →
      terminal.typed candidates (start ++ "\t") = word ∨
        terminal.typed candidates (start ++ "\t") = word ++ " "

/-! ## A terminal of escape sequences -/

/-- The text between the sequences for bold and for plain type. -/
def escapedBold (text : String) : String :=
  "\x1b[1m" ++ text ++ "\x1b[0m"

/-- A line of the log. The word for the level takes five columns. -/
def plainLogLine (level : Level) (target text : String) : String :=
  String.ofList (level.word.toList.rightpad 5 ' ') ++ " [" ++ target ++ "] " ++ text ++ "\n"

/-- The characters at which a word ends. -/
def wordBreaks : List Char :=
  " \t\n\"\\'`@$><=;|&\x7b(".toList

/-- The longest common start of two texts. -/
def commonStart : List Char → List Char → List Char
  | first :: rest, other :: others =>
      if first = other then first :: commonStart rest others else []
  | _, _ => []

/-- Complete the last word of a text. A single candidate replaces it and is followed by a blank; of
several the longest common start is taken; without one the text stays as it is. -/
def complete (candidates : String → List String) (text : List Char) : List Char :=
  let word := (text.reverse.takeWhile (· ∉ wordBreaks)).reverse
  let before := text.take (text.length - word.length)
  match (candidates (String.ofList word)).map String.toList with
  | [] => text
  | [only] => before ++ only ++ [' ']
  | first :: others => before ++ others.foldl commonStart first

/-- The line that typed characters make, every tab being a wish for completion. -/
def completedLine (candidates : String → List String) (input : String) : String :=
  let pieces := input.toList.splitOn '\t'
  let completed :=
    pieces.dropLast.foldl (fun text piece => complete candidates (text ++ piece)) []
  String.ofList (completed ++ pieces.getLast?.getD [])

/-- The terminal of these parts. -/
def standard : Terminal :=
  ⟨escapedBold, plainLogLine, wordBreaks, completedLine⟩

end Terminal

end ChannelAsm
