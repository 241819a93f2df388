import ChannelAsm.Source.Event
import ChannelAsm.Text.Trim
import ChannelAsm.Text.Words

/-!
# Source lines

A line is a numbered, trimmed text together with its words. Its role is read off the text: the
sentinel ends a section or a block, a section header names a section, and a label opens an event.
-/

namespace ChannelAsm

/-- A numbered line of source. Its words are kept beside its text. -/
structure Line where
  number : Nat
  text : String
  words : List String
  words_eq : words = Text.wordsOf text
  deriving DecidableEq

namespace Line

/-- The line with the given number and the trimmed text. -/
def ofText (number : Nat) (text : String) : Line :=
  { number, text := Text.trimmed text, words := Text.wordsOf (Text.trimmed text), words_eq := rfl }

/-- The text that ends a section or an event's block. -/
def sentinel : String := "---"

/-- The first word of a section header. -/
def sectionMarker : String := ".section"

/-- The line is a sentinel. -/
def isSentinel (line : Line) : Bool :=
  line.text == sentinel

/-- The name of the section that the line opens. -/
def sectionName? (line : Line) : Option String :=
  match line.words with
  | word :: name :: _ => if word = sectionMarker then some name else none
  | _ => none

/-- The label that the line carries, which is its first word. -/
def label? (line : Line) : Option String :=
  line.words.head?.filter Event.isLabel

/-- Lines are determined by their number and their text. -/
@[ext]
theorem ext {left right : Line} (hnumber : left.number = right.number)
    (htext : left.text = right.text) : left = right := by
  obtain ⟨_, _, _, hleft⟩ := left
  obtain ⟨_, _, _, hright⟩ := right
  cases hnumber
  cases htext
  cases hleft
  cases hright
  rfl

/-- A line keeps the number it is given. -/
@[simp]
theorem number_ofText (number : Nat) (text : String) : (ofText number text).number = number :=
  rfl

/-- A line's text is trimmed. -/
@[simp]
theorem text_ofText (number : Nat) (text : String) :
    (ofText number text).text = Text.trimmed text :=
  rfl

end Line

end ChannelAsm
