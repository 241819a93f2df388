import ChannelAsm.Text.Blank

/-!
# Trimming

Removal of the blank characters at the ends of a text. `trim` cuts both ends, `trimStart` and
`trimEnd` one each; a text made of blanks only becomes empty.
-/

namespace ChannelAsm.Text

/-- A text without its leading blanks. -/
def trimStart (text : List Char) : List Char :=
  text.dropWhile isBlank

/-- A text without its trailing blanks. -/
def trimEnd (text : List Char) : List Char :=
  (trimStart text.reverse).reverse

/-- A text without its leading and trailing blanks. -/
def trim (text : List Char) : List Char :=
  trimEnd (trimStart text)

/-- The string without its leading and trailing blanks. -/
def trimmed (text : String) : String :=
  String.ofList (trim text.toList)

/-- A text of blanks only has nothing behind its leading blanks. -/
theorem trimStart_eq_nil_of_all {text : List Char} (h : text.all isBlank = true) :
    trimStart text = [] := by
  induction text with
  | nil => rfl
  | cons first rest ih => simp_all [trimStart]

/-- A text of blanks only is trimmed to nothing. -/
theorem trim_eq_nil_of_all {text : List Char} (h : text.all isBlank = true) : trim text = [] := by
  rw [trim, trimStart_eq_nil_of_all h]
  rfl

end ChannelAsm.Text
