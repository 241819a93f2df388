/-!
# Words of the language

`Mnemonic` holds the words that start an instruction, `Storage` those that say how a name is
declared, and `Position` the two places after a mnemonic.
-/

namespace ChannelAsm

/-- The first word of an instruction. -/
inductive Mnemonic where
  | mov
  | add
  | mul
  | int
  deriving DecidableEq, Repr

namespace Mnemonic

/-- The spelling of a mnemonic. -/
def word : Mnemonic → String
  | mov => "mov"
  | add => "add"
  | mul => "mul"
  | int => "int"

/-- The mnemonic that a word spells. -/
def ofWord? (text : String) : Option Mnemonic :=
  [mov, add, mul, int].find? (·.word = text)

/-- A word spells a mnemonic exactly when it is that mnemonic's spelling. -/
theorem ofWord?_eq_some_iff {text : String} {mnemonic : Mnemonic} :
    ofWord? text = some mnemonic ↔ mnemonic.word = text := by
  constructor
  · intro h
    simpa using List.find?_some h
  · rintro rfl
    cases mnemonic <;> decide

end Mnemonic

/-- How a declaration gives a name its cells. -/
inductive Storage where
  /-- Cells listed one by one. -/
  | db
  /-- A single cell with the length of an earlier name. -/
  | equ
  deriving DecidableEq, Repr

namespace Storage

/-- The spelling of a storage method. -/
def word : Storage → String
  | db => "db"
  | equ => "equ"

/-- The storage method that a word spells. -/
def ofWord? (text : String) : Option Storage :=
  [db, equ].find? (·.word = text)

/-- A word spells a storage method exactly when it is that method's spelling. -/
theorem ofWord?_eq_some_iff {text : String} {storage : Storage} :
    ofWord? text = some storage ↔ storage.word = text := by
  constructor
  · intro h
    simpa using List.find?_some h
  · rintro rfl
    cases storage <;> decide

end Storage

/-- A position after the mnemonic of an instruction. -/
inductive Position where
  | channel
  | operand
  deriving DecidableEq, Repr

/-- What the position holds, as diagnostics name it. -/
def Position.name : Position → String
  | channel => "channel"
  | operand => "operand"

end ChannelAsm
