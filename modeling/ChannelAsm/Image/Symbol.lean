/-!
# Symbols

A symbol gives a name to a block of cells. A table keeps symbols in the order of declaration, and
looking a name up finds the first of that name: a later one never hides an earlier one.
-/

namespace ChannelAsm

/-- A named block of cells. -/
structure Symbol where
  name : String
  offset : Nat
  length : Nat
  deriving DecidableEq, Repr

/-- The text of a symbol: its name, where it starts and how many cells it has. -/
def Symbol.render (symbol : Symbol) : String :=
  symbol.name ++ " @" ++ symbol.offset.repr ++ " [" ++ symbol.length.repr ++ "]"

/-- Symbols in the order of their declaration. -/
structure SymbolTable where
  entries : Array Symbol
  deriving DecidableEq, Repr

namespace SymbolTable

/-- The table without symbols. -/
def empty : SymbolTable :=
  ⟨#[]⟩

/-- The symbols in the order of declaration. -/
def toList (table : SymbolTable) : List Symbol :=
  table.entries.toList

/-- The number of symbols. -/
def size (table : SymbolTable) : Nat :=
  table.entries.size

/-- The table with one more symbol. -/
def push (table : SymbolTable) (symbol : Symbol) : SymbolTable :=
  ⟨table.entries.push symbol⟩

/-- The first symbol of a name. -/
def get? (table : SymbolTable) (name : String) : Option Symbol :=
  table.entries.find? (·.name = name)

/-- A pushed symbol comes last. -/
@[simp]
theorem toList_push (table : SymbolTable) (symbol : Symbol) :
    (table.push symbol).toList = table.toList ++ [symbol] := by
  simp [toList, push]

/-- Looking up is a search from the front. -/
theorem get?_eq_find? (table : SymbolTable) (name : String) :
    table.get? name = table.toList.find? (·.name = name) := by
  simp [get?, toList]

end SymbolTable

end ChannelAsm
