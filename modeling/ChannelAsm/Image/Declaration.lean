import ChannelAsm.Isa.Operand

/-!
# Declarations

A line of the data section declares a name: `db` lists the cells of a block, and `equ $ - other`
makes a single cell that holds the length of an earlier block. `Declaration.ofWords` reads one;
its faults are those that the line shows by itself, without the names and cells around it.
-/

namespace ChannelAsm

/-- What a line of the data section declares. -/
inductive Declaration where
  /-- A block with the given cells. -/
  | block (name : String) (values : List Int32)
  /-- A cell that holds the length of the target. -/
  | lengthOf (name target : String)
  deriving DecidableEq

namespace Declaration

/-- The name that is declared. -/
def name : Declaration → String
  | block name _ => name
  | lengthOf name _ => name

/-- The declaration that the words of a line make. -/
def ofWords : List String → Except Fault Declaration
  | name :: method :: arguments =>
      match Storage.ofWord? method with
      | none => .error (.unknownStorageMethod method)
      | some .db => (arguments.mapM literalValue).map (.block name)
      | some .equ =>
          match arguments with
          | "$" :: "-" :: target :: _ => .ok (.lengthOf name target)
          | _ => .error .invalidEquSyntax
  | _ => .error .invalidDeclaration

end Declaration

end ChannelAsm
