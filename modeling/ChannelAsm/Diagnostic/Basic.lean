import ChannelAsm.Source.Line

/-!
# Diagnostics

A diagnostic is what a user is told about a failure: a code, and where known the line, the
statement and a message. Locations are added from the inside out, and the innermost one is kept.
-/

namespace ChannelAsm

/-- The kind of a failure. Codes below twenty come from building a program, the others from
running one. -/
inductive ErrorCode where
  | missingDataSection
  | invalidEquSyntax
  | invalidDeclaration
  | unknownStorageMethod
  | invalidLiteral
  | pointerNotFound
  | outOfMemory
  | wrongArgumentCount
  | missingOperand
  | segmentationFault
  | stackUnderflow
  | stackOverflow
  deriving DecidableEq, Repr

namespace ErrorCode

/-- The number of a code. -/
def number : ErrorCode → Nat
  | missingDataSection => 1
  | invalidEquSyntax => 2
  | invalidDeclaration => 3
  | unknownStorageMethod => 4
  | invalidLiteral => 5
  | pointerNotFound => 6
  | outOfMemory => 7
  | wrongArgumentCount => 20
  | missingOperand => 21
  | segmentationFault => 22
  | stackUnderflow => 23
  | stackOverflow => 24

/-- The words that a user reads for a code. -/
def title : ErrorCode → String
  | missingDataSection => "MISSING DATA SECTION"
  | invalidEquSyntax => "INVALID EQU SYNTAX"
  | invalidDeclaration => "INVALID DECLARATION"
  | unknownStorageMethod => "UNKNOWN STORAGE METHOD"
  | invalidLiteral => "INVALID LITERAL"
  | pointerNotFound => "POINTER NOT FOUND"
  | outOfMemory => "OUT OF MEMORY"
  | wrongArgumentCount => "WRONG ARGUMENT COUNT"
  | missingOperand => "MISSING OPERAND"
  | segmentationFault => "SEGMENTATION FAULT"
  | stackUnderflow => "STACK UNDERFLOW"
  | stackOverflow => "STACK OVERFLOW"

end ErrorCode

/-- A failure as it is reported. An empty statement or message is an absent one. -/
structure Diagnostic where
  code : ErrorCode
  line : Option Nat := none
  statement : String := ""
  message : String := ""
  deriving DecidableEq, Repr

namespace Diagnostic

/-- The diagnostic with a line number, unless it has one already. -/
def atLine (diagnostic : Diagnostic) (line : Option Nat) : Diagnostic :=
  { diagnostic with line := diagnostic.line <|> line }

/-- The diagnostic with a statement, unless it has one already. -/
def inStatement (diagnostic : Diagnostic) (statement : String) : Diagnostic :=
  if diagnostic.statement = "" then { diagnostic with statement } else diagnostic

/-- The diagnostic with the given message. -/
def withMessage (diagnostic : Diagnostic) (message : String) : Diagnostic :=
  { diagnostic with message }

/-- The diagnostic located at a source line, unless it is located already. -/
def locate (diagnostic : Diagnostic) (line : Line) : Diagnostic :=
  (diagnostic.atLine (some line.number)).inStatement line.text

/-- The text that a user reads: the title, then the parts that are present. -/
def render (diagnostic : Diagnostic) : String :=
  let line := match diagnostic.line with
    | some number => " IN " ++ number.repr
    | none => ""
  let message := if diagnostic.message = "" then "" else "; " ++ diagnostic.message
  let statement :=
    if diagnostic.statement = "" then "" else ": `" ++ diagnostic.statement ++ "`"
  diagnostic.code.title ++ line ++ message ++ statement

/-- The text that a developer reads. -/
def inspect (diagnostic : Diagnostic) : String :=
  "Error \x7b " ++ diagnostic.render ++ " \x7d"

end Diagnostic

end ChannelAsm
