import ChannelAsm.Source.Line
import ChannelAsm.Text.Lines

/-!
# Clean listings

`Listing.clean` turns a source into its clean form, reading its lines once from first to last. Each
line is cut at its first semicolon and dropped if only blanks are left; the rest is kept as it is. A
sentinel is put before every section header but the first and at the end of the listing, unless the
line before is exactly a sentinel already.
-/

namespace ChannelAsm.Listing

/-- The characters of a sentinel line. -/
def sentinel : List Char := Line.sentinel.toList

/-- The code of a line is what stands before its first semicolon. -/
def code (line : List Char) : List Char :=
  line.takeWhile (· ≠ ';')

/-- A line is a header when, after its leading blanks, it starts with the section marker. -/
def isHeader (line : List Char) : Bool :=
  Line.sectionMarker.toList.isPrefixOf (Text.trimStart line)

/-- The lines written while a source is read, and whether a section header has been among those
read. -/
structure Cleaned where
  lines : Array (List Char) := #[]
  opened : Bool := false

namespace Cleaned

/-- Write a sentinel, unless the line before is exactly one. -/
def close (cleaned : Cleaned) : Cleaned :=
  if cleaned.lines.back? = some sentinel then cleaned
  else { cleaned with lines := cleaned.lines.push sentinel }

/-- Come to a section header, which ends the section before it. -/
def openSection (cleaned : Cleaned) : Cleaned :=
  { (if cleaned.opened then cleaned.close else cleaned) with opened := true }

/-- Read one line. Whether it is a header is seen on the whole line, its comment included. -/
def read (cleaned : Cleaned) (line : List Char) : Cleaned :=
  let reached := if isHeader line then cleaned.openSection else cleaned
  if (code line).all Text.isBlank then reached
  else { reached with lines := reached.lines.push (code line) }

end Cleaned

/-- The lines of the clean form of a source. -/
def cleanLines (source : List Char) : List (List Char) :=
  ((Text.lines source).foldl Cleaned.read {}).close.lines.toList

/-- The clean form of a source, every line ended by a line feed. -/
def clean (source : String) : String :=
  String.ofList (Text.unlines (cleanLines source.toList))

end ChannelAsm.Listing
