import SourceNavigator.Failure
import SourceNavigator.Text.Lines
import SourceNavigator.Text.Numeral
import SourceNavigator.World.Lookup

/-!
# Source lines

The lines of a source file. A newline ends a line, carriage returns before it belong to the line
ending, and the last line may lack its newline. Octets that encode nothing are replaced.
-/

namespace SourceNavigator.Excerpt

open SourceNavigator.Path (Address)
open World (Trouble)

def dropFinalNewline (cs : List Char) : List Char :=
  if cs.getLast? = some '\n' then cs.dropLast else cs

/-- A line without carriage returns at its end. -/
def dropReturns (cs : List Char) : List Char := Text.dropEndWhile (· == '\r') cs

/-- The lines of a text. There is always at least one. -/
def linesOfText (cs : List Char) : List (List Char) :=
  (Text.cut '\n' (dropFinalNewline cs)).map dropReturns

/-- The lines of a file with this content. -/
def linesOf (content : List UInt8) : List String :=
  (linesOfText (Text.Utf8.decode content)).map String.ofList

def readLines (w : World) (a : Address) : Except Failure (List String) :=
  match w.octetsAt a with
  | .ok content => .ok (linesOf content)
  | .error (.system e) => .error (.unreadableFile (some a.text) (some e))
  | .error .nulCharacter => .error .nulCharacter

/-! ## Line numbers -/

/-- The failure of a line that is not among `total` lines. Numbers that are too long cannot be put into
its words. -/
def outside (line total : Int) : Failure :=
  if (Text.decimal? line).isSome && (Text.decimal? total).isSome then .lineOutside line total
  else .numberTooLong

/-- Fails unless the lines hold a line of that number. -/
def checkLine (line : Int) (lines : List String) : Except Failure Unit :=
  if line < 1 ∨ (lines.length : Int) < line then .error (outside line lines.length) else .ok ()

def numbered (number : Int) (text : String) : String :=
  Text.padLeft 5 (toString number) ++ " | " ++ text

/-- Lines with their numbers, from `number` on. -/
def numberedFrom (number : Int) : List String → List String
  | [] => []
  | text :: rest => numbered number text :: numberedFrom (number + 1) rest

def joinLines (lines : List String) : String := Text.glueStrings "\n" lines

end SourceNavigator.Excerpt
