import SourceNavigator.Text.Blank
import SourceNavigator.Text.Digit

/-!
# Whole numbers as text

`readDigits` reads a run of digits in which single underscores may stand between digits; the
readers of whole numbers are built from it. `decimal?` writes a whole number, unless it has too many
digits, and `padLeft` sets a number flush right.
-/

namespace SourceNavigator.Text

/-- The text with spaces before it up to `width` characters. -/
def padLeft (width : Nat) (s : String) : String :=
  String.ofList (List.replicate (width - s.length) ' ') ++ s

def asciiDigit? (c : Char) : Option Nat := if c.isDigit then some (c.toNat - 48) else none

/-- The digits of a text that consists of digits, with single underscores between digits only.
`value?` says which characters are digits. -/
def readDigits (value? : Char → Option Nat) : List Char → Option (List Nat)
  | [] => none
  | [c] => (value? c).map ([·])
  | c :: '_' :: cs => (value? c).bind fun d => (readDigits value? cs).map (d :: ·)
  | c :: cs => (value? c).bind fun d => (readDigits value? cs).map (d :: ·)

/-- The number that digits in base ten stand for. -/
def ofDigits (digits : List Nat) : Nat := digits.foldl (fun n d => 10 * n + d) 0

/-- A sign, if the text starts with one, and what follows. The sign is `true` for minus. -/
def readSign : List Char → Bool × List Char
  | '-' :: cs => (true, cs)
  | '+' :: cs => (false, cs)
  | cs => (false, cs)

def withSign (negative : Bool) (n : Nat) : Int := if negative then -(n : Int) else n

def trimSpace (cs : List Char) : List Char := dropEndWhile isSpace (cs.dropWhile isSpace)

/-! ## Numbers of any script, and their limit -/

/-- The most digits of a whole number that is read or written. -/
def maxDigits : Nat := 4300

/-- The digits of a whole number, unless they are too many. -/
def decimal? (n : Int) : Option String :=
  if maxDigits < (Nat.toDigits 10 n.natAbs).length then none else some (toString n)

/-- Reads a whole number in the digits of any script, with an optional sign and white space around
it. -/
def readInteger? (s : String) : Option Int :=
  let (negative, cs) := readSign (trimSpace s.toList)
  match readDigits digitValue? cs with
  | none => none
  | some digits =>
    if maxDigits < digits.length then none else some (withSign negative (ofDigits digits))

end SourceNavigator.Text
