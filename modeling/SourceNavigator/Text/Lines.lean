/-!
# Lines

Three ways in which a text falls into lines. `cut` splits at one character and keeps empty pieces;
source files are cut at the newline. `unify` writes every line ending as a newline, the way output
of a process and settings files are read. `splitLines` splits at every line boundary of Unicode and
starts no line after the last boundary; the engine's output is split by it.
-/

namespace SourceNavigator.Text

/-! ## Cutting and joining -/

/-- The pieces of a list between the occurrences of `sep`. There is always at least one. -/
def cut {α : Type} [DecidableEq α] (sep : α) : List α → List (List α)
  | [] => [[]]
  | c :: cs =>
    if c = sep then [] :: cut sep cs
    else
      match cut sep cs with
      | [] => [[c]]
      | piece :: pieces => (c :: piece) :: pieces

/-- The pieces in one text, `sep` between them. -/
def glue (sep : List Char) : List (List Char) → List Char
  | [] => []
  | [piece] => piece
  | piece :: pieces => piece ++ sep ++ glue sep pieces

/-! ## Line endings -/

/-- Writes the line endings `\r\n` and `\r` as `\n`. -/
def unify : List Char → List Char
  | [] => []
  | '\r' :: '\n' :: cs => '\n' :: unify cs
  | '\r' :: cs => '\n' :: unify cs
  | c :: cs => c :: unify cs

/-- A character that ends a line by itself. -/
def isLineBreak (c : Char) : Bool :=
  let n := c.toNat
  (10 ≤ n && n ≤ 13) || (0x1C ≤ n && n ≤ 0x1E) || n == 0x85 || n == 0x2028 || n == 0x2029

/-- The lines of a text, split at every line boundary; `line` holds the characters, in reverse
order, that have been read of the current line. -/
def splitLinesFrom : List Char → List Char → List (List Char)
  | [], [] => []
  | line, [] => [line.reverse]
  | line, '\r' :: '\n' :: cs => line.reverse :: splitLinesFrom [] cs
  | line, c :: cs =>
    if isLineBreak c then line.reverse :: splitLinesFrom [] cs else splitLinesFrom (c :: line) cs

/-- The lines of a text, split at every line boundary of Unicode. -/
def splitLines (cs : List Char) : List (List Char) := splitLinesFrom [] cs

/-! ## The same for strings -/

/-- The strings between the occurrences of a character. -/
def cutString (sep : Char) (s : String) : List String := (cut sep s.toList).map String.ofList

/-- The strings in one, `sep` between them. -/
def glueStrings (sep : String) (pieces : List String) : String :=
  String.ofList (glue sep.toList (pieces.map String.toList))

end SourceNavigator.Text
