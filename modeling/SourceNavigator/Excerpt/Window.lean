import SourceNavigator.Excerpt.Source

/-!
# Windows

The lines around a line, with their numbers, and with a mark before the line itself. Negative
numbers of lines count as zero.
-/

namespace SourceNavigator.Excerpt

open SourceNavigator.Path (Address)

def marker (isTarget : Bool) : String := if isTarget then ">" else " "

/-- Numbered lines from `number` on, with a mark before the line `target`. -/
def markedFrom (target number : Int) : List String → List String
  | [] => []
  | text :: rest =>
    (marker (number == target) ++ numbered number text) :: markedFrom target (number + 1) rest

/-- The window around a line that is there: from `before` lines above it to `after` lines below. -/
def windowLines (lines : List String) (line before after : Int) : List String :=
  let first := (line - 1 - before.toNat).toNat
  let last := (line + after.toNat).toNat
  markedFrom line (first + 1) ((lines.take last).drop first)

def window (lines : List String) (line before after : Int) : Except Failure String :=
  (checkLine line lines).map fun _ => joinLines (windowLines lines line before after)

def readWindow (w : World) (a : Address) (line before after : Int) : Except Failure String :=
  match readLines w a with
  | .error e => .error e
  | .ok lines => window lines line before after

end SourceNavigator.Excerpt
