import SourceNavigator.Excerpt.Source

/-!
# Symbol excerpts

The lines that show a symbol: from the comment block above it to the end of its declaration. Both
ends are found by a look at a bounded number of lines, not by parsing. Positions count from zero;
a negative position counts from the end of the lines.
-/

namespace SourceNavigator.Excerpt

open SourceNavigator.Path (Address)

/-- How many lines above a symbol may belong to its excerpt. -/
def lookBackLimit : Int := 30

/-- How many lines below a symbol may end its declaration. -/
def lookAheadLimit : Int := 20

/-! ## Above a symbol -/

/-- The line at a position. Positions below zero count from the end. -/
def lineAt (lines : List String) (position : Int) : Except Failure String :=
  let index := if position < 0 then position + lines.length else position
  if index < 0 then .error .lineMissing
  else
    match lines[index.toNat]? with
    | some line => .ok line
    | none => .error .lineMissing

def beginsWith (start : String) (cs : List Char) : Bool := start.toList.isPrefixOf cs

def opensComment (line : String) : Bool := beginsWith "/**" (Text.trim line.toList)

/-- A line that may stand between a comment block and its symbol: blank, the continuation of a
comment, or a line comment. -/
def isFiller (line : String) : Bool :=
  let cs := Text.trim line.toList
  cs.isEmpty || beginsWith "*" cs || beginsWith "//" cs

/-- The start of the excerpt among the `count` lines up to `position`, looked at upwards: the line
that opens a comment block, or the line after the first one that is no filler. -/
def lookBack (lines : List String) (otherwise : Int) :
    (count : Nat) → (position : Int) → Except Failure Int
  | 0, _ => .ok otherwise
  | count + 1, position =>
    match lineAt lines position with
    | .error e => .error e
    | .ok line =>
      if opensComment line then .ok position
      else if isFiller line then lookBack lines otherwise count (position - 1)
      else .ok (position + 1)

/-- The position at which the excerpt of the symbol on a line starts. -/
def docStart (lines : List String) (line : Int) : Except Failure Int :=
  let limit := max 0 (line - lookBackLimit)
  lookBack lines (line - 1) (line - 1 - limit).toNat (line - 2)

/-! ## Below a symbol -/

/-- A line that ends a declaration: it opens a block or ends with a semicolon. -/
def endsDeclaration (line : String) : Bool :=
  line.toList.contains '\x7b' || (Text.trim line.toList).getLast? == some ';'

/-- The first of the `count` lines from `position` on that ends a declaration. -/
def lookAhead (lines : List String) (otherwise : Int) :
    (count : Nat) → (position : Int) → Except Failure Int
  | 0, _ => .ok otherwise
  | count + 1, position =>
    match lineAt lines position with
    | .error e => .error e
    | .ok line =>
      if endsDeclaration line then .ok position
      else lookAhead lines otherwise count (position + 1)

/-- The position of the last line of the declaration that starts on a line. -/
def declarationEnd (lines : List String) (line : Int) : Except Failure Int :=
  let limit := min (lines.length : Int) (line + lookAheadLimit)
  lookAhead lines (line - 1) (limit - (line - 1)).toNat (line - 1)

/-! ## Excerpts -/

def symbolLines (lines : List String) (line : Int) : Except Failure (List String) := do
  checkLine line lines
  let first ← docStart lines line
  let last ← declarationEnd lines line
  return numberedFrom (first + 1) ((lines.take (last + 1).toNat).drop first.toNat)

def readSymbol (w : World) (a : Address) (line : Int) : Except Failure String := do
  let lines ← readLines w a
  let shown ← symbolLines lines line
  return joinLines shown

end SourceNavigator.Excerpt
