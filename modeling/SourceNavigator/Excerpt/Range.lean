import SourceNavigator.Excerpt.Source
import SourceNavigator.Session

/-!
# Line ranges

A run of consecutive lines of a file, with the number of lines in the whole file, so that a reader
knows whether to go on. Main definitions: `Range` and `readRange`.
-/

namespace SourceNavigator.Excerpt

open Data (Rule Validated Datum)
open SourceNavigator.Path (Address)

/-! ## Ranges -/

/-- Lines `first` to `last` of a file of `total` lines. -/
structure Range where
  path : String
  first : Int
  last : Int
  total : Int
  lines : List String
  deriving DecidableEq, Repr

namespace Range

/-- Whether lines follow the range. -/
def isTruncated (r : Range) : Bool := r.last < r.total

def remaining (r : Range) : Int := max 0 (r.total - r.last)

/-- The lines with their numbers, unless the number of the last one is too long to be written. -/
def render (r : Range) : Except Failure String :=
  if r.lines.isEmpty || (Text.decimal? (r.first + r.lines.length - 1)).isSome then
    .ok (joinLines (numberedFrom r.first r.lines))
  else .error .numberTooLong

def modelName : String := "LineRange"

def fields (entries : List (Datum × Datum)) : Validated Range :=
  Range.mk
    <$> Rule.field "path" none Rule.text entries
    <*> Rule.field "start_line" none (Rule.integerFrom 1) entries
    <*> Rule.field "end_line" none (Rule.integerFrom 0) entries
    <*> Rule.field "total_lines" none (Rule.integerFrom 0) entries
    <*> Rule.field "lines" (some []) (Rule.list Rule.text) entries

def check : Rule Range := Rule.record modelName fields

end Range

/-! ## What a reader asks for -/

/-- The most lines that are read at once unless the caller says otherwise. -/
def defaultMaxLines : Int := 500

/-- The last line to read: the one asked for, but not beyond the file nor beyond `maxLines` lines.
An end of zero is none. -/
def lastLine (first : Int) (endLine : Option Int) (maxLines total : Int) : Int :=
  let allowed := min total (first + maxLines - 1)
  match endLine with
  | none => allowed
  | some e => if e = 0 then allowed else min e allowed

/-- The range that a reader asks for. A first line below one is one; a last line below zero is
refused. -/
def rangeOf (path : String) (lines : List String) (startLine : Int) (endLine : Option Int)
    (maxLines : Int) : Except Failure Range :=
  let total : Int := lines.length
  let first := max 1 startLine
  if total < first then .error (outside startLine total)
  else
    let last := lastLine first endLine maxLines total
    if last < 0 then .error (.invalid Range.modelName [⟨[.field "end_line"], .below 0⟩])
    else .ok ⟨path, first, last, total, (lines.take last.toNat).drop (first - 1).toNat⟩

def logSource : String := "codenav.tools.context"

/-- Logs that a read stops before the end of the file, unless the number of its last line is too long
to be put into words. -/
def logStop (path : String) (total startLine : Int) (endLine : Option Int) (maxLines : Int) :
    Action Unit :=
  let first := max 1 startLine
  let last := lastLine first endLine maxLines total
  if first ≤ total ∧ last < total then
    match Text.decimal? last, Text.decimal? total with
    | some last, some total =>
      Action.log debugSeverity logSource
        ("Read of " ++ path ++ " stopped at line " ++ last ++ " of " ++ total)
    | _, _ => Action.fail .numberTooLong
  else Action.done ()

/-- Reads a range of the file at an address. -/
def readRange (w : World) (a : Address) (startLine : Int) (endLine : Option Int) (maxLines : Int) :
    Action Range := do
  let lines ← Action.lift (readLines w a)
  logStop a.text lines.length startLine endLine maxLines
  Action.lift (rangeOf a.text lines startLine endLine maxLines)

end SourceNavigator.Excerpt
