import SourceNavigator.Path.Route
import SourceNavigator.Search.Match
import SourceNavigator.Search.Record

/-!
# Record streams

The reduction of a whole engine output. Blank lines are passed over; every other line must be a
record. Matches are kept up to a cap, but lines after the cap are read all the same, so that a bad
line fails the stream wherever it stands. Lines of context are collected by file and line.
-/

namespace SourceNavigator.Search

open SourceNavigator.Path (Route)
open Text (Points)

/-! ## Lines of context -/

/-- Lines of context by the file and the line that they are reported for, in order of first
appearance. Files that differ in a half of a pair only are different ones. -/
abbrev Context := List ((Points × Int) × List Points)

def Context.add (path : Points) (line : Int) (text : Points) : Context → Context
  | [] => [((path, line), [text])]
  | (key, texts) :: rest =>
    if key = (path, line) then (key, texts ++ [text]) :: rest
    else (key, texts) :: Context.add path line text rest

def Context.texts (c : Context) (path : Points) (line : Int) : List Points :=
  match c.find? (·.1 = (path, line)) with
  | some (_, texts) => texts
  | none => []

def Context.size : Context → Nat
  | [] => 0
  | (_, texts) :: rest => texts.length + Context.size rest

/-! ## Outputs and frames -/

/-- What a stream comes to. -/
structure Output where
  found : List Match
  context : Context
  recordsSeen : Nat
  deriving DecidableEq, Repr

def Output.contextLines (o : Output) : Nat := o.context.size

/-- Where a stream is read: the place of the process, which paths that are not absolute start from,
and the root that paths are made relative to. -/
structure Frame where
  base : Route
  root : Route
  deriving Repr

/-- A frame whose root is given as text. -/
def Frame.ofRoot (base : Route) (root : String) : Frame := ⟨base, Route.absolute base root⟩

def Frame.relative (f : Frame) (path : String) : String :=
  Path.relativeText f.root (Route.absolute f.base path)

/-- The path of a file relative to the root, if it can be written. -/
def Frame.relative? (f : Frame) (path : Points) : Option String :=
  let goal := (f.base.append (Route.ofPoints path)).collapse
  if Path.areWritable (Path.namesBetween f.root.names goal.names) then
    some (Path.relativeText f.root goal)
  else none

/-! ## Taking in records -/

/-- Whether a cap leaves room for one more match. -/
def hasRoom (cap : Option Int) (kept : List Match) : Bool :=
  match cap with
  | none => true
  | some k => (kept.length : Int) < k

/-- The failure of a match in a file that no text names. -/
def misnamedFailure : Failure := .invalid Match.modelName [⟨[.field "file"], .notUnicode⟩]

def Output.keep (o : Output) (file : String) (line column : Int) (text : String) : Output :=
  { o with found := o.found ++ [⟨file, line, column, Text.strip text⟩] }

/-- The output after one more record. An empty path has no form relative to the root. -/
def Output.add (f : Frame) (cap : Option Int) (o : Output) (r : Record) : Except Failure Output :=
  let o := { o with recordsSeen := o.recordsSeen + 1 }
  match r with
  | .found path line column text =>
    if hasRoom cap o.found then
      if path.isEmpty then .error .emptyPath
      else .ok (o.keep (f.relative path) line column text)
    else .ok o
  | .misnamed path line column text =>
    if hasRoom cap o.found then
      match f.relative? path with
      | some file => .ok (o.keep file line column text)
      | none => .error misnamedFailure
    else .ok o
  | .context path line text => .ok { o with context := Context.add path line text o.context }
  | .other _ => .ok o

/-- The output after the lines from the given number on. -/
def reduceFrom (f : Frame) (cap : Option Int) :
    (number : Nat) → Output → List (List Char) → Except Failure Output
  | _, o, [] => .ok o
  | number, o, line :: rest =>
    if Text.isBlankLine line then reduceFrom f cap (number + 1) o rest
    else
      match Record.parse line with
      | .error fault => .error (fault.toFailure number)
      | .ok r =>
        match o.add f cap r with
        | .error e => .error e
        | .ok o => reduceFrom f cap (number + 1) o rest

/-- The output of a stream of lines. -/
def reduce (f : Frame) (cap : Option Int) (lines : List (List Char)) : Except Failure Output :=
  reduceFrom f cap 1 ⟨[], [], 0⟩ lines

end SourceNavigator.Search
