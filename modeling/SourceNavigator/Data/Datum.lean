import SourceNavigator.Number.Binary64
import SourceNavigator.Text.Quoted

/-!
# Data without a schema

What a settings file or a line of engine output holds before anything is known of its shape. A
`Datum` is read from text by the readers of the two formats and turned into a typed value by the
checks of `SourceNavigator.Data.Check`. The module also holds the three questions that are asked
of a datum of unknown shape: is it something (`isTruthy`), what kind is it (`kindName`), and how is
it written (`shown`).
-/

namespace SourceNavigator.Data

open Number (Binary64)

/-- A value of one of the kinds that the two formats can write. A text that holds halves of pairs is
`illFormed`. A moment is given by the microseconds from the first day of the calendar on: in
universal time if it names a zone, and in a time of its own otherwise. Entries of a map stand in the
order in which their keys first appeared. -/
inductive Datum where
  | null
  | bool (b : Bool)
  | int (n : Int)
  | float (x : Binary64)
  | text (s : String)
  | illFormed (points : Text.Points)
  | bytes (octets : List UInt8)
  | date (year month day : Nat)
  | moment (zoned : Bool) (microseconds : Int)
  | list (items : List Datum)
  | tuple (items : List Datum)
  | set (items : List Datum)
  | map (entries : List (Datum × Datum))
  deriving Repr, Inhabited

namespace Datum

def ofPoints (ps : Text.Points) : Datum :=
  match ps.chars? with
  | some cs => .text (String.ofList cs)
  | none => .illFormed ps

/-! ## Maps -/

/-- The whole number that a datum is equal to, if there is one. -/
def toWhole? : Datum → Option Int
  | .bool b => some (if b then 1 else 0)
  | .int n => some n
  | .float x => x.toInt?
  | _ => none

/-- Whether two data that are no whole numbers are the same key of a map. -/
def sameOther : Datum → Datum → Bool
  | .null, .null => true
  | .float a, .float b => a == b
  | .text a, .text b => a == b
  | .illFormed a, .illFormed b => a == b
  | .bytes a, .bytes b => a == b
  | .date y m d, .date y' m' d' => y == y' && m == m' && d == d'
  | .moment z t, .moment z' t' => z == z' && t == t'
  | _, _ => false

/-- Whether two data are the same key of a map. Numbers are the same if they are equal, however they
are given, and truth values count as one and zero. -/
def sameKey (a b : Datum) : Bool :=
  match toWhole? a, toWhole? b with
  | some m, some n => m == n
  | none, none => sameOther a b
  | _, _ => false

/-- The entries with `value` at `key`. A key that is present keeps its place. -/
def putEntry {α : Type} (key : Datum) (value : α) : List (Datum × α) → List (Datum × α)
  | [] => [(key, value)]
  | (k, v) :: rest =>
    if sameKey k key then (k, value) :: rest else (k, v) :: putEntry key value rest

/-- The map of a list of entries in which the last entry of a key counts. -/
def ofEntries (entries : List (Datum × Datum)) : Datum :=
  .map (entries.foldl (fun acc e => putEntry e.1 e.2 acc) [])

/-- The value of the entry whose key is the text `name`. -/
def lookup (name : String) : List (Datum × Datum) → Option Datum
  | [] => none
  | (.text s, v) :: rest => if s = name then some v else lookup name rest
  | _ :: rest => lookup name rest

/-! ## Questions -/

/-- Whether a datum counts as something. Nothing, no, zero and whatever is empty do not. -/
def isTruthy : Datum → Bool
  | .null => false
  | .bool b => b
  | .int n => n != 0
  | .float x => !x.isZero
  | .text s => !s.isEmpty
  | .illFormed points => !points.isEmpty
  | .bytes octets => !octets.isEmpty
  | .date .. => true
  | .moment .. => true
  | .list items => !items.isEmpty
  | .tuple items => !items.isEmpty
  | .set items => !items.isEmpty
  | .map entries => !entries.isEmpty

def kindName : Datum → String
  | .null => "NoneType"
  | .bool _ => "bool"
  | .int _ => "int"
  | .float _ => "float"
  | .text _ => "str"
  | .illFormed _ => "str"
  | .bytes _ => "bytes"
  | .date .. => "date"
  | .moment .. => "datetime"
  | .list _ => "list"
  | .tuple _ => "tuple"
  | .set _ => "set"
  | .map _ => "dict"

/-! ## Written form -/

def commaSeparated (pieces : List String) : String := String.intercalate ", " pieces

mutual

/-- A datum as it is written inside another one. -/
def display : Datum → String
  | .null => "None"
  | .bool b => if b then "True" else "False"
  | .int n => toString n
  | .float x => x.shown
  | .text s => Text.quote s
  | .illFormed points => Text.quotePoints points
  | .bytes octets => "b" ++ Text.quote (String.ofList (octets.map fun b => Char.ofNat b.toNat))
  | .date y m d => "date(" ++ commaSeparated [toString y, toString m, toString d] ++ ")"
  | .moment zoned t => "datetime(" ++ commaSeparated [toString t, if zoned then "utc" else "None"] ++ ")"
  | .list items => "[" ++ commaSeparated (displayItems items) ++ "]"
  | .tuple items => "(" ++ commaSeparated (displayItems items) ++ ")"
  | .set items => "\x7b" ++ commaSeparated (displayItems items) ++ "\x7d"
  | .map entries => "\x7b" ++ commaSeparated (displayEntries entries) ++ "\x7d"

def displayItems : List Datum → List String
  | [] => []
  | d :: rest => display d :: displayItems rest

def displayEntries : List (Datum × Datum) → List String
  | [] => []
  | (k, v) :: rest => (display k ++ ": " ++ display v) :: displayEntries rest

end

/-- The text of a datum: a text as it stands, anything else in its written form. -/
def shown : Datum → String
  | .text s => s
  | .illFormed points => String.ofList points.joined
  | d => display d

end Datum

end SourceNavigator.Data
