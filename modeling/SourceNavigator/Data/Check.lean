import SourceNavigator.Data.Datum
import SourceNavigator.Text.Utf8

/-!
# Checking data

A `Rule` turns a datum into a typed value or says what is wrong with it. Rules for the fields of a
record run one after the other and collect all their problems, so `Validated` is an applicative
functor that keeps the problems of both sides. A problem names its place by the fields and the list
positions that lead to it.
-/

namespace SourceNavigator.Data

open Number (Binary64)

/-! ## Problems -/

/-- One step from a datum to a part of it. -/
inductive Step where
  | field (name : String)
  | item (index : Nat)
  deriving DecidableEq, Repr

/-- What is wrong with a datum. -/
inductive Complaint where
  | missing
  | notText
  | notUnicode
  | tooShort
  | notList
  | notInteger
  | notIntegerText
  | hasFraction
  | tooLarge
  | notFinite
  | notTruth
  | notTruthText
  | notAbove (bound : Int)
  | below (bound : Int)
  | notLevel
  | notRecord (name : String)
  | frozen
  | refused (why : String)
  deriving DecidableEq, Repr

def Complaint.code : Complaint → String
  | .missing => "missing"
  | .notText => "string_type"
  | .notUnicode => "string_unicode"
  | .tooShort => "string_too_short"
  | .notList => "list_type"
  | .notInteger => "int_type"
  | .notIntegerText => "int_parsing"
  | .hasFraction => "int_from_float"
  | .tooLarge => "int_parsing_size"
  | .notFinite => "finite_number"
  | .notTruth => "bool_type"
  | .notTruthText => "bool_parsing"
  | .notAbove _ => "greater_than"
  | .below _ => "greater_than_equal"
  | .notLevel => "enum"
  | .notRecord _ => "model_type"
  | .frozen => "frozen_instance"
  | .refused _ => "value_error"

def Complaint.message : Complaint → String
  | .missing => "Field required"
  | .notText => "Input should be a valid string"
  | .notUnicode => "Input should be a valid string, unable to parse raw data as a unicode string"
  | .tooShort => "String should have at least 1 character"
  | .notList => "Input should be a valid list"
  | .notInteger => "Input should be a valid integer"
  | .notIntegerText => "Input should be a valid integer, unable to parse string as an integer"
  | .hasFraction => "Input should be a valid integer, got a number with a fractional part"
  | .tooLarge => "Unable to parse input string as an integer, exceeded maximum size"
  | .notFinite => "Input should be a finite number"
  | .notTruth => "Input should be a valid boolean"
  | .notTruthText => "Input should be a valid boolean, unable to interpret input"
  | .notAbove bound => "Input should be greater than " ++ toString bound
  | .below bound => "Input should be greater than or equal to " ++ toString bound
  | .notLevel => "Input should be 'DEBUG', 'INFO', 'WARNING' or 'ERROR'"
  | .notRecord name => "Input should be a valid dictionary or instance of " ++ name
  | .frozen => "Instance is frozen"
  | .refused why => "Value error, " ++ why

/-- A complaint and the place it is about. -/
structure Problem where
  place : List Step
  complaint : Complaint
  deriving DecidableEq, Repr

/-- The problem seen from one step further out. -/
def Problem.under (step : Step) (p : Problem) : Problem := { p with place := step :: p.place }

/-! ## Results -/

/-- A value, or all that is wrong with what it was to be made from. -/
inductive Validated (α : Type) where
  | valid (value : α)
  | invalid (problems : List Problem)
  deriving Repr

namespace Validated

def map {α β : Type} (f : α → β) : Validated α → Validated β
  | .valid a => .valid (f a)
  | .invalid ps => .invalid ps

/-- A function and its argument; the problems of both count, those of the function first. -/
def seq {α β : Type} (f : Validated (α → β)) (a : Validated α) : Validated β :=
  match f, a with
  | .valid f, .valid a => .valid (f a)
  | .valid _, .invalid ps => .invalid ps
  | .invalid ps, .valid _ => .invalid ps
  | .invalid ps, .invalid qs => .invalid (ps ++ qs)

instance : Applicative Validated where
  pure := .valid
  map := map
  seq f a := seq f (a ())

/-- A further check, made only of a valid value. -/
def andThen {α β : Type} (v : Validated α) (f : α → Validated β) : Validated β :=
  match v with
  | .valid a => f a
  | .invalid ps => .invalid ps

def under {α : Type} (step : Step) : Validated α → Validated α
  | .valid a => .valid a
  | .invalid ps => .invalid (ps.map (Problem.under step))

def complain {α : Type} (c : Complaint) : Validated α := .invalid [⟨[], c⟩]

/-- The values of a list of results, or the problems of all of them. -/
def all {α : Type} : List (Validated α) → Validated (List α)
  | [] => .valid []
  | v :: vs => seq (map List.cons v) (all vs)

end Validated

/-! ## Rules -/

/-- A way to make a value from a datum. -/
abbrev Rule (α : Type) := Datum → Validated α

namespace Rule

/-- A rule followed by a check or a change of its value. -/
def thenCheck {α β : Type} (r : Rule α) (f : α → Validated β) : Rule β := fun d => (r d).andThen f

/-- A text. Octets count as the text that they encode, and pairs of halves as the characters that
they stand for. -/
def text : Rule String
  | .text s => .valid s
  | .illFormed points => .valid (String.ofList points.joined)
  | .bytes octets =>
    match Text.Utf8.decodeStrict? octets with
    | .ok cs => .valid (String.ofList cs)
    | .error _ => .complain .notUnicode
  | _ => .complain .notText

/-- A text by its code points. Halves of pairs are kept as they are. -/
def points : Rule Text.Points
  | .illFormed points => .valid points
  | d => (text d).map Text.Points.ofString

/-- A text of characters alone that is not empty. -/
def someText : Rule String
  | .illFormed _ => .complain .notUnicode
  | d => (text d).andThen fun s => if s.isEmpty then .complain .tooShort else .valid s

/-! ### Whole numbers written as text

The plain form of a whole number is zero, or digits of which the first is no zero, with a minus sign
before them if it is negative. What is not in plain form is cleaned first. -/

/-- The text behind a minus sign, and whether there is one. -/
def readMinus : List Char → Bool × List Char
  | '-' :: cs => (true, cs)
  | cs => (false, cs)

/-- Whether a text begins with a whole number in plain form that has too many digits. -/
def beginsTooLong (cs : List Char) : Bool :=
  let (_, body) := readMinus cs
  match body with
  | c :: _ => c.isDigit && c != '0' && Text.maxDigits < (body.takeWhile Char.isDigit).length
  | [] => false

/-- The whole number that a text in plain form stands for. -/
def plainInteger? (cs : List Char) : Option Int :=
  let (negative, body) := readMinus cs
  match body with
  | [] => none
  | ['0'] => some 0
  | c :: _ =>
    if c == '0' || !body.all Char.isDigit then none
    else
      (Text.readDigits Text.asciiDigit? body).map fun digits =>
        Text.withSign negative (Text.ofDigits digits)

/-- What follows leading zeros, with underscores among them: a text from its first other digit, sign
or last zero before a point on. Of a text that ends before that, the last character is left. -/
def afterZeros (last : Char) : List Char → Option (List Char)
  | [] => some [last]
  | c :: cs =>
    if c == '0' || c == '_' then afterZeros c cs
    else if c == '.' then some (last :: c :: cs)
    else if c.isDigit || c == '-' then some (c :: cs)
    else none

/-- The text without leading zeros. It must begin with a digit or a minus sign. -/
def dropZeros? : List Char → Option (List Char)
  | '0' :: cs => afterZeros '0' cs
  | c :: cs => if c.isDigit || c == '-' then some (c :: cs) else none
  | [] => none

/-- The text without a point and zeros at its end. What follows a point must be zeros, and at least
one. -/
def dropFraction? (cs : List Char) : Option (List Char) :=
  match cs.dropWhile (· != '.') with
  | [] => some cs
  | _ :: fraction =>
    if !fraction.isEmpty && fraction.all (· == '0') then some (cs.takeWhile (· != '.')) else none

/-- Whether underscores stand only singly and between other characters. -/
def barsFit : List Char → Bool
  | [] => true
  | '_' :: _ => false
  | [_, '_'] => false
  | _ :: '_' :: cs => barsFit cs
  | _ :: cs => barsFit cs

/-- The text without its underscores, if they stand where they may. -/
def dropBars (cs : List Char) : List Char := if barsFit cs then cs.filter (· != '_') else cs

/-- A whole number without its sign in plain form. -/
def cleanMagnitude? (cs : List Char) : Option (List Char) :=
  ((dropZeros? cs).bind dropFraction?).map dropBars

/-- A whole number in plain form: without white space around it, a plus sign, leading zeros, zeros
behind a point, and underscores between digits. -/
def cleanInteger? (cs : List Char) : Option (List Char) :=
  match Text.trimSpace cs with
  | '+' :: '-' :: _ => none
  | '+' :: body => cleanMagnitude? body
  | '-' :: body => (cleanMagnitude? body).map ('-' :: ·)
  | body => cleanMagnitude? body

def integerOfText (s : String) : Validated Int :=
  if beginsTooLong s.toList then .complain .tooLarge
  else
    match cleanInteger? s.toList with
    | none => .complain .notIntegerText
    | some cs =>
      if beginsTooLong cs then .complain .notIntegerText
      else
        match plainInteger? cs with
        | some n => .valid n
        | none => .complain .notIntegerText

/-! ### Numbers -/

/-- The whole numbers below this one, and from its negation on, fit into 64 bits. -/
def wordBound : Nat := Nat.pow 2 63

/-- The whole number that a double is, if it fits into 64 bits. -/
def integerOfFloat (x : Binary64) : Validated Int :=
  match x with
  | .nan => .complain .notFinite
  | .infinite _ => .complain .notFinite
  | .finite .. =>
    match x.toInt? with
    | none => .complain .hasFraction
    | some n => if n.natAbs < wordBound then .valid n else .complain .tooLarge

/-- A whole number, given as such, as a truth value, as a double or as text. -/
def integer : Rule Int
  | .int n => .valid n
  | .bool b => .valid (if b then 1 else 0)
  | .float x => integerOfFloat x
  | .text s => integerOfText s
  | .illFormed _ => .complain .notUnicode
  | .bytes octets =>
    match Text.Utf8.decodeStrict? octets with
    | .ok cs => integerOfText (String.ofList cs)
    | .error _ => .complain .notIntegerText
  | _ => .complain .notInteger

def integerAbove (bound : Int) : Rule Int :=
  integer.thenCheck fun n => if bound < n then .valid n else .complain (.notAbove bound)

def integerFrom (bound : Int) : Rule Int :=
  integer.thenCheck fun n => if bound ≤ n then .valid n else .complain (.below bound)

def yesWords : List String := ["true", "t", "yes", "y", "on", "1"]

def noWords : List String := ["false", "f", "no", "n", "off", "0"]

/-- A truth value written as a word, in any mixture of case. -/
def truthOfText (s : String) : Validated Bool :=
  let word := String.ofList (s.toList.map Char.toLower)
  if yesWords.contains word then .valid true
  else if noWords.contains word then .valid false
  else .complain .notTruthText

/-- A truth value given as a number. Numbers beyond 64 bits are no candidates. -/
def truthOfInteger (n : Int) : Validated Bool :=
  if n = 0 then .valid false
  else if n = 1 then .valid true
  else if -(wordBound : Int) ≤ n ∧ n < wordBound then .complain .notTruthText
  else .complain .notTruth

/-- A truth value, given as such, as a number or as a word. -/
def truth : Rule Bool
  | .bool b => .valid b
  | .int n => truthOfInteger n
  | .float x =>
    match integerOfFloat x with
    | .valid n => truthOfInteger n
    | .invalid _ => .complain .notTruth
  | .text s => truthOfText s
  | .illFormed _ => .complain .notUnicode
  | .bytes octets =>
    match Text.Utf8.decodeStrict? octets with
    | .ok cs => truthOfText (String.ofList cs)
    | .error _ => .complain .notTruthText
  | _ => .complain .notTruth

/-- The items of a list by a rule, each problem under the item's position, from position `i` on. -/
def itemsFrom {α : Type} (r : Rule α) : Nat → List Datum → List (Validated α)
  | _, [] => []
  | i, d :: ds => (r d).under (.item i) :: itemsFrom r (i + 1) ds

def list {α : Type} (r : Rule α) : Rule (List α)
  | .list items => .all (itemsFrom r 0 items)
  | .tuple items => .all (itemsFrom r 0 items)
  | .set items => .all (itemsFrom r 0 items)
  | _ => .complain .notList

def optional {α : Type} (r : Rule α) : Rule (Option α)
  | .null => .valid none
  | d => (r d).map some

/-- A record: a map whose entries satisfy a rule. -/
def record {α : Type} (name : String) (r : List (Datum × Datum) → Validated α) : Rule α
  | .map entries => r entries
  | _ => .complain (.notRecord name)

/-- A field of a record. A field that is absent has the default value, if there is one. -/
def field {α : Type} (name : String) (default : Option α) (r : Rule α)
    (entries : List (Datum × Datum)) : Validated α :=
  match Datum.lookup name entries with
  | some d => (r d).under (.field name)
  | none =>
    match default with
    | some a => .valid a
    | none => .invalid [⟨[.field name], .missing⟩]

end Rule

end SourceNavigator.Data
