import SourceNavigator.Text.Quoted

/-!
# Defects of markup

What can be wrong with a settings document: it is `malformed`, or it is well formed and one of its
scalars cannot be read as the kind that it is tagged with.
-/

namespace SourceNavigator.Markup

/-- Why a date is none. -/
inductive DateDefect where
  | year
  | month
  | day
  | hour
  | minute
  | second
  | offset (text : String)
  deriving DecidableEq, Repr

def DateDefect.message : DateDefect → String
  | .year => "year 0 is out of range"
  | .month => "month must be in 1..12"
  | .day => "day is out of range for month"
  | .hour => "hour must be in 0..23"
  | .minute => "minute must be in 0..59"
  | .second => "second must be in 0..59"
  | .offset text =>
    "offset must be a timedelta strictly between -timedelta(hours=24) and timedelta(hours=24), not " ++
      text ++ "."

/-- What is wrong with a document. A document is `endless` if the default value of a map leads back to
that map, and `tooDeep` if its lists and maps stand within too many others. -/
inductive Defect where
  | malformed
  | notInteger (text : Text.Points) (base : Nat)
  | emptyInteger
  | tooManyDigits (count : Nat)
  | notFloat (text : Text.Points)
  | floatTooLarge
  | notTruth (text : Text.Points)
  | notTimestamp
  | timestampOfMap
  | badDate (why : DateDefect)
  | characterTooLarge
  | characterHuge
  | endless
  | tooDeep
  deriving DecidableEq, Repr

/-- The wording for a whole number with too many digits. -/
def tooManyDigitsMessage (count : Nat) : String :=
  "Exceeds the limit (4300 digits) for integer string conversion: value has " ++ toString count ++
    " digits; use sys.set_int_max_str_digits() to increase the limit"

/-- The most characters of a text that is no whole number that a message repeats, its first quote
among them. -/
def maxRepeated : Nat := 200

def Defect.message : Defect → String
  | .malformed => "Invalid YAML syntax"
  | .notInteger text base =>
    "invalid literal for int() with base " ++ toString base ++ ": " ++
      String.ofList ((Text.quotePoints text).toList.take maxRepeated)
  | .emptyInteger => "string index out of range"
  | .tooManyDigits count => tooManyDigitsMessage count
  | .notFloat text => "could not convert string to float: " ++ Text.quotePoints text
  | .floatTooLarge => "int too large to convert to float"
  | .notTruth text => Text.quotePoints text
  | .notTimestamp => "'NoneType' object has no attribute 'groupdict'"
  | .timestampOfMap => "expected string or bytes-like object, got 'list'"
  | .badDate why => why.message
  | .characterTooLarge => "chr() arg not in range(0x110000)"
  | .characterHuge => "Python int too large to convert to C int"
  | .endless => "maximum recursion depth exceeded"
  | .tooDeep => "maximum recursion depth exceeded"

end SourceNavigator.Markup
