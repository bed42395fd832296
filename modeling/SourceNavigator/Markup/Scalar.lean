import SourceNavigator.Data.Datum
import SourceNavigator.Markup.Defect
import SourceNavigator.Markup.Kind
import SourceNavigator.Text.Base64
import SourceNavigator.Text.Casing
import SourceNavigator.Text.Lines
import SourceNavigator.Text.Utf8

/-!
# Values of scalars

What the text of a scalar stands for once its kind is known. A kind that the form of the text shows
is always readable but for a few corner cases (a date that is none, a number without digits); a kind
that a tag demands may fit the text or not. Main definition: `scalarValue`.
-/

namespace SourceNavigator.Markup

open Data (Datum)
open Number (Binary64)
open Text (Points)

/-! ## Whole numbers -/

/-- The value of a digit in any base up to thirty-six. -/
def anyDigit? (c : Char) : Option Nat :=
  match Text.digitValue? c with
  | some d => some d
  | none =>
    if 'a' ≤ c ∧ c ≤ 'z' then some (c.toNat - 87)
    else if 'A' ≤ c ∧ c ≤ 'Z' then some (c.toNat - 55)
    else none

/-- The letter that announces a base after a zero. -/
def baseLetter (base : Nat) : Option Char :=
  if base = 2 then some 'b' else if base = 8 then some 'o' else if base = 16 then some 'x' else none

/-- The text without the announcement of its base. -/
def dropBase (base : Nat) : List Char → List Char
  | '0' :: c :: cs => if some c.toLower = baseLetter base then cs else '0' :: c :: cs
  | cs => cs

/-- The digits of a base at the start of a text. -/
def leadingDigits (base : Nat) : List Char → List Nat
  | [] => []
  | c :: cs =>
    match anyDigit? c with
    | some d => if d < base then d :: leadingDigits base cs else []
    | none => []

/-- A whole number in a base, with an optional sign and white space around it. In base ten too many
digits are an error, whatever follows them. -/
def readBase (base : Nat) (text : Points) : Except Defect Int :=
  let (negative, body) := Text.readSign (Text.trimSpace text.shown)
  let body := dropBase base body
  let digits := leadingDigits base body
  if base = 10 && Text.maxDigits < digits.length then .error (.tooManyDigits digits.length)
  else if digits.isEmpty || digits.length < body.length then .error (.notInteger text base)
  else .ok (Text.withSign negative (digits.foldl (fun n d => base * n + d) 0))

/-- The values of several texts, or the first defect. -/
def readAll {α : Type} (read : Points → Except Defect α) : List Points → Except Defect (List α)
  | [] => .ok []
  | part :: rest =>
    match read part with
    | .error e => .error e
    | .ok a => (readAll read rest).map (a :: ·)

def withoutBars (text : Points) : Points := text.filter (· != '_'.toNat)

/-- The parts of a text between its colons. -/
def partsOf (text : Points) : List Points := Text.cut ':'.toNat text

/-- A whole number without its sign: in base sixty with colons, in base two, sixteen or eight after a
zero, or in base ten. -/
def readMagnitude (text : Points) : Except Defect Int :=
  match text.shown with
  | [] => .error .emptyInteger
  | ['0'] => .ok 0
  | '0' :: 'b' :: _ => readBase 2 (text.drop 2)
  | '0' :: 'x' :: _ => readBase 16 (text.drop 2)
  | '0' :: _ => readBase 8 text
  | cs =>
    if cs.contains ':' then
      (readAll (readBase 10) (partsOf text)).map fun parts =>
        parts.foldl (fun n d => 60 * n + d) 0
    else readBase 10 text

def integerValue (text : Points) : Except Defect Int :=
  let text := withoutBars text
  match text.shown with
  | [] => .error .emptyInteger
  | '-' :: _ => (readMagnitude (text.drop 1)).map (- ·)
  | '+' :: _ => readMagnitude (text.drop 1)
  | _ => readMagnitude text

/-! ## Numbers with a point -/

/-- The value of decimal digits with a fraction of `places` digits and an exponent. -/
def decimalOf (negative : Bool) (digits : List Nat) (places : Nat) (exponent : Int) : Binary64 :=
  Binary64.ofDecimal negative (Text.ofDigits digits) (exponent - places)

/-- The digits at the front of a text, of any script, and what follows them. -/
def spanDigits (cs : List Char) : List Nat × List Char :=
  let isDigit (c : Char) : Bool := (Text.digitValue? c).isSome
  ((cs.takeWhile isDigit).filterMap Text.digitValue?, cs.dropWhile isDigit)

/-- The exponent that fills the rest of a text. -/
def readExponent? : List Char → Option Int
  | [] => some 0
  | mark :: cs =>
    if mark == 'e' || mark == 'E' then
      let (negative, cs) := Text.readSign cs
      let (digits, rest) := spanDigits cs
      if digits.isEmpty || !rest.isEmpty then none
      else some (Text.withSign negative (Text.ofDigits digits))
    else none

/-- A number with or without a point and an exponent, or a word for infinity or no number. -/
def readFloat? (cs : List Char) : Option Binary64 :=
  let (negative, body) := Text.readSign (Text.trimSpace cs)
  let word := String.ofList (body.map Char.toLower)
  if word = "inf" || word = "infinity" then some (.infinite negative)
  else if word = "nan" then some .nan
  else
    let (whole, rest) := spanDigits body
    let (fraction, rest) :=
      match rest with
      | '.' :: rest => spanDigits rest
      | _ => ([], rest)
    if whole.isEmpty && fraction.isEmpty then none
    else
      (readExponent? rest).map fun exponent =>
        decimalOf negative (whole ++ fraction) fraction.length exponent

/-- A number with a point, or the defect of having none. -/
def readFloat (text : Points) : Except Defect Binary64 :=
  match readFloat? text.shown with
  | some x => .ok x
  | none => .error (.notFloat text)

/-- The sum of numbers with weights that grow by a factor of sixty, the last one first. A weight may
be too large for a double. -/
def sumSixties : (weight : Nat) → Binary64 → List Binary64 → Except Defect Binary64
  | _, total, [] => .ok total
  | weight, total, x :: rest =>
    match Binary64.ofNat weight with
    | .infinite _ => .error .floatTooLarge
    | w => sumSixties (weight * 60) (total.add (x.mul w)) rest

def readFloatMagnitude (text : Points) : Except Defect Binary64 :=
  let cs := text.shown
  if cs = ".inf".toList then .ok (.infinite false)
  else if cs = ".nan".toList then .ok .nan
  else if cs.contains ':' then
    match readAll readFloat (partsOf text) with
    | .error e => .error e
    | .ok parts => sumSixties 1 (.finite false 0 (-1074)) parts.reverse
  else readFloat text

def floatValue (text : Points) : Except Defect Binary64 :=
  let text := (withoutBars text).mapRuns Text.lower
  match text.shown with
  | [] => .error .emptyInteger
  | '-' :: _ => (readFloatMagnitude (text.drop 1)).map Binary64.neg
  | '+' :: _ => readFloatMagnitude (text.drop 1)
  | _ => readFloatMagnitude text

/-! ## Truth values and octets -/

def truthValue (text : Points) : Except Defect Bool :=
  let word := text.mapRuns Text.lower
  match truthWords.find? fun entry => word.chars? = some entry.1.toList with
  | some (_, b) => .ok b
  | none => .error (.notTruth word)

/-- Octets in base 64. -/
def octetsValue (text : Points) : Except Defect (List UInt8) :=
  match text.chars?.map Text.Base64.decode? with
  | some (.ok octets) => .ok octets
  | _ => .error .malformed

/-! ## Dates -/

def isLeap (year : Nat) : Bool := (year % 4 == 0 && year % 100 != 0) || year % 400 == 0

def daysIn (year month : Nat) : Nat :=
  if month = 2 then if isLeap year then 29 else 28
  else if month = 4 ∨ month = 6 ∨ month = 9 ∨ month = 11 then 30
  else 31

/-- Whether a date is one of the calendar. -/
def checkDate (year month day : Nat) : Except DateDefect Unit :=
  if year = 0 then .error .year
  else if month = 0 ∨ 12 < month then .error .month
  else if day = 0 ∨ daysIn year month < day then .error .day
  else .ok ()

def checkClock (c : Clock) : Except DateDefect Unit :=
  if 23 < c.hour then .error .hour
  else if 59 < c.minute then .error .minute
  else if 59 < c.second then .error .second
  else .ok ()

/-- The text of a span of time in days and seconds. -/
def spanText (minutes : Int) : String :=
  let days := Int.fdiv minutes 1440
  let seconds := Int.fmod minutes 1440 * 60
  let parts :=
    (if days = 0 then [] else ["days=" ++ toString days]) ++
      (if seconds = 0 then [] else ["seconds=" ++ toString seconds])
  "datetime.timedelta(" ++ String.intercalate ", " parts ++ ")"

/-- Whether an offset is less than a day. -/
def checkZone : Zone → Except DateDefect Unit
  | .offset negative hours minutes =>
    let span := hours * 60 + minutes
    if span < 1440 then .ok () else .error (.offset (spanText (Text.withSign negative span)))
  | _ => .ok ()

def daysBeforeYear (year : Nat) : Nat :=
  let y := year - 1
  365 * y + y / 4 - y / 100 + y / 400

def daysBeforeMonth (year : Nat) : (month : Nat) → Nat
  | 0 => 0
  | m + 1 => if m = 0 then 0 else daysBeforeMonth year m + daysIn year m

/-- The minutes that the time of a zone is ahead of universal time. -/
def Zone.minutes : Zone → Int
  | .none => 0
  | .universal => 0
  | .offset negative hours minutes => Text.withSign negative (hours * 60 + minutes)

/-- The microseconds that a fraction of a second comes to, of which six digits count. -/
def fractionMicroseconds (digits : List Char) : Nat :=
  let kept := digits.take 6
  numberOf kept * Nat.pow 10 (6 - kept.length)

/-- The microseconds from the first day of the calendar to a moment, in universal time if the moment
names a zone. -/
def momentMicroseconds (t : Timestamp) (c : Clock) : Int :=
  let days : Int := daysBeforeYear t.year + daysBeforeMonth t.year t.month + t.day
  let minutes := (days * 24 + c.hour) * 60 + c.minute - c.zone.minutes
  (minutes * 60 + c.second) * 1000000 + fractionMicroseconds c.fraction

/-- What must hold of a date as written. -/
def checkTimestamp (t : Timestamp) : Except DateDefect Unit := do
  match t.clock with
  | none => checkDate t.year t.month t.day
  | some c =>
    checkZone c.zone
    checkDate t.year t.month t.day
    checkClock c

def timestampValue (text : Points) : Except Defect Datum :=
  match text.chars?.bind fun cs => readTimestamp? (dropNewline cs) with
  | none => .error .notTimestamp
  | some t =>
    match checkTimestamp t with
    | .error why => .error (.badDate why)
    | .ok () =>
      match t.clock with
      | none => .ok (.date t.year t.month t.day)
      | some c => .ok (.moment (c.zone != .none) (momentMicroseconds t c))

/-! ## Scalars -/

/-- The value of a scalar of a kind. Kinds of lists and maps, and kinds that mean something only as
keys, have no scalars. -/
def scalarValue (kind : Kind) (text : Points) : Except Defect Datum :=
  match kind with
  | .null => .ok .null
  | .truth => (truthValue text).map .bool
  | .integer => (integerValue text).map .int
  | .float => (floatValue text).map .float
  | .octets => (octetsValue text).map .bytes
  | .timestamp => timestampValue text
  | .text => .ok (Datum.ofPoints text)
  | _ => .error .malformed

end SourceNavigator.Markup
