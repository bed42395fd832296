import SourceNavigator.Text.Numeral

/-!
# Kinds of nodes

What a node is to be read as. A tag says it outright; a plain scalar without a tag says it by its
form, which `Kind.ofPlain` recognizes: words for nothing and for truth, whole numbers in four bases,
numbers with a point, dates, and the two signs that mean something as keys.
-/

namespace SourceNavigator.Markup

/-- What a node is to be read as. -/
inductive Kind where
  | null
  | truth
  | integer
  | float
  | octets
  | timestamp
  | orderedMap
  | pairs
  | set
  | text
  | list
  | map
  | merge
  | default
  | unknown
  deriving DecidableEq, Repr, Inhabited

/-- What the tags of the standard kinds begin with. -/
def standardTag : String := "tag:yaml.org,2002:"

/-- The kinds that have a standard tag, by the end of the tag. -/
def standardKinds : List (String × Kind) :=
  [("null", .null), ("bool", .truth), ("int", .integer), ("float", .float), ("binary", .octets),
   ("timestamp", .timestamp), ("omap", .orderedMap), ("pairs", .pairs), ("set", .set),
   ("str", .text), ("seq", .list), ("map", .map), ("merge", .merge), ("value", .default)]

/-- The kind that a tag names. -/
def Kind.ofTag (tag : String) : Kind :=
  match standardKinds.find? fun entry => standardTag ++ entry.1 == tag with
  | some (_, kind) => kind
  | none => .unknown

/-! ## Forms of plain scalars

Each recognizer takes characters off the front of a text and gives what is left, or nothing. -/

def isDigitOrBar (c : Char) : Bool := c.isDigit || c == '_'

def dropSign : List Char → List Char
  | '+' :: cs => cs
  | '-' :: cs => cs
  | cs => cs

/-- At least one character of a class, and nothing else. -/
def allOf (p : Char → Bool) (cs : List Char) : Bool := !cs.isEmpty && cs.all p

/-- What follows a digit and any number of digits and underscores. -/
def afterDigits : List Char → Option (List Char)
  | c :: cs => if c.isDigit then some (cs.dropWhile isDigitOrBar) else none
  | [] => none

/-- What follows groups of a colon and a number below sixty; there may be none. -/
def afterSixties : List Char → List Char
  | ':' :: a :: b :: cs =>
    if a.isDigit && b.isDigit && a.toNat < 54 then afterSixties cs
    else if a.isDigit then afterSixties (b :: cs)
    else ':' :: a :: b :: cs
  | [':', a] => if a.isDigit then [] else [':', a]
  | cs => cs
  termination_by cs => cs.length

def truthWords : List (String × Bool) :=
  [("yes", true), ("no", false), ("true", true), ("false", false), ("on", true), ("off", false)]

/-- The three ways to write a word: in lower case, with a capital, and in upper case. -/
def spellings (word : String) : List (List Char) :=
  let cs := word.toList
  [cs, (cs.take 1).map Char.toUpper ++ cs.drop 1, cs.map Char.toUpper]

def looksTruth (cs : List Char) : Bool := truthWords.any fun (word, _) => (spellings word).contains cs

def looksNull (cs : List Char) : Bool := cs == [] || cs == ['~'] || (spellings "null").contains cs

def looksExponent : List Char → Bool
  | mark :: sign :: digits =>
    (mark == 'e' || mark == 'E') && (sign == '+' || sign == '-') && allOf Char.isDigit digits
  | _ => false

/-- Nothing, or an exponent with a sign. -/
def looksTail (cs : List Char) : Bool := cs.isEmpty || looksExponent cs

/-- A number with a point: digits on at least one side, or minutes and hours before it; or a word
for infinity or for no number. -/
def looksFloat (cs : List Char) : Bool :=
  let body := dropSign cs
  let decimal :=
    match afterDigits body with
    | some ('.' :: rest) => looksTail (rest.dropWhile isDigitOrBar)
    | some rest =>
      match afterSixties rest with
      | '.' :: fraction => rest.head? == some ':' && fraction.all isDigitOrBar
      | _ => false
    | none => false
  let fraction :=
    match cs with
    | '.' :: rest =>
      match afterDigits rest with
      | some tail => looksTail tail
      | none => false
    | _ => false
  let infinite :=
    match body with
    | '.' :: word => (spellings "inf").contains word
    | _ => false
  let noNumber := cs == ".nan".toList || cs == ".NaN".toList || cs == ".NAN".toList
  decimal || fraction || infinite || noNumber

def isHexDigit (c : Char) : Bool :=
  c.isDigit || ('a' ≤ c && c ≤ 'f') || ('A' ≤ c && c ≤ 'F')

/-- A whole number: in base two, eight, ten, sixteen, or in hours and minutes. -/
def looksInteger (cs : List Char) : Bool :=
  match dropSign cs with
  | '0' :: rest =>
    rest.isEmpty || allOf (fun c => ('0' ≤ c && c ≤ '7') || c == '_') rest ||
      match rest with
      | 'b' :: digits => allOf (fun c => c == '0' || c == '1' || c == '_') digits
      | 'x' :: digits => allOf (fun c => isHexDigit c || c == '_') digits
      | _ => false
  | cs =>
    match afterDigits cs with
    | some rest => rest.isEmpty || (afterSixties rest).isEmpty
    | none => false

/-! ## Dates -/

/-- Between `least` and `most` digits at the front, and what follows them. -/
def takeDigits (least most : Nat) (cs : List Char) : Option (List Char × List Char) :=
  let digits := (cs.take most).takeWhile Char.isDigit
  if digits.length < least then none else some (digits, cs.drop digits.length)

def afterChar (ch : Char) : List Char → Option (List Char)
  | c :: cs => if c == ch then some cs else none
  | [] => none

/-- The offset from universal time at the end of a date: nothing, `Z`, or a sign with hours and
minutes. -/
inductive Zone where
  | none
  | universal
  | offset (negative : Bool) (hours minutes : Nat)
  deriving DecidableEq, Repr

/-- A time of day with a zone. -/
structure Clock where
  hour : Nat
  minute : Nat
  second : Nat
  fraction : List Char
  zone : Zone
  deriving DecidableEq, Repr

/-- A date as written, with a time of day if there is one. -/
structure Timestamp where
  year : Nat
  month : Nat
  day : Nat
  shortForm : Bool
  clock : Option Clock
  deriving DecidableEq, Repr

/-! ## Reading a date -/

def numberOf (digits : List Char) : Nat := digits.foldl (fun n d => 10 * n + (d.toNat - 48)) 0

/-- A zone that fills the rest of a text. -/
def readZone? (cs : List Char) : Option Zone :=
  match cs.dropWhile fun c => c == ' ' || c == '\t' with
  | [] => if cs.isEmpty then some .none else none
  | ['Z'] => some .universal
  | sign :: rest => do
    if sign != '+' && sign != '-' then none
    else
      let (hours, rest) ← takeDigits 1 2 rest
      match rest with
      | [] => some (.offset (sign == '-') (numberOf hours) 0)
      | _ =>
        let (minutes, rest) ← (afterChar ':' rest).bind (takeDigits 2 2)
        if rest.isEmpty then some (.offset (sign == '-') (numberOf hours) (numberOf minutes)) else none

/-- A time of day that fills the rest of a text. -/
def readClock? (cs : List Char) : Option Clock := do
  let cs ←
    match cs with
    | 'T' :: rest => some rest
    | 't' :: rest => some rest
    | ' ' :: rest => some (rest.dropWhile fun c => c == ' ' || c == '\t')
    | '\t' :: rest => some (rest.dropWhile fun c => c == ' ' || c == '\t')
    | _ => none
  let (hour, cs) ← takeDigits 1 2 cs
  let (minute, cs) ← (afterChar ':' cs).bind (takeDigits 2 2)
  let (second, cs) ← (afterChar ':' cs).bind (takeDigits 2 2)
  let (fraction, cs) :=
    match cs with
    | '.' :: rest => (rest.takeWhile Char.isDigit, rest.dropWhile Char.isDigit)
    | _ => ([], cs)
  let zone ← readZone? cs
  return ⟨numberOf hour, numberOf minute, numberOf second, fraction, zone⟩

/-- A date, with a time of day if one follows. -/
def readTimestamp? (cs : List Char) : Option Timestamp := do
  let (year, cs) ← takeDigits 4 4 cs
  let (month, cs) ← (afterChar '-' cs).bind (takeDigits 1 2)
  let (day, cs) ← (afterChar '-' cs).bind (takeDigits 1 2)
  let shortForm := month.length < 2 || day.length < 2
  match cs with
  | [] => return ⟨numberOf year, numberOf month, numberOf day, shortForm, none⟩
  | _ =>
    let clock ← readClock? cs
    return ⟨numberOf year, numberOf month, numberOf day, shortForm, some clock⟩

/-- A date that is recognized without a tag. A date alone needs two digits for month and day. -/
def looksTimestamp (cs : List Char) : Bool :=
  match readTimestamp? cs with
  | some t => t.clock.isSome || !t.shortForm
  | none => false

/-! ## The kind of a plain scalar -/

def dropNewline (cs : List Char) : List Char :=
  if cs.getLast? == some '\n' then cs.dropLast else cs

/-- A sign that begins a tag, a name or an alias, alone. -/
def looksSign (cs : List Char) : Bool := cs == ['!'] || cs == ['&'] || cs == ['*']

/-- The kind that a plain scalar shows by its form. A newline at its end does not count. -/
def Kind.ofPlain (text : List Char) : Kind :=
  let cs := dropNewline text
  if text.isEmpty then .null
  else if looksTruth cs then .truth
  else if looksFloat cs then .float
  else if looksInteger cs then .integer
  else if cs == ['<', '<'] then .merge
  else if !cs.isEmpty && looksNull cs then .null
  else if looksTimestamp cs then .timestamp
  else if cs == ['='] then .default
  else if looksSign cs then .unknown
  else .text

end SourceNavigator.Markup
