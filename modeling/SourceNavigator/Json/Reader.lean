import SourceNavigator.Data.Datum

/-!
# Reading JSON

A reader of JSON over lists of characters. Each reader takes the text that is left and gives a
datum with the text after it. A syntax error holds the text from the place of the error on, so that
`faultMessage` can tell the line, the column and the offset. Beside strict JSON the numbers `NaN`,
`Infinity` and `-Infinity` are read. Main definition: `parse`.
-/

namespace SourceNavigator.Json

open Data (Datum)
open Number (Binary64)

/-! ## Errors -/

/-- What is wrong at a place of the text. -/
inductive Reason where
  | byteOrderMark
  | expectingValue
  | expectingName
  | expectingColon
  | expectingComma
  | unterminatedString
  | controlCharacter
  | invalidEscape
  | invalidUnicodeEscape
  | extraData
  deriving DecidableEq, Repr

/-- What brackets hold. -/
inductive Form where
  | array
  | object
  deriving DecidableEq, Repr

def Form.name : Form → String
  | .array => "array"
  | .object => "object"

/-- Why reading stops: an error at the start of the text `rest`, a whole number with too many digits,
or brackets within too many others. -/
inductive Stop where
  | fault (reason : Reason) (rest : List Char)
  | tooManyDigits (count : Nat)
  | tooDeep (form : Form)
  deriving DecidableEq, Repr

def Reason.message : Reason → String
  | .byteOrderMark => "Unexpected UTF-8 BOM (decode using utf-8-sig)"
  | .expectingValue => "Expecting value"
  | .expectingName => "Expecting property name enclosed in double quotes"
  | .expectingColon => "Expecting ':' delimiter"
  | .expectingComma => "Expecting ',' delimiter"
  | .unterminatedString => "Unterminated string starting at"
  | .controlCharacter => "Invalid control character at"
  | .invalidEscape => "Invalid \\escape"
  | .invalidUnicodeEscape => "Invalid \\uXXXX escape"
  | .extraData => "Extra data"

/-- A place in a text: its line and column, counted from one, and its offset. -/
def placeText (before : List Char) : String :=
  let line := before.count '\n' + 1
  let column := (before.reverse.takeWhile (· != '\n')).length + 1
  "line " ++ toString line ++ " column " ++ toString column ++ " (char " ++
    toString before.length ++ ")"

/-- The wording of an error in the text `whole`. -/
def faultMessage (whole : List Char) (reason : Reason) (rest : List Char) : String :=
  reason.message ++ ": " ++ placeText (whole.take (whole.length - rest.length))

/-! ## White space -/

def isWhite (c : Char) : Bool := c = ' ' || c = '\t' || c = '\n' || c = '\r'

def skipWhite (cs : List Char) : List Char := cs.dropWhile isWhite

/-! ## Strings -/

def hexValue? (c : Char) : Option Nat :=
  if '0' ≤ c ∧ c ≤ '9' then some (c.toNat - 48)
  else if 'a' ≤ c ∧ c ≤ 'f' then some (c.toNat - 87)
  else if 'A' ≤ c ∧ c ≤ 'F' then some (c.toNat - 55)
  else none

/-- The number that four digits in base sixteen stand for. -/
def hexFour? (a b c d : Char) : Option Nat := do
  let a ← hexValue? a
  let b ← hexValue? b
  let c ← hexValue? c
  let d ← hexValue? d
  return ((a * 16 + b) * 16 + c) * 16 + d

/-- The rest of an escape whose code unit is the first half of a pair. The second half is read if it
follows as an escape and the text goes on after it. -/
def readLowHalf (high : Nat) (cs : List Char) : Except Stop (Nat × List Char) :=
  match cs with
  | '\\' :: 'u' :: a :: b :: c :: d :: e :: rest =>
    match hexFour? a b c d with
    | none => .error (.fault .invalidUnicodeEscape ('u' :: a :: b :: c :: d :: e :: rest))
    | some low =>
      if Text.isLowHalf low then .ok (Text.pairPoint high low, e :: rest) else .ok (high, cs)
  | _ => .ok (high, cs)

/-- The character of an escape of one letter. -/
def simpleEscape? (c : Char) : Option Char :=
  if c = '"' ∨ c = '\\' ∨ c = '/' then some c
  else if c = 'b' then some '\x08'
  else if c = 'f' then some '\x0c'
  else if c = 'n' then some '\n'
  else if c = 'r' then some '\r'
  else if c = 't' then some '\t'
  else none

/-- The four digits after `\u` and the code point that they stand for. The text must go on after
them. -/
def readUnit (cs : List Char) : Except Stop (Nat × List Char) :=
  match cs with
  | a :: b :: c :: d :: e :: rest =>
    match hexFour? a b c d with
    | none => .error (.fault .invalidUnicodeEscape ('u' :: cs))
    | some n => if Text.isHighHalf n then readLowHalf n (e :: rest) else .ok (n, e :: rest)
  | _ => .error (.fault .invalidUnicodeEscape ('u' :: cs))

/-- The code point of an escape; `cs` follows the backslash, and the string begins at `start`. -/
def readEscape (start cs : List Char) : Except Stop (Nat × List Char) :=
  match cs with
  | [] => .error (.fault .unterminatedString start)
  | c :: rest =>
    if c = 'u' then readUnit rest
    else
      match simpleEscape? c with
      | some image => .ok (image.toNat, rest)
      | none => .error (.fault .invalidEscape ('\\' :: cs))

theorem readLowHalf_length {high : Nat} {cs : List Char} {n : Nat} {rest : List Char}
    (h : readLowHalf high cs = .ok (n, rest)) : rest.length ≤ cs.length := by
  unfold readLowHalf at h
  split at h
  · split at h
    · cases h
    · split at h <;> simp only [Except.ok.injEq, Prod.mk.injEq] at h <;> obtain ⟨_, rfl⟩ := h <;>
        simp only [List.length_cons] <;> omega
  · cases h; exact Nat.le_refl _

theorem readUnit_length {cs : List Char} {n : Nat} {rest : List Char}
    (h : readUnit cs = .ok (n, rest)) : rest.length < cs.length := by
  unfold readUnit at h
  split at h
  · split at h
    · cases h
    · split at h
      · have := readLowHalf_length h
        simp only [List.length_cons] at this ⊢
        omega
      · cases h; simp only [List.length_cons]; omega
  · cases h

theorem readEscape_length {start cs : List Char} {n : Nat} {rest : List Char}
    (h : readEscape start cs = .ok (n, rest)) : rest.length < cs.length := by
  unfold readEscape at h
  split at h
  · cases h
  · split at h
    · have := readUnit_length h
      simp only [List.length_cons]; omega
    · split at h
      · cases h; simp only [List.length_cons]; omega
      · cases h

/-- The text of a string up to its closing quote, and what follows; `start` is the text from the
opening quote on. -/
def readString (start : List Char) : List Char → Except Stop (Text.Points × List Char)
  | [] => .error (.fault .unterminatedString start)
  | c :: cs =>
    if c = '"' then .ok ([], cs)
    else if c = '\\' then
      match _h : readEscape start cs with
      | .error stop => .error stop
      | .ok (n, rest) => (readString start rest).map fun (text, after) => (n :: text, after)
    else if c.toNat < 0x20 then .error (.fault .controlCharacter (c :: cs))
    else (readString start cs).map fun (text, after) => (c.toNat :: text, after)
  termination_by cs => cs.length
  decreasing_by
    · have := readEscape_length _h
      simp only [List.length_cons]; omega
    · simp only [List.length_cons]; omega

/-! ## Numbers -/

def spanDigits (cs : List Char) : List Char × List Char :=
  (cs.takeWhile Char.isDigit, cs.dropWhile Char.isDigit)

def digitsValue (cs : List Char) : Nat := cs.foldl (fun n c => 10 * n + (c.toNat - 48)) 0

/-- The digits before the point: a zero alone, or digits that start with another one. -/
def readWhole : List Char → Option (List Char × List Char)
  | [] => none
  | c :: cs =>
    if c = '0' then some (['0'], cs)
    else if c.isDigit then some (c :: cs.takeWhile Char.isDigit, cs.dropWhile Char.isDigit)
    else none

/-- The digits of a fraction, if a point with a digit follows. -/
def readFraction : List Char → Option (List Char × List Char)
  | '.' :: c :: cs =>
    if c.isDigit then some (c :: cs.takeWhile Char.isDigit, cs.dropWhile Char.isDigit) else none
  | _ => none

/-- The exponent, if a letter `e` with a whole number follows. -/
def readExponent : List Char → Option (Int × List Char)
  | [] => none
  | mark :: cs =>
    if mark = 'e' ∨ mark = 'E' then
      let (negative, cs) := Text.readSign cs
      let (digits, rest) := spanDigits cs
      if digits.isEmpty then none else some (Text.withSign negative (digitsValue digits), rest)
    else none

/-- A number that starts at `cs`; the sign has been read. -/
def readNumber (negative : Bool) (start cs : List Char) : Except Stop (Datum × List Char) :=
  match readWhole cs with
  | none => .error (.fault .expectingValue start)
  | some (whole, afterWhole) =>
    let (fraction, afterFraction) := (readFraction afterWhole).getD ([], afterWhole)
    match readExponent afterFraction with
    | some (exponent, rest) =>
      let digits := digitsValue (whole ++ fraction)
      .ok (.float (Binary64.ofDecimal negative digits (exponent - fraction.length)), rest)
    | none =>
      if !fraction.isEmpty then
        let digits := digitsValue (whole ++ fraction)
        .ok (.float (Binary64.ofDecimal negative digits (-fraction.length)), afterFraction)
      else if Text.maxDigits < whole.length then .error (.tooManyDigits whole.length)
      else .ok (.int (Text.withSign negative (digitsValue whole)), afterFraction)

/-! ## Values -/

/-- The values that are written as words. -/
def words : List (String × Datum) :=
  [("null", .null), ("true", .bool true), ("false", .bool false), ("NaN", .float .nan),
   ("Infinity", .float (.infinite false)), ("-Infinity", .float (.infinite true))]

def readWord (cs : List Char) : Option (Datum × List Char) :=
  words.findSome? fun (word, d) =>
    if word.toList.isPrefixOf cs then some (d, cs.drop word.length) else none

def readScalar (cs : List Char) : Except Stop (Datum × List Char) :=
  match readWord cs with
  | some result => .ok result
  | none =>
    match cs with
    | '-' :: rest => readNumber true cs rest
    | _ => readNumber false cs cs

/-- The most brackets within brackets. -/
def maxDepth : Nat := 987

mutual

/-- A value inside at most `room` more brackets. The first argument bounds the nesting and the number
of members. -/
def readValue : Nat → (room : Nat) → List Char → Except Stop (Datum × List Char)
  | 0, _, cs => .error (.fault .expectingValue cs)
  | fuel + 1, room, cs =>
    match cs with
    | '"' :: rest => (readString cs rest).map fun (text, after) => (Datum.ofPoints text, after)
    | '[' :: rest =>
      if room = 0 then .error (.tooDeep .array)
      else
        match skipWhite rest with
        | ']' :: after => .ok (.list [], after)
        | inner =>
          (readItems fuel (room - 1) inner).map fun (items, after) => (.list items, after)
    | '\x7b' :: rest =>
      if room = 0 then .error (.tooDeep .object)
      else
        match skipWhite rest with
        | '\x7d' :: after => .ok (.map [], after)
        | inner =>
          (readMembers fuel (room - 1) inner).map fun (entries, after) =>
            (Datum.ofEntries entries, after)
    | _ => readScalar cs

/-- The items of a list up to its closing bracket. -/
def readItems : Nat → (room : Nat) → List Char → Except Stop (List Datum × List Char)
  | 0, _, cs => .error (.fault .expectingValue cs)
  | fuel + 1, room, cs =>
    match readValue fuel room cs with
    | .error stop => .error stop
    | .ok (item, rest) =>
      match skipWhite rest with
      | ']' :: after => .ok ([item], after)
      | ',' :: after =>
        (readItems fuel room (skipWhite after)).map fun (items, after) => (item :: items, after)
      | place => .error (.fault .expectingComma place)

/-- The members of an object up to its closing brace. -/
def readMembers : Nat → (room : Nat) → List Char → Except Stop (List (Datum × Datum) × List Char)
  | 0, _, cs => .error (.fault .expectingName cs)
  | fuel + 1, room, cs =>
    match cs with
    | '"' :: inner =>
      match readString cs inner with
      | .error stop => .error stop
      | .ok (name, rest) =>
        match skipWhite rest with
        | ':' :: after =>
          match readValue fuel room (skipWhite after) with
          | .error stop => .error stop
          | .ok (value, rest) =>
            match skipWhite rest with
            | '\x7d' :: after => .ok ([(Datum.ofPoints name, value)], after)
            | ',' :: after =>
              (readMembers fuel room (skipWhite after)).map fun (entries, after) =>
                ((Datum.ofPoints name, value) :: entries, after)
            | place => .error (.fault .expectingComma place)
        | place => .error (.fault .expectingColon place)
    | _ => .error (.fault .expectingName cs)

end

/-- The datum that a whole text stands for. A value takes two steps for each of its characters at the
most. -/
def parse (cs : List Char) : Except Stop Datum :=
  match cs with
  | '\uFEFF' :: _ => .error (.fault .byteOrderMark cs)
  | _ =>
    match readValue (2 * cs.length + 2) maxDepth (skipWhite cs) with
    | .error stop => .error stop
    | .ok (d, rest) =>
      match skipWhite rest with
      | [] => .ok d
      | place => .error (.fault .extraData place)

end SourceNavigator.Json
