import SourceNavigator.Proofs.Json.Spelling

set_option autoImplicit false

/-! # JSON texts with all that is left to their writer

The same JSON value can be written in many ways. A `Layout` is a value together with the choices that
were made in writing it: where there is white space and which, whether a character of a string stands
for itself or is escaped by a letter or by one or two UTF-16 units, whether digits in base sixteen are
small or capital, and how a number is put down. It has a text (`Layout.text`) and stands for a datum
(`Layout.datum`). Every text of the JSON grammar is the text of a layout.
-/

namespace SourceNavigator.Json

open Data (Datum)
open Number (Binary64)

/-! ## White space -/

/-- A character of white space. -/
inductive White where
  | blank
  | tab
  | newline
  | carriageReturn
  deriving DecidableEq, Repr

/-- The character itself. -/
def White.char : White → Char
  | .blank => ' '
  | .tab => '\t'
  | .newline => '\n'
  | .carriageReturn => '\r'

/-- White space between two tokens. -/
abbrev Gap := List White

/-- The characters of a gap. -/
def Gap.text (g : Gap) : List Char := g.map White.char

/-! ## Strings -/

/-- A digit in base sixteen. -/
structure HexDigit where
  value : Fin 16
  isCapital : Bool
  deriving DecidableEq, Repr

/-- The character of a digit. -/
def HexDigit.char (d : HexDigit) : Char :=
  if d.isCapital then (hexDigit d.value).toUpper else hexDigit d.value

/-- The characters that can stand for themselves. -/
def isPlain (c : Char) : Bool := c ≠ '"' && c ≠ '\\' && decide (0x20 ≤ c.toNat)

/-- The characters that can be escaped by a letter, and their letters. -/
def escapes : List (Char × Char) := ('/', '/') :: letters

/-- A piece of a string: a character that stands for itself, a character that is escaped by a letter,
or a UTF-16 unit. -/
inductive Glyph where
  | plain (c : Char) (h : isPlain c = true)
  | letter (entry : Char × Char) (h : entry ∈ escapes)
  | unit (a b c d : HexDigit)

/-- The number that four digits stand for. -/
def unitValue (a b c d : HexDigit) : Nat := ((a.value * 16 + b.value) * 16 + c.value) * 16 + d.value

/-- The characters of a piece. -/
def Glyph.text : Glyph → List Char
  | .plain c _ => [c]
  | .letter entry _ => ['\\', entry.2]
  | .unit a b c d => ['\\', 'u', a.char, b.char, c.char, d.char]

/-- The characters of pieces. -/
def glyphsText (gs : List Glyph) : List Char := gs.flatMap Glyph.text

/-- The code points that pieces stand for. Two halves of a pair that follow each other are the code
point of the pair. -/
def pointsOf : List Glyph → Text.Points
  | [] => []
  | .plain c _ :: rest => c.toNat :: pointsOf rest
  | .letter entry _ :: rest => entry.1.toNat :: pointsOf rest
  | .unit a b c d :: .unit a' b' c' d' :: rest =>
    if Text.isHighHalf (unitValue a b c d) && Text.isLowHalf (unitValue a' b' c' d') then
      Text.pairPoint (unitValue a b c d) (unitValue a' b' c' d') :: pointsOf rest
    else unitValue a b c d :: pointsOf (.unit a' b' c' d' :: rest)
  | .unit a b c d :: rest => unitValue a b c d :: pointsOf rest

/-! ## Numbers -/

/-- The characters of decimal digits. -/
def digitsText (ds : List (Fin 10)) : List Char := ds.map fun d : Fin 10 => Nat.digitChar d

/-- An exponent. A sign is `true` for minus. -/
structure Exponent where
  isCapital : Bool
  sign : Option Bool
  first : Fin 10
  more : List (Fin 10)
  deriving DecidableEq, Repr

/-- The letter of an exponent. -/
def Exponent.mark (e : Exponent) : Char := if e.isCapital then 'E' else 'e'

/-- The characters of a sign. -/
def signText : Option Bool → List Char
  | none => []
  | some true => ['-']
  | some false => ['+']

/-- The characters of an exponent. -/
def Exponent.text (e : Exponent) : List Char :=
  e.mark :: (signText e.sign ++ digitsText (e.first :: e.more))

/-- The number of an exponent. -/
def Exponent.value (e : Exponent) : Int :=
  Text.withSign (e.sign == some true) (digitsValue (digitsText (e.first :: e.more)))

/-- A number as it is put down. Without a fraction and an exponent it is a whole one. -/
structure Numeral where
  isNegative : Bool
  whole : Nat
  fraction : List (Fin 10)
  exponent : Option Exponent
  deriving DecidableEq, Repr

namespace Numeral

/-- A natural number in decimal. -/
def ofNat (n : Nat) : Numeral := ⟨false, n, [], none⟩

/-- The point with the digits behind it. -/
def fractionText (n : Numeral) : List Char :=
  if n.fraction.isEmpty then [] else '.' :: digitsText n.fraction

/-- The exponent, if there is one. -/
def exponentText (n : Numeral) : List Char :=
  match n.exponent with
  | none => []
  | some e => e.text

/-- The characters behind the sign. -/
def unsignedText (n : Numeral) : List Char :=
  Nat.toDigits 10 n.whole ++ (n.fractionText ++ n.exponentText)

/-- The characters of a number. -/
def text (n : Numeral) : List Char := if n.isNegative then '-' :: n.unsignedText else n.unsignedText

/-- The digits without the point, as one number. -/
def digits (n : Numeral) : Nat := digitsValue (Nat.toDigits 10 n.whole ++ digitsText n.fraction)

/-- The datum of a number. -/
def datum (n : Numeral) : Datum :=
  match n.exponent with
  | some e => .float (Binary64.ofDecimal n.isNegative n.digits (e.value - n.fraction.length))
  | none =>
    if n.fraction.isEmpty then .int (Text.withSign n.isNegative n.whole)
    else .float (Binary64.ofDecimal n.isNegative n.digits (-n.fraction.length))

/-- Whether a number can be read: a whole one must not have too many digits. -/
def isReadable (n : Numeral) : Bool :=
  n.exponent.isSome || !n.fraction.isEmpty || decide ((Nat.toDigits 10 n.whole).length ≤ Text.maxDigits)

end Numeral

/-! ## Values -/

/-- The white space around an item of a list. -/
structure Slot where
  before : Gap
  after : Gap
  deriving DecidableEq, Repr

/-- The name of a member of an object, with the white space around it, its colon and its value. -/
structure Label where
  before : Gap
  name : List Glyph
  beforeColon : Gap
  afterColon : Gap
  after : Gap

/-- The characters of a string. -/
def stringText (gs : List Glyph) : List Char := '"' :: (glyphsText gs ++ ['"'])

/-- The characters of a member up to its value. -/
def Label.text (l : Label) : List Char :=
  l.before.text ++ (stringText l.name ++ (l.beforeColon.text ++ ':' :: l.afterColon.text))

/-- A value as it is written. Brackets without anything between them still hold white space. -/
inductive Layout where
  | null
  | bool (b : Bool)
  | number (n : Numeral)
  | string (gs : List Glyph)
  | list (inner : Gap) (items : List (Slot × Layout))
  | object (inner : Gap) (members : List (Label × Layout))

namespace Layout

mutual

/-- The characters of a value. -/
def text : Layout → List Char
  | .null => "null".toList
  | .bool true => "true".toList
  | .bool false => "false".toList
  | .number n => n.text
  | .string gs => stringText gs
  | .list inner items => '[' :: (inner.text ++ (itemsText items ++ [']']))
  | .object inner members => '\x7b' :: (inner.text ++ (membersText members ++ ['\x7d']))

/-- Items with commas between them. -/
def itemsText : List (Slot × Layout) → List Char
  | [] => []
  | [(slot, v)] => slot.before.text ++ (v.text ++ slot.after.text)
  | (slot, v) :: rest => slot.before.text ++ (v.text ++ (slot.after.text ++ ',' :: itemsText rest))

/-- Members with commas between them. -/
def membersText : List (Label × Layout) → List Char
  | [] => []
  | [(label, v)] => label.text ++ (v.text ++ label.after.text)
  | (label, v) :: rest => label.text ++ (v.text ++ (label.after.text ++ ',' :: membersText rest))

end

mutual

/-- The datum that a value stands for. -/
def datum : Layout → Datum
  | .null => .null
  | .bool b => .bool b
  | .number n => n.datum
  | .string gs => Datum.ofPoints (pointsOf gs)
  | .list _ items => .list (data items)
  | .object _ members => Datum.ofEntries (entries members)

/-- The data of items. -/
def data : List (Slot × Layout) → List Datum
  | [] => []
  | (_, v) :: rest => v.datum :: data rest

/-- The entries of members. -/
def entries : List (Label × Layout) → List (Datum × Datum)
  | [] => []
  | (label, v) :: rest => (Datum.ofPoints (pointsOf label.name), v.datum) :: entries rest

end

mutual

/-- Whether a value can be read inside at most `room` more brackets: no whole number has too many
digits and the nesting is not too deep. -/
def isReadable (room : Nat) : Layout → Bool
  | .null => true
  | .bool _ => true
  | .number n => n.isReadable
  | .string _ => true
  | .list _ items => room != 0 && areReadable (room - 1) items
  | .object _ members => room != 0 && areReadableMembers (room - 1) members

/-- Whether all items can be read. -/
def areReadable (room : Nat) : List (Slot × Layout) → Bool
  | [] => true
  | (_, v) :: rest => v.isReadable room && areReadable room rest

/-- Whether the values of all members can be read. -/
def areReadableMembers (room : Nat) : List (Label × Layout) → Bool
  | [] => true
  | (_, v) :: rest => v.isReadable room && areReadableMembers room rest

end

theorem itemsText_cons (slot : Slot) (v : Layout) (next : Slot × Layout)
    (rest : List (Slot × Layout)) : itemsText ((slot, v) :: next :: rest)
      = slot.before.text ++ (v.text ++ (slot.after.text ++ ',' :: itemsText (next :: rest))) := by
  rw [itemsText]
  exact List.cons_ne_nil _ _

theorem membersText_cons (label : Label) (v : Layout) (next : Label × Layout)
    (rest : List (Label × Layout)) : membersText ((label, v) :: next :: rest)
      = label.text ++ (v.text ++ (label.after.text ++ ',' :: membersText (next :: rest))) := by
  rw [membersText]
  exact List.cons_ne_nil _ _

end Layout

end SourceNavigator.Json
