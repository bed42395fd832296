import SourceNavigator.Markup.Defect

/-!
# Reading position in markup

A `Cursor` is the text that is left together with the line and the column where it starts. Line
breaks are the newline, U+0085, U+2028 and U+2029.
-/

namespace SourceNavigator.Markup

/-! ## Characters -/

def isBreak (c : Char) : Bool :=
  c == '\n' || c.toNat == 0x85 || c.toNat == 0x2028 || c.toNat == 0x2029

def endsLine : Option Char → Bool
  | none => true
  | some c => isBreak c

/-- A space, a line break or the end of the text. -/
def endsWord : Option Char → Bool
  | none => true
  | some c => c == ' ' || isBreak c

/-- A space, a tab, a line break or the end of the text. -/
def endsToken : Option Char → Bool
  | none => true
  | some c => c == ' ' || c == '\t' || isBreak c

/-- What a line break contributes to a text. -/
def breakText (c : Char) : Char := if c.toNat == 0x85 then '\n' else c

/-- A letter, a digit, a hyphen or an underscore, of ASCII. -/
def isNameChar (c : Char) : Bool :=
  ('0' ≤ c && c ≤ '9') || ('A' ≤ c && c ≤ 'Z') || ('a' ≤ c && c ≤ 'z') || c == '-' || c == '_'

/-! ## Moving on -/

/-- The text that is left and where it starts. -/
structure Cursor where
  rest : List Char
  index : Nat
  line : Nat
  column : Nat
  deriving Repr

namespace Cursor

def peek (c : Cursor) : Option Char := c.rest.head?

def peekSecond (c : Cursor) : Option Char := c.rest.tail.head?

def next (c : Cursor) : Cursor :=
  match c.rest with
  | [] => c
  | ch :: rest =>
    if isBreak ch then ⟨rest, c.index + 1, c.line + 1, 0⟩
    else if ch.toNat == 0xFEFF then ⟨rest, c.index + 1, c.line, c.column⟩
    else ⟨rest, c.index + 1, c.line, c.column + 1⟩

def skip : (n : Nat) → Cursor → Cursor
  | 0, c => c
  | n + 1, c => skip n c.next

/-- The longest run of characters that satisfy `p`, and the cursor behind it. -/
def takeRun (p : Char → Bool) (c : Cursor) : List Char × Cursor :=
  let run := c.rest.takeWhile p
  (run, skip run.length c)

def skipSpaces (c : Cursor) : Cursor := (c.takeRun (· == ' ')).2

/-- The cursor behind spaces and tabs. -/
def skipBlanks (c : Cursor) : Cursor := (c.takeRun fun ch => ch == ' ' || ch == '\t').2

/-- The cursor at the end of the line if a comment starts here. -/
def skipComment (c : Cursor) : Cursor :=
  if c.peek = some '#' then (c.takeRun (!isBreak ·)).2 else c

/-- The line break at the cursor, as text, and the cursor behind it. -/
def takeBreak? (c : Cursor) : Option (Char × Cursor) :=
  match c.peek with
  | some ch => if isBreak ch then some (breakText ch, c.next) else none
  | none => none

def atMark (mark : String) (c : Cursor) : Bool :=
  mark.toList.isPrefixOf c.rest && endsToken (c.rest.drop 3).head?

/-- Whether a mark of a document's start or end stands at the cursor. -/
def atDocumentMark (c : Cursor) : Bool := c.atMark "---" || c.atMark "..."

end Cursor

end SourceNavigator.Markup
