import SourceNavigator.Markup.Cursor

/-!
# Scalars

The four ways to write a text: plain, between single or double quotes, and as a block of lines that
are kept or folded. Each reader starts at the first character of the scalar and gives its text with
the cursor behind it. Between double quotes escapes can name halves of pairs, so texts between quotes
are given by their code points.
-/

namespace SourceNavigator.Markup

open Text (Points)

/-- What a reader gives: a value and the cursor behind it, or a defect. -/
abbrev Reading (α : Type) := Except Defect (α × Cursor)

/-! ## Quoted scalars -/

/-- The characters of a document mark may not stand at the start of a line inside quotes. Reads line
breaks and the blanks after each; a bound on their number comes first. -/
def readQuotedBreaks : (fuel : Nat) → Cursor → Reading (List Char)
  | 0, c => .ok ([], c)
  | fuel + 1, c =>
    if c.atDocumentMark then .error .malformed
    else
      let c := c.skipBlanks
      match c.takeBreak? with
      | none => .ok ([], c)
      | some (b, c) => (readQuotedBreaks fuel c).map fun (breaks, c) => (b :: breaks, c)

/-- Blanks inside quotes: kept within a line, folded around line breaks. -/
def readQuotedSpaces (c : Cursor) : Reading (List Char) :=
  let (blanks, c) := c.takeRun fun ch => ch == ' ' || ch == '\t'
  match c.peek with
  | none => .error .malformed
  | some _ =>
    match c.takeBreak? with
    | none => .ok (blanks, c)
    | some (b, c) =>
      (readQuotedBreaks (c.rest.length + 1) c).map fun (breaks, c) =>
        if b != '\n' then (b :: breaks, c)
        else if breaks.isEmpty then ([' '], c)
        else (breaks, c)

/-- The characters that one letter after a backslash stands for. -/
def escapes : List (Char × Char) :=
  [('0', '\x00'), ('a', '\x07'), ('b', '\x08'), ('t', '\t'), ('\t', '\t'), ('n', '\n'),
   ('v', '\x0b'), ('f', '\x0c'), ('r', '\r'), ('e', '\x1b'), (' ', ' '), ('"', '"'),
   ('\\', '\\'), ('/', '/'), ('N', '\u0085'), ('_', '\u00a0'), ('L', '\u2028'), ('P', '\u2029')]

/-- The number of digits after a letter that announces a code point. -/
def escapeWidth? (c : Char) : Option Nat :=
  if c = 'x' then some 2 else if c = 'u' then some 4 else if c = 'U' then some 8 else none

def hexDigit? (c : Char) : Option Nat :=
  if '0' ≤ c ∧ c ≤ '9' then some (c.toNat - 48)
  else if 'a' ≤ c ∧ c ≤ 'f' then some (c.toNat - 87)
  else if 'A' ≤ c ∧ c ≤ 'F' then some (c.toNat - 55)
  else none

/-- The number that `width` digits in base sixteen stand for. -/
def readHex? : (width : Nat) → (value : Nat) → List Char → Option Nat
  | 0, value, _ => some value
  | _ + 1, _, [] => none
  | width + 1, value, c :: cs => (hexDigit? c).bind fun d => readHex? width (value * 16 + d) cs

/-- A number as a code point, unless it is too large for one. -/
def codePoint (n : Nat) : Except Defect Nat :=
  if 0x7FFFFFFF < n then .error .characterHuge
  else if 0x10FFFF < n then .error .characterTooLarge
  else .ok n

/-- An escape; the cursor is behind the backslash. -/
def readQuotedEscape (c : Cursor) : Reading Points :=
  match c.peek with
  | none => .error .malformed
  | some ch =>
    match escapes.find? (·.1 == ch) with
    | some (_, image) => .ok ([image.toNat], c.next)
    | none =>
      match escapeWidth? ch with
      | some width =>
        match readHex? width 0 c.next.rest with
        | none => .error .malformed
        | some n => (codePoint n).map fun n => ([n], Cursor.skip width c.next)
      | none =>
        match c.takeBreak? with
        | some (_, c) =>
          (readQuotedBreaks (c.rest.length + 1) c).map fun (breaks, c) => (Points.ofChars breaks, c)
        | none => .error .malformed

/-- A character inside quotes that stands for itself everywhere. -/
def isQuotedPlain (ch : Char) : Bool :=
  !(ch == '\x27' || ch == '"' || ch == '\\' || ch == ' ' || ch == '\t' || isBreak ch)

/-- The text up to the next blank, line break or closing quote. -/
def readQuotedWord (double : Bool) : (fuel : Nat) → Cursor → Reading Points
  | 0, c => .ok ([], c)
  | fuel + 1, c =>
    let (run, c) := c.takeRun isQuotedPlain
    let run := Points.ofChars run
    let continueWith (piece : Points) (c : Cursor) : Reading Points :=
      (readQuotedWord double fuel c).map fun (text, c) => (run ++ piece ++ text, c)
    match c.peek with
    | none => .ok (run, c)
    | some ch =>
      if !double && ch == '\x27' && c.peekSecond == some '\x27' then
        continueWith [ch.toNat] c.next.next
      else if (double && ch == '\x27') || (!double && (ch == '"' || ch == '\\')) then
        continueWith [ch.toNat] c.next
      else if double && ch == '\\' then
        match readQuotedEscape c.next with
        | .error e => .error e
        | .ok (piece, c) => continueWith piece c
      else .ok (run, c)

def readQuotedRest (double : Bool) : (fuel : Nat) → Cursor → Reading Points
  | 0, _ => .error .malformed
  | fuel + 1, c =>
    match readQuotedWord double (c.rest.length + 1) c with
    | .error e => .error e
    | .ok (word, c) =>
      if c.peek == some (if double then '"' else '\x27') then .ok (word, c.next)
      else
        match readQuotedSpaces c with
        | .error e => .error e
        | .ok (blanks, c) =>
          (readQuotedRest double fuel c).map fun (text, c) =>
            (word ++ Points.ofChars blanks ++ text, c)

def readQuoted (double : Bool) (c : Cursor) : Reading Points :=
  readQuotedRest double (c.rest.length + 1) c.next

/-! ## Plain scalars -/

/-- A mark that ends plain text inside brackets. -/
def isFlowMark (ch : Char) : Bool := ch == ',' || ch == '[' || ch == ']' || ch == '\x7b' || ch == '\x7d'

/-- Whether a colon before `following` ends plain text. -/
def colonEnds (flow : Bool) (following : Option Char) : Bool :=
  endsToken following ||
    match following with
    | some ch => flow && isFlowMark ch
    | none => false

/-- The longest run of plain text. -/
def plainRun (flow : Bool) : List Char → List Char
  | [] => []
  | ch :: rest =>
    if endsToken (some ch) || (ch == ':' && colonEnds flow rest.head?) ||
        (flow && (isFlowMark ch || ch == '?')) then []
    else ch :: plainRun flow rest

/-- The line breaks after the first one behind plain text; nothing if a document mark follows one. -/
def readPlainBreaks : (fuel : Nat) → Cursor → Option (List Char) × Cursor
  | 0, c => (some [], c)
  | fuel + 1, c =>
    let c := c.skipSpaces
    match c.takeBreak? with
    | none => (some [], c)
    | some (b, c) =>
      if c.atDocumentMark then (none, c)
      else
        let (breaks, c) := readPlainBreaks fuel c
        (breaks.map (b :: ·), c)

/-- The blanks between two runs of plain text, the cursor behind them, and whether a line break was
among them. -/
def readPlainSpaces (c : Cursor) : List Char × Cursor × Bool :=
  let (blanks, c) := c.takeRun (· == ' ')
  match c.takeBreak? with
  | none => (blanks, c, false)
  | some (b, c) =>
    if c.atDocumentMark then ([], c, true)
    else
      match readPlainBreaks (c.rest.length + 1) c with
      | (none, c) => ([], c, true)
      | (some breaks, c) =>
        if b != '\n' then (b :: breaks, c, true)
        else if breaks.isEmpty then ([' '], c, true)
        else (breaks, c, true)

/-- A plain scalar: its text, the cursor behind it, and whether the line has been broken since its
last character. `indent` is the least column on which it may go on outside brackets. -/
def readPlain (flow : Bool) (indent : Int) :
    (fuel : Nat) → (spaces : List Char) → (broken : Bool) → Cursor → List Char × Cursor × Bool
  | 0, _, broken, c => ([], c, broken)
  | fuel + 1, spaces, broken, c =>
    if c.peek == some '#' then ([], c, broken)
    else
      let run := plainRun flow c.rest
      if run.isEmpty then ([], c, broken)
      else
        let (more, c, broken) := readPlainSpaces (Cursor.skip run.length c)
        if more.isEmpty || c.peek == some '#' || (!flow && (c.column : Int) < indent) then
          (spaces ++ run, c, broken)
        else
          let (text, c, broken) := readPlain flow indent fuel more broken c
          (spaces ++ run ++ text, c, broken)

/-! ## Block scalars -/

/-- What becomes of the line breaks at the end of a block. -/
inductive Chomping where
  | clip
  | strip
  | keep
  deriving DecidableEq, Repr

def chompingOf? (ch : Char) : Option Chomping :=
  if ch = '+' then some .keep else if ch = '-' then some .strip else none

/-- The indentation that a digit asks for; zero is none. -/
def indentDigit? (ch : Char) : Option (Except Defect Nat) :=
  if ch.isDigit then some (if ch = '0' then .error .malformed else .ok (ch.toNat - 48)) else none

/-- The sign of a block's chomping at the cursor, if there is one. -/
def readChomping (c : Cursor) : Option Chomping × Cursor :=
  match c.peek.bind chompingOf? with
  | some chomping => (some chomping, c.next)
  | none => (none, c)

def readIndentDigit (c : Cursor) : Reading (Option Nat) :=
  match c.peek.bind indentDigit? with
  | some digit => digit.map fun n => (some n, c.next)
  | none => .ok (none, c)

/-- The chomping and the indentation that follow the sign of a block, in either order. -/
def readBlockHeader (c : Cursor) : Reading (Chomping × Option Nat) :=
  let (first, c) := readChomping c
  match readIndentDigit c with
  | .error e => .error e
  | .ok (indent, c) =>
    let (second, c) := if first.isNone && indent.isSome then readChomping c else (none, c)
    let chomping := (first.or second).getD .clip
    if endsWord c.peek then .ok ((chomping, indent), c) else .error .malformed

/-- The rest of a line that may hold only blanks and a comment. -/
def readEmptyRest (c : Cursor) : Except Defect Cursor :=
  let c := c.skipSpaces.skipComment
  if endsLine c.peek then .ok ((c.takeBreak?.map (·.2)).getD c) else .error .malformed

/-- The line breaks before the first line of a block, the widest indentation among them, and the
cursor at the first character that is neither. -/
def readBlockIndent : (fuel : Nat) → (widest : Nat) → Cursor → List Char × Nat × Cursor
  | 0, widest, c => ([], widest, c)
  | fuel + 1, widest, c =>
    match c.takeBreak? with
    | some (b, c) =>
      let (breaks, widest, c) := readBlockIndent fuel widest c
      (b :: breaks, widest, c)
    | none =>
      if c.peek == some ' ' then readBlockIndent fuel (max widest c.next.column) c.next
      else ([], widest, c)

/-- The cursor behind spaces, but not behind column `indent`. -/
def skipIndent (indent : Nat) : (fuel : Nat) → Cursor → Cursor
  | 0, c => c
  | fuel + 1, c =>
    if c.column < indent && c.peek == some ' ' then skipIndent indent fuel c.next else c

/-- The line breaks between two lines of a block. -/
def readBlockBreaks (indent : Nat) : (fuel : Nat) → Cursor → List Char × Cursor
  | 0, c => ([], c)
  | fuel + 1, c =>
    let c := skipIndent indent c.rest.length c
    match c.takeBreak? with
    | none => ([], c)
    | some (b, c) =>
      let (breaks, c) := readBlockBreaks indent fuel c
      (b :: breaks, c)

/-- The lines of a block from a line at column `indent` on; `before` are the breaks before it. Gives
the text, the break after the last line, the further breaks, and the cursor. -/
def readBlockLines (folded : Bool) (indent : Nat) :
    (fuel : Nat) → (before : List Char) → Cursor → List Char × List Char × List Char × Cursor
  | 0, before, c => ([], [], before, c)
  | fuel + 1, before, c =>
    if c.column == indent && c.peek.isSome then
      let startsBlank := c.peek == some ' ' || c.peek == some '\t'
      let (run, c) := c.takeRun (!isBreak ·)
      let (lineBreak, c) :=
        match c.takeBreak? with
        | some (b, c) => ([b], c)
        | none => ([], c)
      let (breaks, c) := readBlockBreaks indent (c.rest.length + 1) c
      if c.column == indent && c.peek.isSome then
        let nextBlank := c.peek == some ' ' || c.peek == some '\t'
        let join :=
          if folded && lineBreak == ['\n'] && !startsBlank && !nextBlank then
            if breaks.isEmpty then [' '] else []
          else lineBreak
        let (text, last, after, c) := readBlockLines folded indent fuel breaks c
        (before ++ run ++ join ++ text, last, after, c)
      else (before ++ run, lineBreak, breaks, c)
    else ([], [], before, c)

/-- The text of a block whose header has been read. -/
def readBlockBody (folded : Bool) (parent : Int) (chomping : Chomping) (asked : Option Nat)
    (c : Cursor) : List Char × Cursor :=
  let least := (max 1 (parent + 1)).toNat
  let (breaks, indent, c) :=
    match asked with
    | none =>
      let (breaks, widest, c) := readBlockIndent (c.rest.length + 1) 0 c
      (breaks, max least widest, c)
    | some k =>
      let indent := least + k - 1
      let (breaks, c) := readBlockBreaks indent (c.rest.length + 1) c
      (breaks, indent, c)
  let (text, last, after, c) := readBlockLines folded indent (c.rest.length + 1) breaks c
  match chomping with
  | .strip => (text, c)
  | .clip => (text ++ last, c)
  | .keep => (text ++ last ++ after, c)

/-- A block scalar; `parent` is the indentation of the block around it. -/
def readBlock (folded : Bool) (parent : Int) (c : Cursor) : Reading (List Char) :=
  match readBlockHeader c.next with
  | .error e => .error e
  | .ok ((chomping, asked), c) =>
    (readEmptyRest c).map fun c => readBlockBody folded parent chomping asked c

end SourceNavigator.Markup
