import SourceNavigator.Markup.TagText

/-!
# The tokens of a text

Tokens are read one after the other, and with them the structure that indentation gives. A key of a
map is recognized only by the colon after it: every token that may begin a key is remembered until
the colon comes or can come no more, and the tokens that open the key are put before it then. Main
definition: `tokensOf`.
-/

namespace SourceNavigator.Markup

open Text (Points)

/-- A token that may begin a key. `required` says that nothing else can stand there. -/
structure PossibleKey where
  position : Nat
  required : Bool
  index : Nat
  line : Nat
  column : Nat
  deriving Repr

/-- The state of reading. `tokens` are those read so far, the last one first; `keys` has at most one
possible key for each level of brackets. -/
structure Scan where
  cursor : Cursor
  flow : Nat
  indent : Int
  indents : List Int
  keyAllowed : Bool
  keys : List (Nat × PossibleKey)
  tokens : List Token
  count : Nat
  deriving Repr

namespace Scan

def start (text : List Char) : Scan := ⟨⟨text, 0, 0, 0⟩, 0, -1, [], true, [], [], 0⟩

def emit (s : Scan) (t : Token) : Scan := { s with tokens := t :: s.tokens, count := s.count + 1 }

/-- The state with one more token before the one that was read at `position`. -/
def insertAt (s : Scan) (position : Nat) (t : Token) : Scan :=
  let after := s.count - position
  { s with tokens := s.tokens.take after ++ t :: s.tokens.drop after, count := s.count + 1 }

def inBlock (s : Scan) : Bool := s.flow == 0

/-- Skips blanks, comments and line breaks before a token. -/
def skipToToken : (fuel : Nat) → Scan → Scan
  | 0, s => s
  | fuel + 1, s =>
    let c := s.cursor.skipSpaces.skipComment
    match c.takeBreak? with
    | none => { s with cursor := c }
    | some (_, c) =>
      skipToToken fuel { s with cursor := c, keyAllowed := s.keyAllowed || s.inBlock }

/-- Skips a byte order mark at the start of the text. -/
def skipOrderMark (s : Scan) : Scan :=
  if s.cursor.index == 0 && s.cursor.peek == some '\ufeff' then { s with cursor := s.cursor.next } else s

/-! ## Keys, which are known by the colon behind them -/

/-- Whether the colon of a possible key can come no more. -/
def isStale (c : Cursor) (k : PossibleKey) : Bool := k.line != c.line || c.index > k.index + 1024

/-- Forgets the possible keys whose colon can come no more. -/
def dropStaleKeys (s : Scan) : Except Defect Scan :=
  if s.keys.any fun (_, k) => isStale s.cursor k && k.required then .error .malformed
  else .ok { s with keys := s.keys.filter fun (_, k) => !isStale s.cursor k }

/-- The possible key of the innermost brackets. -/
def currentKey? (s : Scan) : Option PossibleKey := (s.keys.find? (·.1 == s.flow)).map (·.2)

def forgetKey (s : Scan) : Scan := { s with keys := s.keys.filter (·.1 != s.flow) }

/-- Gives up the possible key of the innermost brackets, which must not be required. -/
def dropKey (s : Scan) : Except Defect Scan :=
  match s.currentKey? with
  | some k => if k.required then .error .malformed else .ok s.forgetKey
  | none => .ok s

/-- Remembers that the next token may begin a key. -/
def saveKey (s : Scan) : Except Defect Scan :=
  if s.keyAllowed then
    s.dropKey.map fun s =>
      let c := s.cursor
      let required := s.inBlock && s.indent == (c.column : Int)
      { s with keys := (s.flow, ⟨s.count, required, c.index, c.line, c.column⟩) :: s.keys }
  else .ok s

/-! ## Blocks, which are known by their indentation -/

/-- Closes the blocks that are indented further than `column`. -/
def closeBlocks (column : Int) : List Int → Scan → Scan
  | [], s => s
  | outer :: rest, s =>
    if column < s.indent then closeBlocks column rest { (s.emit .blockEnd) with indent := outer, indents := rest }
    else s

/-- Closes the blocks that end before a token at `column`. -/
def unwind (s : Scan) (column : Int) : Scan :=
  if s.inBlock then closeBlocks column s.indents s else s

def opensBlock (s : Scan) (column : Int) : Bool := s.indent < column

def openBlock (s : Scan) (column : Int) : Scan :=
  { s with indents := s.indent :: s.indents, indent := column }

/-- A token of `width` characters. -/
def advance (s : Scan) (width : Nat) (t : Token) : Scan :=
  { (s.emit t) with cursor := Cursor.skip width s.cursor }

/-- A token whose reader gives a value and the cursor behind it. -/
def accept {α : Type} (s : Scan) (toToken : α → Token) (r : Reading α) : Except Defect Scan :=
  r.map fun (a, c) => { (s.emit (toToken a)) with cursor := c }

/-! ## One function for each kind of token -/

def scanEnd (s : Scan) : Except Defect Scan :=
  (s.unwind (-1)).dropKey.map fun s => s.emit .streamEnd

def scanDirective (s : Scan) : Except Defect Scan :=
  match (s.unwind (-1)).dropKey with
  | .error e => .error e
  | .ok s => { s with keyAllowed := false }.accept .directive (readDirective s.cursor)

def scanDocumentMark (s : Scan) (t : Token) : Except Defect Scan :=
  (s.unwind (-1)).dropKey.map fun s => { s with keyAllowed := false }.advance 3 t

def scanOpen (s : Scan) (t : Token) : Except Defect Scan :=
  s.saveKey.map fun s => { s with flow := s.flow + 1, keyAllowed := true }.advance 1 t

def scanClose (s : Scan) (t : Token) : Except Defect Scan :=
  if s.inBlock then .error .malformed
  else s.dropKey.map fun s => { s with flow := s.flow - 1, keyAllowed := false }.advance 1 t

def scanComma (s : Scan) : Except Defect Scan :=
  s.dropKey.map fun s => { s with keyAllowed := true }.advance 1 .flowEntry

/-- The state at a sign that may open a block of its kind; outside brackets it must stand where a
key may stand. -/
def openingBlock (s : Scan) (t : Token) : Except Defect Scan :=
  if s.inBlock then
    if !s.keyAllowed then .error .malformed
    else if s.opensBlock s.cursor.column then .ok ((s.openBlock s.cursor.column).emit t)
    else .ok s
  else .ok s

/-- The hyphen before an item of a list. -/
def scanEntry (s : Scan) : Except Defect Scan :=
  match s.openingBlock .blockListStart with
  | .error e => .error e
  | .ok s => s.dropKey.map fun s => { s with keyAllowed := true }.advance 1 .blockEntry

/-- The question mark before a key. -/
def scanKey (s : Scan) : Except Defect Scan :=
  match s.openingBlock .blockMapStart with
  | .error e => .error e
  | .ok s => s.dropKey.map fun s => { s with keyAllowed := s.inBlock }.advance 1 .key

/-- The colon after a key that has been remembered. -/
def scanKeyedValue (s : Scan) (k : PossibleKey) : Scan :=
  let s := s.forgetKey.insertAt k.position .key
  let s :=
    if s.inBlock && s.opensBlock k.column then
      (s.openBlock k.column).insertAt k.position .blockMapStart
    else s
  { s with keyAllowed := false }.advance 1 .value

def scanValue (s : Scan) : Except Defect Scan :=
  match s.currentKey? with
  | some k => .ok (s.scanKeyedValue k)
  | none =>
    match s.openingBlock .blockMapStart with
    | .error e => .error e
    | .ok s => s.dropKey.map fun s => { s with keyAllowed := s.inBlock }.advance 1 .value

/-- A token that may begin a key and after which no other key may begin. -/
def scanNode {α : Type} (s : Scan) (toToken : α → Token) (read : Cursor → Reading α) :
    Except Defect Scan :=
  match s.saveKey with
  | .error e => .error e
  | .ok s => { s with keyAllowed := false }.accept toToken (read s.cursor)

def scanBlock (s : Scan) (folded : Bool) : Except Defect Scan :=
  match s.dropKey with
  | .error e => .error e
  | .ok s =>
    { s with keyAllowed := true }.accept (fun cs => .scalar (Points.ofChars cs) false)
      (readBlock folded s.indent s.cursor)

def scanQuoted (s : Scan) (double : Bool) : Except Defect Scan :=
  s.scanNode (.scalar · false) (readQuoted double)

def scanPlain (s : Scan) : Except Defect Scan :=
  s.saveKey.map fun s =>
    let c := s.cursor
    let (text, c, broken) := readPlain (!s.inBlock) (s.indent + 1) (c.rest.length + 1) [] false c
    { (s.emit (.scalar (Points.ofChars text) true)) with cursor := c, keyAllowed := broken }

/-- Whether a plain scalar may begin with a character before `following`. -/
def beginsPlain (block : Bool) (ch : Char) (following : Option Char) : Bool :=
  !(endsToken (some ch) || "-?:,[]\x7b\x7d#&*!|>\x27\"%@\x60".toList.contains ch) ||
    (!endsToken following && (ch == '-' || (block && (ch == '?' || ch == ':'))))

/-! ## The next token -/

def scanToken (s : Scan) (ch : Char) : Except Defect Scan :=
  let following := s.cursor.peekSecond
  let atStart := s.cursor.column == 0
  if ch == '%' && atStart then s.scanDirective
  else if atStart && s.cursor.atMark "---" then s.scanDocumentMark .documentStart
  else if atStart && s.cursor.atMark "..." then s.scanDocumentMark .documentEnd
  else if ch == '[' then s.scanOpen .flowListStart
  else if ch == '\x7b' then s.scanOpen .flowMapStart
  else if ch == ']' then s.scanClose .flowListEnd
  else if ch == '\x7d' then s.scanClose .flowMapEnd
  else if ch == ',' then s.scanComma
  else if ch == '-' && endsToken following then s.scanEntry
  else if ch == '?' && (!s.inBlock || endsToken following) then s.scanKey
  else if ch == ':' && (!s.inBlock || endsToken following) then s.scanValue
  else if ch == '*' then s.scanNode .alias readAnchorName
  else if ch == '&' then s.scanNode .anchor readAnchorName
  else if ch == '!' then s.scanNode .tag readTag
  else if ch == '|' && s.inBlock then s.scanBlock false
  else if ch == '>' && s.inBlock then s.scanBlock true
  else if ch == '\x27' then s.scanQuoted false
  else if ch == '"' then s.scanQuoted true
  else if beginsPlain s.inBlock ch following then s.scanPlain
  else .error .malformed

def scanNext (s : Scan) : Except Defect Scan :=
  let s := s.skipOrderMark
  let s := skipToToken (s.cursor.rest.length + 1) s
  match s.dropStaleKeys with
  | .error e => .error e
  | .ok s =>
    let s := s.unwind s.cursor.column
    match s.cursor.peek with
    | none => s.scanEnd
    | some ch => s.scanToken ch

/-! ## All tokens -/

/-- How many of the tokens read so far are settled: those before the first one that may still turn out
to begin a key. -/
def settled (s : Scan) : Nat := s.keys.foldl (fun n k => min n k.2.position) s.count

/-- The first `count` of the tokens read so far, and behind them the defect that stopped the
reading. -/
def stoppedAt (s : Scan) (count : Nat) (d : Defect) : List Token :=
  s.tokens.reverse.take count ++ [.broken d]

/-- The tokens up to the end of the text or to a defect. A defect stands behind the `settled` tokens,
because a token counts only once it is known whether it begins a key. -/
def run : (fuel : Nat) → (settled : Nat) → Scan → List Token
  | 0, settled, s => s.stoppedAt settled .malformed
  | fuel + 1, settled, s =>
    match s.scanNext with
    | .error d => s.stoppedAt settled d
    | .ok s =>
      match s.tokens with
      | .streamEnd :: _ => s.tokens.reverse
      | _ =>
        match s.dropStaleKeys with
        | .error d => s.stoppedAt settled d
        | .ok s => run fuel s.settled s

end Scan

/-- A character that may stand in a document. -/
def isAllowed (ch : Char) : Bool :=
  let n := ch.toNat
  n == 9 || n == 10 || n == 13 || (0x20 ≤ n && n ≤ 0x7E) || n == 0x85 || (0xA0 ≤ n && n ≤ 0xD7FF) ||
    (0xE000 ≤ n && n ≤ 0xFFFD) || 0x10000 ≤ n

def tokensOf (text : List Char) : List Token :=
  if text.all isAllowed then Scan.run (text.length + 2) 0 (Scan.start text) else [.broken .malformed]

end SourceNavigator.Markup
