/-!
# Blank characters and trimming

Two notions of white space are in use. `isBlank` is the one that trimming of names, lines and
settings goes by: the white space of Unicode together with the four information separators.
`isSpace` is the white space of Unicode alone, which surrounds a number written as text.
Main definitions: `trim`, `trimStart`, `trimEnd`, `isBlankLine`.
-/

namespace SourceNavigator.Text

/-- White space of Unicode. -/
def isSpace (c : Char) : Bool :=
  let n := c.toNat
  (9 ≤ n && n ≤ 13) || n == 0x20 || n == 0x85 || n == 0xA0 || n == 0x1680 ||
    (0x2000 ≤ n && n ≤ 0x200A) || n == 0x2028 || n == 0x2029 || n == 0x202F || n == 0x205F ||
    n == 0x3000

/-- White space of Unicode, or an information separator (U+001C to U+001F). -/
def isBlank (c : Char) : Bool :=
  isSpace c || (0x1C ≤ c.toNat && c.toNat ≤ 0x1F)

/-- The text without the longest ending of characters that satisfy `p`. -/
def dropEndWhile (p : Char → Bool) (cs : List Char) : List Char :=
  (cs.reverse.dropWhile p).reverse

def trimStart (cs : List Char) : List Char := cs.dropWhile isBlank

def trimEnd (cs : List Char) : List Char := dropEndWhile isBlank cs

def trim (cs : List Char) : List Char := trimEnd (trimStart cs)

/-- The string without surrounding blanks. -/
def strip (s : String) : String := String.ofList (trim s.toList)

/-- A text that holds nothing but blanks. -/
def isBlankLine (cs : List Char) : Bool := cs.all isBlank

end SourceNavigator.Text
