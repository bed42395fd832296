import SourceNavigator.Text.Point
import SourceNavigator.Text.Printable

/-!
# Quoted text

A text between quotes, with the characters that cannot be shown as themselves written as escapes.
The quote is an apostrophe unless the text holds apostrophes and no double quote. Main definitions:
`quote` and, for texts that may hold halves of pairs, `quotePoints`.
-/

namespace SourceNavigator.Text

/-- The digits of `n` in base sixteen, in lower case, padded with zeros to `width`. -/
def hexDigits (width n : Nat) : List Char :=
  let digits := Nat.toDigits 16 n
  List.replicate (width - digits.length) '0' ++ digits

/-- The quote that a text is put between. -/
def quoteFor (cs : List Char) : Char :=
  if cs.contains '\x27' && !cs.contains '"' then '"' else '\x27'

/-- How one character is written between quotes `q`. -/
def quoteChar (q c : Char) : List Char :=
  if c = q ∨ c = '\\' then ['\\', c]
  else if c = '\t' then ['\\', 't']
  else if c = '\n' then ['\\', 'n']
  else if c = '\r' then ['\\', 'r']
  else if isPrintable c then [c]
  else if c.toNat < 0x100 then '\\' :: 'x' :: hexDigits 2 c.toNat
  else if c.toNat < 0x10000 then '\\' :: 'u' :: hexDigits 4 c.toNat
  else '\\' :: 'U' :: hexDigits 8 c.toNat

def quote (s : String) : String :=
  let q := quoteFor s.toList
  String.ofList ([q] ++ s.toList.flatMap (quoteChar q) ++ [q])

/-- How one code point is written between quotes `q`. -/
def quotePoint (q : Char) (n : Nat) : List Char :=
  if isHalf n then '\\' :: 'u' :: hexDigits 4 n else quoteChar q (Char.ofNat n)

def quotePoints (ps : Points) : String :=
  let q := quoteFor (ps.map Char.ofNat)
  String.ofList ([q] ++ ps.flatMap (quotePoint q) ++ [q])

end SourceNavigator.Text
