import SourceNavigator.Data.Datum

/-!
# JSON output

`write` gives the text of a datum as JSON on one line, in printable ASCII alone. All other characters
are escaped by their UTF-16 units. A datum of a kind that JSON does not have is written as the text
that displays it.
-/

namespace SourceNavigator.Json

open Data (Datum)

/-! ## Text -/

def hexDigit (n : Nat) : Char :=
  if n < 10 then Char.ofNat ('0'.toNat + n) else Char.ofNat ('a'.toNat + (n - 10))

def unitEscape (n : Nat) : List Char :=
  ['\\', 'u', hexDigit (n / 4096 % 16), hexDigit (n / 256 % 16), hexDigit (n / 16 % 16),
    hexDigit (n % 16)]

def escapeChar (c : Char) : List Char :=
  if c = '"' ∨ c = '\\' then ['\\', c]
  else if 0x20 ≤ c.toNat ∧ c.toNat < 0x7f then [c]
  else if c.toNat < 0x10000 then unitEscape c.toNat
  else
    let offset := c.toNat - 0x10000
    unitEscape (0xd800 + offset / 1024) ++ unitEscape (0xdc00 + offset % 1024)

def quoted (s : String) : String := "\"" ++ String.ofList (s.toList.flatMap escapeChar) ++ "\""

/-! ## Data -/

mutual

def write : Datum → String
  | .null => "null"
  | .bool b => if b then "true" else "false"
  | .int n => toString n
  | .text s => quoted s
  | .list items => "[" ++ String.intercalate "," (writeItems items) ++ "]"
  | .map entries => "\x7b" ++ String.intercalate "," (writeEntries entries) ++ "\x7d"
  | d => quoted d.display

def writeItems : List Datum → List String
  | [] => []
  | d :: rest => write d :: writeItems rest

def writeEntries : List (Datum × Datum) → List String
  | [] => []
  | (k, v) :: rest => (quoted k.shown ++ ":" ++ write v) :: writeEntries rest

end

end SourceNavigator.Json
