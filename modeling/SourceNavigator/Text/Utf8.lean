/-!
# UTF-8

A machine that reads octets one at a time and yields pieces: a character, or a run of octets that
is no character. `decode` shows each such run as U+FFFD, so that every octet string has a text;
`decodeStrict?` reports the first run instead. A run is the longest start of a well-formed sequence
that the octets at that place have, or a single octet where there is none.
-/

namespace SourceNavigator.Text.Utf8

/-- Why a run of octets is no character. -/
inductive Defect where
  | invalidStart
  | invalidContinuation
  | truncated
  deriving DecidableEq, Repr

/-! ## Sequences of octets -/

/-- What the machine reads: a character, or `length` octets from offset `start` that are none. -/
inductive Piece where
  | char (c : Char)
  | defect (start length : Nat) (reason : Defect)
  deriving DecidableEq, Repr

/-- A sequence that has begun: the offset of its first octet, the octets read of it, how many are
still to come, the bounds of the next one, and the bits collected so far. -/
structure Partial where
  start : Nat
  taken : Nat
  need : Nat
  low : Nat
  high : Nat
  value : Nat
  deriving Repr

/-- What an octet means at the start of a sequence. -/
inductive Lead where
  | ascii
  | sequence (p : Partial)
  | invalid

/-- The meaning of `b` as the first octet of a sequence at offset `start`. The bounds of the second
octet exclude overlong forms, surrogates, and numbers above U+10FFFF. -/
def lead (start : Nat) (b : UInt8) : Lead :=
  let n := b.toNat
  if n < 0x80 then .ascii
  else if n < 0xC2 then .invalid
  else if n < 0xE0 then .sequence ⟨start, 1, 1, 0x80, 0xBF, n - 0xC0⟩
  else if n < 0xF0 then
    .sequence ⟨start, 1, 2, if n = 0xE0 then 0xA0 else 0x80, if n = 0xED then 0x9F else 0xBF, n - 0xE0⟩
  else if n < 0xF5 then
    .sequence ⟨start, 1, 3, if n = 0xF0 then 0x90 else 0x80, if n = 0xF4 then 0x8F else 0xBF, n - 0xF0⟩
  else .invalid

/-- The bits of a sequence after one more octet. -/
def Partial.push (p : Partial) (b : UInt8) : Nat := p.value * 64 + (b.toNat - 0x80)

/-- The pieces of the octets from offset `pos` on, with the sequence that has begun before them. -/
def pieces : Nat → Option Partial → List UInt8 → List Piece
  | _, none, [] => []
  | _, some p, [] => [.defect p.start p.taken .truncated]
  | pos, none, b :: bs =>
    match lead pos b with
    | .ascii => .char (Char.ofNat b.toNat) :: pieces (pos + 1) none bs
    | .sequence p => pieces (pos + 1) (some p) bs
    | .invalid => .defect pos 1 .invalidStart :: pieces (pos + 1) none bs
  | pos, some p, b :: bs =>
    if p.low ≤ b.toNat ∧ b.toNat ≤ p.high then
      if p.need ≤ 1 then .char (Char.ofNat (p.push b)) :: pieces (pos + 1) none bs
      else pieces (pos + 1) (some ⟨p.start, p.taken + 1, p.need - 1, 0x80, 0xBF, p.push b⟩) bs
    else
      .defect p.start p.taken .invalidContinuation ::
        match lead pos b with
        | .ascii => .char (Char.ofNat b.toNat) :: pieces (pos + 1) none bs
        | .sequence q => pieces (pos + 1) (some q) bs
        | .invalid => .defect pos 1 .invalidStart :: pieces (pos + 1) none bs

/-! ## Lossy reading -/

/-- The character shown for octets that are no character. -/
def replacement : Char := Char.ofNat 0xFFFD

def Piece.shown : Piece → Char
  | .char c => c
  | .defect .. => replacement

/-- The text of any octets, each defective run shown as one U+FFFD. -/
def decode (bs : List UInt8) : List Char := (pieces 0 none bs).map Piece.shown

/-! ## Strict reading -/

/-- Where and why a strict reading fails; `byte` is the first octet of the run. -/
structure Failure where
  start : Nat
  length : Nat
  reason : Defect
  byte : UInt8
  deriving Repr

/-- The characters of the pieces up to the first defect. -/
def strictPieces (bs : List UInt8) : List Piece → Except Failure (List Char)
  | [] => .ok []
  | .char c :: rest => (strictPieces bs rest).map (c :: ·)
  | .defect start length reason :: _ => .error ⟨start, length, reason, bs.getD start 0⟩

/-- The text of well-formed octets, or the first defect. -/
def decodeStrict? (bs : List UInt8) : Except Failure (List Char) :=
  strictPieces bs (pieces 0 none bs)

def Defect.message : Defect → String
  | .invalidStart => "invalid start byte"
  | .invalidContinuation => "invalid continuation byte"
  | .truncated => "unexpected end of data"

/-- The wording of a failure: the octet if the run has one, and the range of the run otherwise. -/
def Failure.message (f : Failure) : String :=
  let what :=
    if f.length = 1 then
      "byte 0x" ++ String.ofList (Nat.toDigits 16 (f.byte.toNat / 16) ++ Nat.toDigits 16 (f.byte.toNat % 16)) ++
        " in position " ++ toString f.start
    else "bytes in position " ++ toString f.start ++ "-" ++ toString (f.start + f.length - 1)
  "'utf-8' codec can't decode " ++ what ++ ": " ++ f.reason.message

/-! ## Writing -/

def encode (cs : List Char) : List UInt8 := cs.flatMap String.utf8EncodeChar

end SourceNavigator.Text.Utf8
