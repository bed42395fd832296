/-!
# Base 64, read leniently

`decode?` skips every character that is not part of the alphabet, stops at the padding that
completes a group of four, and fails on a group left incomplete. Four digits give three octets.
-/

namespace SourceNavigator.Text.Base64

/-- The value of a digit of the standard alphabet. -/
def digit? (c : Char) : Option Nat :=
  let n := c.toNat
  if 65 ≤ n ∧ n ≤ 90 then some (n - 65)
  else if 97 ≤ n ∧ n ≤ 122 then some (n - 71)
  else if 48 ≤ n ∧ n ≤ 57 then some (n + 4)
  else if c = '+' then some 62
  else if c = '/' then some 63
  else none

/-- Why a text is no base 64. -/
inductive Defect where
  | notAscii
  | lonelyDigit (digits : Nat)
  | incompletePadding
  deriving DecidableEq, Repr

/-- The place in a group of four: how many digits have been read, the bits left over from the last
one, and the padding characters in a row. -/
structure Group where
  filled : Nat
  left : Nat
  pads : Nat
  deriving Repr

/-- Reads on from a place in a group; `octets` counts the octets that are already out. -/
def decodeFrom (g : Group) (octets : Nat) : List Char → Except Defect (List UInt8)
  | [] =>
    if g.filled = 0 then .ok []
    else if g.filled = 1 then .error (.lonelyDigit (octets / 3 * 4 + 1))
    else .error .incompletePadding
  | c :: cs =>
    if c = '=' then
      if 2 ≤ g.filled then
        if 4 ≤ g.filled + (g.pads + 1) then .ok []
        else decodeFrom { g with pads := g.pads + 1 } octets cs
      else decodeFrom g octets cs
    else
      match digit? c with
      | none => decodeFrom g octets cs
      | some d =>
        match g.filled with
        | 0 => decodeFrom ⟨1, d, 0⟩ octets cs
        | 1 => (decodeFrom ⟨2, d % 16, 0⟩ (octets + 1) cs).map (UInt8.ofNat (g.left * 4 + d / 16) :: ·)
        | 2 => (decodeFrom ⟨3, d % 4, 0⟩ (octets + 1) cs).map (UInt8.ofNat (g.left * 16 + d / 4) :: ·)
        | _ => (decodeFrom ⟨0, 0, 0⟩ (octets + 1) cs).map (UInt8.ofNat (g.left * 64 + d) :: ·)

/-- The octets that a text stands for. Only ASCII is admitted. -/
def decode? (cs : List Char) : Except Defect (List UInt8) :=
  if cs.all (·.toNat < 128) then decodeFrom ⟨0, 0, 0⟩ 0 cs else .error .notAscii

def Defect.message : Defect → String
  | .notAscii => "string argument should contain only ASCII characters"
  | .lonelyDigit digits =>
    "Invalid base64-encoded string: number of data characters (" ++ toString digits ++
      ") cannot be 1 more than a multiple of 4"
  | .incompletePadding => "Incorrect padding"

end SourceNavigator.Text.Base64
