import SourceNavigator.Text.Numeral

/-!
# Double precision numbers

A number of 64 bits as an exact value: `finite s m e` is `m · 2^e` with the sign `s`, where
`m < 2^53`, `-1074 ≤ e`, and `m` has its full 53 bits unless `e = -1074`. `ofRatio` rounds a
quotient to the nearest such number, a tie to the even one. `shown` writes the fewest digits that
read back, positionally between 10^-4 and 10^16.
-/

namespace SourceNavigator.Number

inductive Binary64 where
  | nan
  | infinite (negative : Bool)
  | finite (negative : Bool) (mantissa : Nat) (exponent : Int)
  deriving DecidableEq, Repr

namespace Binary64

/-! ## Rounding -/

/-- The quotient rounded to the nearest whole number, a tie to the even one. -/
def roundDiv (num den : Nat) : Nat :=
  let q := num / den
  let twice := 2 * (num % den)
  if twice < den then q
  else if den < twice then q + 1
  else if q % 2 = 0 then q else q + 1

/-- `num / den / 2^e` as a numerator and a denominator. -/
def scaleTwo (num den : Nat) (e : Int) : Nat × Nat :=
  if 0 ≤ e then (num, den * Nat.pow 2 e.toNat) else (num * Nat.pow 2 (-e).toNat, den)

/-- The exponent `e` at which `num / den` has 53 bits before the point, or `-1074` where that is
larger. -/
def exponentFor (num den : Nat) : Int :=
  let guess : Int := (num.log2 : Int) - den.log2 - 52
  let (n, d) := scaleTwo num den guess
  let e := if n / d < Nat.pow 2 52 then guess - 1 else guess
  max e (-1074)

/-- The double nearest to `± num / den`. -/
def ofRatio (negative : Bool) (num den : Nat) : Binary64 :=
  if num = 0 then .finite negative 0 (-1074)
  else
    let e := exponentFor num den
    let (n, d) := scaleTwo num den e
    let m := roundDiv n d
    let (m, e) := if m = Nat.pow 2 53 then (Nat.pow 2 52, e + 1) else (m, e)
    if 971 < e then .infinite negative else .finite negative m e

/-- The number of decimal digits of `n`. -/
def digitCount (n : Nat) : Nat := (Nat.toDigits 10 n).length

/-- The double nearest to `± digits · 10^exponent`. Exponents far outside the range of doubles need
no arithmetic. -/
def ofDecimal (negative : Bool) (digits : Nat) (exponent : Int) : Binary64 :=
  if digits = 0 then .finite negative 0 (-1074)
  else
    let magnitude := (digitCount digits : Int) + exponent
    if 400 < magnitude then .infinite negative
    else if magnitude < -400 then .finite negative 0 (-1074)
    else if 0 ≤ exponent then ofRatio negative (digits * Nat.pow 10 exponent.toNat) 1
    else ofRatio negative digits (Nat.pow 10 (-exponent).toNat)

/-! ## Arithmetic and comparison -/

/-- The double nearest to a whole number. -/
def ofNat (n : Nat) : Binary64 := ofRatio false n 1

/-- `m · 2^e` as a numerator and a denominator. -/
def ratio (m : Nat) (e : Int) : Nat × Nat :=
  if 0 ≤ e then (m * Nat.pow 2 e.toNat, 1) else (m, Nat.pow 2 (-e).toNat)

/-- The rounded product. -/
def mul : Binary64 → Binary64 → Binary64
  | .finite s m e, .finite t n f =>
    let (a, b) := ratio m e
    let (c, d) := ratio n f
    ofRatio (s != t) (a * c) (b * d)
  | .nan, _ => .nan
  | _, .nan => .nan
  | .infinite s, .finite t n _ => if n = 0 then .nan else .infinite (s != t)
  | .finite s m _, .infinite t => if m = 0 then .nan else .infinite (s != t)
  | .infinite s, .infinite t => .infinite (s != t)

/-- The rounded sum. Numbers that cancel out have the sum zero, which is negative only if both are
negative. -/
def add : Binary64 → Binary64 → Binary64
  | .finite s m e, .finite t n f =>
    let (a, b) := ratio m e
    let (c, d) := ratio n f
    let total := Text.withSign s (a * d) + Text.withSign t (c * b)
    if total = 0 then .finite (s && t) 0 (-1074) else ofRatio (total < 0) total.natAbs (b * d)
  | .nan, _ => .nan
  | _, .nan => .nan
  | .infinite s, .infinite t => if s = t then .infinite s else .nan
  | .infinite s, _ => .infinite s
  | _, .infinite t => .infinite t

def neg : Binary64 → Binary64
  | .nan => .nan
  | .infinite s => .infinite !s
  | .finite s m e => .finite (!s) m e

/-- Zero, of either sign. -/
def isZero : Binary64 → Bool
  | .finite _ 0 _ => true
  | _ => false

/-- The whole number that a double is, if it is one. -/
def toInt? : Binary64 → Option Int
  | .finite s m e =>
    let (num, den) := ratio m e
    if num % den = 0 then some (Text.withSign s (num / den)) else none
  | _ => none

/-! ## Shortest digits -/

/-- The place of the decimal point: the least `k` with `num / den < 10^k`. -/
def pointPlace (num den : Nat) : Int :=
  if den ≤ num then digitCount (num / den)
  else
    let t := digitCount (den / num)
    if den ≤ num * Nat.pow 10 (t - 1) then 2 - (t : Int) else 1 - (t : Int)

/-- Of the two multiples of `10^unit` around `m · 2^e`, the nearest one that is read as
`m · 2^e`, divided by `10^unit`. -/
def gridNeighbour? (m : Nat) (e : Int) (unit : Int) : Option Nat :=
  let (num, den) := ratio m e
  let (num, den) :=
    if 0 ≤ unit then (num, den * Nat.pow 10 unit.toNat) else (num * Nat.pow 10 (-unit).toNat, den)
  let low := num / den
  let reads (d : Nat) : Bool := ofDecimal false d unit = .finite false m e
  let lowFirst := 2 * (num % den) < den || (2 * (num % den) = den && low % 2 = 0)
  let (first, second) := if lowFirst then (low, low + 1) else (low + 1, low)
  if reads first then some first else if reads second then some second else none

/-- The shortest decimal that reads back as `m · 2^e`, tried with `count`, `count + 1`, … digits:
the digits as a number and the place of the point before the first of them. -/
def shortest (m : Nat) (e : Int) (point : Int) : (fuel count : Nat) → Nat × Int
  | 0, _ => (m, point)
  | fuel + 1, count =>
    match gridNeighbour? m e (point - count) with
    | some d => (d, point - count + digitCount d)
    | none => shortest m e point fuel (count + 1)

/-- A number's digits without the zeros at the end. -/
def significant (d : Nat) : List Char := Text.dropEndWhile (· == '0') (Nat.toDigits 10 d)

/-- The digits with a point at `point`, positionally or with an exponent. -/
def layout (digits : List Char) (point : Int) : List Char :=
  if -4 < point ∧ point ≤ 16 then
    if point ≤ 0 then '0' :: '.' :: List.replicate (-point).toNat '0' ++ digits
    else
      let k := point.toNat
      if digits.length ≤ k then digits ++ List.replicate (k - digits.length) '0' ++ ['.', '0']
      else digits.take k ++ '.' :: digits.drop k
  else
    let exponent := point - 1
    let mark := if exponent < 0 then '-' else '+'
    let size := Nat.toDigits 10 exponent.natAbs
    let fraction := if digits.length ≤ 1 then [] else '.' :: digits.drop 1
    digits.take 1 ++ fraction ++ ['e', mark] ++ List.replicate (2 - size.length) '0' ++ size

def shown : Binary64 → String
  | .nan => "nan"
  | .infinite s => if s then "-inf" else "inf"
  | .finite s m e =>
    let body :=
      if m = 0 then ['0', '.', '0']
      else
        let (num, den) := ratio m e
        let (d, point) := shortest m e (pointPlace num den) 17 1
        layout (significant d) point
    String.ofList (if s then '-' :: body else body)

end Binary64

end SourceNavigator.Number
