/-!
# Code points

A text that is written with escapes may hold halves: code points from U+D800 to U+DFFF, of which
UTF-16 makes pairs for the characters above U+FFFF, and which are no characters by themselves. Such
a text is kept as the list of its code points. Main definitions: `Points`, `Points.chars?`,
`Points.joined`.
-/

namespace SourceNavigator.Text

/-- The first half of a pair. -/
def isHighHalf (n : Nat) : Bool := 0xD800 ≤ n && n ≤ 0xDBFF

/-- The second half of a pair. -/
def isLowHalf (n : Nat) : Bool := 0xDC00 ≤ n && n ≤ 0xDFFF

/-- Half of a pair. -/
def isHalf (n : Nat) : Bool := isHighHalf n || isLowHalf n

/-- The code point that a pair stands for. -/
def pairPoint (high low : Nat) : Nat := 0x10000 + (high - 0xD800) * 0x400 + (low - 0xDC00)

/-- A text by its code points, halves among them. -/
abbrev Points := List Nat

namespace Points

def ofChars (cs : List Char) : Points := cs.map Char.toNat

/-- The characters of a text without halves. -/
def chars? (ps : Points) : Option (List Char) :=
  if ps.any isHalf then none else some (ps.map Char.ofNat)

/-- The character of a code point; a half is shown as U+FFFD. -/
def shownPoint (n : Nat) : Char := if isHalf n then Char.ofNat 0xFFFD else Char.ofNat n

/-- The text with every half shown as U+FFFD. -/
def shown (ps : Points) : List Char := ps.map shownPoint

/-- The text as it reads in UTF-16: a pair is one character, and a half that stands alone is shown as
U+FFFD. -/
def joined : Points → List Char
  | [] => []
  | [n] => [shownPoint n]
  | high :: low :: ps =>
    if isHighHalf high && isLowHalf low then Char.ofNat (pairPoint high low) :: joined ps
    else shownPoint high :: joined (low :: ps)

/-- The text as it is shown by one who reads the three octets of each half, none of which is the
start of a character. -/
def octetwise (ps : Points) : List Char :=
  ps.flatMap fun n => if isHalf n then List.replicate 3 (Char.ofNat 0xFFFD) else [Char.ofNat n]

@[coe] def ofString (s : String) : Points := ofChars s.toList

/-- The text with a function applied to every longest run of characters. -/
def mapRuns (f : List Char → List Char) (ps : Points) : Points :=
  let rec go (run : List Char) : Points → Points
    | [] => ofChars (f run.reverse)
    | n :: rest =>
      if isHalf n then ofChars (f run.reverse) ++ n :: go [] rest else go (Char.ofNat n :: run) rest
  go [] ps

theorem chars?_ofChars (cs : List Char) : (ofChars cs).chars? = some cs := by
  have noHalf (c : Char) : isHalf c.toNat = false := by
    have h := c.valid
    simp only [isHalf, isHighHalf, isLowHalf, Char.toNat, UInt32.isValidChar, Nat.isValidChar] at h ⊢
    simp only [Bool.or_eq_false_iff, Bool.and_eq_false_iff, decide_eq_false_iff_not]
    omega
  have back (cs : List Char) : (cs.map Char.toNat).map Char.ofNat = cs := by
    induction cs with
    | nil => rfl
    | cons c cs ih => simp [ih, Char.ofNat_toNat]
  have clean (cs : List Char) : (cs.map Char.toNat).any isHalf = false := by
    induction cs with
    | nil => rfl
    | cons c cs ih => simp only [List.map_cons, List.any_cons, noHalf, ih, Bool.or_self]
  simp only [chars?, ofChars, clean, back, Bool.false_eq_true, if_false]

end Points

/-! ## Texts and code points

A text counts as the list of its code points, and code points are answered as the text that they are
shown as. -/

instance : Coe String Points := ⟨Points.ofString⟩

instance : Coe Points String := ⟨fun ps => String.ofList ps.shown⟩

instance : Coe (List Points) (List String) := ⟨fun texts => texts.map fun ps => String.ofList ps.shown⟩

end SourceNavigator.Text
