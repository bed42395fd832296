import SourceNavigator.Excerpt.Symbol
import SourceNavigator.Proofs.Text.Numeral

set_option autoImplicit false

/-! # Excerpts that are shown

The looks upwards and downwards from the line of a symbol stay among the lines of the file
(`exists_lookBack_eq`, `exists_lookAhead_eq`). So an excerpt is given exactly if the file can be read
and holds the line (`exists_readSymbol_eq_iff`). What keeps it from being given is a failure of
navigation, unless the path holds a NUL character or the number of the line is too long for the words of
this failure (`isNavigation_of_readSymbol`).
-/

namespace SourceNavigator.Excerpt

open SourceNavigator.Path (Address)
open Text (IsWritable)

variable {lines : List String} {line : Int}

/-! ## The ends of an excerpt -/

theorem exists_lineAt_eq (lines : List String) {position : Int} (hlow : 0 ≤ position)
    (hhigh : position < lines.length) : ∃ text, lineAt lines position = .ok text := by
  have hindex : position.toNat < lines.length := by omega
  have hnonneg : ¬ position < 0 := by omega
  refine ⟨lines[position.toNat], ?_⟩
  rw [lineAt, if_neg hnonneg, if_neg hnonneg, List.getElem?_eq_getElem hindex]

/-- A look upwards at no more lines than there are above ends at one of them. -/
theorem exists_lookBack_eq (otherwise : Int) (count : Nat) {position : Int}
    (hcount : count ≤ position + 1) (hposition : position < lines.length) :
    ∃ first, lookBack lines otherwise count position = .ok first := by
  induction count generalizing position with
  | zero => exact ⟨otherwise, rfl⟩
  | succ count ih =>
      have habove : 0 ≤ position := by omega
      obtain ⟨text, htext⟩ := exists_lineAt_eq lines habove hposition
      rw [lookBack, htext]
      simp only
      split
      · exact ⟨position, rfl⟩
      · split
        · exact ih (by omega) (by omega)
        · exact ⟨position + 1, rfl⟩

/-- A look downwards at no more lines than there are below ends at one of them. -/
theorem exists_lookAhead_eq (otherwise : Int) (count : Nat) {position : Int} (hposition : 0 ≤ position)
    (hcount : position + count ≤ lines.length) :
    ∃ last, lookAhead lines otherwise count position = .ok last := by
  induction count generalizing position with
  | zero => exact ⟨otherwise, rfl⟩
  | succ count ih =>
      have hbelow : position < lines.length := by omega
      obtain ⟨text, htext⟩ := exists_lineAt_eq lines hposition hbelow
      rw [lookAhead, htext]
      simp only
      split
      · exact ⟨position, rfl⟩
      · exact ih (by omega) (by omega)

/-! ## Excerpts -/

/-- There is a line of that number. -/
def Holds (lines : List String) (line : Int) : Prop := 1 ≤ line ∧ line ≤ lines.length

theorem checkLine_of_holds (h : Holds lines line) : checkLine line lines = .ok () := by
  obtain ⟨hlow, hhigh⟩ := h
  rw [checkLine, if_neg (by omega)]

theorem checkLine_of_not_holds (h : ¬ Holds lines line) :
    checkLine line lines = .error (outside line lines.length) := by
  unfold Holds at h
  rw [checkLine, if_pos (by omega)]

/-- The two numbers are put into words. -/
theorem outside_of_isWritable {total : Int} (hline : IsWritable line) (htotal : IsWritable total) :
    outside line total = .lineOutside line total := by
  rw [outside, Text.decimal?_eq_some hline, Text.decimal?_eq_some htotal]
  rfl

/-- A number that is too long is a failure of its own. -/
theorem outside_of_not_isWritable (h : ¬ IsWritable line) (total : Int) :
    outside line total = .numberTooLong := by
  rw [outside, Text.decimal?_eq_none h]
  rfl

theorem exists_symbolLines_eq (h : Holds lines line) :
    ∃ shown, symbolLines lines line = .ok shown := by
  have hcheck := checkLine_of_holds h
  obtain ⟨hlow, hhigh⟩ := h
  obtain ⟨first, hfirst⟩ : ∃ first, docStart lines line = .ok first := by
    refine exists_lookBack_eq _ _ ?_ (by omega)
    rw [lookBackLimit]
    omega
  obtain ⟨last, hlast⟩ : ∃ last, declarationEnd lines line = .ok last := by
    refine exists_lookAhead_eq _ _ (by omega) ?_
    rw [lookAheadLimit]
    omega
  refine ⟨numberedFrom (first + 1) ((lines.take (last + 1).toNat).drop first.toNat), ?_⟩
  rw [symbolLines, hcheck, hfirst, hlast]
  rfl

theorem symbolLines_of_not_holds (h : ¬ Holds lines line) :
    symbolLines lines line = .error (outside line lines.length) := by
  rw [symbolLines, checkLine_of_not_holds h]
  rfl

theorem readSymbol_of_readLines {w : World} {a : Address} (h : readLines w a = .ok lines) :
    readSymbol w a line = (symbolLines lines line).map joinLines := by
  rw [readSymbol, h]
  show (symbolLines lines line >>= fun shown => .ok (joinLines shown)) = _
  cases symbolLines lines line with
  | ok shown => rfl
  | error e => rfl

theorem readSymbol_of_readLines_error {w : World} {a : Address} {e : Failure}
    (h : readLines w a = .error e) : readSymbol w a line = .error e := by
  rw [readSymbol, h]
  rfl

/-- **When an excerpt is given**: if the file can be read and holds the line. -/
theorem exists_readSymbol_eq_iff {w : World} {a : Address} :
    (∃ text, readSymbol w a line = .ok text) ↔
      ∃ lines, readLines w a = .ok lines ∧ Holds lines line := by
  constructor
  · rintro ⟨text, h⟩
    cases hlines : readLines w a with
    | error e =>
        rw [readSymbol_of_readLines_error hlines] at h
        cases h
    | ok lines =>
        refine ⟨lines, rfl, ?_⟩
        by_contra hholds
        rw [readSymbol_of_readLines hlines, symbolLines_of_not_holds hholds] at h
        cases h
  · rintro ⟨lines, hlines, hholds⟩
    obtain ⟨shown, hshown⟩ := exists_symbolLines_eq hholds
    refine ⟨joinLines shown, ?_⟩
    rw [readSymbol_of_readLines hlines, hshown]
    rfl

/-! ## Failures -/

theorem octetsAt_ne_nulCharacter {w : World} {a : Address} (ha : World.hasNul a.text = false) :
    w.octetsAt a ≠ .error .nulCharacter := by
  unfold World.octetsAt World.openNode World.stat
  rw [if_neg (by rw [ha]; decide : ¬ World.hasNul a.text = true)]
  split
  · rename_i t ht
    split at ht
    · cases ht
      exact fun h => nomatch h
    · split at ht
      · cases ht
      · cases ht
        exact fun h => nomatch h
  · exact fun h => nomatch h
  · exact fun h => nomatch h

/-- A file that cannot be read is a failure of navigation, unless its path holds a NUL character. -/
theorem isNavigation_of_readLines {w : World} {a : Address} (ha : World.hasNul a.text = false)
    {e : Failure} (h : readLines w a = .error e) : e.isNavigation = true := by
  unfold readLines at h
  split at h
  · cases h
  · cases h
    rfl
  · rename_i hnul
    exact absurd hnul (octetsAt_ne_nulCharacter ha)

/-- The number of a line: it counts from one on, and can be put into words. -/
def IsLineNumber (line : Int) : Prop := 1 ≤ line ∧ IsWritable line

/-- A file without a line of this number has fewer lines, so that their number can be put into words as
well. -/
theorem isNavigation_outside (hline : IsLineNumber line) (h : ¬ Holds lines line) :
    (outside line lines.length).isNavigation = true := by
  obtain ⟨hlow, hwritable⟩ := hline
  have hbehind : (lines.length : Int) ≤ line := by
    unfold Holds at h
    omega
  rw [outside_of_isWritable hwritable (hwritable.of_le (Int.natCast_nonneg _) hbehind)]
  rfl

theorem isNavigation_of_readSymbol {w : World} {a : Address} (ha : World.hasNul a.text = false)
    (hline : IsLineNumber line) {e : Failure} (h : readSymbol w a line = .error e) :
    e.isNavigation = true := by
  cases hlines : readLines w a with
  | error other =>
      rw [readSymbol_of_readLines_error hlines] at h
      cases h
      exact isNavigation_of_readLines ha hlines
  | ok lines =>
      rw [readSymbol_of_readLines hlines] at h
      by_cases hholds : Holds lines line
      · obtain ⟨shown, hshown⟩ := exists_symbolLines_eq hholds
        rw [hshown] at h
        cases h
      · rw [symbolLines_of_not_holds hholds] at h
        cases h
        exact isNavigation_outside hline hholds

end SourceNavigator.Excerpt
