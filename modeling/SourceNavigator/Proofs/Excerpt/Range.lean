import SourceNavigator.Excerpt.Range
import SourceNavigator.Proofs.Calls
import SourceNavigator.Proofs.Excerpt.Symbol

set_option autoImplicit false

/-! # Ranges that are read

A reader asks for a first line, perhaps for a last one, and for a number of lines at most. If the file
has the first line, and the last one is not two lines or more before it (`Reaches`), the range is a
section of the lines (`IsSection`). Otherwise there is a range all the same that ends before it begins,
or the end is refused because it is below zero (`rangeOutcome`).
-/

namespace SourceNavigator.Excerpt

open SourceNavigator.Path (Address)
open Text (IsWritable)

/-! ## The last line -/

/-- The last line that is asked for, if any, is not before the line before the first one. An end of
zero is none. -/
def Reaches (first : Int) (endLine : Option Int) : Prop := ∀ e, endLine = some e → e = 0 ∨ first ≤ e + 1

section LastLine

variable {first most total : Int} {endLine : Option Int}

theorem lastLine_le_total : lastLine first endLine most total ≤ total := by
  unfold lastLine
  simp only
  split
  · exact min_le_left _ _
  · split
    · exact min_le_left _ _
    · exact (min_le_right _ _).trans (min_le_left _ _)

theorem lastLine_le_most : lastLine first endLine most total ≤ first + most - 1 := by
  unfold lastLine
  simp only
  split
  · exact min_le_right _ _
  · split
    · exact min_le_right _ _
    · exact (min_le_right _ _).trans (min_le_right _ _)

/-- The last line that is read is not before the first one if none is asked for that is. -/
theorem le_lastLine_iff (hfirst : first ≤ total) (hmost : 1 ≤ most) :
    first ≤ lastLine first endLine most total + 1 ↔ Reaches first endLine := by
  have hallowed : first ≤ min total (first + most - 1) := le_min hfirst (by omega)
  unfold lastLine Reaches
  cases endLine with
  | none =>
      simp only
      exact iff_of_true (by omega) fun e he => (by cases he)
  | some e =>
      -- zero asks for no last line
      by_cases hzero : e = 0
      · simp only [hzero, if_true]
        exact iff_of_true (by omega) fun e' he' => Or.inl (Option.some.inj he').symm
      · simp only [hzero, if_false]
        constructor
        · rintro h e' he'
          obtain rfl := Option.some.inj he'
          have hle := min_le_left e (min total (first + most - 1))
          exact Or.inr (by omega)
        · intro h
          have hreach := (h e rfl).resolve_left hzero
          have hleast : first - 1 ≤ min e (min total (first + most - 1)) := le_min (by omega) (by omega)
          omega

end LastLine

/-! ## Sections -/

/-- The range is a section of the lines: it has the lines from its first to its last one. -/
structure IsSection (lines : List String) (r : Range) : Prop where
  one_le : 1 ≤ r.first
  last_le : r.last ≤ lines.length
  total_eq : r.total = lines.length
  count_eq : (r.lines.length : Int) = r.last - r.first + 1
  line_eq : ∀ n : Nat, r.first ≤ n → n ≤ r.last → r.lines[n - r.first.toNat]? = lines[n - 1]?

/-- The range from `first` to `last` that is cut out of the lines of a file. -/
def cutOut (path : String) (lines : List String) (first last : Int) : Range :=
  ⟨path, first, last, lines.length, (lines.take last.toNat).drop (first - 1).toNat⟩

theorem length_cutOut (path : String) {lines : List String} {first last : Int} (hfirst : 1 ≤ first)
    (hlast : last ≤ lines.length) :
    (cutOut path lines first last).lines.length = (last - first + 1).toNat := by
  rw [cutOut, List.length_drop, List.length_take]
  omega

theorem isSection_cutOut (path : String) {lines : List String} {first last : Int} (hfirst : 1 ≤ first)
    (horder : first ≤ last + 1) (hlast : last ≤ lines.length) :
    IsSection lines (cutOut path lines first last) := by
  refine ⟨hfirst, hlast, rfl, ?_, ?_⟩
  · rw [length_cutOut path hfirst hlast]
    show ((last - first + 1).toNat : Int) = last - first + 1
    omega
  · intro n (hlow : first ≤ n) (hhigh : n ≤ last)
    have hindex : (first - 1).toNat + (n - first.toNat) = n - 1 := by omega
    show ((lines.take last.toNat).drop (first - 1).toNat)[n - first.toNat]? = lines[n - 1]?
    rw [List.getElem?_drop, hindex, List.getElem?_take_of_lt (by omega)]

/-! ## What a read comes to -/

/-- What reading a range of a file with these lines comes to. -/
inductive RangeOutcome (lines : List String) (startLine : Int) (endLine : Option Int) (most : Int)
    (x : Except Failure Range) : Prop where
  | outside (hbehind : lines.length < max 1 startLine) (hwritable : IsWritable startLine)
      (hx : x = .error (.lineOutside startLine lines.length))
  | unwritable (hbehind : lines.length < max 1 startLine) (hlong : ¬ IsWritable startLine)
      (hx : x = .error .numberTooLong)
  | given (r : Range) (hfirst : max 1 startLine ≤ lines.length)
      (hreaches : Reaches (max 1 startLine) endLine) (hstart : r.first = max 1 startLine)
      (hsection : IsSection lines r) (hcount : r.lines.length ≤ most) (hx : x = .ok r)
  | crossed (r : Range) (hfirst : max 1 startLine ≤ lines.length)
      (hreaches : ¬ Reaches (max 1 startLine) endLine) (horder : r.last + 1 < r.first)
      (hnone : r.lines = []) (hx : x = .ok r)
  | refused (e : Failure) (hfirst : max 1 startLine ≤ lines.length)
      (hreaches : ¬ Reaches (max 1 startLine) endLine)
      (he : e = .invalid Range.modelName [⟨[.field "end_line"], .below 0⟩] ∨ e = .numberTooLong)
      (hx : x = .error e)

section Read

variable {w : World} {a : Address} {lines : List String} {startLine most : Int} {endLine : Option Int}

/-- A stop is logged if its number can be written. -/
theorem hasResult_logStop_ok (path : String) {total : Int} (htotal : IsWritable total)
    (hlast : IsWritable (lastLine (max 1 startLine) endLine most total)) :
    (logStop path total startLine endLine most).HasResult (.ok ()) := by
  unfold logStop
  simp only
  split
  · rw [Text.decimal?_eq_some hlast, Text.decimal?_eq_some htotal]
    exact Action.hasResult_log _ _ _
  · exact Action.hasResult_done _

/-- Only a number below zero can be longer than that of the last line of the file. -/
theorem hasResult_logStop (path : String) (total startLine : Int) (endLine : Option Int) (most : Int)
    (htotal : IsWritable total) :
    (logStop path total startLine endLine most).HasResult (.ok ()) ∨
      lastLine (max 1 startLine) endLine most total < 0 ∧ max 1 startLine ≤ total ∧
        (logStop path total startLine endLine most).HasResult (.error .numberTooLong) := by
  by_cases hlast : IsWritable (lastLine (max 1 startLine) endLine most total)
  · exact Or.inl (hasResult_logStop_ok path htotal hlast)
  · unfold logStop
    simp only
    split
    · rename_i hstop
      rw [Text.decimal?_eq_none hlast]
      refine Or.inr ⟨?_, hstop.1, Action.hasResult_fail _⟩
      by_contra hneg
      exact hlast (htotal.of_le (by omega) hstop.2.le)
    · exact Or.inl (Action.hasResult_done _)

theorem rangeOf_outside (path : String) (h : lines.length < max 1 startLine) :
    rangeOf path lines startLine endLine most = .error (outside startLine lines.length) := by
  rw [rangeOf]
  exact if_pos h

theorem rangeOf_inside (path : String) (h : max 1 startLine ≤ lines.length) :
    rangeOf path lines startLine endLine most
      = if lastLine (max 1 startLine) endLine most lines.length < 0 then
          .error (.invalid Range.modelName [⟨[.field "end_line"], .below 0⟩])
        else
          .ok (cutOut path lines (max 1 startLine)
            (lastLine (max 1 startLine) endLine most lines.length)) := by
  rw [rangeOf]
  exact if_neg (by omega)

/-- What cutting a range out comes to, once its first line is there. -/
theorem rangeOutcome_inside (path : String) (hfirst : max 1 startLine ≤ lines.length)
    (hmost : 1 ≤ most) (endLine : Option Int) :
    RangeOutcome lines startLine endLine most (rangeOf path lines startLine endLine most) := by
  have hone : 1 ≤ max 1 startLine := le_max_left _ _
  have hreach : max 1 startLine ≤ lastLine (max 1 startLine) endLine most lines.length + 1 ↔
      Reaches (max 1 startLine) endLine := le_lastLine_iff hfirst hmost
  have htotal : lastLine (max 1 startLine) endLine most lines.length ≤ lines.length := lastLine_le_total
  have hmany : lastLine (max 1 startLine) endLine most lines.length ≤ max 1 startLine + most - 1 :=
    lastLine_le_most
  rw [rangeOf_inside path hfirst]
  generalize lastLine (max 1 startLine) endLine most lines.length = last at hreach htotal hmany ⊢
  have hlength := length_cutOut path hone htotal
  by_cases hneg : last < 0
  · rw [if_pos hneg]
    refine .refused _ hfirst (fun h => ?_) (Or.inl rfl) rfl
    have := hreach.mpr h
    omega
  · rw [if_neg hneg]
    by_cases hreaches : Reaches (max 1 startLine) endLine
    · have horder := hreach.mpr hreaches
      refine .given _ hfirst hreaches rfl (isSection_cutOut path hone horder htotal) ?_ rfl
      rw [hlength]
      omega
    · have horder := mt hreach.mp hreaches
      refine .crossed _ hfirst hreaches (show last + 1 < max 1 startLine by omega) ?_ rfl
      rw [← List.length_eq_zero_iff, hlength]
      omega

/-- A reading comes to the range that is cut out, once its stop is logged. -/
theorem hasResult_readRange (hlines : readLines w a = .ok lines) {r : Except Failure Unit}
    (hr : (logStop a.text lines.length startLine endLine most).HasResult r) :
    (readRange w a startLine endLine most).HasResult
      (r >>= fun _ => rangeOf a.text lines startLine endLine most) :=
  (Action.hasResult_lift_of_eq hlines).bind (hr.seq fun _ _ => Action.hasResult_lift _)

/-- A range whose first line is there, and whose last line is none or at least numbered zero, is cut out. -/
theorem hasResult_readRange_cutOut {first last : Int} (hlines : readLines w a = .ok lines)
    (hfile : IsWritable lines.length) (hfirst : 1 ≤ first) (hthere : first ≤ lines.length)
    (hlast : lastLine first endLine most lines.length = last) (hnonneg : 0 ≤ last) :
    (readRange w a first endLine most).HasResult (.ok (cutOut a.text lines first last)) := by
  have hone : max 1 first = first := max_eq_right hfirst
  have htotal : last ≤ lines.length := hlast ▸ lastLine_le_total
  have hlog : (logStop a.text lines.length first endLine most).HasResult (.ok ()) := by
    refine hasResult_logStop_ok a.text hfile ?_
    rw [hone, hlast]
    exact hfile.of_le hnonneg htotal
  have hrange : rangeOf a.text lines first endLine most = .ok (cutOut a.text lines first last) := by
    rw [rangeOf_inside a.text (by omega), hone, hlast, if_neg (by omega)]
  rw [← hrange]
  exact hasResult_readRange hlines hlog

/-- **What reading a range comes to**, in a file whose lines can be numbered in writing. -/
theorem rangeOutcome (hlines : readLines w a = .ok lines) (hfile : IsWritable lines.length)
    (hmost : 1 ≤ most) (startLine : Int) (endLine : Option Int) :
    ∃ x, (readRange w a startLine endLine most).HasResult x ∧
      RangeOutcome lines startLine endLine most x := by
  rcases hasResult_logStop a.text lines.length startLine endLine most hfile with hlog |
    ⟨hneg, hfirst, hlog⟩
  · refine ⟨_, hasResult_readRange hlines hlog, ?_⟩
    show RangeOutcome lines startLine endLine most (rangeOf a.text lines startLine endLine most)
    by_cases hbehind : (lines.length : Int) < max 1 startLine
    · rw [rangeOf_outside a.text hbehind]
      by_cases hwritable : IsWritable startLine
      · rw [outside_of_isWritable hwritable hfile]
        exact .outside hbehind hwritable rfl
      · rw [outside_of_not_isWritable hwritable]
        exact .unwritable hbehind hwritable rfl
    · exact rangeOutcome_inside a.text (Int.not_lt.mp hbehind) hmost endLine
  · -- a number below zero that is too long is met when the stop is logged
    refine ⟨_, hasResult_readRange hlines hlog, .refused .numberTooLong hfirst (fun h => ?_) (Or.inr rfl) rfl⟩
    have := (le_lastLine_iff hfirst hmost).mpr h
    omega

end Read

end SourceNavigator.Excerpt
