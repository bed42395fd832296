import SourceNavigator.Proofs.Excerpt.Range
import SourceNavigator.Proofs.Navigation.Containment

set_option autoImplicit false

/-! # The part of a file that is shown

A reader who asks for lines of a file is promised a section of it, with no more lines than are allowed,
or to be told that the first line is not there (`KeepsContract`). The promise is kept exactly if the end
that is asked for is not two lines or more before the first line, and the number of a first line that is
not there can be written (`readRange_keepsContract_iff`). Otherwise the range ends before it begins, or the
reading fails in another way (`crossed_range_breaks_contract`). The navigator shows what the reading gives
and fails where it fails (`ShowsRange`).
-/

namespace SourceNavigator.Navigation

open Excerpt (Range IsSection RangeOutcome Reaches readLines readRange)
open SourceNavigator.Path (Address Route)
open Text (IsWritable)

/-- What is promised of reading at most `most` lines from `startLine` on: a section of the lines that
starts there, or the failure that there is no such line. -/
def KeepsContract (lines : List String) (startLine most : Int) : Except Failure Range → Prop
  | .error e => lines.length < max 1 startLine ∧ e = .lineOutside startLine lines.length
  | .ok r =>
    max 1 startLine ≤ lines.length ∧ r.first = max 1 startLine ∧ IsSection lines r ∧
      r.lines.length ≤ most

/-- The lines that are asked for can be given, or their absence can be reported. -/
def IsAnswerable (total startLine : Int) (endLine : Option Int) : Prop :=
  (max 1 startLine ≤ total → Reaches (max 1 startLine) endLine) ∧
    (total < max 1 startLine → IsWritable startLine)

theorem RangeOutcome.keepsContract_iff {lines : List String} {startLine most : Int}
    {endLine : Option Int} {x : Except Failure Range} (h : RangeOutcome lines startLine endLine most x) :
    KeepsContract lines startLine most x ↔ IsAnswerable lines.length startLine endLine := by
  cases h with
  | outside hbehind hwritable hx =>
      subst hx
      exact iff_of_true ⟨hbehind, rfl⟩ ⟨fun hfirst => absurd hbehind (not_lt.mpr hfirst), fun _ => hwritable⟩
  | unwritable hbehind hlong hx =>
      subst hx
      exact iff_of_false (fun h => (by cases h.2)) fun h => hlong (h.2 hbehind)
  | given r hfirst hreaches hstart hsection hcount hx =>
      subst hx
      exact iff_of_true ⟨hfirst, hstart, hsection, hcount⟩
        ⟨fun _ => hreaches, fun hbehind => absurd hbehind (not_lt.mpr hfirst)⟩
  | crossed r hfirst hreaches horder hnone hx =>
      subst hx
      refine iff_of_false (fun h => ?_) fun h => hreaches (h.1 hfirst)
      -- a section has as many lines as it says
      have hcount := h.2.2.1.count_eq
      omega
  | refused e hfirst hreaches he hx =>
      subst hx
      exact iff_of_false (fun h => absurd h.1 (not_lt.mpr hfirst)) fun h => hreaches (h.1 hfirst)

/-! ## What the navigator shows -/

/-- The first line that is asked for. Without one, or with zero, it is the first line of the file. -/
def askedFirst : Option Int → Int
  | none => 1
  | some k => if k = 0 then 1 else k

/-- The navigator shows what reading a range of the file at a path comes to: the range under the normal
form of the path, or the failure. -/
def ShowsRange (n : Navigator) (path : String) (asked endLine : Option Int)
    (x : Except Failure Range) : Prop :=
  ∃ shown, normalText path = .ok shown ∧
    match x with
    | .error e => (n.showFile path asked endLine).HasResult (.error e)
    | .ok r => ∃ text, Navigator.fileReport shown r = .ok text ∧
        (n.showFile path asked endLine).HasResult (.ok text)

/-- The numbers of a range that was read are no longer than that of the last line of the file. -/
theorem exists_fileReport_eq {lines : List String} {startLine most : Int} {endLine : Option Int}
    {r : Range} (hfile : IsWritable lines.length)
    (h : RangeOutcome lines startLine endLine most (.ok r)) (shown : String) :
    ∃ text, Navigator.fileReport shown r = .ok text := by
  have hrender : ∃ body, r.render = .ok body := by
    unfold Range.render
    cases h with
    | given r' hfirst hreaches hstart hsection hcount hx =>
        obtain rfl := Except.ok.inj hx
        -- the last number is that of a line of the file, also if the section is empty
        have hnumber : IsWritable (r.first + r.lines.length - 1) := by
          rw [hsection.count_eq]
          by_cases hempty : r.last < r.first
          · have hone := hsection.one_le
            have hcount := hsection.count_eq
            exact hfile.of_le (by omega) (by have := hsection.last_le; omega)
          · have hone := hsection.one_le
            exact hfile.of_le (by omega) (by have := hsection.last_le; omega)
        rw [Text.decimal?_eq_some hnumber]
        simp
    | crossed r' hfirst hreaches horder hnone hx =>
        obtain rfl := Except.ok.inj hx
        rw [hnone]
        exact ⟨_, rfl⟩
    | outside _ _ hx => cases hx
    | unwritable _ _ hx => cases hx
    | refused e _ _ _ hx => cases hx
  obtain ⟨body, hbody⟩ := hrender
  rw [Navigator.fileReport, hbody]
  exact ⟨_, rfl⟩

theorem normalText_of_resolveSafe {w : World} {root p : Route} {path : String}
    (h : w.resolveSafe root path = .ok p) : ∃ shown, normalText path = .ok shown := by
  unfold World.resolveSafe at h
  unfold normalText
  cases hnormal : Path.normalize path with
  | error refusal =>
      rw [hnormal] at h
      cases h
  | ok r => exact ⟨r.text, rfl⟩

theorem showsRange {n : Navigator} {path : String} {p : Route} {asked endLine : Option Int}
    {lines : List String} {x : Except Failure Range} (hpath : path ≠ "")
    (hsafe : n.world.resolveSafe n.root path = .ok p) (hfile : IsWritable lines.length)
    (hx : (readRange n.world p.address (askedFirst asked) endLine n.settings.limits.readLines).HasResult x)
    (houtcome : RangeOutcome lines (askedFirst asked) endLine n.settings.limits.readLines x) :
    ShowsRange n path asked endLine x := by
  obtain ⟨shown, hshown⟩ := normalText_of_resolveSafe hsafe
  have hresult : (n.showFile path asked endLine).HasResult
      (x >>= fun r => Navigator.fileReport shown r) := by
    unfold Navigator.showFile
    rw [if_neg (by simpa using hpath), safeRoute_of_resolveSafe hsafe, Action.done_bind]
    refine (Action.hasResult_lift_of_eq hshown).bind ?_
    cases asked with
    | none => exact hx.seq fun r _ => Action.hasResult_lift _
    | some k => exact hx.seq fun r _ => Action.hasResult_lift _
  refine ⟨shown, hshown, ?_⟩
  cases x with
  | error e => exact hresult
  | ok r =>
      obtain ⟨text, htext⟩ := exists_fileReport_eq hfile houtcome shown
      refine ⟨text, htext, ?_⟩
      rw [← htext]
      exact hresult

/-- **When reading a range keeps its contract.** It does so exactly if the end that is asked for is none,
or not before the line before the first one, and if the number of a first line that is not there can be
written. The navigator shows what the reading comes to in any case. -/
theorem readRange_keepsContract_iff {w : World} {a : Address} {lines : List String} {most : Int}
    (hlines : readLines w a = .ok lines) (hfile : IsWritable lines.length) (hmost : 1 ≤ most)
    (startLine : Int) (endLine : Option Int) :
    ∃ x, (readRange w a startLine endLine most).HasResult x ∧
      (KeepsContract lines startLine most x ↔ IsAnswerable lines.length startLine endLine) ∧
      ∀ (n : Navigator) (path : String) (p : Route) (asked : Option Int),
        n.world = w → n.settings.limits.readLines = most → path ≠ "" →
        w.resolveSafe n.root path = .ok p → p.address = a → askedFirst asked = startLine →
          ShowsRange n path asked endLine x := by
  obtain ⟨x, hx, houtcome⟩ := Excerpt.rangeOutcome hlines hfile hmost startLine endLine
  refine ⟨x, hx, RangeOutcome.keepsContract_iff houtcome, ?_⟩
  rintro n path p asked rfl rfl hpath hsafe rfl rfl
  exact showsRange hpath hsafe hfile hx houtcome

/-! A file of three lines. -/

/-- A world with a file of three lines, the first of which ends in a carriage return. -/
def threeLines : World :=
  ⟨.dir [("f.php", .file [97, 13, 10, 98, 10, 99])], [], "/", [], []⟩

/-- The address of the file. -/
def threeAddress : Address := Route.address ⟨.root, ["f.php"]⟩

theorem readLines_threeLines : readLines threeLines threeAddress = .ok ["a", "b", "c"] := by
  exact eq_ok_of_toOption (by decide)

theorem isWritable_three : IsWritable (["a", "b", "c"].length : Int) :=
  Text.isWritable_of_natAbs_lt (by decide)

theorem readRange_keepsContract_clamped :
    readLines threeLines threeAddress = .ok ["a", "b", "c"] ∧
      IsAnswerable 3 0 (some 9) ∧
      ∃ x, (readRange threeLines threeAddress 0 (some 9) 2).HasResult x ∧
        KeepsContract ["a", "b", "c"] 0 2 x := by
  have hanswerable : IsAnswerable 3 0 (some 9) := by
    refine ⟨fun _ e he => ?_, fun h => ?_⟩
    · cases he
      exact Or.inr (by decide)
    · exact absurd h (by decide)
  obtain ⟨x, hx, hiff, -⟩ := readRange_keepsContract_iff readLines_threeLines isWritable_three
    (by decide : (1 : Int) ≤ 2) 0 (some 9)
  exact ⟨readLines_threeLines, hanswerable, x, hx, hiff.mpr hanswerable⟩

/-- **A range can end before it begins.** Asked for the lines from the third to the first, the reader gets
a range with no lines that is said to go from line 3 to line 1. Asked for an end below zero, it fails, and
not with a failure of navigation. -/
theorem crossed_range_breaks_contract :
    (readRange threeLines threeAddress 3 (some 1) 500).HasResult
        (.ok ⟨"/f.php", 3, 1, 3, []⟩) ∧
      ¬ KeepsContract ["a", "b", "c"] 3 500 (.ok ⟨"/f.php", 3, 1, 3, []⟩) ∧
      (readRange threeLines threeAddress 1 (some (-1)) 500).HasResult
        (.error (.invalid "LineRange" [⟨[.field "end_line"], .below 0⟩])) ∧
      (Failure.invalid "LineRange" [⟨[.field "end_line"], .below 0⟩]).isNavigation = false ∧
      ¬ KeepsContract ["a", "b", "c"] 1 500
        (.error (.invalid "LineRange" [⟨[.field "end_line"], .below 0⟩])) := by
  have hread {startLine endLine : Int}
      (hlast : (Excerpt.lastLine (max 1 startLine) (some endLine) 500 3).natAbs < 10) :
      (readRange threeLines threeAddress startLine (some endLine) 500).HasResult
        (Excerpt.rangeOf "/f.php" ["a", "b", "c"] startLine (some endLine) 500) :=
    Excerpt.hasResult_readRange readLines_threeLines
      (Excerpt.hasResult_logStop_ok _ isWritable_three (Text.isWritable_of_natAbs_lt hlast))
  refine ⟨hread (by decide), fun h => ?_, hread (by decide), rfl, fun h => ?_⟩
  · have hcount := h.2.2.1.count_eq
    exact absurd hcount (by decide)
  · exact absurd h.1 (by decide)

end SourceNavigator.Navigation
