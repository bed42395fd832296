import SourceNavigator.Proofs.Excerpt.Numbered
import SourceNavigator.Proofs.Excerpt.Range
import SourceNavigator.Proofs.Excerpt.Segments
import SourceNavigator.Proofs.Excerpt.Symbol
import SourceNavigator.Proofs.Results

set_option autoImplicit false

/-! # Windows that are read back

A window shows the lines around a line, each behind a mark, its number and a bar. It can be read back: the
mark is one character, the number ends where its digits end, and the text of the line starts behind the
first bar, whatever blanks, bars and marks the text holds (`readShownLine_render`). Only a newline could
end a line too early, and no line of a file holds one (`newline_not_mem_of_readLines`). So a window says
exactly which lines it shows (`readWindowText_joinLines`).

Without its marks, a window is what a range over the same lines is written as (`withoutMarks_joinLines`,
`render_cutOut`).
-/

namespace SourceNavigator.Excerpt

open SourceNavigator.Path (Address)
open Text (IsWritable)

/-! ## Reading a window -/

/-- A line of a window: whether it is marked, its number, and its text. -/
structure ShownLine where
  isMarked : Bool
  number : Int
  text : String
  deriving DecidableEq

/-- How a line of a window is written. -/
def ShownLine.render (shown : ShownLine) : String :=
  marker shown.isMarked ++ numbered shown.number shown.text

/-- What the mark of a line says. -/
def readMarker : Char → Option Bool
  | '>' => some true
  | ' ' => some false
  | _ => none

/-- A line of a window from its characters: a mark, blanks, digits, a bar between blanks, and the text. -/
def readShownLine : List Char → Option ShownLine
  | [] => none
  | mark :: cs =>
    let cs := cs.dropWhile (· == ' ')
    match cs.dropWhile Char.isDigit with
    | ' ' :: '|' :: ' ' :: text =>
      (readMarker mark).map fun isMarked =>
        ⟨isMarked, Nat.ofDigitChars 10 (cs.takeWhile Char.isDigit) 0, String.ofList text⟩
    | _ => none

/-- The lines that a window shows. -/
def readWindowText (text : String) : Option (List ShownLine) :=
  (Text.cut '\n' text.toList).mapM readShownLine

/-- A window without the column of its marks. -/
def withoutMarks (text : String) : String :=
  joinLines ((Text.cutString '\n' text).map fun line => String.ofList (line.toList.drop 1))

/-! ## One line -/

theorem toList_numbered (n : Nat) (text : String) :
    (numbered n text).toList
      = List.replicate (5 - (Nat.toDigits 10 n).length) ' ' ++
          (Nat.toDigits 10 n ++ ' ' :: '|' :: ' ' :: text.toList) := by
  have hdigits : (toString (n : Int)).toList = Nat.toDigits 10 n := Nat.toList_repr
  have hlength : (toString (n : Int)).length = (Nat.toDigits 10 n).length := by
    rw [← String.length_toList, hdigits]
  have hbar : " | ".toList = [' ', '|', ' '] := by decide
  simp only [numbered, Text.padLeft, String.toList_append, String.toList_ofList, hdigits, hlength, hbar,
    List.append_assoc, List.cons_append, List.nil_append]

theorem dropWhile_blank_append {k n : Nat} (rest : List Char) :
    (List.replicate k ' ' ++ (Nat.toDigits 10 n ++ rest)).dropWhile (· == ' ')
      = Nat.toDigits 10 n ++ rest := by
  induction k with
  | zero =>
      obtain ⟨c, cs, hdigits⟩ := List.exists_cons_of_ne_nil (Nat.toDigits_ne_nil (n := n) (b := 10))
      have hdigit : c.isDigit = true :=
        Nat.isDigit_of_mem_toDigits (by decide) (by decide) (hdigits ▸ List.mem_cons_self)
      have hblank : ¬ (c == ' ') = true := by
        intro hc
        rw [beq_iff_eq.mp hc] at hdigit
        exact absurd hdigit (by decide)
      rw [hdigits]
      exact List.dropWhile_cons_of_neg hblank
  | succ k ih =>
      rw [List.replicate_succ, List.cons_append, List.dropWhile_cons_of_pos (by decide)]
      exact ih

/-- **A line of a window is read back**, whatever its text is. -/
theorem readShownLine_render {shown : ShownLine} (h : 0 ≤ shown.number) :
    readShownLine shown.render.toList = some shown := by
  obtain ⟨isMarked, number, text⟩ := shown
  obtain ⟨n, rfl⟩ := Int.eq_ofNat_of_zero_le h
  have hmark : ∃ mark, (marker isMarked).toList = [mark] ∧ readMarker mark = some isMarked := by
    cases isMarked with
    | true => exact ⟨'>', by decide, rfl⟩
    | false => exact ⟨' ', by decide, rfl⟩
  obtain ⟨mark, hmark, hread⟩ := hmark
  rw [ShownLine.render, String.toList_append, hmark, toList_numbered, List.singleton_append, readShownLine]
  -- the blanks end with the first digit, the digits with the blank before the bar
  simp only [dropWhile_blank_append, Text.dropWhile_isDigit_toDigits, Text.takeWhile_isDigit_toDigits,
    hread, Option.map_some, Nat.ofDigitChars_ten_toDigits, String.ofList_toList]

theorem newline_not_mem_render {shown : ShownLine} (hnumber : 0 ≤ shown.number)
    (htext : '\n' ∉ shown.text.toList) : '\n' ∉ shown.render.toList := by
  obtain ⟨isMarked, number, text⟩ := shown
  obtain ⟨n, rfl⟩ := Int.eq_ofNat_of_zero_le hnumber
  have hmark : '\n' ∉ (marker isMarked).toList := by cases isMarked <;> decide
  have hblanks : '\n' ∉ List.replicate (5 - (Nat.toDigits 10 n).length) ' ' := by
    intro hmem
    exact absurd (List.eq_of_mem_replicate hmem) (by decide)
  have hdigits : '\n' ∉ Nat.toDigits 10 n := by
    intro hmem
    have hdigit := Nat.isDigit_of_mem_toDigits (by decide) (by decide) hmem
    exact absurd hdigit (by decide)
  rw [ShownLine.render, String.toList_append, toList_numbered]
  simp only [List.mem_append, List.mem_cons, not_or]
  exact ⟨hmark, hblanks, hdigits, by decide, by decide, by decide, htext⟩

/-! ## All lines -/

section Windows

variable {shown : List ShownLine}

theorem cutString_joinLines (hne : shown ≠ []) (hnumbers : ∀ l ∈ shown, 0 ≤ l.number)
    (htexts : ∀ l ∈ shown, '\n' ∉ l.text.toList) :
    Text.cutString '\n' (joinLines (shown.map ShownLine.render)) = shown.map ShownLine.render := by
  refine Text.cutString_glueStrings_newline (by simpa using hne) fun text htext => ?_
  obtain ⟨l, hl, rfl⟩ := List.mem_map.mp htext
  exact newline_not_mem_render (hnumbers l hl) (htexts l hl)

/-- **A window is read back.** -/
theorem readWindowText_joinLines (hne : shown ≠ []) (hnumbers : ∀ l ∈ shown, 0 ≤ l.number)
    (htexts : ∀ l ∈ shown, '\n' ∉ l.text.toList) :
    readWindowText (joinLines (shown.map ShownLine.render)) = some shown := by
  have hcut : Text.cut '\n' (joinLines (shown.map ShownLine.render)).toList
      = shown.map fun l => l.render.toList := by
    have hstrings := congrArg (List.map String.toList) (cutString_joinLines hne hnumbers htexts)
    rw [Text.cutString, List.map_map, List.map_map] at hstrings
    simpa [Function.comp_def] using hstrings
  rw [readWindowText, hcut, List.mapM_map]
  -- what is left is to read each line on its own
  clear hcut hne htexts
  induction shown with
  | nil => rfl
  | cons l rest ih =>
      have hrest := ih fun l hl => hnumbers l (List.mem_cons_of_mem _ hl)
      have hfirst := readShownLine_render (hnumbers l List.mem_cons_self)
      rw [List.mapM_cons]
      simp only [Function.comp_apply, hfirst, hrest]
      rfl

theorem withoutMarks_joinLines (hne : shown ≠ []) (hnumbers : ∀ l ∈ shown, 0 ≤ l.number)
    (htexts : ∀ l ∈ shown, '\n' ∉ l.text.toList) :
    withoutMarks (joinLines (shown.map ShownLine.render))
      = joinLines (shown.map fun l => numbered l.number l.text) := by
  rw [withoutMarks, cutString_joinLines hne hnumbers htexts, List.map_map]
  refine congrArg joinLines (List.map_congr_left fun l _ => ?_)
  have hmark : (marker l.isMarked).toList.length = 1 := by cases l.isMarked <;> decide
  rw [Function.comp_apply, ShownLine.render, String.toList_append, List.drop_left' hmark,
    String.ofList_toList]

end Windows

/-! ## The lines of a file -/

theorem newline_not_mem_linesOf {content : List UInt8} {text : String} (h : text ∈ linesOf content) :
    '\n' ∉ text.toList := by
  obtain ⟨cs, hcs, rfl⟩ := List.mem_map.mp h
  obtain ⟨piece, hpiece, rfl⟩ := List.mem_map.mp hcs
  rw [String.toList_ofList, dropReturns, Text.dropEndWhile_eq_rdropWhile]
  exact fun hmem => Text.not_mem_of_mem_cut hpiece ((List.rdropWhile_prefix _ _).mem hmem)

theorem exists_linesOf_of_readLines {w : World} {a : Address} {lines : List String}
    (h : readLines w a = .ok lines) : ∃ content, w.octetsAt a = .ok content ∧ lines = linesOf content := by
  unfold readLines at h
  split at h
  · rename_i content hcontent
    exact ⟨content, hcontent, (Except.ok.inj h).symm⟩
  · cases h
  · cases h

theorem newline_not_mem_of_readLines {w : World} {a : Address} {lines : List String}
    (h : readLines w a = .ok lines) {text : String} (htext : text ∈ lines) : '\n' ∉ text.toList := by
  obtain ⟨content, -, rfl⟩ := exists_linesOf_of_readLines h
  exact newline_not_mem_linesOf htext

/-! ## Windows of a file -/

/-- The number of the first line of a window. -/
def windowStart (line before : Int) : Int := max 1 (line - max 0 before)

/-- The number of the last line of a window. -/
def windowEnd (lines : List String) (line after : Int) : Int :=
  min (lines.length : Int) (line + max 0 after)

/-- The lines from `first` to `last`, with the mark before line `target`. -/
def shownBetween (lines : List String) (target first last : Int) : List ShownLine :=
  (rowsBetween lines first last).map fun row => ⟨row.1 == target, row.1, row.2⟩

section Files

variable {lines : List String} {line first last : Int}

theorem windowLines_eq (hholds : Holds lines line) (before after : Int) :
    windowLines lines line before after
      = (shownBetween lines line (windowStart line before) (windowEnd lines line after)).map
          ShownLine.render := by
  obtain ⟨hlow, hhigh⟩ := hholds
  have hstart : 1 ≤ windowStart line before := le_max_left _ _
  have hend : windowEnd lines line after ≤ lines.length := min_le_left _ _
  have hnumber : (((line - 1 - before.toNat).toNat : Nat) : Int) + 1 = windowStart line before := by
    rw [windowStart]
    omega
  have hposition : (line - 1 - before.toNat).toNat = (windowStart line before - 1).toNat := by omega
  -- lines behind the last one of the file are asked for in vain
  have htake : lines.take (line + after.toNat).toNat
      = lines.take (windowEnd lines line after).toNat := by
    have hlast : min (line + after.toNat).toNat lines.length = (windowEnd lines line after).toNat := by
      rw [windowEnd]
      omega
    rw [List.take_eq_take_min, hlast]
  calc windowLines lines line before after
      = markedFrom line (windowStart line before)
          ((lines.take (windowEnd lines line after).toNat).drop (windowStart line before - 1).toNat) := by
        rw [← hposition, ← htake, ← hnumber]
        rfl
    _ = (rowsBetween lines (windowStart line before) (windowEnd lines line after)).map fun row =>
          marker (row.1 == line) ++ numbered row.1 row.2 := markedFrom_slice line hstart hend
    _ = (shownBetween lines line (windowStart line before) (windowEnd lines line after)).map
          ShownLine.render := by
        rw [shownBetween, List.map_map]
        rfl

theorem mem_shownBetween {shown : ShownLine} (h : shown ∈ shownBetween lines line first last) :
    first ≤ shown.number ∧ shown.text ∈ lines ∧ shown.isMarked = (shown.number == line) := by
  obtain ⟨row, hrow, rfl⟩ := List.mem_map.mp h
  obtain ⟨hfirst, -, hline⟩ := mem_rowsBetween hrow
  exact ⟨hfirst, mem_of_line? hline, rfl⟩

/-- Each number from the first one to the last one is shown once, and in order. -/
theorem numbers_shownBetween (hfirst : 1 ≤ first) (hlast : last ≤ lines.length) :
    (shownBetween lines line first last).map (·.number)
      = (List.range (last + 1 - first).toNat).map fun k : Nat => first + k := by
  rw [shownBetween, List.map_map]
  exact map_fst_rowsBetween hfirst hlast

/-- **One line is marked.** -/
theorem marked_shownBetween (hfirst : 1 ≤ first) (hlast : last ≤ lines.length) (hlow : first ≤ line)
    (hhigh : line ≤ last) :
    ((shownBetween lines line first last).filter (·.isMarked)).map (·.number) = [line] := by
  have hmarks : (shownBetween lines line first last).filter (·.isMarked)
      = (shownBetween lines line first last).filter ((· == line) ∘ (·.number)) :=
    List.filter_congr fun shown hshown => (mem_shownBetween hshown).2.2
  have hnodup : ((List.range (last + 1 - first).toNat).map fun k : Nat => first + k).Nodup := by
    refine List.nodup_range.map fun m n hmn => ?_
    have hmn : first + (m : Int) = first + n := hmn
    omega
  have hmem : line ∈ (List.range (last + 1 - first).toNat).map fun k : Nat => first + k :=
    List.mem_map.mpr ⟨(line - first).toNat, List.mem_range.mpr (by omega), by omega⟩
  rw [hmarks, ← List.filter_map, numbers_shownBetween hfirst hlast, List.filter_beq,
    List.count_eq_one_of_mem hnodup hmem, List.replicate_one]

/-! ## Ranges over the same lines -/

theorem lastLine_some {most total : Int} (hfirst : 1 ≤ first) (horder : first ≤ last)
    (hlast : last ≤ total) (hmost : last - first + 1 ≤ most) :
    lastLine first (some last) most total = last := by
  have hallowed : last ≤ min total (first + most - 1) := le_min hlast (by omega)
  have hzero : last ≠ 0 := by omega
  simp only [lastLine, if_neg hzero]
  exact min_eq_left hallowed

theorem render_cutOut (path : String) (hfile : IsWritable lines.length) (hfirst : 1 ≤ first)
    (horder : first ≤ last) (hlast : last ≤ lines.length) :
    (cutOut path lines first last).render
      = .ok (joinLines ((rowsBetween lines first last).map fun row => numbered row.1 row.2)) := by
  have hlength := length_cutOut path hfirst hlast
  have hnumber : (cutOut path lines first last).first + (cutOut path lines first last).lines.length - 1
      = last := by
    rw [hlength]
    show first + ((last - first + 1).toNat : Int) - 1 = last
    omega
  have hwritable : IsWritable last := hfile.of_le (by omega) hlast
  rw [Range.render, hnumber, Text.decimal?_eq_some hwritable, if_pos (by simp),
    ← numberedFrom_slice hfirst hlast]
  rfl

/-! ## What a window shows -/

/-- A text shows the lines from `first` to `last` and no others, each once and in order, with one mark,
before line `target`. -/
structure ShowsWindow (lines : List String) (target first last : Int) (text : String) : Prop where
  reads : readWindowText text = some (shownBetween lines target first last)
  numbers : (shownBetween lines target first last).map (·.number)
    = (List.range (last + 1 - first).toNat).map fun k : Nat => first + k
  marked : ((shownBetween lines target first last).filter (·.isMarked)).map (·.number) = [target]

/-- Without its marks, a text is what a range from `first` to `last` is written as, if enough lines may be
read at once. -/
def AgreesWithRange (w : World) (a : Address) (first last : Int) (text : String) : Prop :=
  ∀ most, last - first + 1 ≤ most →
    ∃ r, (readRange w a first (some last) most).HasResult (.ok r) ∧ r.render = .ok (withoutMarks text)

variable {w : World} {a : Address}

theorem shownBetween_ne_nil (hfirst : 1 ≤ first) (hlast : last ≤ lines.length) (hlow : first ≤ line)
    (hhigh : line ≤ last) : shownBetween lines line first last ≠ [] := by
  intro hnil
  have hmarked := marked_shownBetween hfirst hlast hlow hhigh
  rw [hnil] at hmarked
  cases hmarked

theorem showsWindow_joinLines (hlines : readLines w a = .ok lines) (hfirst : 1 ≤ first)
    (hlast : last ≤ lines.length) (hlow : first ≤ line) (hhigh : line ≤ last) :
    ShowsWindow lines line first last
      (joinLines ((shownBetween lines line first last).map ShownLine.render)) := by
  refine ⟨readWindowText_joinLines (shownBetween_ne_nil hfirst hlast hlow hhigh) ?_ ?_,
    numbers_shownBetween hfirst hlast, marked_shownBetween hfirst hlast hlow hhigh⟩
  · intro l hl
    have hnumber := (mem_shownBetween hl).1
    omega
  · intro l hl
    exact newline_not_mem_of_readLines hlines (mem_shownBetween hl).2.1

theorem agreesWithRange_joinLines (hlines : readLines w a = .ok lines) (hfile : IsWritable lines.length)
    (hfirst : 1 ≤ first) (hlast : last ≤ lines.length) (hlow : first ≤ line) (hhigh : line ≤ last) :
    AgreesWithRange w a first last
      (joinLines ((shownBetween lines line first last).map ShownLine.render)) := by
  intro most hmost
  have horder := hlow.trans hhigh
  have hend := lastLine_some hfirst horder hlast hmost
  refine ⟨cutOut a.text lines first last, hasResult_readRange_cutOut hlines hfile hfirst
    (horder.trans hlast) hend (by omega), ?_⟩
  rw [render_cutOut a.text hfile hfirst horder hlast,
    withoutMarks_joinLines (shownBetween_ne_nil hfirst hlast hlow hhigh), shownBetween, List.map_map]
  · rfl
  · intro l hl
    have hnumber := (mem_shownBetween hl).1
    omega
  · intro l hl
    exact newline_not_mem_of_readLines hlines (mem_shownBetween hl).2.1

theorem readWindow_of_holds (hlines : readLines w a = .ok lines) (hholds : Holds lines line)
    (before after : Int) :
    readWindow w a line before after
      = .ok (joinLines ((shownBetween lines line (windowStart line before)
          (windowEnd lines line after)).map ShownLine.render)) := by
  rw [readWindow, hlines, ← windowLines_eq hholds]
  simp only [window, checkLine_of_holds hholds]
  rfl

theorem readWindow_of_not_holds (hlines : readLines w a = .ok lines) (hholds : ¬ Holds lines line)
    (before after : Int) :
    readWindow w a line before after = .error (outside line lines.length) := by
  rw [readWindow, hlines]
  simp only [window, checkLine_of_not_holds hholds]
  rfl

/-- **A window says which lines it shows.** Around a line that is there it shows the lines that are asked
for and there, and agrees with a range over them, as far as their numbers can be written. Around any other
line there is no window, and the failure says so if it can put the number of the line into words. -/
theorem readWindow_decodes (hlines : readLines w a = .ok lines) (line before after : Int) :
    (Holds lines line →
      ∃ text, readWindow w a line before after = .ok text ∧
        ShowsWindow lines line (windowStart line before) (windowEnd lines line after) text ∧
        (IsWritable lines.length →
          AgreesWithRange w a (windowStart line before) (windowEnd lines line after) text)) ∧
      (¬ Holds lines line →
        (IsWritable line → IsWritable lines.length →
          readWindow w a line before after = .error (.lineOutside line lines.length)) ∧
        (¬ IsWritable line → readWindow w a line before after = .error .numberTooLong)) := by
  constructor
  · rintro ⟨hlow, hhigh⟩
    have hstart : 1 ≤ windowStart line before := le_max_left _ _
    have hend : windowEnd lines line after ≤ lines.length := min_le_left _ _
    have habove : windowStart line before ≤ line := max_le hlow (by omega)
    have hbelow : line ≤ windowEnd lines line after := le_min hhigh (by omega)
    exact ⟨_, readWindow_of_holds hlines ⟨hlow, hhigh⟩ before after,
      showsWindow_joinLines hlines hstart hend habove hbelow,
      fun hfile => agreesWithRange_joinLines hlines hfile hstart hend habove hbelow⟩
  · intro hholds
    have hfails := readWindow_of_not_holds hlines hholds before after
    constructor
    · intro hline hfile
      rw [hfails, outside_of_isWritable hline hfile]
    · intro hline
      rw [hfails, outside_of_not_isWritable hline]

end Files

/-! A line that looks like a line of a window itself. -/

/-- A world with a file of three lines. -/
def lookalikes : World :=
  ⟨.dir [("f.php", .file ("a\n>    1 | b\r\nc".toList.map fun c => .ofNat c.toNat))], [], "/", [], []⟩

/-- The address of the file. -/
def lookalikesAddress : Address := Path.Route.address ⟨.root, ["f.php"]⟩

/-- Its lines. -/
def lookalikeLines : List String := ["a", ">    1 | b", "c"]

theorem readLines_lookalikes : readLines lookalikes lookalikesAddress = .ok lookalikeLines :=
  eq_ok_of_toOption (by decide)

theorem readWindow_decodes_lookalike :
    readLines lookalikes lookalikesAddress = .ok lookalikeLines ∧
      Holds lookalikeLines 3 ∧ IsWritable lookalikeLines.length ∧
      ¬ Holds lookalikeLines 4 ∧ IsWritable 4 ∧
      (∃ text, readWindow lookalikes lookalikesAddress 3 1 7 = .ok text ∧
        readWindowText text = some [⟨false, 2, ">    1 | b"⟩, ⟨true, 3, "c"⟩] ∧
        AgreesWithRange lookalikes lookalikesAddress 2 3 text) ∧
      readWindow lookalikes lookalikesAddress 4 1 7 = .error (.lineOutside 4 3) := by
  have hholds : Holds lookalikeLines 3 := ⟨by decide, by decide⟩
  have hfile : IsWritable lookalikeLines.length := Text.isWritable_of_natAbs_lt (by decide)
  have hbehind : ¬ Holds lookalikeLines 4 := fun h => absurd h.2 (by decide)
  have hfour : IsWritable 4 := Text.isWritable_of_natAbs_lt (by decide)
  obtain ⟨text, htext, hshows, hagrees⟩ := (readWindow_decodes readLines_lookalikes 3 1 7).1 hholds
  refine ⟨readLines_lookalikes, hholds, hfile, hbehind, hfour, ⟨text, htext, ?_, hagrees hfile⟩,
    ((readWindow_decodes readLines_lookalikes 4 1 7).2 hbehind).1 hfour hfile⟩
  rw [hshows.reads]
  exact congrArg some (by decide)

/-- **A line number of 4301 digits has a failure of its own**, not that of a line outside the file. -/
theorem long_line_number_fails :
    readLines lookalikes lookalikesAddress = .ok lookalikeLines ∧
      ¬ Holds lookalikeLines (10 ^ Text.maxDigits) ∧
      readWindow lookalikes lookalikesAddress (10 ^ Text.maxDigits) 0 0 = .error .numberTooLong ∧
      Failure.numberTooLong.isNavigation = false := by
  have hlong : ¬ IsWritable (10 ^ Text.maxDigits) := by
    rw [Text.isWritable_iff_lt (by positivity)]
    exact lt_irrefl _
  have hbehind : ¬ Holds lookalikeLines (10 ^ Text.maxDigits) := by
    intro h
    exact hlong (Text.IsWritable.of_le (Text.isWritable_of_natAbs_lt (by decide)) (by positivity) h.2)
  refine ⟨readLines_lookalikes, hbehind, ?_, rfl⟩
  rw [readWindow_of_not_holds readLines_lookalikes hbehind, outside_of_not_isWritable hlong]

end SourceNavigator.Excerpt
