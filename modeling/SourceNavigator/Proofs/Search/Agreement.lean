import SourceNavigator.Excerpt.Window
import SourceNavigator.Proofs.Excerpt.Segments
import SourceNavigator.Proofs.Excerpt.Symbol
import SourceNavigator.Proofs.Search.Aggregation
import SourceNavigator.Proofs.Search.Decoding

set_option autoImplicit false

/-! # Reports of an engine and lines of a file

An engine reads files on its own. A line of a file is a segment of its octets to it, which it reports
with the newline, as a text or, where the octets encode none, by the octets themselves
(`ReportsSegment`). A file is read in another way when its lines are shown. The two agree
(`report_agrees_with_file`): what is reported on a line is in the range of the file, and the text of the
match is the line as the file has it, trimmed.
-/

namespace SourceNavigator.Search

open Excerpt (Holds readLines readSymbol readWindow segments)
open Json (Gap Label Layout named)
open SourceNavigator.Path (Address Route)
open Text (Points)
open Text.Utf8 (decode)

/-! ## Reports -/

/-- The value gives the octets of a segment: as the text that they encode, or in base 64. -/
def SpellsSegment (v : Layout) (segment : List UInt8) : Prop :=
  ∃ inner members, v = .object inner members ∧
    ((∃ t cs, named "text" members = [t] ∧ SpellsText t cs ∧ segment = Text.Utf8.encode cs) ∨
      named "text" members = [] ∧ ∃ t, named "bytes" members = [t] ∧
        SpellsText t (Text.Base64.encode segment))

/-- The value reports a match on a line, and the segment of the file that the line is. -/
def ReportsSegment (v : Layout) (path : Points) (line : Nat) (segment : List UInt8) (column : Nat) :
    Prop :=
  ∃ inner members kind inner' data, v = .object inner members ∧ named "type" members = [kind] ∧
    SpellsText kind matchKind.toList ∧ named "data" members = [.object inner' data] ∧
    (∃ p, named "path" data = [p] ∧ SpellsContent p path) ∧
    named "line_number" data = [.number (.ofNat line)] ∧
    (∃ t, named "lines" data = [t] ∧ SpellsSegment t segment) ∧ SpellsColumn data column

/-- The record of a match. -/
def matchAt (path : Points) (line column : Int) (text : String) : Record :=
  match path.chars? with
  | some cs => .found (String.ofList cs) line column text
  | none => .misnamed path line column text

theorem isMatch_matchAt (path : Points) (line column : Int) (text : String) :
    (matchAt path line column text).isMatch = true := by
  unfold matchAt
  split
  · rfl
  · rfl

theorem eq_of_match?_matchAt {path : Points} {line column : Int} {text : String} {f : Frame} {m : Match}
    (h : (matchAt path line column text).match? f = some m) :
    m.line = line ∧ m.column = column ∧ m.text = Text.strip text := by
  unfold matchAt at h
  split at h
  · rw [Record.match?] at h
    split at h
    · cases h
    · cases h
      exact ⟨rfl, rfl, rfl⟩
  · obtain ⟨file, -, rfl⟩ := Option.map_eq_some_iff.mp h
    exact ⟨rfl, rfl, rfl⟩

/-- A segment is given as the text that its octets are shown as, in both ways. -/
theorem spellsContent_of_spellsSegment {v : Layout} {segment : List UInt8} (h : SpellsSegment v segment) :
    SpellsContent v (Points.ofChars (decode segment)) := by
  obtain ⟨inner, members, rfl, ⟨t, cs, ht, hspells, rfl⟩ | ⟨hnone, t, ht, hspells⟩⟩ := h
  · refine ⟨inner, members, rfl, Or.inl ⟨t, ht, ?_⟩⟩
    rw [Text.Utf8.decode_encode]
    exact hspells
  · exact ⟨inner, members, rfl,
      Or.inr ⟨hnone, t, segment, _, ht, hspells, Text.Utf8.shows_decode segment, rfl⟩⟩

variable {v : Layout} {path : Points} {line column : Nat} {segment : List UInt8}

/-- A report spells the record of its match. -/
theorem spells_matchAt (h : ReportsSegment v path line segment column) (hline : 1 ≤ line) :
    Spells v (matchAt path line column (String.ofList (decode segment))) := by
  obtain ⟨inner, members, kind, inner', data, hv, hkind, htype, hdata, ⟨p, hp, hpath⟩, hnumber,
    ⟨t, ht, hsegment⟩, hcolumn⟩ := h
  have hplace : SpellsPlace data path line (String.ofList (decode segment)) := by
    refine ⟨⟨p, hp, hpath⟩, ⟨line, rfl, hline, hnumber⟩, t, ht, ?_⟩
    rw [Points.ofString, String.toList_ofList]
    exact spellsContent_of_spellsSegment hsegment
  refine ⟨inner, members, kind, inner', data, hv, hkind, ?_, hdata, ?_⟩
  · unfold matchAt
    split
    · exact htype
    · exact htype
  · unfold matchAt
    split
    · -- a path that is a text is spelled with its characters
      rename_i cs hchars
      refine ⟨?_, column, rfl, hcolumn⟩
      rw [Points.ofString, String.toList_ofList, ← Json.eq_ofChars_of_chars? hpath.lt hchars]
      exact hplace
    · rename_i hchars
      exact ⟨hchars, hplace, column, rfl, hcolumn⟩

/-! ## Reports in a stream -/

/-- A report gives a match. Its place is behind the matches that are reported before it, in whatever
stream it stands, as long as the stream is accepted and the cap leaves room; and a stream of nothing else
is accepted if the report can be read and its path is a text. -/
structure GivesMatch (v : Layout) (path : Points) (line column : Nat) (text : String) : Prop where
  inStream : ∀ {f cap out} {before after : Gap} {earlier later : List (List Char)},
    reduce f cap (earlier ++ (before.text ++ (v.text ++ after.text)) :: later) = .ok out →
      (∀ k ∈ cap, ((matchesOf earlier).length : Int) < k) →
        ∃ m, out.found[(matchesOf earlier).length]? = some m ∧
          m.line = line ∧ m.column = column ∧ m.text = text
  alone : ∀ {f cap file} {before after : Gap}, v.isReadable Json.maxDepth = true →
    path = Points.ofChars file.toList → file.isEmpty = false → (∀ k ∈ cap, (0 : Int) < k) →
      reduce f cap [before.text ++ (v.text ++ after.text)]
        = .ok ⟨[⟨f.relative file, line, column, text⟩], [], 1⟩

theorem isBlankLine_object (before after inner : Gap) (members : List (Label × Layout)) :
    Text.isBlankLine (before.text ++ ((Layout.object inner members).text ++ after.text)) = false := by
  rw [Text.isBlankLine, List.all_eq_false]
  refine ⟨'\x7b', ?_, by decide⟩
  simp [Layout.text]

/-- A cap that leaves room for an item keeps it where it is. -/
theorem firstOf_getElem? {α : Type} {cap : Option Int} {before : List α}
    (h : ∀ k ∈ cap, (before.length : Int) < k) (a : α) (after : List α) :
    (firstOf cap (before ++ a :: after))[before.length]? = some a := by
  have hget : (before ++ a :: after)[before.length]? = some a := by
    rw [List.getElem?_append_right (Nat.le_refl _), Nat.sub_self]
    rfl
  cases cap with
  | none => exact hget
  | some k =>
      have hroom := h k rfl
      rw [firstOf, List.getElem?_take_of_lt (by omega)]
      exact hget

/-- The match of a record stands behind those of the records before it. -/
theorem exists_getElem?_found {f : Frame} {cap : Option Int} {earlier later : List (List Char)}
    {reported : List Char} {out : Output} {r : Record} (hrecord : recordsOf [reported] = [r])
    (hmatch : r.isMatch = true) (hroom : ∀ k ∈ cap, ((matchesOf earlier).length : Int) < k)
    (h : reduce f cap (earlier ++ reported :: later) = .ok out) :
    ∃ m, out.found[(matchesOf earlier).length]? = some m ∧ r.match? f = some m := by
  have hmatches : matchesOf (earlier ++ reported :: later) = matchesOf earlier ++ r :: matchesOf later := by
    rw [matchesOf, List.append_cons, recordsOf_append, recordsOf_append, hrecord, List.filter_append,
      List.filter_append, List.filter_cons_of_pos hmatch, List.append_assoc]
    rfl
  -- the sum of a stream has its matches where the records that report them are
  have hfound := (sumsUp_of_reduceFrom (sumsUp_nil f cap) h).found
  have hget := congrArg (fun found => found[(matchesOf earlier).length]?) hfound
  simp only [List.nil_append, hmatches, List.getElem?_map, firstOf_getElem? hroom] at hget
  obtain ⟨m, hm, hsame⟩ := Option.map_eq_some_iff.mp hget
  exact ⟨m, hm, hsame.symm⟩

theorem givesMatch_of_reportsSegment (h : ReportsSegment v path line segment column) (hline : 1 ≤ line) :
    GivesMatch v path line column (Text.strip (String.ofList (decode segment))) := by
  have hspells := spells_matchAt h hline
  have hblank (before after : Gap) :
      Text.isBlankLine (before.text ++ (v.text ++ after.text)) = false := by
    obtain ⟨inner, members, -, -, -, rfl, -⟩ := h
    exact isBlankLine_object before after inner members
  constructor
  · intro f cap out before after earlier later hreduce hroom
    have hreadable : v.isReadable Json.maxDepth = true := by
      -- a stream with a line that cannot be read is not accepted
      have hrecords := (sumsUp_of_reduceFrom (sumsUp_nil f cap) hreduce).areRecords
      rcases hrecords (before.text ++ (v.text ++ after.text)) (by simp) with hno | ⟨r, hr⟩
      · rw [hblank] at hno
        cases hno
      · by_contra hnot
        obtain ⟨fault, hfault⟩ := exists_fault_of_unreadable (Bool.not_eq_true _ ▸ hnot) before after
        rw [hfault] at hr
        cases hr
    have hparse := parse_of_isReadable hspells hreadable before after
    obtain ⟨m, hm, hsame⟩ := exists_getElem?_found (recordsOf_record (hblank before after) hparse)
      (isMatch_matchAt ..) hroom hreduce
    exact ⟨m, hm, eq_of_match?_matchAt hsame⟩
  · rintro f cap file before after hreadable rfl hfile hroom
    have hparse := parse_of_isReadable hspells hreadable before after
    have hkeep : hasRoom cap [] = true := by
      cases cap with
      | none => rfl
      | some k => exact decide_eq_true (hroom k rfl)
    rw [matchAt, Points.chars?_ofChars] at hparse
    simp only [String.ofList_toList] at hparse
    have hadd : Output.add f cap ⟨[], [], 0⟩
        (.found file line column (String.ofList (decode segment)))
        = .ok ⟨[⟨f.relative file, line, column, Text.strip (String.ofList (decode segment))⟩], [], 1⟩ := by
      rw [add_eq, if_pos ⟨rfl, hkeep⟩, Record.match?, hfile]
      rfl
    rw [reduce, reduceFrom_record (hblank before after) hparse hadd]
    rfl

/-! ## Lines of the file -/

/-- The windows around a line are shown, and the excerpt of a symbol on it. -/
def IsShown (w : World) (a : Address) (line : Int) : Prop :=
  (∀ before after, ∃ shown, readWindow w a line before after = .ok shown) ∧
    ∃ shown, readSymbol w a line = .ok shown

theorem isShown_of_holds {w : World} {a : Address} {lines : List String} {line : Int}
    (hlines : readLines w a = .ok lines) (h : Holds lines line) : IsShown w a line := by
  refine ⟨fun before after => ?_, Excerpt.exists_readSymbol_eq_iff.mpr ⟨lines, hlines, h⟩⟩
  refine ⟨Excerpt.joinLines (Excerpt.windowLines lines line before after), ?_⟩
  rw [readWindow, hlines]
  simp only [Excerpt.window, Excerpt.checkLine_of_holds h]
  rfl

/-- **Reports and files agree.** The `n + 1`-st line of a file that has a segment of that number is in the
range of the file. A report of that segment gives a match whose text is that line, trimmed. -/
theorem report_agrees_with_file {w : World} {a : Address} {content segment : List UInt8} {n : Nat}
    (hfile : w.octetsAt a = .ok content) (hsegment : (segments content)[n]? = some segment) :
    ∃ lines text, readLines w a = .ok lines ∧ lines[n]? = some text ∧ IsShown w a (n + 1) ∧
      ∀ {v path column}, ReportsSegment v path (n + 1) segment column →
        GivesMatch v path (n + 1) column (Text.strip text) := by
  have hlines : readLines w a = .ok (Excerpt.linesOf content) := by
    rw [readLines, hfile]
  have hline := Excerpt.linesOf_getElem? hsegment
  have hholds : Holds (Excerpt.linesOf content) (n + 1) := by
    obtain ⟨hlt, -⟩ := List.getElem?_eq_some_iff.mp hline
    constructor
    · omega
    · omega
  refine ⟨_, _, hlines, hline, isShown_of_holds hlines hholds, ?_⟩
  intro v path column hreport
  rw [Excerpt.strip_lineOfSegment]
  exact givesMatch_of_reportsSegment hreport (Nat.le_add_left 1 n)

/-- A world with a file whose first line is no UTF-8 and ends with a carriage return. -/
def brokenLine : World := ⟨.dir [("f.php", .file [0xFF, 13, 10, 97])], [], "/", [], []⟩

/-- The report of that line by its octets. -/
def octetReport : Layout :=
  .object [] [plainMember "type" (plainString "match"),
    plainMember "data" (.object []
      [plainMember "path" (.object [] [plainMember "text" (plainString "/f.php")]),
        plainMember "line_number" (.number (.ofNat 1)),
        plainMember "lines" (.object [] [plainMember "bytes" (plainString "/w0K")])])]

theorem reportsSegment_octetReport :
    ReportsSegment octetReport (Points.ofChars "/f.php".toList) 1 [0xFF, 13, 10] 0 := by
  refine ⟨_, _, _, _, _, rfl, rfl, ⟨_, rfl, by decide⟩, rfl, ?_, rfl, ?_, Or.inl ⟨rfl, rfl⟩⟩
  · exact ⟨_, rfl, _, _, rfl, Or.inl ⟨_, rfl, _, rfl, by decide⟩⟩
  · exact ⟨_, rfl, _, _, rfl, Or.inr ⟨rfl, _, rfl, _, rfl, by decide⟩⟩

theorem report_agrees_with_file_octets :
    let a := Route.address ⟨.root, ["f.php"]⟩
    let f := Frame.ofRoot ⟨.root, []⟩ "/"
    brokenLine.octetsAt a = .ok [0xFF, 13, 10, 97] ∧
      (segments [0xFF, 13, 10, 97])[0]? = some [0xFF, 13, 10] ∧
      readLines brokenLine a = .ok ["\uFFFD", "a"] ∧ IsShown brokenLine a 1 ∧
      reduce f (some 1) [octetReport.text] = .ok ⟨[⟨"f.php", 1, 0, "\uFFFD"⟩], [], 1⟩ := by
  intro a f
  have hfile : brokenLine.octetsAt a = .ok [0xFF, 13, 10, 97] := eq_ok_of_toOption (by decide)
  have hsegment : (segments [0xFF, 13, 10, 97])[0]? = some [0xFF, 13, 10] := by decide
  obtain ⟨lines, text, hlines, htext, hshown, hreports⟩ := report_agrees_with_file hfile hsegment
  have hread : readLines brokenLine a = .ok ["\uFFFD", "a"] := eq_ok_of_toOption (by decide)
  rw [hread] at hlines
  cases hlines
  cases htext
  refine ⟨hfile, hsegment, hread, hshown, ?_⟩
  have halone : reduce f (some 1) [Gap.text [] ++ (octetReport.text ++ Gap.text [])]
      = .ok ⟨[⟨f.relative "/f.php", 1, 0, Text.strip "\uFFFD"⟩], [], 1⟩ :=
    (hreports reportsSegment_octetReport).alone (by decide) rfl (by decide) (by decide)
  have hrelative : f.relative "/f.php" = "f.php" := by decide
  have hstrip : Text.strip "\uFFFD" = "\uFFFD" := by decide
  rw [hrelative, hstrip] at halone
  exact halone

end SourceNavigator.Search
