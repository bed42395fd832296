import SourceNavigator.Proofs.Json.Roundtrip
import SourceNavigator.Search.Stream

set_option autoImplicit false

/-! # What an engine writes

A record of the engine is an object on a line of its own, with a `type` and `data`. `Emitted.value`
gives the object, and `Emitted.record` what the reader is to make of it. The two agree: the line of
a record that can be read is parsed as that record (`parse_spell_eq`), and every other line of a
record is refused (`exists_fault_of_not_isReadable`).
-/

namespace SourceNavigator.Search

open Data (Datum Validated)
open Json (Value)

/-! ## Records of an engine -/

/-- A part of a line in which the pattern occurs, and where it starts and ends. -/
structure Submatch where
  text : String
  start : Nat
  stop : Nat

/-- A line that is reported. The engine counts lines from one and names every file. -/
structure Report where
  path : String
  line : Nat
  offset : Nat
  text : String
  submatches : List Submatch
  path_ne : path ≠ ""
  line_pos : 1 ≤ line

/-- A record of the engine: a file is opened or closed, a line is reported as a match or as
context, or the search is summed up. What the other records hold beside the reports is not read. -/
inductive Emitted where
  | opening (data : Value)
  | found (r : Report)
  | context (r : Report)
  | closing (data : Value)
  | summary (data : Value)

/-- A text in a record. -/
def textValue (s : String) : Value := .object [("text", .text s)]

/-- A submatch as an object. -/
def Submatch.value (m : Submatch) : Value :=
  .object [("match", textValue m.text), ("start", .number m.start), ("end", .number m.stop)]

/-- The data of a report. -/
def Report.value (r : Report) : Value :=
  .object
    [("path", textValue r.path), ("lines", textValue r.text), ("line_number", .number r.line),
     ("absolute_offset", .number r.offset), ("submatches", .list (r.submatches.map Submatch.value))]

/-- Where the first submatch starts; zero if there is none. -/
def Report.column (r : Report) : Nat :=
  match r.submatches with
  | [] => 0
  | first :: _ => first.start

namespace Emitted

/-- The object on the line of a record. -/
def value : Emitted → Value
  | .opening data => .object [("type", .text "begin"), ("data", data)]
  | .found r => .object [("type", .text "match"), ("data", r.value)]
  | .context r => .object [("type", .text "context"), ("data", r.value)]
  | .closing data => .object [("type", .text "end"), ("data", data)]
  | .summary data => .object [("data", data), ("type", .text "summary")]

/-- What the line of a record stands for. -/
def record : Emitted → Record
  | .opening _ => .other "begin"
  | .found r => .found r.path r.line r.column r.text
  | .context r => .context r.path r.line r.text
  | .closing _ => .other "end"
  | .summary _ => .other "summary"

/-- Whether the line of a record can be read as one: no text in it holds a line boundary that is
not escaped, no number has too many digits, and brackets are not nested too deeply. -/
def IsLegible (e : Emitted) : Prop :=
  e.value.isUnbroken = true ∧ e.value.isReadable Json.maxDepth = true

instance (e : Emitted) : Decidable e.IsLegible :=
  inferInstanceAs (Decidable (e.value.isUnbroken = true ∧ e.value.isReadable Json.maxDepth = true))

end Emitted

/-! ## Legible reports -/

/-- The texts that a report holds. -/
def Report.texts (r : Report) : List String := r.path :: r.text :: r.submatches.map Submatch.text

/-- The numbers that a report holds. -/
def Report.numbers (r : Report) : List Nat :=
  r.line :: r.offset :: r.submatches.flatMap fun m => [m.start, m.stop]

theorem isUnbroken_textValue (s : String) : (textValue s).isUnbroken = Json.isUnbrokenText s := by
  have hname : Json.isUnbrokenText "text" = true := by decide
  simp only [textValue, Value.isUnbroken, Value.areUnbrokenMembers, hname, Bool.true_and,
    Bool.and_true]

theorem areUnbroken_submatches (ms : List Submatch) :
    Value.areUnbroken (ms.map Submatch.value) = (ms.map Submatch.text).all Json.isUnbrokenText := by
  have hmatch : Json.isUnbrokenText "match" = true := by decide
  have hstart : Json.isUnbrokenText "start" = true := by decide
  have hend : Json.isUnbrokenText "end" = true := by decide
  induction ms with
  | nil => rfl
  | cons m ms ih =>
      rw [List.map_cons, Value.areUnbroken, ih, List.map_cons, List.all_cons]
      simp only [Submatch.value, Value.isUnbroken, Value.areUnbrokenMembers, isUnbroken_textValue,
        hmatch, hstart, hend, Bool.true_and, Bool.and_true]

theorem isUnbroken_report (r : Report) : r.value.isUnbroken = r.texts.all Json.isUnbrokenText := by
  have hnames : ∀ name ∈ ["path", "lines", "line_number", "absolute_offset", "submatches"],
      Json.isUnbrokenText name = true := by decide
  simp only [List.forall_mem_cons] at hnames
  obtain ⟨hpath, hlines, hline, hoffset, hsubmatches, -⟩ := hnames
  simp only [Report.value, Value.isUnbroken, Value.areUnbrokenMembers, isUnbroken_textValue,
    areUnbroken_submatches, hpath, hlines, hline, hoffset, hsubmatches, Report.texts, List.all_cons,
    Bool.true_and, Bool.and_true]

/-- Whether a number has at most as many digits as can be read. -/
def isShort (n : Nat) : Bool := (Nat.toDigits 10 n).length ≤ Text.maxDigits

theorem isReadable_submatch (room : Nat) (m : Submatch) :
    m.value.isReadable (room + 2) = (isShort m.start && isShort m.stop) := by
  simp [Submatch.value, textValue, Value.isReadable, Value.areReadableMembers, isShort]

theorem areReadable_submatches (room : Nat) (ms : List Submatch) :
    Value.areReadable (room + 2) (ms.map Submatch.value)
      = (ms.flatMap fun m => [m.start, m.stop]).all isShort := by
  induction ms with
  | nil => rfl
  | cons m ms ih =>
      rw [List.map_cons, Value.areReadable, isReadable_submatch, ih, List.flatMap_cons,
        List.all_append]
      simp only [List.all_cons, List.all_nil, Bool.and_true]

theorem isReadable_report (room : Nat) (r : Report) :
    r.value.isReadable (room + 4) = r.numbers.all isShort := by
  have hsubmatches := areReadable_submatches room r.submatches
  have hlist : (Value.list (r.submatches.map Submatch.value)).isReadable (room + 3)
      = (r.submatches.flatMap fun m => [m.start, m.stop]).all isShort := by
    rw [Value.isReadable, Nat.add_sub_cancel (n := room + 2) (m := 1), hsubmatches]
    rfl
  have hmembers : r.value.isReadable (room + 4)
      = (isShort r.line && (isShort r.offset &&
          (Value.list (r.submatches.map Submatch.value)).isReadable (room + 3))) := by
    simp [Report.value, textValue, Value.isReadable, Value.areReadableMembers, isShort]
  rw [hmembers, hlist, Report.numbers, List.all_cons, List.all_cons]

/-- A report is legible if its texts hold no wide line boundary and its numbers are short. -/
theorem isLegible_report_iff {e : Emitted} {r : Report} (h : e = .found r ∨ e = .context r) :
    e.IsLegible ↔ (∀ s ∈ r.texts, Json.isUnbrokenText s = true) ∧ ∀ n ∈ r.numbers, isShort n = true := by
  have hnames : ∀ name ∈ ["type", "data", "match", "context"], Json.isUnbrokenText name = true := by
    decide
  simp only [List.forall_mem_cons] at hnames
  obtain ⟨htype, hdata, hmatch, hcontext, -⟩ := hnames
  have hunbroken : e.value.isUnbroken = r.texts.all Json.isUnbrokenText := by
    rcases h with rfl | rfl
    · simp only [Emitted.value, Value.isUnbroken, Value.areUnbrokenMembers, isUnbroken_report, htype,
        hdata, hmatch, Bool.true_and, Bool.and_true]
    · simp only [Emitted.value, Value.isUnbroken, Value.areUnbrokenMembers, isUnbroken_report, htype,
        hdata, hcontext, Bool.true_and, Bool.and_true]
  -- a report stands in the object of its record
  have hreadable : e.value.isReadable Json.maxDepth = r.numbers.all isShort := by
    have hreport : r.value.isReadable (982 + 4) = r.numbers.all isShort := isReadable_report 982 r
    rw [← hreport]
    rcases h with rfl | rfl
    · simp [Emitted.value, Json.maxDepth, Value.isReadable, Value.areReadableMembers]
    · simp [Emitted.value, Json.maxDepth, Value.isReadable, Value.areReadableMembers]
  rw [Emitted.IsLegible, hunbroken, hreadable, List.all_eq_true, List.all_eq_true]

/-! ## Reading a report -/

/-- The entries of the data of a report. -/
def Report.entries (r : Report) : List (Datum × Datum) :=
  [(.text "path", .map [(.text "text", .text r.path)]),
   (.text "lines", .map [(.text "text", .text r.text)]),
   (.text "line_number", .int r.line),
   (.text "absolute_offset", .int r.offset),
   (.text "submatches", .list (Value.data (r.submatches.map Submatch.value)))]

theorem datum_submatch (m : Submatch) : m.value.datum
    = .map [(.text "match", .map [(.text "text", .text m.text)]), (.text "start", .int m.start),
        (.text "end", .int m.stop)] := by
  rfl

theorem memberText_path (r : Report) : memberText (.map r.entries) "path" = .ok (.text r.path) := by
  rfl

theorem memberText_lines (r : Report) : memberText (.map r.entries) "lines" = .ok (.text r.text) := by
  rfl

theorem lineOf_report (r : Report) : lineOf (.map r.entries) = .ok (.int r.line) := by
  rfl

theorem columnOf_report (r : Report) : columnOf (.map r.entries) = .ok (.int r.column) := by
  have hmember : member? (.map r.entries) "submatches"
      = .ok (some (.list (Value.data (r.submatches.map Submatch.value)))) := rfl
  rw [columnOf, hmember, Report.column]
  -- an empty list counts as nothing, and of any other the first item is looked at
  cases r.submatches with
  | nil => rfl
  | cons first rest =>
      rw [List.map_cons, Value.data, datum_submatch]
      rfl

theorem checked_integerFrom {name : String} {bound n : Int} (h : bound ≤ n) :
    checked name (Data.Rule.integerFrom bound) (.int n) = .valid n := by
  have hrule : Data.Rule.integerFrom bound (.int n) = .valid n := if_pos h
  rw [checked, hrule]
  rfl

theorem matchRecord_report (r : Report) :
    matchRecord (.text r.path) (.int r.line) (.int r.column) (.text r.text)
      = .valid (.found r.path r.line r.column r.text) := by
  have hline : (1 : Int) ≤ r.line := by exact_mod_cast r.line_pos
  have hcolumn : (0 : Int) ≤ r.column := Int.natCast_nonneg r.column
  rw [matchRecord, checked_integerFrom hline, checked_integerFrom hcolumn]
  rfl

theorem contextRecord_report (r : Report) :
    contextRecord (.text r.path) (.int r.line) (.text r.text)
      = .valid (.context r.path r.line r.text) := by
  have hline : (1 : Int) ≤ r.line := by exact_mod_cast r.line_pos
  rw [contextRecord, checked_integerFrom hline]
  rfl

theorem matchParts_report (r : Report) : matchParts (.map r.entries)
    = .ok (.text r.path, .int r.line, .int r.column, .text r.text) := by
  rw [matchParts, columnOf_report, memberText_path, lineOf_report, memberText_lines]
  rfl

theorem contextParts_report (r : Report) : contextParts (.map r.entries)
    = .ok (.text r.path, .int r.line, .text r.text) := by
  rw [contextParts, memberText_path, lineOf_report, memberText_lines]
  rfl

/-! ## Reading a record -/

/-- What a record is taken for goes by its kind. -/
theorem ofEntries_of_kind {entries data : List (Datum × Datum)} {kind : String}
    (hkind : Datum.lookup "type" entries = some (.text kind))
    (hdata : Datum.lookup "data" entries = some (.map data)) (hsome : (Datum.map data).isTruthy = true) :
    Record.ofEntries entries
      = if kind = matchKind then
          match matchParts (.map data) with
          | .error why => .error (.malformed kind why)
          | .ok (path, line, column, text) => settle kind (matchRecord path line column text)
        else if kind = contextKind then
          match contextParts (.map data) with
          | .error why => .error (.malformed kind why)
          | .ok (path, line, text) => settle kind (contextRecord path line text)
        else .ok (.other kind) := by
  have hentry : entryOrNothing entries "data" = .map data := by
    rw [entryOrNothing, hdata]
    exact if_pos hsome
  rw [Record.ofEntries, hkind, hentry]
  rfl

/-- The object of a record is taken for that record. -/
theorem ofEntries_value (e : Emitted) :
    ∃ entries, e.value.datum = .map entries ∧ Record.ofEntries entries = .ok e.record := by
  cases e with
  | opening data => exact ⟨[(.text "type", .text "begin"), (.text "data", data.datum)], rfl, rfl⟩
  | closing data => exact ⟨[(.text "type", .text "end"), (.text "data", data.datum)], rfl, rfl⟩
  | summary data => exact ⟨[(.text "data", data.datum), (.text "type", .text "summary")], rfl, rfl⟩
  | found r =>
      refine ⟨[(.text "type", .text matchKind), (.text "data", .map r.entries)], rfl, ?_⟩
      rw [ofEntries_of_kind rfl rfl rfl, if_pos rfl, matchParts_report]
      show settle matchKind (matchRecord _ _ _ _) = _
      rw [matchRecord_report]
      rfl
  | context r =>
      refine ⟨[(.text "type", .text contextKind), (.text "data", .map r.entries)], rfl, ?_⟩
      rw [ofEntries_of_kind rfl rfl rfl, if_neg (by decide), if_pos rfl, contextParts_report]
      show settle contextKind (contextRecord _ _ _) = _
      rw [contextRecord_report]
      rfl

theorem exists_fault_of_parse {line : List Char} {stop : Json.Stop} (h : Json.parse line = .error stop) :
    ∃ fault, Record.parse line = .error fault := by
  rw [Record.parse, h]
  cases stop with
  | fault reason rest => exact ⟨_, rfl⟩
  | tooManyDigits count => exact ⟨_, rfl⟩
  | tooDeep form => exact ⟨_, rfl⟩

theorem parse_of_toOption {line : List Char} {entries : List (Datum × Datum)}
    (h : (Json.parse line).toOption = some (.map entries)) :
    Record.parse line = Record.ofEntries entries := by
  cases hread : Json.parse line with
  | error stop =>
      rw [hread] at h
      cases h
  | ok d =>
      rw [hread] at h
      obtain rfl : d = .map entries := Option.some.inj h
      rw [Record.parse, hread]

theorem exists_fault_of_toOption {line : List Char} (h : (Json.parse line).toOption = none) :
    ∃ fault, Record.parse line = .error fault := by
  cases hread : Json.parse line with
  | error stop => exact exists_fault_of_parse hread
  | ok d =>
      rw [hread] at h
      cases h

/-- **Reading a record back.** A record that can be read is parsed as what it stands for. -/
theorem parse_spell_eq {e : Emitted} (h : e.value.isReadable Json.maxDepth = true) :
    Record.parse e.value.spell = .ok e.record := by
  obtain ⟨entries, hdatum, hrecord⟩ := ofEntries_value e
  have hparse := e.value.parse_spell
  rw [if_pos h, hdatum] at hparse
  rw [parse_of_toOption hparse, hrecord]

theorem exists_fault_of_not_isReadable {e : Emitted} (h : e.value.isReadable Json.maxDepth = false) :
    ∃ fault, Record.parse e.value.spell = .error fault := by
  have hparse := e.value.parse_spell
  rw [h, if_neg (by decide)] at hparse
  exact exists_fault_of_toOption hparse

/-- What ends inside a string is no record. -/
theorem exists_fault_of_inside {line : List Char} (h : Json.Mark.outside.after line = .inside) :
    ∃ fault, Record.parse line = .error fault := by
  cases hread : Json.parse line with
  | error stop => exact exists_fault_of_parse hread
  | ok d =>
      rw [Json.after_of_parse hread] at h
      cases h

theorem value_head (e : Emitted) : ∃ cs, e.value.spell = '\x7b' :: cs := by
  cases e with
  | opening data => exact ⟨_, rfl⟩
  | closing data => exact ⟨_, rfl⟩
  | summary data => exact ⟨_, rfl⟩
  | found r => exact ⟨_, rfl⟩
  | context r => exact ⟨_, rfl⟩

end SourceNavigator.Search
