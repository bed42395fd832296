import SourceNavigator.Proofs.Search.Emission
import SourceNavigator.Proofs.Search.Outcome

set_option autoImplicit false

/-! # From the records of an engine to the matches of a search

`search_eq_ok_iff` says when a search gives the matches that the engine has reported: exactly if all
records of the stream can be read. One record takes the output from one state to the next
(`add_record`), and a whole stream is followed record by record (`reduceFrom_legible`). Reports can be
read if no line boundary stands in their texts, so a search gives what they say (`search_reports`). A
record with a line boundary in one of its texts is cut there, inside a string, and what stands before the
cut is no record (`splitLines_broken`, `reduceFrom_illegible`).
-/

namespace SourceNavigator.Search

open SourceNavigator.Path (Route)
open Json (Mark)
open Text (splitLines)

/-! ## The output of an engine -/

/-- The text of a stream, which has every record on a line of its own. -/
def streamText (records : List Emitted) : List Char :=
  records.flatMap fun e => e.value.spell ++ ['\n']

/-- The octets that the engine writes for a stream. -/
def streamOctets (records : List Emitted) : List UInt8 := Text.Utf8.encode (streamText records)

/-- The match of a report in a frame: the file relative to the root, the line, where the first
submatch starts, and the trimmed text. -/
def Report.asMatch (f : Frame) (r : Report) : Match :=
  ⟨f.relative r.path, r.line, r.column, Text.strip r.text⟩

/-- The match that a record reports, if it reports one. -/
def Emitted.match? (f : Frame) : Emitted → Option Match
  | .found r => some (r.asMatch f)
  | _ => none

/-- The first matches that the records report, as many as the cap allows. -/
def firstMatches (f : Frame) (cap : Int) (records : List Emitted) : List Match :=
  (records.filterMap (Emitted.match? f)).take cap.toNat

theorem streamText_cons (e : Emitted) (records : List Emitted) :
    streamText (e :: records) = e.value.spell ++ '\n' :: streamText records := by
  rw [streamText, List.flatMap_cons, List.append_assoc]
  rfl

theorem return_not_mem_streamText (records : List Emitted) : '\r' ∉ streamText records := by
  induction records with
  | nil => exact List.not_mem_nil
  | cons e records ih =>
      have hspell := e.value.leads_spell.1.return_not_mem
      rw [streamText_cons, List.mem_append, List.mem_cons, not_or, not_or]
      exact ⟨hspell, by decide, ih⟩

/-- The text of the stream arrives as it was written. -/
theorem outputText_streamOctets (records : List Emitted) :
    outputText (streamOctets records) = streamText records :=
  outputText_encode (return_not_mem_streamText records)

/-! ## The lines of a stream -/

theorem splitLines_unbroken {e : Emitted} (h : e.value.isUnbroken = true) (records : List Emitted) :
    splitLines (streamText (e :: records)) = e.value.spell :: splitLines (streamText records) := by
  have hspell : ∀ c ∈ e.value.spell, Text.isLineBreak c = false := by
    rw [← e.value.all_spell, List.all_eq_true] at h
    exact fun c hc => by simpa using h c hc
  rw [streamText_cons]
  exact Text.splitLines_append hspell (by decide) (by decide) _

/-- A record with a line boundary in a text is cut inside a string. -/
theorem splitLines_broken {e : Emitted} (h : e.value.isUnbroken = false) (records : List Emitted) :
    ∃ cs pieces, splitLines (streamText (e :: records)) = ('\x7b' :: cs) :: pieces ∧
      Mark.outside.after ('\x7b' :: cs) = .inside := by
  rw [← e.value.all_spell] at h
  obtain ⟨before, c, later, hspell, hbefore, hc, hreturn, hinside⟩ :=
    e.value.leads_spell.1.exists_first h
  obtain ⟨cs, hhead⟩ := value_head e
  cases before with
  | nil => cases hinside
  | cons d before =>
      -- what stands before the cut begins as the record does
      have hd : d = '\x7b' := by
        rw [hhead, List.cons_append] at hspell
        exact (List.cons.inj hspell).1.symm
      subst hd
      refine ⟨before, splitLines (later ++ '\n' :: streamText records), ?_, hinside⟩
      rw [streamText_cons, hspell, List.append_assoc, List.cons_append]
      exact Text.splitLines_append hbefore hc hreturn _

theorem isBlankLine_brace (cs : List Char) : Text.isBlankLine ('\x7b' :: cs) = false := by
  rw [Text.isBlankLine, List.all_cons, show Text.isBlank '\x7b' = false by decide, Bool.false_and]

/-! ## The output after a record -/

variable {f : Frame} {cap : Int}

theorem match?_record (e : Emitted) : e.record.match? f = e.match? f ∧ e.record.isNamed f = true := by
  cases e with
  | found r =>
      have hpath : r.path.isEmpty = false := by
        cases hempty : r.path.isEmpty with
        | false => rfl
        | true => exact absurd (String.isEmpty_iff.mp hempty) r.path_ne
      constructor
      · rw [Emitted.record, Record.match?, hpath]
        rfl
      · rw [Emitted.record, Record.isNamed, hpath]
        rfl
  | opening data => exact ⟨rfl, rfl⟩
  | closing data => exact ⟨rfl, rfl⟩
  | summary data => exact ⟨rfl, rfl⟩
  | context r => exact ⟨rfl, rfl⟩

/-- One more record is always accepted, and its match is kept if there is room. -/
theorem add_record {o : Output} (h : o.found.length ≤ cap.toNat) (e : Emitted) :
    ∃ o', o.add f (some cap) e.record = .ok o' ∧
      o'.found = (o.found ++ (e.match? f).toList).take cap.toNat := by
  obtain ⟨hmatch, hnamed⟩ := match?_record (f := f) e
  rw [← hmatch]
  exact exists_add_eq h (Or.inr hnamed)

theorem filterMap_match?_cons (e : Emitted) (records : List Emitted) :
    (e :: records).filterMap (Emitted.match? f)
      = (e.match? f).toList ++ records.filterMap (Emitted.match? f) := by
  rw [List.filterMap_cons]
  cases e.match? f with
  | none => rfl
  | some m => rfl

/-! ## The output after a stream -/

theorem isBlankLine_spell (e : Emitted) : Text.isBlankLine e.value.spell = false := by
  obtain ⟨cs, hhead⟩ := value_head e
  rw [hhead, isBlankLine_brace]

/-- A stream of records that can all be read comes to its first matches. -/
theorem reduceFrom_legible {records : List Emitted} (hall : ∀ e ∈ records, e.IsLegible)
    (number : Nat) {o : Output} (h : o.found.length ≤ cap.toNat) :
    ∃ o', reduceFrom f (some cap) number o (splitLines (streamText records)) = .ok o' ∧
      o'.found = (o.found ++ records.filterMap (Emitted.match? f)).take cap.toNat := by
  induction records generalizing number o with
  | nil =>
      refine ⟨o, rfl, ?_⟩
      rw [List.filterMap_nil, List.append_nil, List.take_of_length_le h]
  | cons e records ih =>
      obtain ⟨hunbroken, hreadable⟩ := hall e List.mem_cons_self
      obtain ⟨next, hadd, hfound⟩ := add_record (f := f) h e
      have hlength : next.found.length ≤ cap.toNat := by
        rw [hfound, List.length_take]
        omega
      obtain ⟨o', hreduce, hrest⟩ :=
        ih (fun e he => hall e (List.mem_cons_of_mem _ he)) (number + 1) hlength
      refine ⟨o', ?_, ?_⟩
      · rw [splitLines_unbroken hunbroken,
          reduceFrom_record (isBlankLine_spell e) (parse_spell_eq hreadable) hadd]
        exact hreduce
      · calc o'.found
            = (next.found ++ records.filterMap (Emitted.match? f)).take cap.toNat := hrest
          _ = (o.found ++ (e.match? f).toList ++ records.filterMap (Emitted.match? f)).take
                cap.toNat := by rw [hfound, take_append_take]
          _ = (o.found ++ (e :: records).filterMap (Emitted.match? f)).take cap.toNat := by
              rw [filterMap_match?_cons, List.append_assoc]

/-- A stream with a record that cannot be read fails, also if the record stands after the cap. -/
theorem reduceFrom_illegible {records : List Emitted} (hsome : ¬ ∀ e ∈ records, e.IsLegible)
    (number : Nat) {o : Output} (h : o.found.length ≤ cap.toNat) :
    ∃ failure, reduceFrom f (some cap) number o (splitLines (streamText records)) = .error failure := by
  induction records generalizing number o with
  | nil => exact absurd (fun e he => absurd he List.not_mem_nil) hsome
  | cons e records ih =>
      cases hunbroken : e.value.isUnbroken with
      | false =>
          -- the record is cut within a string, and its first piece is no JSON
          obtain ⟨cs, pieces, hsplit, hinside⟩ := splitLines_broken hunbroken records
          obtain ⟨fault, hparse⟩ := exists_fault_of_inside hinside
          rw [hsplit, reduceFrom_fault (isBlankLine_brace cs) hparse]
          exact ⟨_, rfl⟩
      | true =>
          rw [splitLines_unbroken hunbroken]
          cases hreadable : e.value.isReadable Json.maxDepth with
          | false =>
              obtain ⟨fault, hparse⟩ := exists_fault_of_not_isReadable hreadable
              rw [reduceFrom_fault (isBlankLine_spell e) hparse]
              exact ⟨_, rfl⟩
          | true =>
              -- this record is read, so it is a later one that cannot be
              obtain ⟨next, hadd, hfound⟩ := add_record (f := f) h e
              have hlength : next.found.length ≤ cap.toNat := by
                rw [hfound, List.length_take]
                omega
              have hlater : ¬ ∀ e ∈ records, e.IsLegible := by
                intro hall
                refine hsome fun e' he' => ?_
                rcases List.mem_cons.mp he' with rfl | he'
                · exact ⟨hunbroken, hreadable⟩
                · exact hall e' he'
              rw [reduceFrom_record (isBlankLine_spell e) (parse_spell_eq hreadable) hadd]
              exact ih hlater (number + 1) hlength

/-! ## The matches of a search -/

section Search

variable {base : Route} {pattern root engine : String} {o : Options} {words : List String}
  {records : List Emitted} {status : Int} {errors : List UInt8} {s : Session} {more : List Run}

/-- A search comes to what the lines of the stream come to. -/
theorem search_stream (hwords : arguments pattern (Frame.ofRoot base root).root.text o = .ok words)
    (hstatus : isSearched status = true)
    (hruns : s.runs = .ended status (streamOctets records) errors :: more) :
    (search base pattern root o engine s).1
      = (reduceFrom (Frame.ofRoot base root) (some o.maxResults) 1 ⟨[], [], 0⟩
          (splitLines (streamText records))).map (·.found) := by
  rw [search_fst hwords hruns, outcome, if_pos hstatus, outputText_streamOctets]
  rfl

theorem search_of_legible (hwords : arguments pattern (Frame.ofRoot base root).root.text o = .ok words)
    (hstatus : isSearched status = true)
    (hruns : s.runs = .ended status (streamOctets records) errors :: more)
    (hall : ∀ e ∈ records, e.IsLegible) :
    (search base pattern root o engine s).1
      = .ok (firstMatches (Frame.ofRoot base root) o.maxResults records) := by
  obtain ⟨out, hreduce, hfound⟩ := reduceFrom_legible (f := Frame.ofRoot base root) hall 1
    (o := ⟨[], [], 0⟩) (Nat.zero_le o.maxResults.toNat)
  rw [search_stream hwords hstatus hruns, hreduce]
  exact congrArg Except.ok hfound

end Search

/-- **When the matches of an engine arrive.** Let the engine end with a status that means that the
search was made, after it has written a stream of records. The search gives the first matches that
the records report, in their order, exactly if all records are legible; and it fails otherwise. -/
theorem search_eq_ok_iff {base : Route} {pattern root engine : String} {o : Options}
    {words : List String}
    (hwords : arguments pattern (Frame.ofRoot base root).root.text o = .ok words)
    (records : List Emitted) {status : Int} (hstatus : isSearched status = true)
    {errors : List UInt8} {s : Session} {more : List Run}
    (hruns : s.runs = .ended status (streamOctets records) errors :: more) (found : List Match) :
    (search base pattern root o engine s).1 = .ok found ↔
      (∀ e ∈ records, e.IsLegible) ∧
        found = firstMatches (Frame.ofRoot base root) o.maxResults records := by
  constructor
  · intro h
    by_cases hall : ∀ e ∈ records, e.IsLegible
    · rw [search_of_legible hwords hstatus hruns hall] at h
      exact ⟨hall, (Except.ok.inj h).symm⟩
    · obtain ⟨failure, hreduce⟩ := reduceFrom_illegible (f := Frame.ofRoot base root) hall 1
        (o := ⟨[], [], 0⟩) (Nat.zero_le o.maxResults.toNat)
      rw [search_stream hwords hstatus hruns, hreduce] at h
      cases h
  · rintro ⟨hall, rfl⟩
    exact search_of_legible hwords hstatus hruns hall

/-- A report of one line of a file below the root of the file system. -/
def lineReport (text : String) : Report :=
  ⟨"/a.php", 1, 0, text, [⟨"a", 0, 1⟩], by decide, by decide⟩

/-- A search below the root of the file system with an engine that reports one line. -/
def searchLine (text : String) : Except Failure (List Match) :=
  (search ⟨.root, []⟩ "a" "/" .default "rg"
    (Session.begin [.ended 0 (streamOctets [.found (lineReport text)]) []] infoSeverity)).1

/-- The words of that search. -/
def searchWords : List String :=
  ["--json", "--line-number", "--column", "--max-count", "100", "--glob", "!vendor/**", "--glob",
    "!node_modules/**", "--glob", "!.git/**", "-e", "a", "/."]

theorem search_plain_line :
    arguments "a" (Frame.ofRoot ⟨.root, []⟩ "/").root.text .default = .ok searchWords ∧
      isSearched 0 = true ∧ (Emitted.found (lineReport " ab\n")).IsLegible ∧
      searchLine " ab\n" = .ok [⟨"a.php", 1, 0, "ab"⟩] := by
  have hwords : arguments "a" (Frame.ofRoot ⟨.root, []⟩ "/").root.text .default = .ok searchWords := by
    rfl
  have hlegible : (Emitted.found (lineReport " ab\n")).IsLegible := by
    decide +kernel
  have hall : ∀ e ∈ [Emitted.found (lineReport " ab\n")], e.IsLegible := by
    intro e he
    obtain rfl := List.mem_singleton.mp he
    exact hlegible
  refine ⟨hwords, rfl, hlegible, ?_⟩
  exact (search_eq_ok_iff hwords [.found (lineReport " ab\n")] rfl rfl _).mpr ⟨hall, by decide +kernel⟩

/-- **A line boundary in a text cuts its record.** A line that holds the boundary U+2028 is reported
with status zero, and the search fails instead of giving the match. -/
theorem cut_record_fails :
    firstMatches (Frame.ofRoot ⟨.root, []⟩ "/") 100 [.found (lineReport "a\u2028b\n")]
        = [⟨"a.php", 1, 0, "a\u2028b"⟩] ∧
      (searchLine "a\u2028b\n").toOption = none := by
  constructor
  · decide
  · decide +kernel

/-! ## Streams of reports -/

/-- **Reports in plain text arrive.** If no text of a report holds a line boundary and no number in it is
too long to be read, the search gives the reported matches, as many as the cap allows. -/
theorem search_reports {base : Route} {pattern root engine : String} {o : Options} {words : List String}
    (hwords : arguments pattern (Frame.ofRoot base root).root.text o = .ok words)
    (reports : List Report)
    (hplain : ∀ r ∈ reports,
      (∀ s ∈ r.texts, Json.isUnbrokenText s = true) ∧ ∀ n ∈ r.numbers, isShort n = true)
    {status : Int} (hstatus : isSearched status = true) {errors : List UInt8} {s : Session}
    {more : List Run}
    (hruns : s.runs = .ended status (streamOctets (reports.map .found)) errors :: more) :
    (search base pattern root o engine s).1
      = .ok ((reports.map (Report.asMatch (Frame.ofRoot base root))).take o.maxResults.toNat) := by
  have hall : ∀ e ∈ reports.map Emitted.found, e.IsLegible := by
    intro e he
    obtain ⟨r, hr, rfl⟩ := List.mem_map.mp he
    exact (isLegible_report_iff (Or.inl rfl)).mpr (hplain r hr)
  have hmatches (f : Frame) : (reports.map Emitted.found).filterMap (Emitted.match? f)
      = reports.map (Report.asMatch f) := by
    rw [List.filterMap_map]
    exact congrFun (List.filterMap_eq_map (f := Report.asMatch f)) reports
  rw [search_of_legible hwords hstatus hruns hall, firstMatches, hmatches]

end SourceNavigator.Search
