import SourceNavigator.Proofs.Json.Roundtrip
import SourceNavigator.Proofs.Search.Reduction
import SourceNavigator.Proofs.Text.Lines
import SourceNavigator.Proofs.Text.Utf8

set_option autoImplicit false

/-! # How a search ends

A search gives what the run of its engine comes to (`exists_search_eq`). It is promised to fail with
the status of the engine, or with the position of the first line that is no record, and else to give no
more matches than the cap allows (`EndsAsPromised`). It does so exactly if its output is tame
(`search_endsAsPromised_iff`): up to the first bad line, every match names its file as long as there is
room for it, and the bad line is not one whose numbers are too long or whose brackets are nested too
deep. Any other output lets a failure without a position escape (`long_number_escapes`,
`nameless_match_escapes`).
-/

namespace SourceNavigator.Search

open SourceNavigator.Path (Route)

/-! ## One search -/

theorem yields_logOutcome (pattern : String) (result : Except Failure Output) :
    (logOutcome pattern result).Yields () := by
  unfold logOutcome
  split
  · exact Action.yields_log infoSeverity logSource _
  · exact Action.yields_log errorSeverity logSource _
  · exact Action.yields_done ()

/-- A search gives what its run comes to, and leaves the other runs. -/
theorem exists_search_eq {base : Route} {pattern root engine : String} {o : Options}
    {words : List String}
    (hwords : arguments pattern (Frame.ofRoot base root).root.text o = .ok words) {s : Session}
    {run : Run} {more : List Run} (hruns : s.runs = run :: more) :
    ∃ s', search base pattern root o engine s
        = ((outcome (Frame.ofRoot base root) o.maxResults engine run).map (·.found), s') ∧
      s'.runs = more := by
  have hlift : Action.lift (arguments pattern (Frame.ofRoot base root).root.text o) s
      = (.ok words, s) := by
    rw [hwords]
    rfl
  -- the session is followed through the steps of the search
  unfold search
  simp only
  rw [Action.bind_apply hlift]
  obtain ⟨s₁, hlog, hruns₁⟩ := Action.yields_log debugSeverity logSource
    ("Running ripgrep: " ++ engine ++ " " ++ String.intercalate " " words ++
      " (cwd=" ++ (Frame.ofRoot base root).root.text ++ ")") s
  rw [Action.bind_apply hlog]
  obtain ⟨s₂, hcall, hruns₂⟩ := Action.exists_call_eq (hruns₁.trans hruns)
    ⟨engine :: words, some (Frame.ofRoot base root).root.text⟩
  rw [Action.bind_apply hcall]
  obtain ⟨s₃, hresult, hruns₃⟩ := yields_logOutcome pattern
    (outcome (Frame.ofRoot base root) o.maxResults engine run) s₂
  rw [Action.bind_apply hresult]
  exact ⟨s₃, rfl, hruns₃.trans hruns₂⟩

theorem search_fst {base : Route} {pattern root engine : String} {o : Options} {words : List String}
    (hwords : arguments pattern (Frame.ofRoot base root).root.text o = .ok words) {s : Session}
    {run : Run} {more : List Run} (hruns : s.runs = run :: more) :
    (search base pattern root o engine s).1
      = (outcome (Frame.ofRoot base root) o.maxResults engine run).map (·.found) := by
  obtain ⟨s', hsearch, -⟩ : ∃ s', search base pattern root o engine s
      = ((outcome (Frame.ofRoot base root) o.maxResults engine run).map (·.found), s') ∧
        s'.runs = more := exists_search_eq hwords hruns
  rw [hsearch]

/-! ## The lines of an output -/

/-- A text without carriage returns arrives as it was written. -/
theorem outputText_encode {cs : List Char} (h : '\r' ∉ cs) : outputText (Text.Utf8.encode cs) = cs := by
  rw [outputText, Text.Utf8.decode_encode, Text.unify_of_not_mem h]

/-- A line arrives as it was written. -/
theorem splitLines_outputText {line : List Char} (h : ∀ c ∈ line, Text.isLineBreak c = false) :
    Text.splitLines (outputText (Text.Utf8.encode (line ++ ['\n']))) = [line] := by
  have hreturn : '\r' ∉ line ++ ['\n'] := by
    rw [List.mem_append, List.mem_singleton]
    rintro (hmem | hnewline)
    · have hbreak := h _ hmem
      rw [Text.isLineBreak_return] at hbreak
      cases hbreak
    · exact absurd hnewline (by decide)
  rw [outputText_encode hreturn]
  exact Text.splitLines_append h (by decide) (by decide) []

/-! ## The promise -/

/-- A failure that gives the position of a line. -/
def blamesLine (number : Nat) : Failure → Prop
  | .badOutput line _ => line = number
  | .badRecord line _ _ => line = number
  | _ => False

/-- A fault that is reported with the position of its line. -/
def LineFault.isReported : LineFault → Bool
  | .tooManyDigits _ | .tooDeep _ => false
  | _ => true

/-- All lines are blank or records. -/
def AreRecords (lines : List (List Char)) : Prop :=
  ∀ line ∈ lines, Text.isBlankLine line = true ∨ ∃ r, Record.parse line = .ok r

/-- If all lines are records, the result is a list of no more matches than the cap allows; and if one
is not, it is a failure that gives the position of the first such line, where the lines are counted
from `number` on. -/
def EndsAsPromised (cap number : Nat) (lines : List (List Char))
    (result : Except Failure (List Match)) : Prop :=
  (AreRecords lines → ∃ found, result = .ok found ∧ found.length ≤ cap) ∧
    ∀ before line after, lines = before ++ line :: after → AreRecords before →
      Text.isBlankLine line = false → ∀ fault, Record.parse line = .error fault →
        ∃ e, result = .error e ∧ blamesLine (number + before.length) e

/-- Up to the first line that is no record, every match names its file as long as there is room for
it, `kept` matches being there already; and the fault of that line is reported with its position. -/
def IsTame (f : Frame) (cap kept : Nat) (lines : List (List Char)) : Prop :=
  ∀ before line after, lines = before ++ line :: after → AreRecords before →
    Text.isBlankLine line = false →
      (∀ fault, Record.parse line = .error fault → fault.isReported = true) ∧
      ∀ r, Record.parse line = .ok r →
        cap ≤ kept + (reported f before).length ∨ r.isNamed f = true

theorem blamesLine_toFailure (number : Nat) (fault : LineFault) :
    blamesLine number (fault.toFailure number) ↔ fault.isReported = true := by
  cases fault <;> simp [LineFault.toFailure, LineFault.isReported, blamesLine]

/-! ## One line more -/

theorem forall_split_cons {α : Type} {P : List α → α → List α → Prop} {a : α} {l : List α} :
    (∀ before x after, a :: l = before ++ x :: after → P before x after) ↔
      P [] a l ∧ ∀ before x after, l = before ++ x :: after → P (a :: before) x after := by
  constructor
  · intro h
    refine ⟨h [] a l rfl, fun before x after hl => h (a :: before) x after ?_⟩
    rw [hl, List.cons_append]
  · rintro ⟨hfirst, hrest⟩ before x after hsplit
    cases before with
    | nil =>
        obtain ⟨rfl, rfl⟩ := List.cons.inj hsplit
        exact hfirst
    | cons b before =>
        obtain ⟨rfl, hl⟩ := List.cons.inj hsplit
        exact hrest before x after hl

variable {f : Frame} {cap number kept : Nat} {line : List Char} {rest : List (List Char)}
  {result : Except Failure (List Match)}

theorem areRecords_cons :
    AreRecords (line :: rest) ↔
      (Text.isBlankLine line = true ∨ ∃ r, Record.parse line = .ok r) ∧ AreRecords rest :=
  List.forall_mem_cons

theorem areRecords_nil : AreRecords [] := fun _ h => absurd h List.not_mem_nil

/-- Either all lines are records, or one of them is the first that is not. -/
theorem areRecords_or (lines : List (List Char)) :
    AreRecords lines ∨ ∃ before line after fault, lines = before ++ line :: after ∧
      AreRecords before ∧ Text.isBlankLine line = false ∧ Record.parse line = .error fault := by
  induction lines with
  | nil => exact Or.inl areRecords_nil
  | cons line rest ih =>
      by_cases hline : Text.isBlankLine line = true ∨ ∃ r, Record.parse line = .ok r
      · refine ih.imp (fun hrest => areRecords_cons.mpr ⟨hline, hrest⟩) ?_
        rintro ⟨before, bad, after, fault, rfl, hbefore, hbad⟩
        exact ⟨line :: before, bad, after, fault, rfl, areRecords_cons.mpr ⟨hline, hbefore⟩, hbad⟩
      · rw [not_or, Bool.not_eq_true] at hline
        cases hparse : Record.parse line with
        | ok r => exact absurd ⟨r, hparse⟩ hline.2
        | error fault => exact Or.inr ⟨[], line, rest, fault, rfl, areRecords_nil, hline.1, hparse⟩

/-- A failure without a position breaks the promise. -/
theorem not_endsAsPromised {e : Failure} (he : ∀ number, ¬ blamesLine number e)
    (lines : List (List Char)) : ¬ EndsAsPromised cap number lines (.error e) := by
  rintro ⟨hrecords, hfault⟩
  rcases areRecords_or lines with hall | ⟨before, line, after, fault, hlines, hbefore, hblank, hparse⟩
  · obtain ⟨found, hfound, -⟩ := hrecords hall
    cases hfound
  · obtain ⟨e', he', hblames⟩ := hfault before line after hlines hbefore hblank fault hparse
    cases he'
    exact he _ hblames

/-- Behind a blank line or a record the promise is about the lines that follow. -/
theorem endsAsPromised_cons (hline : Text.isBlankLine line = true ∨ ∃ r, Record.parse line = .ok r) :
    EndsAsPromised cap number (line :: rest) result ↔ EndsAsPromised cap (number + 1) rest result := by
  have hfirst : Text.isBlankLine line = false → ∀ fault, Record.parse line ≠ .error fault := by
    intro hblank fault hparse
    rcases hline with hline | ⟨r, hline⟩
    · rw [hblank] at hline
      cases hline
    · rw [hparse] at hline
      cases hline
  have hcount (before : List (List Char)) :
      number + (line :: before).length = number + 1 + before.length := by
    rw [List.length_cons]
    omega
  unfold EndsAsPromised
  rw [areRecords_cons, forall_split_cons]
  simp only [areRecords_cons, hline, true_and, hcount]
  constructor
  · rintro ⟨hrecords, -, hlater⟩
    exact ⟨hrecords, hlater⟩
  · rintro ⟨hrecords, hlater⟩
    exact ⟨hrecords, fun _ hblank fault hparse => absurd hparse (hfirst hblank fault), hlater⟩

theorem endsAsPromised_fault (hblank : Text.isBlankLine line = false) {fault : LineFault}
    (hparse : Record.parse line = .error fault) :
    EndsAsPromised cap number (line :: rest) result ↔
      ∃ e, result = .error e ∧ blamesLine number e := by
  unfold EndsAsPromised
  rw [areRecords_cons, forall_split_cons]
  simp [areRecords_cons, areRecords_nil, hblank, hparse]

/-- Behind a blank line, or a record that is accepted, the lines that follow are to be tame. -/
theorem isTame_cons_blank (hblank : Text.isBlankLine line = true) :
    IsTame f cap kept (line :: rest) ↔ IsTame f cap kept rest := by
  unfold IsTame
  rw [forall_split_cons]
  simp [areRecords_cons, hblank, reported_cons, lineMatch?_blank hblank]

theorem isTame_cons_record (hblank : Text.isBlankLine line = false) {r : Record}
    (hparse : Record.parse line = .ok r) :
    IsTame f cap kept (line :: rest) ↔
      (cap ≤ kept ∨ r.isNamed f = true) ∧
        IsTame f cap (kept + (r.match? f).toList.length) rest := by
  unfold IsTame
  rw [forall_split_cons]
  simp only [areRecords_cons, hblank, hparse, reported_cons, lineMatch?_record hblank hparse,
    List.length_append, Nat.add_assoc]
  simp [areRecords_nil, reported]

theorem isTame_cons_fault (hblank : Text.isBlankLine line = false) {fault : LineFault}
    (hparse : Record.parse line = .error fault) :
    IsTame f cap kept (line :: rest) ↔ fault.isReported = true := by
  unfold IsTame
  rw [forall_split_cons]
  simp [areRecords_cons, areRecords_nil, hblank, hparse]

/-! ## All lines -/

/-- The promise is kept along tame lines, and by no others. -/
theorem reduceFrom_endsAsPromised_iff {cap : Int} {o : Output}
    (h : o.found.length = min kept cap.toNat) (lines : List (List Char)) :
    EndsAsPromised cap.toNat number lines
        ((reduceFrom f (some cap) number o lines).map (·.found)) ↔
      IsTame f cap.toNat kept lines := by
  induction lines generalizing number kept o with
  | nil =>
      have hpromise : EndsAsPromised cap.toNat number [] (.ok o.found) := by
        refine ⟨fun _ => ⟨o.found, rfl, by omega⟩, ?_⟩
        intro before line after hsplit
        simp at hsplit
      have htame : IsTame f cap.toNat kept [] := by
        intro before line after hsplit
        simp at hsplit
      exact ⟨fun _ => htame, fun _ => hpromise⟩
  | cons line rest ih =>
      cases lineOutcome f (some cap) number o line with
      | blank hblank hstep =>
          rw [endsAsPromised_cons (Or.inl hblank), isTame_cons_blank hblank, hstep]
          exact ih h
      | fault fault hblank hparse hstep =>
          rw [endsAsPromised_fault hblank hparse, isTame_cons_fault hblank hparse, hstep,
            ← blamesLine_toFailure number fault]
          constructor
          · rintro ⟨e, he, hblames⟩
            cases he
            exact hblames
          · exact fun hblames => ⟨_, rfl, hblames⟩
      | refused r e hblank hparse hadd hstep =>
          -- a refusal gives no position
          have hpromise : ¬ EndsAsPromised cap.toNat number (line :: rest) (.error e) := by
            rcases failure_of_add hadd with rfl | rfl
            · exact not_endsAsPromised (e := .emptyPath) (fun _ h => h) _
            · exact not_endsAsPromised (e := misnamedFailure) (fun _ h => h) _
          rw [hstep, isTame_cons_record hblank hparse]
          refine iff_of_false hpromise fun htame => ?_
          have hroom : cap.toNat ≤ o.found.length ∨ r.isNamed f = true :=
            htame.1.imp_left fun hfull => by omega
          exact exists_add_error_iff.mp ⟨e, hadd⟩ hroom
      | added r next hblank hparse hadd hstep =>
          have hr : cap.toNat ≤ kept ∨ r.isNamed f = true :=
            (isNamed_of_add hadd).imp_left fun hfull => by omega
          have hnext : next.found.length = min (kept + (r.match? f).toList.length) cap.toNat := by
            rw [found_of_add (by omega) hadd, List.length_take, List.length_append, h]
            omega
          rw [endsAsPromised_cons (Or.inr ⟨r, hparse⟩), isTame_cons_record hblank hparse, hstep,
            ih hnext]
          exact ⟨fun htame => ⟨hr, htame⟩, fun htame => htame.2⟩

theorem reduceFrom_ne_engineFailed {cap : Option Int} {o : Output} (code : Option Int)
    (errors : String) (lines : List (List Char)) :
    reduceFrom f cap number o lines ≠ .error (.engineFailed code errors) := by
  induction lines generalizing number o with
  | nil =>
      intro h
      cases h
  | cons line rest ih =>
      cases lineOutcome f cap number o line with
      | blank _ hstep =>
          rw [hstep]
          exact ih
      | fault fault _ _ hstep =>
          rw [hstep]
          intro h
          cases fault <;> cases h
      | refused r e _ _ hadd hstep =>
          rw [hstep]
          intro h
          rcases failure_of_add hadd with rfl | rfl
          · cases h
          · cases h
      | added r next _ _ _ hstep =>
          rw [hstep]
          exact ih

/-- **When a search ends as promised.** Let the engine start and end. The search fails with its status
and its errors exactly if the status is neither zero nor one. Otherwise it ends as promised exactly if
the output is tame. -/
theorem search_endsAsPromised_iff {base : Route} {pattern root engine : String} {o : Options}
    {words : List String}
    (hwords : arguments pattern (Frame.ofRoot base root).root.text o = .ok words) {status : Int}
    {output errors : List UInt8} {s : Session} {more : List Run}
    (hruns : s.runs = .ended status output errors :: more) :
    ((search base pattern root o engine s).1
        = .error (.engineFailed (some status) (String.ofList (outputText errors))) ↔
      status ≠ 0 ∧ status ≠ 1) ∧
    (status = 0 ∨ status = 1 →
      (EndsAsPromised o.maxResults.toNat 1 (Text.splitLines (outputText output))
          (search base pattern root o engine s).1 ↔
        IsTame (Frame.ofRoot base root) o.maxResults.toNat 0
          (Text.splitLines (outputText output)))) := by
  have hsearched : isSearched status = true ↔ status = 0 ∨ status = 1 := by
    simp [isSearched]
  rw [search_fst hwords hruns, outcome]
  constructor
  · rw [← not_or, ← hsearched]
    constructor
    · intro h hstatus
      rw [if_pos hstatus] at h
      cases hreduce : reduce (Frame.ofRoot base root) (some o.maxResults)
          (Text.splitLines (outputText output)) with
      | ok out =>
          rw [hreduce] at h
          cases h
      | error e =>
          rw [hreduce] at h
          cases h
          exact reduceFrom_ne_engineFailed _ _ _ hreduce
    · intro hstatus
      rw [if_neg hstatus]
      rfl
  · intro hstatus
    rw [if_pos (hsearched.mpr hstatus)]
    exact reduceFrom_endsAsPromised_iff (o := ⟨[], [], 0⟩) (Nat.zero_min _).symm _

/-- A search below the root of the file system for one match, with an engine that writes this text. -/
def searchText (text : String) : Except Failure (List Match) :=
  (search ⟨.root, []⟩ "a" "/" { Options.default with maxResults := 1 } "rg"
    (Session.begin [.ended 0 (Text.Utf8.encode text.toList) []] infoSeverity)).1

theorem searchText_ends_at_bad_line :
    EndsAsPromised 1 1 [['x']] (searchText "x\n") ∧
      ∃ e, searchText "x\n" = .error e ∧ blamesLine 1 e := by
  have hwords : arguments "a" (Frame.ofRoot ⟨.root, []⟩ "/").root.text
      { Options.default with maxResults := 1 } = .ok
        ["--json", "--line-number", "--column", "--max-count", "1", "--glob", "!vendor/**", "--glob",
          "!node_modules/**", "--glob", "!.git/**", "-e", "a", "/."] := by
    rfl
  have hlines : Text.splitLines (outputText (Text.Utf8.encode "x\n".toList)) = [['x']] := by
    decide
  obtain ⟨fault, hparse, hreported⟩ : ∃ fault, Record.parse ['x'] = .error fault ∧
      fault.isReported = true := ⟨_, rfl, rfl⟩
  have htame : IsTame (Frame.ofRoot ⟨.root, []⟩ "/") 1 0 [['x']] :=
    (isTame_cons_fault (by decide) hparse).mpr hreported
  have hruns : (Session.begin [.ended 0 (Text.Utf8.encode "x\n".toList) []] infoSeverity).runs
      = .ended 0 (Text.Utf8.encode "x\n".toList) [] :: [] := rfl
  have hpromise : EndsAsPromised 1 1 (Text.splitLines (outputText (Text.Utf8.encode "x\n".toList)))
      (searchText "x\n") :=
    ((search_endsAsPromised_iff hwords hruns).2 (Or.inl rfl)).mpr (hlines ▸ htame)
  rw [hlines] at hpromise
  exact ⟨hpromise, (endsAsPromised_fault (by decide) hparse).mp hpromise⟩

theorem searchText_eq (text : String) :
    searchText text = (reduce (Frame.ofRoot ⟨.root, []⟩ "/") (some 1)
      (Text.splitLines (outputText (Text.Utf8.encode text.toList)))).map (·.found) := by
  obtain ⟨words, hwords⟩ : ∃ words, arguments "a" (Frame.ofRoot ⟨.root, []⟩ "/").root.text
      { Options.default with maxResults := 1 } = .ok words := ⟨_, rfl⟩
  have hruns : (Session.begin [.ended 0 (Text.Utf8.encode text.toList) []] infoSeverity).runs
      = [.ended 0 (Text.Utf8.encode text.toList) []] := rfl
  exact search_fst hwords hruns

/-- A line with a number that is too long. -/
def longLine : List Char := List.replicate (Text.maxDigits + 1) '1'

theorem parse_longLine : Record.parse longLine = .error (.tooManyDigits (Text.maxDigits + 1)) := by
  have hcons : longLine = '1' :: List.replicate Text.maxDigits '1' := List.replicate_succ
  have hdigits : ∀ c ∈ longLine, c.isDigit = true := by
    intro c hc
    rw [List.eq_of_mem_replicate hc]
    decide
  have hlength : longLine.length = Text.maxDigits + 1 := List.length_replicate
  rw [hcons] at hdigits hlength
  rw [hcons, Record.parse, Json.parse_of_long (by decide) hdigits (by omega), hlength]

/-- **A long number escapes.** The line is no record, and the search fails without its position. -/
theorem long_number_escapes :
    Record.parse longLine = .error (.tooManyDigits 4301) ∧
      searchText (String.ofList (longLine ++ ['\n'])) = .error (.tooManyDigits 4301) ∧
      ¬ EndsAsPromised 1 1 [longLine] (searchText (String.ofList (longLine ++ ['\n']))) := by
  have hbreaks : ∀ c ∈ longLine, Text.isLineBreak c = false := by
    intro c hc
    rw [List.eq_of_mem_replicate hc]
    decide
  have hblank : Text.isBlankLine longLine = false := by
    have hcons : longLine = '1' :: List.replicate Text.maxDigits '1' := List.replicate_succ
    rw [hcons]
    rfl
  have hescapes : searchText (String.ofList (longLine ++ ['\n'])) = .error (.tooManyDigits 4301) := by
    rw [searchText_eq, String.toList_ofList, splitLines_outputText hbreaks, reduce,
      reduceFrom_fault hblank parse_longLine]
    rfl
  refine ⟨parse_longLine, hescapes, ?_⟩
  rw [hescapes]
  exact not_endsAsPromised (e := .tooManyDigits 4301) (fun _ h => h) _

/-- A line that reports a match. -/
def namedLine : String :=
  "\x7b\"type\":\"match\",\"data\":\x7b\"path\":\x7b\"text\":\"/b\"\x7d,\"line_number\":1\x7d\x7d\n"

/-- A line that reports a match without a path. -/
def namelessLine : String := "\x7b\"type\":\"match\",\"data\":\x7b\"line_number\":1\x7d\x7d\n"

theorem eq_emptyPath {α : Type} {x : Except Failure α}
    (h : (match x with | .error .emptyPath => true | _ => false) = true) : x = .error .emptyPath := by
  split at h
  · rfl
  · cases h

/-- **A match without a path escapes.** The search fails without the position of the line, and only if
there is room for the match. -/
theorem nameless_match_escapes :
    searchText namelessLine = .error .emptyPath ∧
      ¬ EndsAsPromised 1 1 (Text.splitLines namelessLine.toList) (searchText namelessLine) ∧
      (searchText (namedLine ++ namelessLine)).toOption = some [⟨"b", 1, 0, ""⟩] := by
  have hescapes : searchText namelessLine = .error .emptyPath := by
    rw [searchText_eq]
    -- a literal is evaluated slowly, so its letters are written out first
    unfold namelessLine
    rw [String.toList_ofList]
    exact eq_emptyPath (by decide +kernel)
  refine ⟨hescapes, ?_, ?_⟩
  · rw [hescapes]
    exact not_endsAsPromised (e := .emptyPath) (fun _ h => h) _
  · rw [searchText_eq]
    unfold namedLine namelessLine
    rw [String.toList_append]
    repeat rw [String.toList_ofList]
    decide +kernel

end SourceNavigator.Search
