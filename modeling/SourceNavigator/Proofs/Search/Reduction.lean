import SourceNavigator.Proofs.Calls
import SourceNavigator.Proofs.Path.Between
import SourceNavigator.Search.Engine

set_option autoImplicit false

/-! # Matches of an output

A record reports one match at most (`Record.match?`). What it does to an output is said once
(`addOutcome`), and so is what a line does to a stream (`lineOutcome`); what holds of streams follows by
induction on their lines. A record is added unless it does not name its file while there is room
(`exists_add_error_iff`), and an output that is accepted comes to the first matches that its lines
report, as many as the cap allows (`found_of_reduceFrom`). Whatever paths the engine reports, the files
of these matches are paths relative to the root (`areRelative_of_gives_search`).
-/

namespace SourceNavigator.Search

open SourceNavigator.Path (Route)

/-! ## Records -/

/-- The match that a record reports in a frame, if it reports one and names its file. -/
def Record.match? (f : Frame) : Record → Option Match
  | .found path line column text =>
    if path.isEmpty then none else some ⟨f.relative path, line, column, Text.strip text⟩
  | .misnamed path line column text =>
    (f.relative? path).map fun file => ⟨file, line, column, Text.strip text⟩
  | _ => none

/-- Whether a record names the file of its match, if it reports one. -/
def Record.isNamed (f : Frame) : Record → Bool
  | .found path .. => !path.isEmpty
  | .misnamed path .. => (f.relative? path).isSome
  | _ => true

/-- Whether a record reports a match. -/
def Record.isMatch : Record → Bool
  | .found .. | .misnamed .. => true
  | _ => false

/-- The context with what a record adds to it. -/
def Context.addRecord (c : Context) : Record → Context
  | .context path line text => c.add path line text
  | _ => c

/-- Why the match of a record is refused if it does not name its file. -/
def Record.refusal : Record → Failure
  | .found .. => .emptyPath
  | _ => misnamedFailure

variable {f : Frame} {cap : Int}

theorem hasRoom_eq_true_iff {kept : List Match} :
    hasRoom (some cap) kept = true ↔ kept.length < cap.toNat := by
  rw [hasRoom, decide_eq_true_iff]
  omega

theorem hasRoom_eq_false {kept : List Match} (h : cap.toNat ≤ kept.length) :
    hasRoom (some cap) kept = false := by
  rw [← Bool.not_eq_true, hasRoom_eq_true_iff]
  omega

theorem match?_of_not_isMatch {r : Record} (h : r.isMatch = false) : r.match? f = none := by
  cases r with
  | found path line column text => cases h
  | misnamed path line column text => cases h
  | context path line text => rfl
  | other kind => rfl

/-- A record does not name its file exactly if it reports a match that comes to nothing. -/
theorem isNamed_eq_false_iff {r : Record} :
    r.isNamed f = false ↔ r.isMatch = true ∧ r.match? f = none := by
  cases r with
  | found path line column text => simp [Record.isNamed, Record.isMatch, Record.match?]
  | misnamed path line column text => simp [Record.isNamed, Record.isMatch, Record.match?]
  | context path line text => simp [Record.isNamed, Record.isMatch]
  | other kind => simp [Record.isNamed, Record.isMatch]

theorem addRecord_of_isMatch {c : Context} {r : Record} (h : r.isMatch = true) : c.addRecord r = c := by
  cases r with
  | context path line text => cases h
  | _ => rfl

/-! ## One record -/

/-- **What a record adds to an output.** -/
theorem add_eq (f : Frame) (cap : Option Int) (o : Output) (r : Record) :
    o.add f cap r =
      if r.isMatch = true ∧ hasRoom cap o.found = true then
        match r.match? f with
        | some m => .ok ⟨o.found ++ [m], o.context, o.recordsSeen + 1⟩
        | none => .error r.refusal
      else .ok ⟨o.found, o.context.addRecord r, o.recordsSeen + 1⟩ := by
  cases r with
  | found path line column text =>
      cases hroom : hasRoom cap o.found with
      | true =>
          cases hpath : path.isEmpty with
          | true => simp [Output.add, Record.match?, Record.isMatch, Record.refusal, hroom, hpath]
          | false => simp [Output.add, Output.keep, Record.match?, Record.isMatch, hroom, hpath]
      | false => simp [Output.add, Context.addRecord, hroom]
  | misnamed path line column text =>
      cases hroom : hasRoom cap o.found with
      | true =>
          cases hfile : f.relative? path with
          | some file => simp [Output.add, Output.keep, Record.match?, Record.isMatch, hroom, hfile]
          | none => simp [Output.add, Record.match?, Record.isMatch, Record.refusal, hroom, hfile]
      | false => simp [Output.add, Context.addRecord, hroom]
  | context path line text => simp [Output.add, Context.addRecord, Record.isMatch]
  | other kind => simp [Output.add, Context.addRecord, Record.isMatch]

/-- What becomes of a record: its match is kept, it is refused since the match comes to nothing, or no
match is wanted of it, be it that it reports none or that there is no room for one. -/
inductive AddOutcome (f : Frame) (cap : Option Int) (o : Output) (r : Record) : Prop where
  | kept (m : Match) (hmatch : r.isMatch = true) (hnamed : r.match? f = some m)
      (hroom : hasRoom cap o.found = true)
      (hadd : o.add f cap r = .ok ⟨o.found ++ [m], o.context.addRecord r, o.recordsSeen + 1⟩)
  | refused (hmatch : r.isMatch = true) (hnone : r.match? f = none)
      (hroom : hasRoom cap o.found = true) (hadd : o.add f cap r = .error r.refusal)
  | passed (hno : r.isMatch = false ∨ hasRoom cap o.found = false)
      (hadd : o.add f cap r = .ok ⟨o.found, o.context.addRecord r, o.recordsSeen + 1⟩)

theorem addOutcome (f : Frame) (cap : Option Int) (o : Output) (r : Record) :
    AddOutcome f cap o r := by
  have hadd := add_eq f cap o r
  cases hmatch : r.isMatch with
  | false =>
      rw [if_neg (by simp [hmatch])] at hadd
      exact .passed (Or.inl hmatch) hadd
  | true =>
      cases hroom : hasRoom cap o.found with
      | false =>
          rw [if_neg (by simp [hroom])] at hadd
          exact .passed (Or.inr hroom) hadd
      | true =>
          rw [if_pos ⟨hmatch, hroom⟩] at hadd
          cases hm : r.match? f with
          | some m =>
              rw [hm] at hadd
              refine .kept m hmatch hm hroom ?_
              rw [hadd, addRecord_of_isMatch hmatch]
          | none =>
              rw [hm] at hadd
              exact .refused hmatch hm hroom hadd

/-- A record is refused for want of a file name only. -/
theorem failure_of_add {cap : Option Int} {o : Output} {r : Record} {e : Failure}
    (h : o.add f cap r = .error e) : e = .emptyPath ∨ e = misnamedFailure := by
  cases addOutcome f cap o r with
  | kept _ _ _ _ hadd => cases hadd.symm.trans h
  | refused _ _ _ hadd =>
      cases hadd.symm.trans h
      cases r with
      | found path line column text => exact Or.inl rfl
      | _ => exact Or.inr rfl
  | passed _ hadd => cases hadd.symm.trans h

/-- A record is refused only if it reports a match for which there is room, and the file of this cannot
be named. -/
theorem match?_of_refused {cap : Option Int} {o : Output} {r : Record} {e : Failure}
    (h : o.add f cap r = .error e) :
    r.isMatch = true ∧ hasRoom cap o.found = true ∧ r.match? f = none := by
  cases addOutcome f cap o r with
  | kept _ _ _ _ hadd => cases hadd.symm.trans h
  | refused hmatch hnone hroom _ => exact ⟨hmatch, hroom, hnone⟩
  | passed _ hadd => cases hadd.symm.trans h

/-- A record is refused exactly if there is room for its match and it does not name its file. -/
theorem exists_add_error_iff {o : Output} {r : Record} :
    (∃ e, o.add f (some cap) r = .error e) ↔
      ¬ (cap.toNat ≤ o.found.length ∨ r.isNamed f = true) := by
  rw [not_or, Nat.not_le, Bool.not_eq_true, isNamed_eq_false_iff, ← hasRoom_eq_true_iff]
  constructor
  · rintro ⟨e, hadd⟩
    obtain ⟨hmatch, hroom, hnone⟩ := match?_of_refused hadd
    exact ⟨hroom, hmatch, hnone⟩
  · rintro ⟨hroom, hmatch, hnone⟩
    rw [add_eq, if_pos ⟨hmatch, hroom⟩, hnone]
    exact ⟨_, rfl⟩

/-- What is added names its file as long as there is room for it. -/
theorem isNamed_of_add {o o' : Output} {r : Record} (hadd : o.add f (some cap) r = .ok o') :
    cap.toNat ≤ o.found.length ∨ r.isNamed f = true := by
  by_contra hnot
  obtain ⟨e, hrefused⟩ := exists_add_error_iff.mpr hnot
  cases hadd.symm.trans hrefused

/-- The match of a record that is added is kept if there is room. -/
theorem found_of_add {o o' : Output} (h : o.found.length ≤ cap.toNat) {r : Record}
    (hadd : o.add f (some cap) r = .ok o') :
    o'.found = (o.found ++ (r.match? f).toList).take cap.toNat := by
  cases addOutcome f (some cap) o r with
  | kept m _ hnamed hroom hstep =>
      cases hstep.symm.trans hadd
      have hless := hasRoom_eq_true_iff.mp hroom
      rw [hnamed, Option.toList_some, List.take_of_length_le]
      rw [List.length_append, List.length_singleton]
      omega
  | refused _ _ _ hstep => cases hstep.symm.trans hadd
  | passed hno hstep =>
      cases hstep.symm.trans hadd
      rcases hno with hno | hroom
      · rw [match?_of_not_isMatch hno, Option.toList_none, List.append_nil, List.take_of_length_le h]
      · -- no room means that as many matches are kept as the cap allows
        have hfull : cap.toNat = o.found.length := by
          rw [← Bool.not_eq_true, hasRoom_eq_true_iff] at hroom
          omega
        rw [hfull, List.take_left']
        rfl

/-- A record is added if it names its file or there is no room for its match. -/
theorem exists_add_eq {o : Output} (h : o.found.length ≤ cap.toNat) {r : Record}
    (hr : cap.toNat ≤ o.found.length ∨ r.isNamed f = true) :
    ∃ o', o.add f (some cap) r = .ok o' ∧
      o'.found = (o.found ++ (r.match? f).toList).take cap.toNat := by
  cases hadd : o.add f (some cap) r with
  | error e => exact absurd hr (exists_add_error_iff.mp ⟨e, hadd⟩)
  | ok o' => exact ⟨o', rfl, found_of_add h hadd⟩

/-! ## Lines -/

/-- The match that a line reports. -/
def lineMatch? (f : Frame) (line : List Char) : Option Match :=
  if Text.isBlankLine line then none
  else
    match Record.parse line with
    | .ok r => r.match? f
    | .error _ => none

/-- The matches that lines report. -/
def reported (f : Frame) (lines : List (List Char)) : List Match := lines.filterMap (lineMatch? f)

theorem reported_cons (f : Frame) (line : List Char) (lines : List (List Char)) :
    reported f (line :: lines) = (lineMatch? f line).toList ++ reported f lines := by
  rw [reported, List.filterMap_cons]
  cases lineMatch? f line with
  | none => rfl
  | some m => rfl

theorem lineMatch?_blank {line : List Char} (h : Text.isBlankLine line = true) :
    lineMatch? f line = none := by
  rw [lineMatch?, if_pos h]

theorem lineMatch?_record {line : List Char} (h : Text.isBlankLine line = false) {r : Record}
    (hparse : Record.parse line = .ok r) : lineMatch? f line = r.match? f := by
  rw [lineMatch?, if_neg (by rw [h]; decide), hparse]

theorem reduceFrom_blank {cap : Option Int} {number : Nat} {o : Output} {line : List Char}
    (h : Text.isBlankLine line = true) (lines : List (List Char)) :
    reduceFrom f cap number o (line :: lines) = reduceFrom f cap (number + 1) o lines := by
  rw [reduceFrom, if_pos h]

theorem reduceFrom_record {cap : Option Int} {number : Nat} {o o' : Output} {line : List Char}
    {r : Record} (hblank : Text.isBlankLine line = false) (hparse : Record.parse line = .ok r)
    (hadd : o.add f cap r = .ok o') (lines : List (List Char)) :
    reduceFrom f cap number o (line :: lines) = reduceFrom f cap (number + 1) o' lines := by
  rw [reduceFrom, if_neg (by rw [hblank]; decide), hparse]
  simp only [hadd]

theorem reduceFrom_refused {cap : Option Int} {number : Nat} {o : Output} {line : List Char}
    {r : Record} (hblank : Text.isBlankLine line = false) (hparse : Record.parse line = .ok r)
    {e : Failure} (hadd : o.add f cap r = .error e) (lines : List (List Char)) :
    reduceFrom f cap number o (line :: lines) = .error e := by
  rw [reduceFrom, if_neg (by rw [hblank]; decide), hparse]
  simp only [hadd]

theorem reduceFrom_fault {cap : Option Int} {number : Nat} {o : Output} {line : List Char}
    {fault : LineFault} (hblank : Text.isBlankLine line = false)
    (hparse : Record.parse line = .error fault) (lines : List (List Char)) :
    reduceFrom f cap number o (line :: lines) = .error (fault.toFailure number) := by
  rw [reduceFrom, if_neg (by rw [hblank]; decide), hparse]

/-- What reading one line comes to, whatever lines follow: it is passed over, it is no record, its
record is refused, or its record is added. -/
inductive LineOutcome (f : Frame) (cap : Option Int) (number : Nat) (o : Output) (line : List Char) :
    Prop where
  | blank (hblank : Text.isBlankLine line = true)
      (hstep : ∀ rest, reduceFrom f cap number o (line :: rest) = reduceFrom f cap (number + 1) o rest)
  | fault (e : LineFault) (hblank : Text.isBlankLine line = false)
      (hparse : Record.parse line = .error e)
      (hstep : ∀ rest, reduceFrom f cap number o (line :: rest) = .error (e.toFailure number))
  | refused (r : Record) (e : Failure) (hblank : Text.isBlankLine line = false)
      (hparse : Record.parse line = .ok r) (hadd : o.add f cap r = .error e)
      (hstep : ∀ rest, reduceFrom f cap number o (line :: rest) = .error e)
  | added (r : Record) (next : Output) (hblank : Text.isBlankLine line = false)
      (hparse : Record.parse line = .ok r) (hadd : o.add f cap r = .ok next)
      (hstep : ∀ rest,
        reduceFrom f cap number o (line :: rest) = reduceFrom f cap (number + 1) next rest)

theorem lineOutcome (f : Frame) (cap : Option Int) (number : Nat) (o : Output) (line : List Char) :
    LineOutcome f cap number o line := by
  cases hblank : Text.isBlankLine line with
  | true => exact .blank hblank (reduceFrom_blank hblank)
  | false =>
      cases hparse : Record.parse line with
      | error e => exact .fault e hblank hparse (reduceFrom_fault hblank hparse)
      | ok r =>
          cases hadd : o.add f cap r with
          | error e =>
              exact .refused r e hblank hparse hadd (reduceFrom_refused hblank hparse hadd)
          | ok next => exact .added r next hblank hparse hadd (reduceFrom_record hblank hparse hadd)

theorem take_append_take {α : Type} (k : Nat) (a b : List α) :
    (a.take k ++ b).take k = (a ++ b).take k := by
  have hlength : k - (a.take k).length = k - a.length := by
    rw [List.length_take]
    omega
  rw [List.take_append, List.take_append, List.take_take, Nat.min_self, hlength]

/-- **An accepted output comes to the first matches that its lines report.** -/
theorem found_of_reduceFrom {number : Nat} {o o' : Output} (h : o.found.length ≤ cap.toNat)
    {lines : List (List Char)} (hreduce : reduceFrom f (some cap) number o lines = .ok o') :
    o'.found = (o.found ++ reported f lines).take cap.toNat := by
  induction lines generalizing number o with
  | nil =>
      cases hreduce
      rw [reported, List.filterMap_nil, List.append_nil, List.take_of_length_le h]
  | cons line rest ih =>
      cases lineOutcome f (some cap) number o line with
      | blank hblank hstep =>
          rw [hstep] at hreduce
          rw [reported_cons, lineMatch?_blank hblank]
          exact ih h hreduce
      | fault e _ _ hstep => cases (hstep rest).symm.trans hreduce
      | refused r e _ _ _ hstep => cases (hstep rest).symm.trans hreduce
      | added r next hblank hparse hadd hstep =>
          rw [hstep] at hreduce
          have hfound := found_of_add h hadd
          have hlength : next.found.length ≤ cap.toNat := by
            rw [hfound, List.length_take]
            omega
          rw [ih hlength hreduce, hfound, take_append_take, List.append_assoc,
            reported_cons, lineMatch?_record hblank hparse]

/-! ## Files -/

/-- The files of all matches are relative paths. -/
def AreRelative (found : List Match) : Prop := ∀ m ∈ found, Path.IsRelative m.file

variable {base : Route} {root : String}

theorem isRelative_of_match? (hbase : f.base.IsProper ∧ f.base.isAnchored = true) {r : Record}
    {m : Match} (h : r.match? f = some m) : Path.IsRelative m.file := by
  cases r with
  | found path line column text =>
      rw [Record.match?] at h
      split at h
      · cases h
      · cases h
        exact Path.isRelative_relativeText_absolute hbase.1 hbase.2 f.root path
  | misnamed path line column text =>
      obtain ⟨file, hfile, rfl⟩ := Option.map_eq_some_iff.mp h
      unfold Frame.relative? at hfile
      simp only at hfile
      split at hfile
      · rename_i hwritable
        cases hfile
        exact Path.isRelative_relativeText_ofPoints hbase.1 hbase.2 f.root path hwritable
      · cases hfile
  | context path line text => cases h
  | other kind => cases h

theorem areRelative_reported (hbase : f.base.IsProper ∧ f.base.isAnchored = true)
    (lines : List (List Char)) : AreRelative (reported f lines) := by
  intro m hm
  obtain ⟨line, -, hline⟩ := List.mem_filterMap.mp hm
  unfold lineMatch? at hline
  split at hline
  · cases hline
  · split at hline
    · exact isRelative_of_match? hbase hline
    · cases hline

/-- The matches that a run of the engine comes to. -/
theorem found_of_outcome {engine : String} {run : Run} {out : Output}
    (h : outcome f cap engine run = .ok out) :
    ∃ status output errors, run = .ended status output errors ∧ isSearched status = true ∧
      out.found = (reported f (Text.splitLines (outputText output))).take cap.toNat := by
  cases run with
  | notStarted e => cases h
  | ended status output errors =>
      rw [outcome] at h
      split at h
      · rename_i hsearched
        have hfound := found_of_reduceFrom (o := ⟨[], [], 0⟩) (Nat.zero_le cap.toNat) h
        exact ⟨status, output, errors, rfl, hsearched, hfound⟩
      · cases h

/-- The matches of a search are the first ones that some lines report. -/
theorem exists_found_of_gives_search {pattern : String} {o : Options} {engine : String}
    {found : List Match} (h : (search base pattern root o engine).Gives found) :
    ∃ lines, found = (reported (Frame.ofRoot base root) lines).take o.maxResults.toNat := by
  obtain ⟨words, -, h⟩ := Action.gives_bind h
  obtain ⟨_, -, h⟩ := Action.gives_bind h
  obtain ⟨run, -, h⟩ := Action.gives_bind h
  obtain ⟨_, -, h⟩ := Action.gives_bind h
  have h := Action.gives_lift h
  cases hout : outcome (Frame.ofRoot base root) o.maxResults engine run with
  | error e =>
      rw [hout] at h
      cases h
  | ok out =>
      rw [hout] at h
      cases h
      obtain ⟨_, output, _, -, -, hfound⟩ := found_of_outcome hout
      exact ⟨_, hfound⟩

/-- **The matches of a search are relative to its root.** -/
theorem areRelative_of_gives_search (hbase : base.IsProper ∧ base.isAnchored = true)
    {pattern : String} {o : Options} {engine : String} {found : List Match}
    (h : (search base pattern root o engine).Gives found) : AreRelative found := by
  obtain ⟨lines, rfl⟩ := exists_found_of_gives_search h
  exact fun m hm => areRelative_reported hbase lines m (List.mem_of_mem_take hm)

end SourceNavigator.Search
