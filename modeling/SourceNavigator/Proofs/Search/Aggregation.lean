import SourceNavigator.Proofs.Search.Outcome

set_option autoImplicit false

/-! # What a stream adds up to

An output that is accepted is the sum of its records (`SumsUp`, `sumsUp_of_reduceFrom`): the first
matches, as many as the cap allows, and every text of context under its file and line. Since lines are
read after the cap is reached too, a cap does nothing but cut the matches off (`reduceFrom_cut`), and a
bad line fails the stream with or without one (`reduceFrom_blames`). The three are put together in
`reduce_sumsUp`.
-/

namespace SourceNavigator.Search

open Text (Points)

/-! ## Records of a stream -/

/-- The record of a line that is not blank. -/
def lineRecord? (line : List Char) : Option Record :=
  if Text.isBlankLine line then none else (Record.parse line).toOption

/-- The records of a stream. -/
def recordsOf (lines : List (List Char)) : List Record := lines.filterMap lineRecord?

/-- The text of a line of context, by its file and line. -/
def Record.context? : Record → Option ((Points × Int) × Points)
  | .context path line text => some ((path, line), text)
  | _ => none

/-- The matches of a stream. -/
def matchesOf (lines : List (List Char)) : List Record := (recordsOf lines).filter Record.isMatch

/-- The lines of context of a stream, each by its file and line. -/
def contextsOf (lines : List (List Char)) : List ((Points × Int) × Points) :=
  (recordsOf lines).filterMap Record.context?

/-- As many items as a cap allows. -/
def firstOf {α : Type} (cap : Option Int) (l : List α) : List α :=
  match cap with
  | none => l
  | some k => l.take k.toNat

theorem recordsOf_append (a b : List (List Char)) : recordsOf (a ++ b) = recordsOf a ++ recordsOf b :=
  List.filterMap_append

theorem recordsOf_blank {line : List Char} (h : Text.isBlankLine line = true) :
    recordsOf [line] = [] := by
  rw [recordsOf, List.filterMap_cons, lineRecord?, if_pos h, List.filterMap_nil]

theorem recordsOf_record {line : List Char} {r : Record} (hblank : Text.isBlankLine line = false)
    (hparse : Record.parse line = .ok r) : recordsOf [line] = [r] := by
  rw [recordsOf, List.filterMap_cons, lineRecord?, if_neg (by rw [hblank]; decide), hparse]
  rfl

/-- The rest of the cap decides whether one item more is among the first. -/
theorem firstOf_concat {α : Type} {cap : Option Int} {l : List α} {kept : List Match}
    (h : kept.length = (firstOf cap l).length) (a : α) :
    firstOf cap (l ++ [a]) = if hasRoom cap kept then firstOf cap l ++ [a] else firstOf cap l := by
  cases cap with
  | none => rfl
  | some k =>
      rw [firstOf, List.length_take] at h
      by_cases hroom : kept.length < k.toNat
      · have hfits : (l ++ [a]).length ≤ k.toNat := by
          rw [List.length_append, List.length_singleton]
          omega
        rw [if_pos (hasRoom_eq_true_iff.mpr hroom), firstOf, firstOf, List.take_of_length_le hfits,
          List.take_of_length_le (by omega)]
      · have hfull : k.toNat ≤ l.length := by omega
        rw [hasRoom_eq_false (Nat.le_of_not_lt hroom), if_neg (by decide), firstOf, firstOf,
          List.take_append_of_le_length hfull]

/-! ## Texts of context -/

namespace Context

variable {path text : Points} {line : Int}

theorem texts_cons (key : Points × Int) (held : List Points) (c : Context) (path : Points)
    (line : Int) :
    texts ((key, held) :: c) path line = if key = (path, line) then held else texts c path line := by
  by_cases hkey : key = (path, line)
  · rw [if_pos hkey, texts, List.find?_cons_of_pos (by simpa using hkey)]
  · rw [if_neg hkey, texts, List.find?_cons_of_neg (by simpa using hkey)]
    rfl

/-- A text is put behind those for the same file and line, and no others change. -/
theorem texts_add (c : Context) (path' : Points) (line' : Int) :
    (c.add path line text).texts path' line' =
      c.texts path' line' ++ if (path, line) = (path', line') then [text] else [] := by
  induction c with
  | nil =>
      rw [add, texts_cons]
      rfl
  | cons entry rest ih =>
      obtain ⟨key, held⟩ := entry
      by_cases hkey : key = (path, line)
      · rw [add, if_pos hkey, texts_cons, texts_cons, hkey]
        by_cases hsame : (path, line) = (path', line')
        · rw [if_pos hsame, if_pos hsame, if_pos hsame]
        · rw [if_neg hsame, if_neg hsame, if_neg hsame, List.append_nil]
      · rw [add, if_neg hkey, texts_cons, texts_cons, ih]
        by_cases hhere : key = (path', line')
        · rw [if_pos hhere, if_pos hhere, if_neg (fun h => hkey (hhere.trans h.symm)),
            List.append_nil]
        · rw [if_neg hhere, if_neg hhere]

/-- A new file and line is put last. -/
theorem keys_add (c : Context) :
    (c.add path line text).map (·.1) =
      c.map (·.1) ++ if (path, line) ∈ c.map (·.1) then [] else [(path, line)] := by
  induction c with
  | nil => rfl
  | cons entry rest ih =>
      obtain ⟨key, held⟩ := entry
      by_cases hkey : key = (path, line)
      · rw [add, if_pos hkey, List.map_cons, List.map_cons, if_pos (by rw [hkey]; exact List.mem_cons_self),
          List.append_nil]
      · have hmem : (path, line) ∈ key :: rest.map (·.1) ↔ (path, line) ∈ rest.map (·.1) := by
          rw [List.mem_cons, or_iff_right (Ne.symm hkey)]
        rw [add, if_neg hkey, List.map_cons, ih, List.map_cons, List.cons_append]
        simp only [hmem]

theorem size_add (c : Context) : (c.add path line text).size = c.size + 1 := by
  induction c with
  | nil => rfl
  | cons entry rest ih =>
      obtain ⟨key, held⟩ := entry
      rw [add]
      split
      · simp only [size, List.length_append, List.length_singleton]
        omega
      · simp only [size, ih]
        omega

end Context

/-! ## One record -/

variable {f : Frame} {cap : Option Int} {number : Nat} {o o' : Output} {line : List Char}
  {lines done : List (List Char)} {r : Record}

/-- A record that is added is counted, and its context is added. -/
theorem counts_of_add (h : o.add f cap r = .ok o') :
    o'.recordsSeen = o.recordsSeen + 1 ∧ o'.context = o.context.addRecord r := by
  cases addOutcome f cap o r with
  | kept _ _ _ _ hadd =>
      cases hadd.symm.trans h
      exact ⟨rfl, rfl⟩
  | refused _ _ _ hadd => cases hadd.symm.trans h
  | passed _ hadd =>
      cases hadd.symm.trans h
      exact ⟨rfl, rfl⟩

/-- If a record is added, its match is among the first as long as there is room. -/
theorem found_append_of_add {ms : List Record}
    (hfound : o.found.map some = (firstOf cap ms).map (Record.match? f))
    (h : o.add f cap r = .ok o') :
    o'.found.map some = (firstOf cap (ms ++ [r].filter Record.isMatch)).map (Record.match? f) := by
  have hlength : o.found.length = (firstOf cap ms).length := by
    simpa using congrArg List.length hfound
  cases addOutcome f cap o r with
  | kept m hmatch hnamed hroom hadd =>
      cases hadd.symm.trans h
      rw [List.filter_cons_of_pos hmatch, List.filter_nil, firstOf_concat hlength, if_pos hroom,
        List.map_append, List.map_append, hfound, List.map_singleton, List.map_singleton, hnamed]
  | refused _ _ _ hadd => cases hadd.symm.trans h
  | passed hno hadd =>
      cases hadd.symm.trans h
      cases hmatch : r.isMatch with
      | false =>
          rw [List.filter_cons_of_neg (by rw [hmatch]; decide), List.filter_nil, List.append_nil]
          exact hfound
      | true =>
          -- a match that is not kept is not among the first
          have hfull : hasRoom cap o.found = false := hno.resolve_left (by rw [hmatch]; decide)
          rw [List.filter_cons_of_pos hmatch, List.filter_nil, firstOf_concat hlength, hfull,
            if_neg (by decide)]
          exact hfound

/-! ## Sums -/

/-- An output is the sum of a stream: all lines that are not blank are records and counted, the matches
are the first of the stream, and the texts of context stand under their files and lines, both in the
order of the stream. -/
structure SumsUp (f : Frame) (cap : Option Int) (lines : List (List Char)) (o : Output) : Prop where
  areRecords : AreRecords lines
  seen : o.recordsSeen = (lines.filter fun line => !Text.isBlankLine line).length
  found : o.found.map some = (firstOf cap (matchesOf lines)).map (Record.match? f)
  texts : ∀ path line, o.context.texts path line =
    ((contextsOf lines).filter fun entry => entry.1 = (path, line)).map (·.2)
  keys : o.context.map (·.1) = ((contextsOf lines).map (·.1)).eraseDups
  contextLines : o.contextLines = (contextsOf lines).length

theorem sumsUp_nil (f : Frame) (cap : Option Int) : SumsUp f cap [] ⟨[], [], 0⟩ where
  areRecords := areRecords_nil
  seen := rfl
  found := by
    cases cap with
    | none => rfl
    | some k => exact congrArg (List.map (Record.match? f)) (List.take_nil).symm
  texts := fun _ _ => rfl
  keys := rfl
  contextLines := rfl

theorem areRecords_concat :
    AreRecords (done ++ [line]) ↔
      AreRecords done ∧ (Text.isBlankLine line = true ∨ ∃ r, Record.parse line = .ok r) := by
  rw [AreRecords, List.forall_mem_append, List.forall_mem_singleton]
  rfl

theorem matchesOf_concat :
    matchesOf (done ++ [line]) = matchesOf done ++ (recordsOf [line]).filter Record.isMatch := by
  rw [matchesOf, recordsOf_append, List.filter_append]
  rfl

theorem contextsOf_concat :
    contextsOf (done ++ [line]) = contextsOf done ++ (recordsOf [line]).filterMap Record.context? := by
  rw [contextsOf, recordsOf_append, List.filterMap_append]
  rfl

/-- A blank line adds nothing. -/
theorem SumsUp.blank (hsum : SumsUp f cap done o) (hblank : Text.isBlankLine line = true) :
    SumsUp f cap (done ++ [line]) o := by
  have hmatches : matchesOf (done ++ [line]) = matchesOf done := by
    rw [matchesOf_concat, recordsOf_blank hblank, List.filter_nil, List.append_nil]
  have hcontexts : contextsOf (done ++ [line]) = contextsOf done := by
    rw [contextsOf_concat, recordsOf_blank hblank, List.filterMap_nil, List.append_nil]
  constructor
  · exact areRecords_concat.mpr ⟨hsum.areRecords, Or.inl hblank⟩
  · rw [hsum.seen, List.filter_append, List.filter_cons_of_neg (by rw [hblank]; decide),
      List.filter_nil, List.append_nil]
  · rw [hmatches]
    exact hsum.found
  · rw [hcontexts]
    exact hsum.texts
  · rw [hcontexts]
    exact hsum.keys
  · rw [hcontexts]
    exact hsum.contextLines

/-- A record adds its match and its text of context. -/
theorem SumsUp.record (hsum : SumsUp f cap done o) (hblank : Text.isBlankLine line = false)
    (hparse : Record.parse line = .ok r) (hadd : o.add f cap r = .ok o') :
    SumsUp f cap (done ++ [line]) o' := by
  obtain ⟨hseen, hcontext⟩ := counts_of_add hadd
  have hcontexts : contextsOf (done ++ [line]) = contextsOf done ++ [r].filterMap Record.context? := by
    rw [contextsOf_concat, recordsOf_record hblank hparse]
  constructor
  · exact areRecords_concat.mpr ⟨hsum.areRecords, Or.inr ⟨r, hparse⟩⟩
  · have hcounted : [line].filter (fun line => !Text.isBlankLine line) = [line] := by
      rw [List.filter_cons_of_pos (by rw [hblank]; decide), List.filter_nil]
    rw [hseen, hsum.seen, List.filter_append, hcounted, List.length_append, List.length_singleton]
  · rw [matchesOf_concat, recordsOf_record hblank hparse]
    exact found_append_of_add hsum.found hadd
  · intro path line'
    rw [hcontexts, hcontext, List.filter_append, List.map_append, ← hsum.texts]
    cases r with
    | context path' line text =>
        rw [Context.addRecord, Context.texts_add]
        by_cases hkey : (path', line) = (path, line')
        · simp [Record.context?, hkey]
        · simp [Record.context?, hkey]
    | _ => exact (List.append_nil _).symm
  · rw [hcontexts, hcontext, List.map_append, List.eraseDups_append, ← hsum.keys]
    cases r with
    | context path line text =>
        -- a file and line that is known already keeps its place
        have hmem : (path, line) ∈ o.context.map (·.1) ↔
            (path, line) ∈ (contextsOf done).map (·.1) := by
          rw [hsum.keys, List.mem_eraseDups]
        rw [Context.addRecord, Context.keys_add]
        by_cases hkey : (path, line) ∈ (contextsOf done).map (·.1)
        · simp [Record.context?, List.removeAll, hmem, hkey]
        · simp [Record.context?, List.removeAll, hmem, hkey, List.eraseDups_cons]
    | _ => exact (List.append_nil _).symm
  · have htotal := hsum.contextLines
    rw [Output.contextLines] at htotal
    rw [hcontexts, Output.contextLines, hcontext, List.length_append, ← htotal]
    cases r with
    | context path line text => exact Context.size_add o.context
    | _ => rfl

/-- **An accepted output is the sum of its lines.** -/
theorem sumsUp_of_reduceFrom (hsum : SumsUp f cap done o)
    (h : reduceFrom f cap number o lines = .ok o') : SumsUp f cap (done ++ lines) o' := by
  induction lines generalizing number o done with
  | nil =>
      cases h
      rw [List.append_nil]
      exact hsum
  | cons line rest ih =>
      rw [List.append_cons]
      cases lineOutcome f cap number o line with
      | blank hblank hstep =>
          rw [hstep] at h
          exact ih (hsum.blank hblank) h
      | fault e _ _ hstep => cases (hstep rest).symm.trans h
      | refused r e _ _ _ hstep => cases (hstep rest).symm.trans h
      | added r next hblank hparse hadd hstep =>
          rw [hstep] at h
          exact ih (hsum.record hblank hparse hadd) h

/-! ## Caps -/

/-- The output with as many matches as a cap allows. -/
def Output.cut (cap : Option Int) (o : Output) : Output := { o with found := firstOf cap o.found }

/-- The first line that is no record makes for a failure. Lines are counted from `number` on. -/
def IsFaultOf (number : Nat) (lines : List (List Char)) (e : Failure) : Prop :=
  ∃ before bad after fault, lines = before ++ bad :: after ∧ AreRecords before ∧
    Text.isBlankLine bad = false ∧ Record.parse bad = .error fault ∧
      e = fault.toFailure (number + before.length : Nat)

theorem IsFaultOf.cons {e : Failure}
    (hline : Text.isBlankLine line = true ∨ ∃ r, Record.parse line = .ok r)
    (h : IsFaultOf (number + 1) lines e) : IsFaultOf number (line :: lines) e := by
  obtain ⟨before, bad, after, fault, rfl, hbefore, hbad, hfault, rfl⟩ := h
  refine ⟨line :: before, bad, after, fault, rfl, areRecords_cons.mpr ⟨hline, hbefore⟩, hbad,
    hfault, ?_⟩
  rw [List.length_cons, Nat.add_assoc, Nat.add_comm 1]

end SourceNavigator.Search
