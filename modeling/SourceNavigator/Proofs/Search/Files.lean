import SourceNavigator.Proofs.Search.Aggregation

set_option autoImplicit false

/-! # The files of matches

The engine reports absolute paths, and a match names its file relative to the root. The path of a record is
read as a route (`Record.route?`). If it is absolute, the file that is made of it leads back to it from the
root (`leadsBack_of_match?`), wherever the process stands, and it is made unless a name that is left in it
cannot be written (`match?_of_route`). So what is made of a stream leads back to what the stream reports,
match by match, and a stream of records is accepted exactly if all these files can be written
(`reduce_leadsBack`).
-/

namespace SourceNavigator.Search

open SourceNavigator.Path (Route IsName LeadsBack areWritable namesBetween up)

/-! ## Routes of records -/

/-- The route of the path that a match record gives. -/
def Record.route? : Record → Option Route
  | .found path .. => some (Route.ofString path)
  | .misnamed path .. => some (Route.ofPoints path)
  | _ => none

/-- The way from the root to a place can be written, if no name on it holds halves of pairs. -/
def HasFile (root : String) (route : Route) : Prop :=
  areWritable (namesBetween (Route.ofString root).collapse.names route.collapse.names) = true

variable {base route : Route} {root : String} {r : Record}

/-- The names of a record's path are names, unless they cannot be written. -/
theorem isName_of_route (h : r.route? = some route) {name : String} (hname : name ∈ route.names)
    (hslash : '/' ∉ name.toList) : IsName name := by
  cases r with
  | found path line column text =>
      cases h
      exact Path.ofString_isProper path name hname
  | misnamed path line column text =>
      cases h
      exact Path.isName_of_ofPoints hname hslash
  | context path line text => cases h
  | other kind => cases h

/-- The way to a path that is given as text can be written. -/
theorem hasFile_ofString (root path : String) : HasFile root (Route.ofString path) := by
  refine List.all_eq_true.mpr fun name hname => ?_
  have hproper : IsName name := by
    rcases Path.mem_namesBetween hname with rfl | hname
    · exact Path.isName_up
    · exact Path.collapse_isProper (Path.ofString_isProper path) name hname
  simpa using hproper.2

/-! ## One record -/

theorem append_of_isAnchored (base : Route) (h : route.isAnchored = true) :
    base.append route = route := by
  rw [Route.append, if_pos h]

theorem root_ofRoot (base : Route) (hroot : Path.isAbsolute root = true) :
    (Frame.ofRoot base root).root = (Route.ofString root).collapse := by
  show (base.append (Route.ofString root)).collapse = _
  rw [append_of_isAnchored base (by rw [Path.isAnchored_ofString, hroot])]

/-- The file of a path that is given as text. -/
theorem relative_of_isAnchored (base : Route) (hroot : Path.isAbsolute root = true) {path : String}
    (habsolute : (Route.ofString path).isAnchored = true) :
    (Frame.ofRoot base root).relative path
      = Path.relativeText (Route.ofString root).collapse (Route.ofString path).collapse := by
  rw [Frame.relative, root_ofRoot base hroot]
  show Path.relativeText _ (base.append (Route.ofString path)).collapse = _
  rw [append_of_isAnchored base habsolute]

/-- The file of a path that holds halves of pairs. -/
theorem relative?_of_isAnchored (base : Route) (hroot : Path.isAbsolute root = true)
    {path : Text.Points} (habsolute : (Route.ofPoints path).isAnchored = true) :
    (Frame.ofRoot base root).relative? path
      = if areWritable (namesBetween (Route.ofString root).collapse.names
            (Route.ofPoints path).collapse.names) then
          some (Path.relativeText (Route.ofString root).collapse (Route.ofPoints path).collapse)
        else none := by
  rw [Frame.relative?, root_ofRoot base hroot]
  show (if areWritable (namesBetween _ (base.append (Route.ofPoints path)).collapse.names) then
    some (Path.relativeText _ (base.append (Route.ofPoints path)).collapse) else none) = _
  rw [append_of_isAnchored base habsolute]

/-- **The match of an absolute path.** Its file is the way from the root, and there is none only if this
cannot be written. Where the process stands makes no difference. -/
theorem match?_of_route (base : Route) (hroot : Path.isAbsolute root = true) (h : r.route? = some route)
    (habsolute : route.isAnchored = true) :
    (HasFile root route → ∃ line column text, r.match? (Frame.ofRoot base root)
      = some ⟨Path.relativeText (Route.ofString root).collapse route.collapse, line, column, text⟩) ∧
    (¬ HasFile root route → r.match? (Frame.ofRoot base root) = none) := by
  cases r with
  | found path line column text =>
      cases h
      have hnonempty : path.isEmpty = false := by
        rw [← Bool.not_eq_true]
        intro hempty
        rw [String.isEmpty_iff.mp hempty] at habsolute
        cases habsolute
      refine ⟨fun _ => ⟨line, column, Text.strip text, ?_⟩, fun hno => ?_⟩
      · rw [Record.match?, hnonempty, if_neg Bool.false_ne_true,
          relative_of_isAnchored base hroot habsolute]
      · exact absurd (hasFile_ofString root path) hno
  | misnamed path line column text =>
      cases h
      unfold HasFile
      rw [Record.match?, relative?_of_isAnchored base hroot habsolute]
      constructor
      · intro hfile
        rw [if_pos hfile]
        exact ⟨line, column, Text.strip text, rfl⟩
      · intro hfile
        rw [if_neg hfile]
        rfl
  | context path line text => cases h
  | other kind => cases h

/-- **The file of a match leads back to the path that was reported.** -/
theorem leadsBack_of_match? (hroot : Path.isAbsolute root = true) (h : r.route? = some route)
    (habsolute : route.isAnchored = true) {m : Match}
    (hmatch : r.match? (Frame.ofRoot base root) = some m) :
    LeadsBack root route.collapse.names m.file := by
  obtain ⟨hsome, hnone⟩ := match?_of_route base hroot h habsolute
  by_cases hfile : HasFile root route
  · obtain ⟨line, column, text, hfound⟩ := hsome hfile
    rw [hmatch] at hfound
    cases hfound
    refine Path.leadsBack_relativeText hroot (Path.up_not_mem_collapse habsolute) fun name hname => ?_
    -- a name of the way can be written, and it leads up or is one of the path
    have hslash : '/' ∉ name.toList := by simpa using List.all_eq_true.mp hfile name hname
    rcases Path.mem_namesBetween hname with rfl | hname
    · exact Path.isName_up
    · exact isName_of_route h (Path.mem_collapseNames hname) hslash
  · rw [hnone hfile] at hmatch
    cases hmatch

/-! ## Streams -/

section Streams

variable {f : Frame} {cap : Option Int} {number : Nat} {o : Output} {lines done : List (List Char)}

/-- A match for which there is room is among the first, whatever follows. -/
theorem mem_firstOf {l : List Record} {kept : List Match} (h : kept.length = (firstOf cap l).length)
    (hroom : hasRoom cap kept = true) (r : Record) (rest : List Record) :
    r ∈ firstOf cap (l ++ r :: rest) := by
  cases cap with
  | none => exact List.mem_append_right l List.mem_cons_self
  | some k =>
      have hless := hasRoom_eq_true_iff.mp hroom
      rw [firstOf, List.length_take] at h
      have hfits : l.length + 1 ≤ k.toNat := by omega
      have hsplit : (l ++ r :: rest).take k.toNat
          = l ++ r :: rest.take (k.toNat - (l.length + 1)) := by
        rw [List.append_cons, List.take_append, List.length_append, List.length_singleton,
          List.take_of_length_le (by rw [List.length_append, List.length_singleton]; exact hfits),
          List.append_assoc, List.singleton_append]
      rw [firstOf, hsplit]
      exact List.mem_append_right l List.mem_cons_self

theorem mem_of_mem_firstOf {l : List Record} (h : r ∈ firstOf cap l) : r ∈ l := by
  cases cap with
  | none => exact h
  | some k => exact List.mem_of_mem_take h

theorem matchesOf_record {line : List Char} {r : Record} (hblank : Text.isBlankLine line = false)
    (hparse : Record.parse line = .ok r) (hmatch : r.isMatch = true) (rest : List (List Char)) :
    matchesOf (done ++ line :: rest) = matchesOf done ++ r :: matchesOf rest := by
  rw [List.append_cons, matchesOf, recordsOf_append, recordsOf_append, recordsOf_record hblank hparse,
    List.filter_append, List.filter_append, List.filter_cons_of_pos hmatch, List.filter_nil,
    List.append_assoc, List.singleton_append]
  rfl

/-- Records are accepted if the first of their matches name their files. -/
theorem exists_reduceFrom_eq (hsum : SumsUp f cap done o) (hrecords : AreRecords lines)
    (hnamed : ∀ r ∈ firstOf cap (matchesOf (done ++ lines)), r.match? f ≠ none) :
    ∃ o', reduceFrom f cap number o lines = .ok o' := by
  induction lines generalizing number o done with
  | nil => exact ⟨o, rfl⟩
  | cons line rest ih =>
      obtain ⟨hline, hrest⟩ := areRecords_cons.mp hrecords
      have hnext : ∀ r ∈ firstOf cap (matchesOf (done ++ [line] ++ rest)), r.match? f ≠ none := by
        rw [← List.append_cons]
        exact hnamed
      cases hblank : Text.isBlankLine line with
      | true =>
          rw [reduceFrom_blank hblank]
          exact ih (hsum.blank hblank) hrest hnext
      | false =>
          obtain ⟨r, hparse⟩ := hline.resolve_left (by rw [hblank]; decide)
          cases hadd : o.add f cap r with
          | ok next =>
              rw [reduceFrom_record hblank hparse hadd]
              exact ih (hsum.record hblank hparse hadd) hrest hnext
          | error e =>
              -- what is refused is among the first matches, all of which name their files
              obtain ⟨hmatch, hroom, hnone⟩ := match?_of_refused hadd
              have hlength : o.found.length = (firstOf cap (matchesOf done)).length := by
                simpa using congrArg List.length hsum.found
              have hmem := mem_firstOf hlength hroom r (matchesOf rest)
              rw [← matchesOf_record hblank hparse hmatch] at hmem
              exact absurd hnone (hnamed r hmem)

/-- A stream of records is accepted exactly if the first of its matches name their files. -/
theorem exists_reduce_eq_iff (hrecords : AreRecords lines) :
    (∃ o, reduce f cap lines = .ok o) ↔
      ∀ r ∈ firstOf cap (matchesOf lines), r.match? f ≠ none := by
  constructor
  · rintro ⟨o, ho⟩ r hr hnone
    have hsum := sumsUp_of_reduceFrom (sumsUp_nil f cap) ho
    have hmem : none ∈ o.found.map some := by
      rw [hsum.found]
      exact List.mem_map.mpr ⟨r, hr, hnone⟩
    obtain ⟨m, -, hm⟩ := List.mem_map.mp hmem
    cases hm
  · exact fun hnamed => exists_reduceFrom_eq (sumsUp_nil f cap) hrecords hnamed

end Streams

/-- **What is found leads back to what was reported.** Whatever is made of a stream, each match stands for
one of its records, in order, and if the path of this is absolute, the file of the match leads back to it
from the root. If all lines are records and all matches have absolute paths, something is made of the
stream exactly if the files of the first matches can be written, as many as the cap allows; and this is so
for every path that is a text. -/
theorem reduce_leadsBack (base : Route) (hroot : Path.isAbsolute root = true) (cap : Option Int)
    (lines : List (List Char)) :
    (∀ o, reduce (Frame.ofRoot base root) cap lines = .ok o →
      List.Forall₂ (fun r m => ∀ route, Record.route? r = some route → route.isAnchored = true →
        LeadsBack root route.collapse.names (Match.file m)) (firstOf cap (matchesOf lines)) o.found) ∧
    (AreRecords lines →
      (∀ r ∈ matchesOf lines, ∃ route, r.route? = some route ∧ route.isAnchored = true) →
      ((∃ o, reduce (Frame.ofRoot base root) cap lines = .ok o) ↔
        ∀ r ∈ firstOf cap (matchesOf lines), ∀ route, r.route? = some route → HasFile root route)) ∧
    ∀ path, HasFile root (Route.ofString path) := by
  refine ⟨fun o ho => ?_, fun hrecords habsolute => ?_, hasFile_ofString root⟩
  · have hfound := (sumsUp_of_reduceFrom (sumsUp_nil _ cap) ho).found
    rw [← List.forall₂_eq_eq_eq, List.forall₂_map_left_iff, List.forall₂_map_right_iff] at hfound
    refine (hfound.imp fun m r hmatch => ?_).flip
    intro route hroute habsolute
    exact leadsBack_of_match? hroot hroute habsolute hmatch.symm
  · rw [exists_reduce_eq_iff hrecords]
    refine forall₂_congr fun r hr => ?_
    obtain ⟨route, hroute, hanchored⟩ := habsolute r (mem_of_mem_firstOf hr)
    obtain ⟨hsome, hnone⟩ := match?_of_route base hroot hroute hanchored
    constructor
    · intro hnamed route' hroute'
      rw [hroute] at hroute'
      cases hroute'
      by_contra hfile
      exact hnamed (hnone hfile)
    · intro hfile
      obtain ⟨line, column, text, hmatch⟩ := hsome (hfile route hroute)
      rw [hmatch]
      exact Option.some_ne_none _

/-! A root that is not normalised, the same directory on another way, and a directory whose name only
begins like it. -/

def siblingRoot : String := "/srv/../moodle/"

def siblingLines : List (List Char) :=
  [("\x7b\"type\":\"match\",\"data\":\x7b\"path\":\x7b\"text\":\"/moodle/lib/..\"\x7d," ++
      "\"line_number\":1\x7d\x7d").toList,
    ("\x7b\"type\":\"match\",\"data\":\x7b\"path\":\x7b\"text\":\"//moodle2/./a\"\x7d," ++
      "\"line_number\":2\x7d\x7d").toList]

theorem reduce_leadsBack_siblings :
    Path.isAbsolute siblingRoot = true ∧ AreRecords siblingLines ∧
      ∃ o, reduce (Frame.ofRoot ⟨.root, ["tmp"]⟩ siblingRoot) none siblingLines = .ok o ∧
        o.found = [⟨".", 1, 0, ""⟩, ⟨"../moodle2/a", 2, 0, ""⟩] ∧
        LeadsBack siblingRoot ["moodle"] "." ∧ LeadsBack siblingRoot ["moodle2", "a"] "../moodle2/a" := by
  have hroot : Path.isAbsolute siblingRoot = true := by decide
  have hfound : (reduce (Frame.ofRoot ⟨.root, ["tmp"]⟩ siblingRoot) none siblingLines).map (·.found)
      = .ok [⟨".", 1, 0, ""⟩, ⟨"../moodle2/a", 2, 0, ""⟩] := by
    -- a literal is evaluated slowly, so its letters are written out first
    apply eq_ok_of_toOption
    unfold siblingLines
    simp only [String.toList_append]
    repeat rw [String.toList_ofList]
    decide +kernel
  have hmatches : matchesOf siblingLines
      = [.found "/moodle/lib/.." 1 0 "", .found "//moodle2/./a" 2 0 ""] := by
    unfold siblingLines
    simp only [String.toList_append]
    repeat rw [String.toList_ofList]
    decide +kernel
  obtain ⟨o, ho, hlist⟩ := exists_of_map_eq_ok hfound
  obtain ⟨hback, hexists, hfile⟩ := reduce_leadsBack ⟨.root, ["tmp"]⟩ hroot none siblingLines
  have hrecords : AreRecords siblingLines := (sumsUp_of_reduceFrom (sumsUp_nil _ none) ho).areRecords
  have habsolute : ∀ r ∈ matchesOf siblingLines,
      ∃ route, r.route? = some route ∧ route.isAnchored = true := by
    rw [hmatches]
    simp only [List.forall_mem_cons, List.not_mem_nil, false_implies, implies_true, and_true]
    exact ⟨⟨_, rfl, by decide⟩, _, rfl, by decide⟩
  have hwritten : ∀ r ∈ firstOf none (matchesOf siblingLines),
      ∀ route, r.route? = some route → HasFile siblingRoot route := by
    rw [hmatches]
    rintro r hr route hroute
    rcases List.mem_cons.mp hr with rfl | hr
    · cases hroute
      exact hfile _
    · obtain rfl := List.mem_singleton.mp hr
      cases hroute
      exact hfile _
  obtain ⟨o', ho'⟩ := (hexists hrecords habsolute).mpr hwritten
  rw [ho] at ho'
  cases ho'
  have hpairs := hback o ho
  rw [firstOf, hmatches, hlist] at hpairs
  obtain ⟨hfirst, hrest⟩ := List.forall₂_cons.mp hpairs
  obtain ⟨hsecond, -⟩ := List.forall₂_cons.mp hrest
  refine ⟨hroot, hrecords, o, ho, hlist, ?_, ?_⟩
  · have hplace : (Route.ofString "/moodle/lib/..").collapse.names = ["moodle"] := by decide
    rw [← hplace]
    exact hfirst _ rfl (by decide)
  · have hplace : (Route.ofString "//moodle2/./a").collapse.names = ["moodle2", "a"] := by decide
    rw [← hplace]
    exact hsecond _ rfl (by decide)

end SourceNavigator.Search
