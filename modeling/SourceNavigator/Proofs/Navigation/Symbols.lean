import SourceNavigator.Proofs.Excerpt.Symbol
import SourceNavigator.Proofs.Navigation.Containment
import SourceNavigator.Proofs.Navigation.Matches
import SourceNavigator.Proofs.Search.LineNumbers
import SourceNavigator.Proofs.Search.Outcome

set_option autoImplicit false

/-! # The answer to a symbol search

A symbol search runs the engine once for each pattern. If every run starts, and ends in matches or in
a failure of that search alone, the whole search succeeds (`searchSymbol_eq_report`): it lists the
first matches of each pattern in the order of the patterns, without those outside the root, each with
its excerpt (`symbolsShown`). A run that fails counts as one that finds nothing. One match yields one
entry or none (`yields_symbolBodies`), and one pattern uses up one run (`exists_patternBodies_eq`).
-/

namespace SourceNavigator.Navigation

open SourceNavigator.Path (Route)
open Excerpt (IsLineNumber)
open Search (AreNumbered AreRelative Frame Match)

namespace Navigator

variable (n : Navigator)

/-! ## What is shown -/

/-- The excerpt of a match; the text of the match if there is none. -/
def excerptOf (m : Match) : String :=
  (Excerpt.readSymbol n.world (n.matchAddress m) m.line).toOption.getD m.text

/-- The matches inside with their excerpts. -/
def insideShown (found : List Match) : List (Match × String) :=
  (found.filter n.isInside).map fun m => (m, n.excerptOf m)

/-- What a run of a symbol search comes to. -/
def symbolOutcome (run : Run) : Except Failure Search.Output :=
  Search.outcome (Frame.ofRoot n.world.base n.settings.root) n.settings.limits.symbolResults
    n.settings.engine.binary run

/-- The run starts, and its search gives matches or fails alone. -/
def IsUsable (run : Run) : Prop :=
  (∃ out, n.symbolOutcome run = .ok out) ∨
    ∃ e, n.symbolOutcome run = .error e ∧ isSearchFailure e = true

/-- The first matches that a run reports; none if its search fails. -/
def runMatches (run : Run) : List Match :=
  match run, n.symbolOutcome run with
  | .ended _ output _, .ok _ =>
    (Search.reported (Frame.ofRoot n.world.base n.settings.root)
      (Text.splitLines (Search.outputText output))).take n.settings.limits.symbolResults.toNat
  | _, _ => []

/-- What is shown for the runs of a symbol search. -/
def symbolsShown (runs : List Run) : List (Match × String) := n.insideShown (runs.flatMap n.runMatches)

variable {n}

theorem runMatches_of_ok {run : Run} {out : Search.Output} (h : n.symbolOutcome run = .ok out) :
    n.runMatches run = out.found := by
  obtain ⟨status, output, errors, rfl, -, hfound⟩ := Search.found_of_outcome h
  unfold runMatches
  simp only [h, hfound]

theorem runMatches_of_error {run : Run} {e : Failure} (h : n.symbolOutcome run = .error e) :
    n.runMatches run = [] := by
  unfold runMatches
  rw [h]
  cases run with
  | ended _ _ _ => rfl
  | notStarted _ => rfl

theorem areRelative_runMatches (hn : n.world.IsSound) (run : Run) : AreRelative (n.runMatches run) := by
  unfold runMatches
  split
  · have hreported := Search.areRelative_reported (f := Frame.ofRoot n.world.base n.settings.root)
      ⟨World.isProper_base hn, rfl⟩
    exact fun m hm => hreported _ m (List.mem_of_mem_take hm)
  · exact fun m hm => absurd hm List.not_mem_nil

theorem areNumbered_runMatches (run : Run) : AreNumbered (n.runMatches run) := by
  unfold runMatches
  split
  · exact fun m hm => Search.areNumbered_reported _ _ m (List.mem_of_mem_take hm)
  · exact fun m hm => absurd hm List.not_mem_nil

theorem insideShown_append (a b : List Match) :
    n.insideShown (a ++ b) = n.insideShown a ++ n.insideShown b := by
  rw [insideShown, List.filter_append, List.map_append]
  rfl

theorem symbolsShown_cons (run : Run) (runs : List Run) :
    n.symbolsShown (run :: runs) = n.insideShown (n.runMatches run) ++ n.symbolsShown runs := by
  rw [symbolsShown, List.flatMap_cons, insideShown_append]
  rfl

/-! ## One match -/

/-- For a match inside, the excerpt is shown or the text of the match, and nothing fails. -/
theorem yields_symbolBody (hroot : World.hasNul n.settings.root = false) {m : Match}
    (hm : Path.IsRelative m.file) (hline : IsLineNumber m.line) (h : n.isInside m = true) :
    (n.symbolBody m (n.root.append (Route.ofString m.file))).Yields (n.excerptOf m) := by
  unfold symbolBody excerptOf matchAddress
  cases hread : Excerpt.readSymbol n.world (n.root.append (Route.ofString m.file)).address m.line with
  | ok text => exact Action.yields_done text
  | error e =>
      have hnavigation :=
        Excerpt.isNavigation_of_readSymbol (hasNul_matchAddress hroot hm h) hline hread
      simp only
      rw [if_pos hnavigation]
      exact Action.yields_log_pure warningSeverity logSource _ m.text

theorem yields_symbolBodies (hroot : World.hasNul n.settings.root = false) {found : List Match}
    (hfound : AreRelative found) (hlines : AreNumbered found) :
    (n.symbolBodies found).Yields (n.insideShown found) := by
  induction found with
  | nil => exact Action.yields_done []
  | cons m rest ih =>
      obtain ⟨hfirst, hothers⟩ := List.forall_mem_cons.mp hfound
      obtain ⟨hline, hlines⟩ := List.forall_mem_cons.mp hlines
      have hrest := ih hothers hlines
      refine (yields_fullRoute n m).bind ?_
      cases hinside : n.isInside m with
      | false =>
          rw [matchRoute_of_not_isInside hinside, insideShown,
            List.filter_cons_of_neg (by simp [hinside])]
          exact hrest
      | true =>
          rw [matchRoute_of_isInside hinside, insideShown, List.filter_cons_of_pos hinside,
            List.map_cons]
          refine (yields_symbolBody hroot hfirst hline hinside).bind ?_
          exact hrest.bind (Action.yields_pure _)

/-! ## One pattern -/

/-- The number of results can be written, so the engine is started. -/
theorem exists_arguments_eq (hlimit : (Text.decimal? n.settings.limits.symbolResults).isSome = true)
    (pattern root : String) (directories : List String) :
    ∃ words, Search.arguments pattern root (n.symbolOptions directories) = .ok words := by
  obtain ⟨most, hmost⟩ := Option.isSome_iff_exists.mp hlimit
  have hword : Search.numberWord (n.symbolOptions directories).maxResults = .ok most := by
    show Search.numberWord n.settings.limits.symbolResults = _
    rw [Search.numberWord, hmost]
  unfold Search.arguments
  rw [hword]
  exact ⟨_, rfl⟩

/-- A pattern uses up one run, and gives the matches of this run. -/
theorem exists_patternMatches_eq
    (hlimit : (Text.decimal? n.settings.limits.symbolResults).isSome = true) (directories : List String)
    (pattern : String) {s : Session} {run : Run} {more : List Run} (hruns : s.runs = run :: more)
    (husable : n.IsUsable run) :
    ∃ s', n.patternMatches (n.symbolOptions directories) pattern s = (.ok (n.runMatches run), s') ∧
      s'.runs = more := by
  obtain ⟨words, hwords⟩ := exists_arguments_eq hlimit pattern
    (Frame.ofRoot n.world.base n.settings.root).root.text directories
  obtain ⟨s₁, hsearch, hruns₁⟩ : ∃ s₁, Search.search n.world.base pattern n.settings.root
      (n.symbolOptions directories) n.settings.engine.binary s
        = ((n.symbolOutcome run).map (·.found), s₁) ∧ s₁.runs = more :=
    Search.exists_search_eq hwords hruns
  have hattempt := Action.attempt_apply hsearch
  unfold patternMatches
  rw [Action.bind_apply hattempt]
  rcases husable with ⟨out, hout⟩ | ⟨e, he, hfailure⟩
  · rw [hout, runMatches_of_ok hout]
    exact ⟨s₁, rfl, hruns₁⟩
  · rw [he, runMatches_of_error he]
    simp only [Except.map, hfailure, if_true]
    obtain ⟨s₂, hlog, hruns₂⟩ := Action.yields_log_pure errorSeverity logSource
      ("Pattern search failed: " ++ pattern ++ ": " ++ e.message) ([] : List Match) s₁
    exact ⟨s₂, hlog, hruns₂.trans hruns₁⟩

/-! ## All patterns -/

/-- The patterns use up one run each, and show what is shown for these runs. -/
theorem exists_patternBodies_eq (hn : n.world.IsSound) (hroot : World.hasNul n.settings.root = false)
    (hlimit : (Text.decimal? n.settings.limits.symbolResults).isSome = true) (directories : List String)
    {patterns : List String} {runs : List Run} (hcount : runs.length = patterns.length)
    (husable : ∀ run ∈ runs, n.IsUsable run) {s : Session} {more : List Run}
    (hruns : s.runs = runs ++ more) :
    ∃ s', n.patternBodies (n.symbolOptions directories) patterns s
        = (.ok (n.symbolsShown runs), s') ∧ s'.runs = more := by
  induction patterns generalizing runs s with
  | nil =>
      obtain rfl := List.length_eq_zero_iff.mp hcount
      exact ⟨s, rfl, hruns⟩
  | cons pattern patterns ih =>
      cases runs with
      | nil => simp at hcount
      | cons run runs =>
          obtain ⟨s₁, hmatches, hruns₁⟩ := exists_patternMatches_eq hlimit directories pattern hruns
            (husable run List.mem_cons_self)
          obtain ⟨s₂, hbodies, hruns₂⟩ :=
            yields_symbolBodies hroot (areRelative_runMatches hn run) (areNumbered_runMatches run) s₁
          obtain ⟨s₃, hothers, hruns₃⟩ := ih (Nat.succ.inj hcount)
            (fun r hr => husable r (List.mem_cons_of_mem _ hr)) (hruns₂.trans hruns₁)
          refine ⟨s₃, ?_, hruns₃⟩
          unfold patternBodies
          rw [Action.bind_apply hmatches, Action.bind_apply hbodies, Action.bind_apply hothers,
            symbolsShown_cons]
          rfl

/-! ## The report -/

/-- The answer if nothing is shown. -/
def nothingFound (name kind : String) : String :=
  "No symbols found matching \"" ++ name ++ "\" of type \"" ++ kind ++ "\""

/-- The answer that counts what is shown and numbers it from one on. -/
def numberedReport (name : String) (shown : List (Match × String)) : String :=
  "Found " ++ toString shown.length ++ " symbol(s) matching \"" ++ name ++ "\":\n" ++
    sections (shown.mapIdx fun i entry => symbolSection (i + 1) entry.1 entry.2)

theorem symbolSections_eq_mapIdx (index : Nat) (shown : List (Match × String)) :
    symbolSections index shown
      = shown.mapIdx fun i entry => symbolSection (i + index) entry.1 entry.2 := by
  induction shown generalizing index with
  | nil => rfl
  | cons entry rest ih =>
      rw [symbolSections, ih, List.mapIdx_cons]
      simp only [Nat.zero_add, Nat.add_assoc, Nat.add_comm index 1]

theorem symbolReport_eq (name kind : String) (shown : List (Match × String)) :
    symbolReport name kind shown
      = if shown.isEmpty then nothingFound name kind else numberedReport name shown := by
  rw [symbolReport, symbolSections_eq_mapIdx]
  rfl

theorem head?_append_of_head? {a : String} {c : Char} (h : a.toList.head? = some c) (b : String) :
    (a ++ b).toList.head? = some c := by
  rw [String.toList_append, List.head?_append, h]
  rfl

/-- The two answers differ in their first letter. -/
theorem numberedReport_ne_nothingFound (name kind : String) (shown : List (Match × String)) :
    numberedReport name shown ≠ nothingFound name kind := by
  intro hsame
  have hnumbered : (numberedReport name shown).toList.head? = some 'F' := by
    have hfound : ("Found " : String).toList.head? = some 'F' := by decide
    unfold numberedReport
    iterate 5 refine head?_append_of_head? ?_ _
    exact hfound
  have hnothing : (nothingFound name kind).toList.head? = some 'N' := by
    have hno : ("No symbols found matching \"" : String).toList.head? = some 'N' := by decide
    unfold nothingFound
    iterate 4 refine head?_append_of_head? ?_ _
    exact hno
  rw [hsame, hnothing] at hnumbered
  cases hnumbered

theorem symbolReport_eq_nothingFound_iff (name kind : String) (shown : List (Match × String)) :
    symbolReport name kind shown = nothingFound name kind ↔ shown = [] := by
  rw [symbolReport_eq]
  cases shown with
  | nil => exact iff_of_true rfl rfl
  | cons entry rest =>
      exact iff_of_false (numberedReport_ne_nothingFound name kind _) (List.cons_ne_nil _ _)

/-- An excerpt is shown where the file can be read and holds the line, and the text of the match
elsewhere. -/
theorem excerptOf_cases (m : Match) :
    ((∃ lines, Excerpt.readLines n.world (n.matchAddress m) = .ok lines ∧ Excerpt.Holds lines m.line) →
        Excerpt.readSymbol n.world (n.matchAddress m) m.line = .ok (n.excerptOf m)) ∧
      ((¬ ∃ lines, Excerpt.readLines n.world (n.matchAddress m) = .ok lines ∧
        Excerpt.Holds lines m.line) → n.excerptOf m = m.text) := by
  rw [← Excerpt.exists_readSymbol_eq_iff]
  unfold excerptOf
  constructor
  · rintro ⟨text, h⟩
    rw [h]
    rfl
  · intro h
    cases hread : Excerpt.readSymbol n.world (n.matchAddress m) m.line with
    | ok text => exact absurd ⟨text, hread⟩ h
    | error e => rfl

/-- The answer to a symbol search whose runs are all usable. -/
theorem searchSymbol_fst (hn : n.world.IsSound) (hroot : World.hasNul n.settings.root = false)
    (hlimit : (Text.decimal? n.settings.limits.symbolResults).isSome = true) {name kindName : String}
    (hname : (Text.strip name).isEmpty = false) {kind : SymbolKind}
    (hkind : SymbolKind.ofName? kindName = some kind) {directory : Option String}
    {directories : List String} (hdirectory : n.searchDirectories directory = Action.done directories)
    {runs : List Run} (hcount : runs.length = (symbolPatterns (Text.strip name) kind).length)
    (husable : ∀ run ∈ runs, n.IsUsable run) {s : Session} {more : List Run}
    (hruns : s.runs = runs ++ more) :
    (n.searchSymbol name (some kindName) directory s).1
      = .ok (symbolReport (Text.strip name) kindName (n.symbolsShown runs)) := by
  have hpatterns : namedPatterns (Text.strip name) kindName
      = .ok (symbolPatterns (Text.strip name) kind) := by
    rw [namedPatterns, hkind]
  obtain ⟨s', hbodies, -⟩ :=
    exists_patternBodies_eq hn hroot hlimit directories hcount husable hruns
  unfold searchSymbol
  rw [if_neg (ne_true_of_eq_false hname)]
  -- up to the runs every step succeeds and leaves the session as it is
  have hlifted : Action.lift (some kindName |>.elim (.error .typeMissing) .ok) s = (.ok kindName, s) :=
    rfl
  have hlift : Action.lift (namedPatterns (Text.strip name) kindName) s
      = (.ok (symbolPatterns (Text.strip name) kind), s) := by
    rw [hpatterns]
    rfl
  have hdirectories : n.searchDirectories directory s = (.ok directories, s) := by
    rw [hdirectory]
    rfl
  rw [Action.bind_apply hlifted, Action.bind_apply hlift, Action.bind_apply hdirectories,
    Action.bind_apply hbodies]
  rfl

/-- **What a symbol search shows.** Let the name not be blank, the kind be known, the directory be
accepted, the number of results be short enough to be written, and every run be usable. The search
succeeds. It shows the first matches of each run in order, without those of runs that fail and those
outside the root; nothing is found exactly if none is left, and else they are counted, and numbered
from one on. A match is shown with its excerpt where its file can be read and holds the line, and with
its own text elsewhere. A run that fails might as well have found nothing. -/
theorem searchSymbol_eq_report (n : Navigator) (hn : n.world.IsSound)
    (hroot : World.hasNul n.settings.root = false)
    (hlimit : (Text.decimal? n.settings.limits.symbolResults).isSome = true) {name kindName : String}
    (hname : (Text.strip name).isEmpty = false) {kind : SymbolKind}
    (hkind : SymbolKind.ofName? kindName = some kind) {directory : Option String}
    {directories : List String} (hdirectory : n.searchDirectories directory = Action.done directories)
    {runs : List Run} (hcount : runs.length = (symbolPatterns (Text.strip name) kind).length)
    (husable : ∀ run ∈ runs, n.IsUsable run) {s : Session} {more : List Run}
    (hruns : s.runs = runs ++ more) :
    (n.searchSymbol name (some kindName) directory s).1
        = .ok (if (n.symbolsShown runs).isEmpty then nothingFound (Text.strip name) kindName
            else numberedReport (Text.strip name) (n.symbolsShown runs)) ∧
      ((n.searchSymbol name (some kindName) directory s).1
          = .ok (nothingFound (Text.strip name) kindName) ↔ n.symbolsShown runs = []) ∧
      (∀ m, ((∃ lines, Excerpt.readLines n.world (n.matchAddress m) = .ok lines ∧
            Excerpt.Holds lines m.line) →
          Excerpt.readSymbol n.world (n.matchAddress m) m.line = .ok (n.excerptOf m)) ∧
        ((¬ ∃ lines, Excerpt.readLines n.world (n.matchAddress m) = .ok lines ∧
            Excerpt.Holds lines m.line) → n.excerptOf m = m.text)) ∧
      ∀ before run after, runs = before ++ run :: after → (∃ e, n.symbolOutcome run = .error e) →
        ∀ empty out, n.symbolOutcome empty = .ok out → out.found = [] →
          ∀ s' more', s'.runs = (before ++ empty :: after) ++ more' →
            (n.searchSymbol name (some kindName) directory s').1
              = (n.searchSymbol name (some kindName) directory s).1 := by
  have hanswer := searchSymbol_fst hn hroot hlimit hname hkind hdirectory hcount husable hruns
  refine ⟨hanswer.trans (congrArg Except.ok (symbolReport_eq _ _ _)), ?_, excerptOf_cases, ?_⟩
  · rw [hanswer, Except.ok.injEq, symbolReport_eq_nothingFound_iff]
  · rintro before run after rfl ⟨e, he⟩ empty out hout hempty s' more' hruns'
    have hsame : n.symbolsShown (before ++ empty :: after)
        = n.symbolsShown (before ++ run :: after) := by
      rw [symbolsShown, symbolsShown, List.flatMap_append, List.flatMap_append, List.flatMap_cons,
        List.flatMap_cons, runMatches_of_ok hout, runMatches_of_error he, hempty]
    have husable' : ∀ r ∈ before ++ empty :: after, n.IsUsable r := by
      intro r hr
      rcases List.mem_append.mp hr with hr | hr
      · exact husable r (List.mem_append_left _ hr)
      · rcases List.mem_cons.mp hr with rfl | hr
        · exact Or.inl ⟨out, hout⟩
        · exact husable r (List.mem_append_right _ (List.mem_cons_of_mem _ hr))
    have hcount' : (before ++ empty :: after).length
        = (symbolPatterns (Text.strip name) kind).length := by
      rw [← hcount, List.length_append, List.length_append, List.length_cons, List.length_cons]
    rw [searchSymbol_fst hn hroot hlimit hname hkind hdirectory hcount' husable' hruns', hsame, hanswer]

end Navigator

/-- A navigator below `/moodle`, with one line in its only file. -/
def besideConstant : Navigator :=
  besideSecret [("a.php", .file (Text.Utf8.encode "const X = 1;\n".toList))]

/-- A run that reports the line of that file. -/
def constantRun : Run := reportingRun "/moodle/a.php" "const X = 1;"

theorem searchSymbol_besideConstant :
    besideConstant.world.IsSound ∧ World.hasNul besideConstant.settings.root = false ∧
      (Text.decimal? besideConstant.settings.limits.symbolResults).isSome = true ∧
      (∀ run ∈ [.ended 2 [] [], constantRun], besideConstant.IsUsable run) ∧
      (besideConstant.searchSymbol " X" (some "constant") none
        (Session.begin [.ended 2 [] [], constantRun] infoSeverity)).1
          = .ok ("Found 1 symbol(s) matching \"X\":\n\n### Result 1: a.php:1\n\n" ++
              "\x60\x60\x60php\n    1 | const X = 1;\n\x60\x60\x60\n") := by
  have hsound : besideConstant.world.IsSound := ⟨by decide, _, rfl⟩
  have hroot : World.hasNul besideConstant.settings.root = false := by decide
  have hlimit : (Text.decimal? besideConstant.settings.limits.symbolResults).isSome = true := by
    decide +kernel
  have hfails : ∃ e, besideConstant.symbolOutcome (.ended 2 [] []) = .error e ∧
      Navigator.isSearchFailure e = true := ⟨_, rfl, rfl⟩
  obtain ⟨out, hout⟩ : ∃ out, (besideConstant.symbolOutcome constantRun).toOption = some out :=
    Option.isSome_iff_exists.mp (by
      -- a literal is evaluated slowly, so its letters are written out first
      unfold constantRun reportingRun
      simp only [String.toList_append]
      repeat rw [String.toList_ofList]
      decide +kernel)
  have husable : ∀ run ∈ [.ended 2 [] [], constantRun], besideConstant.IsUsable run := by
    intro run hrun
    rcases List.mem_cons.mp hrun with rfl | hrun
    · exact Or.inr hfails
    · obtain rfl := List.mem_singleton.mp hrun
      exact Or.inl ⟨out, eq_ok_of_toOption hout⟩
  refine ⟨hsound, hroot, hlimit, husable, ?_⟩
  have hkind : SymbolKind.ofName? "constant" = some .constants := by decide
  have hcount : [Run.ended 2 [] [], constantRun].length
      = (symbolPatterns (Text.strip " X") .constants).length := rfl
  have hruns : (Session.begin [.ended 2 [] [], constantRun] infoSeverity).runs
      = [.ended 2 [] [], constantRun] ++ [] := rfl
  have hdirectory : besideConstant.searchDirectories none = Action.done ["."] := rfl
  rw [(Navigator.searchSymbol_eq_report besideConstant hsound hroot hlimit (by decide +kernel) hkind
    hdirectory hcount husable hruns).1]
  refine congrArg Except.ok ?_
  unfold constantRun reportingRun
  simp only [String.toList_append]
  repeat rw [String.toList_ofList]
  decide +kernel

end SourceNavigator.Navigation
