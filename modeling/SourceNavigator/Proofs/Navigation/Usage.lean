import SourceNavigator.Proofs.Excerpt.Symbol
import SourceNavigator.Proofs.Navigation.Containment
import SourceNavigator.Proofs.Navigation.Matches
import SourceNavigator.Proofs.Search.LineNumbers

set_option autoImplicit false

/-! # The answer to a usage search

A usage search shows the first matches of the engine, one section each (`yields_usageSections`), and
counts all of them. A match outside the root gets a section as well, with its own text, and is counted.
So the answer is the one for the matches inside exactly if the engine reports no others
(`findUsage_showsInside_iff`), and one match outside is enough to be shown (`outside_usage_shown`).
-/

namespace SourceNavigator.Navigation

open SourceNavigator.Path (Route)
open Excerpt (IsLineNumber)
open Search (AreNumbered AreRelative Match)

namespace Navigator

variable (n : Navigator)

/-! ## What is shown -/

/-- What is shown for a usage: lines of its file, and the text of the match if it lies outside or its
lines cannot be shown. -/
def usageText (m : Match) : String :=
  if n.isInside m then
    (Excerpt.readWindow n.world (n.matchAddress m) m.line n.settings.limits.usageBefore
      n.settings.limits.usageAfter).toOption.getD m.text
  else m.text

/-- The section of a usage. -/
def usageSection (m : Match) : String :=
  "\n### " ++ m.location ++ "\n\n" ++ codeBlock (n.usageText m) ++ "\n"

/-- The sections of the first `count` usages. -/
def usageExamples (count : Int) (found : List Match) : List String :=
  (found.take count.toNat).map n.usageSection

/-- The directories of a usage search: the ones asked for, or the usual ones. -/
def usageDirectories (wanted : List (Option String)) : List (Option String) :=
  if wanted.isEmpty then n.settings.usageDirectories.map some else wanted

/-- The search of the engine for a term. -/
def usageSearch (term : String) (directories : List String) (count : Int) : Action (List Match) :=
  Search.search n.world.base term n.settings.root (n.usageOptions directories count)
    n.settings.engine.binary

/-- The answer that counts `total` usages and shows these examples. -/
def usageReport (term : String) (directories : List String) (total : Nat)
    (examples : List String) : String :=
  if total = 0 then
    "No usage examples found for \"" ++ term ++ "\" in directories: " ++
      String.intercalate ", " directories
  else
    "Found " ++ toString total ++ " usage(s) of \"" ++ term ++ "\". Showing " ++
      toString examples.length ++ " examples:\n" ++ sections examples

variable {n}

/-! ## One match -/

theorem isNavigation_of_readWindow {w : World} {a : Path.Address} (ha : World.hasNul a.text = false)
    {line before after : Int} (hline : IsLineNumber line) {e : Failure}
    (h : Excerpt.readWindow w a line before after = .error e) : e.isNavigation = true := by
  unfold Excerpt.readWindow at h
  split at h
  · rename_i hlines
    cases h
    exact Excerpt.isNavigation_of_readLines ha hlines
  · rename_i lines _
    have hcheck := eq_error_of_map_eq_error h
    by_cases hholds : Excerpt.Holds lines line
    · rw [Excerpt.checkLine_of_holds hholds] at hcheck
      cases hcheck
    · rw [Excerpt.checkLine_of_not_holds hholds] at hcheck
      cases hcheck
      exact Excerpt.isNavigation_outside hline hholds

/-- One match shows its text, and nothing fails. -/
theorem yields_usageBody (hroot : World.hasNul n.settings.root = false) {m : Match}
    (hm : Path.IsRelative m.file) (hline : IsLineNumber m.line) :
    (n.usageBody m).Yields (n.usageText m) := by
  unfold usageBody usageText
  refine (yields_fullRoute n m).bind ?_
  cases hinside : n.isInside m with
  | false =>
      rw [matchRoute_of_not_isInside hinside]
      exact Action.yields_pure m.text
  | true =>
      rw [matchRoute_of_isInside hinside, if_pos rfl]
      simp only [matchAddress]
      split
      · rename_i text htext
        rw [htext]
        exact Action.yields_pure text
      · rename_i e he
        have hnavigation :=
          isNavigation_of_readWindow (hasNul_matchAddress hroot hm hinside) hline he
        rw [if_pos hnavigation, he]
        exact Action.yields_log_pure warningSeverity logSource _ m.text

theorem yields_usageSections (hroot : World.hasNul n.settings.root = false) {found : List Match}
    (hfound : AreRelative found) (hlines : AreNumbered found) :
    (n.usageSections found).Yields (found.map n.usageSection) := by
  induction found with
  | nil => exact Action.yields_done []
  | cons m rest ih =>
      obtain ⟨hfirst, hothers⟩ := List.forall_mem_cons.mp hfound
      obtain ⟨hline, hlines⟩ := List.forall_mem_cons.mp hlines
      exact (yields_usageBody hroot hfirst hline).bind
        ((ih hothers hlines).bind (Action.yields_pure _))

/-! ## The report -/

/-- The number that an answer has behind its first word, and zero if it has none there. -/
def usagesCounted (text : String) : Nat :=
  Nat.ofDigitChars 10 ((text.toList.drop 6).takeWhile Char.isDigit) 0

/-- A report shows how many usages it counts. -/
theorem usagesCounted_usageReport (term : String) (directories : List String) (total : Nat)
    (examples : List String) :
    usagesCounted (usageReport term directories total examples) = total := by
  unfold usagesCounted usageReport
  split
  · rename_i htotal
    have hword : ("No usage examples found for \"" : String).toList
        = "No usa".toList ++ 'g' :: "e examples found for \"".toList := by decide
    simp only [String.toList_append, hword, List.append_assoc, List.cons_append]
    rw [List.drop_left' (by decide), List.takeWhile_cons_of_neg (by decide), htotal]
    rfl
  · have hword : (" usage(s) of \"" : String).toList = ' ' :: "usage(s) of \"".toList := by decide
    simp only [String.toList_append, Nat.toString_eq_repr, Nat.toList_repr, hword, List.append_assoc,
      List.cons_append]
    rw [List.drop_left' (by decide), Text.takeWhile_isDigit_toDigits]
    exact Nat.ofDigitChars_ten_toDigits

example : usagesCounted (usageReport "x" ["lib"] 12 ["### a.php:1"]) = 12 := by decide +kernel

/-! ## The answer -/

/-- A usage search that succeeds reports the matches of one search of the engine. -/
theorem exists_usageSearch_of_findUsage (hn : n.world.IsSound)
    (hroot : World.hasNul n.settings.root = false) {term : String} {wanted : List (Option String)}
    {asked : Option Int} {s : Session} {text : String}
    (h : (n.findUsage term wanted asked s).1 = .ok text) :
    ∃ directories found s₁, n.safeDirectories (n.usageDirectories wanted) s = (.ok directories, s₁) ∧
      (n.usageSearch term directories (n.usageCount asked) s₁).1 = .ok found ∧
      text = usageReport term directories found.length
        (n.usageExamples (n.usageCount asked) found) := by
  unfold findUsage at h
  split at h
  · cases h
  · obtain ⟨directories, s₁, hdirectories, h⟩ := Action.exists_of_bind_fst h
    obtain ⟨found, s₂, hfound, h⟩ := Action.exists_of_bind_fst h
    refine ⟨directories, found, s₁, hdirectories, congrArg Prod.fst hfound, ?_⟩
    cases found with
    | nil => exact (Except.ok.inj h).symm
    | cons m rest =>
        have hrelative : AreRelative (m :: rest) :=
          Search.areRelative_of_gives_search ⟨World.isProper_base hn, rfl⟩ ⟨s₁, s₂, hfound⟩
        have hnumbered : AreNumbered (m :: rest) :=
          Search.areNumbered_of_gives_search ⟨s₁, s₂, hfound⟩
        have hshown : AreRelative ((m :: rest).take (n.usageCount asked).toNat) :=
          fun m hm => hrelative m (List.mem_of_mem_take hm)
        have hlines : AreNumbered ((m :: rest).take (n.usageCount asked).toNat) :=
          fun m hm => hnumbered m (List.mem_of_mem_take hm)
        obtain ⟨s₃, hsections, -⟩ := yields_usageSections hroot hshown hlines s₂
        rw [if_neg (by simp), Action.bind_apply hsections] at h
        rw [usageReport, if_neg (by simp), usageExamples, List.length_map]
        exact (Except.ok.inj h).symm

/-- **When only usages inside are shown.** A usage search that succeeds counts every match that the
engine reports, and shows a section for each of the first of them, no more than were asked for; the
number of examples that it announces is that of its sections. It is the answer for the matches inside
the root, where the others are neither shown nor counted, exactly if all of them lie inside. -/
theorem findUsage_showsInside_iff (n : Navigator) (hn : n.world.IsSound)
    (hroot : World.hasNul n.settings.root = false) {term : String} {wanted : List (Option String)}
    {asked : Option Int} {s : Session} {text : String}
    (h : (n.findUsage term wanted asked s).1 = .ok text) :
    ∃ directories found s₁, n.safeDirectories (n.usageDirectories wanted) s = (.ok directories, s₁) ∧
      (n.usageSearch term directories (n.usageCount asked) s₁).1 = .ok found ∧
      text = usageReport term directories found.length
        (n.usageExamples (n.usageCount asked) found) ∧
      usagesCounted text = found.length ∧
      (n.usageExamples (n.usageCount asked) found).length ≤ (n.usageCount asked).toNat ∧
      (text = usageReport term directories (found.filter n.isInside).length
          (n.usageExamples (n.usageCount asked) (found.filter n.isInside)) ↔
        ∀ m ∈ found, n.isInside m = true) := by
  obtain ⟨directories, found, s₁, hdirectories, hfound, rfl⟩ :=
    exists_usageSearch_of_findUsage hn hroot h
  refine ⟨directories, found, s₁, hdirectories, hfound, rfl, usagesCounted_usageReport _ _ _ _, ?_, ?_⟩
  · rw [usageExamples, List.length_map]
    exact List.length_take_le _ _
  · constructor
    · -- the reports count as many usages as there are matches
      intro hsame
      have hcount := congrArg usagesCounted hsame
      rw [usagesCounted_usageReport, usagesCounted_usageReport] at hcount
      exact List.length_filter_eq_length_iff.mp hcount.symm
    · intro hinside
      rw [List.filter_eq_self.mpr hinside]

end Navigator

/-- The answer to a usage search below `/moodle`, with an engine that reports a match in this file. -/
def usageAnswer (path : String) : Except Failure String :=
  ((besideSecret []).findUsage "x" [] none (Session.begin [reportingRun path "x y"] infoSeverity)).1

/-- The answer that shows one usage by its own text. -/
def oneUsage (location : String) : String :=
  "Found 1 usage(s) of \"x\". Showing 1 examples:\n\n### " ++ location ++
    "\n\n\x60\x60\x60php\nx y\n\x60\x60\x60\n"

theorem usageAnswer_eq (path : String) :
    usageAnswer path = ((besideSecret []).findUsage "x" [] none
      (Session.begin [reportingRun path "x y"] infoSeverity)).1 := rfl

theorem usageAnswer_inside :
    (besideSecret []).world.IsSound ∧ usageAnswer "/moodle/a.php" = .ok (oneUsage "a.php:1") ∧
      ∃ directories found, found.length = 1 ∧
        oneUsage "a.php:1"
          = Navigator.usageReport "x" directories 1 ((besideSecret []).usageExamples 5 found) ∧
        (oneUsage "a.php:1" = Navigator.usageReport "x" directories
            (found.filter (besideSecret []).isInside).length
            ((besideSecret []).usageExamples 5 (found.filter (besideSecret []).isInside)) ↔
          ∀ m ∈ found, (besideSecret []).isInside m = true) := by
  have hsound : (besideSecret []).world.IsSound := ⟨by decide, _, rfl⟩
  have hanswer : ((besideSecret []).findUsage "x" [] none
      (Session.begin [reportingRun "/moodle/a.php" "x y"] infoSeverity)).1
        = .ok (oneUsage "a.php:1") := by
    -- a literal is evaluated slowly, so its letters are written out first
    unfold reportingRun
    simp only [String.toList_append]
    repeat rw [String.toList_ofList]
    exact eq_ok_of_toOption (by decide +kernel)
  obtain ⟨directories, found, s₁, -, -, htext, hcount, -, hinside⟩ :=
    Navigator.findUsage_showsInside_iff (besideSecret []) hsound (by decide) hanswer
  have hone : found.length = 1 := by
    rw [← hcount]
    decide
  rw [hone] at htext
  exact ⟨hsound, (usageAnswer_eq _).trans hanswer, directories, found, hone, htext, hinside⟩

/-- **A usage outside is shown.** The engine reports a match in a file beside the root, and the answer
counts it and shows its text. -/
theorem outside_usage_shown :
    ((besideSecret []).usageSearch "x" ["lib", "course"] 5
        (Session.begin [reportingRun "/outside.php" "x y"] infoSeverity)).1.toOption
          = some [⟨"../outside.php", 1, 0, "x y"⟩] ∧
      (besideSecret []).isInside ⟨"../outside.php", 1, 0, "x y"⟩ = false ∧
      usageAnswer "/outside.php" = .ok (oneUsage "../outside.php:1") := by
  rw [usageAnswer_eq]
  unfold reportingRun
  simp only [String.toList_append]
  repeat rw [String.toList_ofList]
  exact ⟨by decide +kernel, by decide +kernel, eq_ok_of_toOption (by decide +kernel)⟩

end SourceNavigator.Navigation
