import SourceNavigator.Proofs.Navigation.Exactness
import SourceNavigator.Proofs.Navigation.Query
import SourceNavigator.Proofs.Navigation.Symbols
import SourceNavigator.Proofs.Search.Reduction
import SourceNavigator.Proofs.World.Depth
import SourceNavigator.Proofs.World.Outline

set_option autoImplicit false

/-! # Excerpts come from below the root

A match is shown with lines of the file that the engine names. The guard looks at the canonical form
of its path, and the file is opened through the path itself. As long as no link is overlooked
(`DiscernsBelow`), the file still lies at or below the place of the root (`matchRoute_inside`): where
the system finds a file, resolving finds the same one. So the answer to a query is the same in worlds
that differ only in the contents of files outside the root (`answer_eq_of_differOutside`). A link that
is overlooked lets the contents of such a file into the answer (`overlooked_link_shown`).
-/

namespace SourceNavigator.Navigation

open SourceNavigator.Path (Route)
open Search (Match AreRelative Options)

/-- The worlds have the same directories and links, and the same files at and below the place that
the root leads to. Other files may have other contents. -/
structure DifferOutside (w w' : World) (root : Route) : Prop where
  outline : w'.outline = w.outline
  inside : ∀ place, w.reach root = .ok place → w'.tree.at? place = w.tree.at? place

/-- No link is overlooked on the way to the root and from there along any relative path. -/
def DiscernsBelow (w : World) (root : Route) : Prop :=
  ∀ path : Route, path.isAnchored = false → w.Discerns (root.append path)

theorem DiscernsBelow.discerns_root {w : World} {root : Route} (h : DiscernsBelow w root) :
    w.Discerns root := by
  have hhere : root.append ⟨.here, []⟩ = root := by
    show (⟨root.anchor, root.names ++ []⟩ : Route) = root
    rw [List.append_nil]
  rw [← hhere]
  exact h ⟨.here, []⟩ rfl

/-- Below an absolute root no link is overlooked if all links of the tree stand under short paths. -/
theorem discernsBelow_of_linksFit {w : World} {root : Route} (hroot : root.isAnchored = true)
    (h : w.tree.linksFit 0 = true) : DiscernsBelow w root :=
  fun _ _ => World.discerns_of_linksAreShort (World.linksAreShort_of_linksFit h)
    (Path.isAnchored_append hroot)

/-! ## Matches -/

/-- **An excerpt is read inside.** The file of a match that is not ignored lies at or below the
place that the root leads to. -/
theorem matchRoute_inside {n : Navigator} (hn : n.world.IsSound)
    (hlinks : DiscernsBelow n.world n.root) {m : Match} (hm : Path.isAbsolute m.file = false)
    {r : Route} (hr : n.matchRoute? m = some r) {goal : World.Place}
    (hgoal : n.world.reach r = .ok goal) :
    ∃ place, n.world.reach n.root = .ok place ∧ place <+: goal := by
  unfold Navigator.matchRoute? at hr
  split at hr
  · rename_i hwithin
    cases hr
    rw [← Path.isAnchored_ofString] at hm
    obtain ⟨place, -, hplace, -⟩ := World.exists_reach_of_append hm hgoal
    refine ⟨place, hplace, ?_⟩
    exact (isWithin_iff_of_reach hn hplace hlinks.discerns_root hgoal (hlinks _ hm)).mp hwithin
  · cases hr

namespace DifferOutside

variable {n : Navigator} {w : World}

theorem sameLinks (h : DifferOutside n.world w n.root) : World.SameLinks n.world w :=
  World.sameLinks_of_outline h.outline

theorem base_eq (h : DifferOutside n.world w n.root) : w.base = n.world.base := by
  have hbase : w.outline.base = n.world.outline.base := congrArg World.base h.outline
  exact hbase

theorem matchRoute_eq (h : DifferOutside n.world w n.root) (m : Match) :
    (n.inWorld w).matchRoute? m = n.matchRoute? m := by
  show (if w.isWithin n.root (Route.ofString m.file) = true then _ else _) = _
  rw [h.sameLinks.isWithin_eq]
  rfl

theorem fullRoute_eq (h : DifferOutside n.world w n.root) (m : Match) :
    (n.inWorld w).fullRoute m = n.fullRoute m := by
  unfold Navigator.fullRoute
  rw [h.matchRoute_eq]

theorem gives_fullRoute {n : Navigator} {m : Match} {r : Route}
    (h : (n.fullRoute m).Gives (some r)) : n.matchRoute? m = some r :=
  (Navigator.yields_fullRoute n m).eq_of_gives h

theorem patternMatches_eq (h : DifferOutside n.world w n.root) (o : Options) (pattern : String) :
    (n.inWorld w).patternMatches o pattern = n.patternMatches o pattern := by
  unfold Navigator.patternMatches
  rw [show (n.inWorld w).world.base = n.world.base from h.base_eq]
  rfl

theorem areRelative_patternMatches (hn : n.world.IsSound) {o : Options} {pattern : String}
    {found : List Match} (h : (n.patternMatches o pattern).Gives found) : AreRelative found := by
  obtain ⟨result, hresult, h⟩ := Action.gives_bind h
  cases result with
  | ok all =>
      rw [Action.gives_pure h]
      exact Search.areRelative_of_gives_search ⟨World.isProper_base hn, rfl⟩
        (Action.gives_attempt hresult)
  | error e =>
      simp only at h
      split at h
      · obtain ⟨_, -, h⟩ := Action.gives_bind h
        rw [Action.gives_pure h]
        exact fun m hm => absurd hm List.not_mem_nil
      · exact (Action.gives_fail h).elim

/-! ## Excerpts -/

section Excerpts

variable (h : DifferOutside n.world w n.root) (hn : n.world.IsSound)
  (hlinks : DiscernsBelow n.world n.root)

include h hn hlinks

/-- The worlds agree on the files of matches. -/
theorem agreeOn {m : Match} (hm : Path.isAbsolute m.file = false) {r : Route}
    (hr : n.matchRoute? m = some r) : n.world.AgreeOn w r := by
  have hdenied : w.outline.denied = n.world.outline.denied := congrArg World.denied h.outline
  refine ⟨hdenied, ?_, fun goal hgoal => ?_⟩
  · calc w.reach r = w.outline.reach r := (World.reach_outline w r).symm
      _ = n.world.outline.reach r := by rw [h.outline]
      _ = n.world.reach r := World.reach_outline n.world r
  · -- the file lies below the place of the root, where the worlds are the same
    obtain ⟨place, hplace, names, rfl⟩ := matchRoute_inside hn hlinks hm hr hgoal
    rw [World.Node.at?_append, World.Node.at?_append, h.inside place hplace]

theorem readLines_eq {m : Match} (hm : Path.isAbsolute m.file = false) {r : Route}
    (hr : n.matchRoute? m = some r) :
    Excerpt.readLines w r.address = Excerpt.readLines n.world r.address := by
  unfold Excerpt.readLines
  rw [(h.agreeOn hn hlinks hm hr).octetsAt_eq]

theorem symbolBody_eq {m : Match} (hm : Path.isAbsolute m.file = false) {r : Route}
    (hr : n.matchRoute? m = some r) :
    (n.inWorld w).symbolBody m r = n.symbolBody m r := by
  have hread : Excerpt.readSymbol (n.inWorld w).world r.address m.line
      = Excerpt.readSymbol n.world r.address m.line := by
    unfold Excerpt.readSymbol
    exact congrArg (· >>= _) (h.readLines_eq hn hlinks hm hr)
  unfold Navigator.symbolBody
  rw [hread]

theorem symbolBodies_eq {found : List Match} (hfound : AreRelative found) :
    (n.inWorld w).symbolBodies found = n.symbolBodies found := by
  induction found with
  | nil => rfl
  | cons m rest ih =>
      have hm := (hfound m List.mem_cons_self).free
      have hrest := ih fun m hm => hfound m (List.mem_cons_of_mem _ hm)
      unfold Navigator.symbolBodies
      rw [h.fullRoute_eq, hrest]
      refine Action.bind_congr_of_gives fun r hr => ?_
      cases r with
      | none => rfl
      | some r => exact congrArg (· >>= _) (h.symbolBody_eq hn hlinks hm (gives_fullRoute hr))

theorem patternBodies_eq (o : Options) (patterns : List String) :
    (n.inWorld w).patternBodies o patterns = n.patternBodies o patterns := by
  induction patterns with
  | nil => rfl
  | cons pattern rest ih =>
      unfold Navigator.patternBodies
      rw [h.patternMatches_eq, ih]
      refine Action.bind_congr_of_gives fun found hfound => ?_
      exact congrArg (· >>= _) (h.symbolBodies_eq hn hlinks (areRelative_patternMatches hn hfound))

theorem usageBody_eq {m : Match} (hm : Path.isAbsolute m.file = false) :
    (n.inWorld w).usageBody m = n.usageBody m := by
  unfold Navigator.usageBody
  rw [h.fullRoute_eq]
  refine Action.bind_congr_of_gives fun r hr => ?_
  cases r with
  | none => rfl
  | some r =>
      have hread (before after : Int) :
          Excerpt.readWindow (n.inWorld w).world r.address m.line before after
            = Excerpt.readWindow n.world r.address m.line before after := by
        unfold Excerpt.readWindow
        rw [show Excerpt.readLines (n.inWorld w).world r.address = _ from
          h.readLines_eq hn hlinks hm (gives_fullRoute hr)]
      simp only [hread]
      rfl

theorem usageSections_eq {found : List Match} (hfound : AreRelative found) :
    (n.inWorld w).usageSections found = n.usageSections found := by
  induction found with
  | nil => rfl
  | cons m rest ih =>
      have hrest := ih fun m hm => hfound m (List.mem_cons_of_mem _ hm)
      unfold Navigator.usageSections
      rw [h.usageBody_eq hn hlinks (hfound m List.mem_cons_self).free, hrest]

end Excerpts

/-! ## Directories -/

theorem safeRoute_eq (h : DifferOutside n.world w n.root) (candidate : String) :
    safeRoute (n.inWorld w).world (n.inWorld w).root candidate
      = safeRoute n.world n.root candidate := by
  show safeRoute w n.root candidate = _
  unfold safeRoute
  rw [h.sameLinks.resolveSafe_eq]

theorem safeDirectories_eq (h : DifferOutside n.world w n.root) (directories : List (Option String)) :
    (n.inWorld w).safeDirectories directories = n.safeDirectories directories := by
  induction directories with
  | nil => rfl
  | cons d rest ih =>
      cases d with
      | none => rfl
      | some d =>
          unfold Navigator.safeDirectories Navigator.safeDirectory
          rw [h.safeRoute_eq, ih]

theorem searchDirectories_eq (h : DifferOutside n.world w n.root) (directory : Option String) :
    (n.inWorld w).searchDirectories directory = n.searchDirectories directory := by
  unfold Navigator.searchDirectories
  simp only [h.safeDirectories_eq]

end DifferOutside

/-! ## Queries -/

/-- **Excerpts do not depend on files outside the root.** Where no link is overlooked, a query has the
same answer, makes the same calls and writes the same log in all worlds that differ only in the
contents of files outside, whatever the engine reports. -/
theorem answer_eq_of_differOutside (n : Navigator) (hn : n.world.IsSound)
    (hlinks : DiscernsBelow n.world n.root) {w : World} (h : DifferOutside n.world w n.root)
    (q : Query) : q.answer (n.inWorld w) = q.answer n := by
  cases q with
  | symbol name kind directory =>
      show (n.inWorld w).searchSymbol name kind directory = n.searchSymbol name kind directory
      unfold Navigator.searchSymbol
      split
      · rfl
      · refine bind_congr fun kind => bind_congr fun patterns => ?_
        rw [h.searchDirectories_eq]
        refine bind_congr fun directories => ?_
        exact congrArg (· >>= _) (h.patternBodies_eq hn hlinks _ patterns)
  | usage term directories asked =>
      show (n.inWorld w).findUsage term directories asked = n.findUsage term directories asked
      unfold Navigator.findUsage
      split
      · rfl
      · simp only [h.safeDirectories_eq]
        refine bind_congr fun directories => ?_
        rw [show (n.inWorld w).world.base = n.world.base from h.base_eq]
        refine Action.bind_congr_of_gives fun found hfound => ?_
        split
        · rfl
        · -- only the first matches are shown
          have hrelative := Search.areRelative_of_gives_search ⟨World.isProper_base hn, rfl⟩ hfound
          have hshown : AreRelative (found.take (n.usageCount asked).toNat) :=
            fun m hm => hrelative m (List.mem_of_mem_take hm)
          exact congrArg (· >>= _) (h.usageSections_eq hn hlinks hshown)

/-- A directory whose only entry is a link to the file beside it. -/
def leakingNodes : List (String × World.Node) := [("a.php", .link "../secret")]

/-- The world around `leakingNodes` with another text in the file beside it. -/
def otherSecret : World :=
  { (besideSecret leakingNodes).world with
    tree := .dir [("moodle", .dir leakingNodes), ("secret", .file [33])] }

theorem answer_eq_otherSecret :
    (besideSecret leakingNodes).world.IsSound ∧
      DiscernsBelow (besideSecret leakingNodes).world (besideSecret leakingNodes).root ∧
      DifferOutside (besideSecret leakingNodes).world otherSecret (besideSecret leakingNodes).root ∧
      ∀ q : Query, q.answer ((besideSecret leakingNodes).inWorld otherSecret)
        = q.answer (besideSecret leakingNodes) := by
  have hsound : (besideSecret leakingNodes).world.IsSound := ⟨by decide, _, rfl⟩
  have hroot : (besideSecret leakingNodes).world.reach (besideSecret leakingNodes).root
      = .ok ["moodle"] := eq_ok_of_toOption (by decide)
  have hlinks : DiscernsBelow (besideSecret leakingNodes).world (besideSecret leakingNodes).root :=
    discernsBelow_of_linksFit (by decide) (by decide)
  have hdiffer : DifferOutside (besideSecret leakingNodes).world otherSecret
      (besideSecret leakingNodes).root := by
    refine ⟨rfl, fun place hplace => ?_⟩
    rw [hroot] at hplace
    cases hplace
    rfl
  exact ⟨hsound, hlinks, hdiffer, fun q => answer_eq_of_differOutside _ hsound hlinks hdiffer q⟩

/-! ## An overlooked link -/

/-- The match that the engine reports in the file that the overlooked link leads to. -/
def buriedMatch : Match := ⟨buriedText, 1, 0, "x"⟩

/-- A run that reports this match. -/
def buriedRun : Run := reportingRun ("/moodle/" ++ buriedText) "x"

section Buried

variable (secret : List UInt8)

theorem ofString_buriedText : Route.ofString buriedText = buriedRoute := by decide

/-- The guard finds the match inside. -/
theorem isInside_buriedMatch : (besideBuried secret).isInside buriedMatch = true := by
  have hresolve := resolve_buried secret
  rw [← ofString_buriedText] at hresolve
  have hwithin := isWithin_of_resolve (resolve_root_besideBuried secret) hresolve
  unfold Navigator.isInside
  exact hwithin.trans beginsWith_buriedPlace

/-- The file that is opened is the one beside the root. -/
theorem readLines_buriedMatch :
    Excerpt.readLines (besideBuried secret).world ((besideBuried secret).matchAddress buriedMatch)
      = .ok (Excerpt.linesOf secret) := by
  have haddress : (besideBuried secret).matchAddress buriedMatch
      = ((besideBuried secret).root.append buriedRoute).address := by
    unfold Navigator.matchAddress
    rw [← ofString_buriedText]
    rfl
  have htext : World.hasNul ((besideBuried secret).root.append buriedRoute).address.text = false := by
    rw [root_besideBuried]
    decide
  have hfile : (besideBuried secret).world.tree.at? ["secret"] = some (.file secret) := rfl
  have hoctets := World.octetsAt_of_findPlace rfl htext (findPlace_buried secret) hfile
  rw [haddress, Excerpt.readLines, hoctets]

theorem symbolOutcome_buriedRun :
    ∃ out, (besideBuried secret).symbolOutcome buriedRun = .ok out ∧ out.found = [buriedMatch] := by
  have houtcome : (besideBuried secret).symbolOutcome buriedRun
      = Search.outcome (Search.Frame.ofRoot ⟨.root, []⟩ "/moodle")
          Settings.Limits.default.symbolResults "rg" buriedRun := rfl
  have hmatches : (Search.outcome (Search.Frame.ofRoot ⟨.root, []⟩ "/moodle")
      Settings.Limits.default.symbolResults "rg" buriedRun).toOption.map (·.found)
        = some [buriedMatch] := by
    -- a literal is evaluated slowly, so its letters are written out first
    unfold buriedRun reportingRun buriedText
    simp only [String.toList_append]
    repeat rw [String.toList_ofList]
    decide +kernel
  obtain ⟨out, hout, hfound⟩ := Option.map_eq_some_iff.mp hmatches
  exact ⟨out, houtcome.trans (eq_ok_of_toOption hout), hfound⟩

theorem runMatches_buriedRun : (besideBuried secret).runMatches buriedRun = [buriedMatch] := by
  obtain ⟨out, hout, hfound⟩ := symbolOutcome_buriedRun secret
  rw [Navigator.runMatches_of_ok hout, hfound]

/-- The answer shows the file beside the root. -/
theorem searchSymbol_besideBuried {shown : List String}
    (hlines : Excerpt.symbolLines (Excerpt.linesOf secret) 1 = .ok shown) :
    ((besideBuried secret).searchSymbol "x" (some "class") none
        (Session.begin [buriedRun] infoSeverity)).1
      = .ok (Navigator.symbolReport "x" "class" [(buriedMatch, Excerpt.joinLines shown)]) := by
  have hexcerpt : (besideBuried secret).excerptOf buriedMatch = Excerpt.joinLines shown := by
    unfold Navigator.excerptOf
    rw [Excerpt.readSymbol_of_readLines (readLines_buriedMatch secret),
      show buriedMatch.line = 1 from rfl, hlines]
    rfl
  have hshown : (besideBuried secret).symbolsShown [buriedRun]
      = [(buriedMatch, Excerpt.joinLines shown)] := by
    rw [Navigator.symbolsShown_cons, runMatches_buriedRun, Navigator.insideShown,
      List.filter_cons_of_pos (isInside_buriedMatch secret), List.map_cons, hexcerpt]
    rfl
  have husable : ∀ run ∈ [buriedRun], (besideBuried secret).IsUsable run := by
    intro run hrun
    obtain rfl := List.mem_singleton.mp hrun
    obtain ⟨out, hout, -⟩ := symbolOutcome_buriedRun secret
    exact Or.inl ⟨out, hout⟩
  have hkind : SymbolKind.ofName? "class" = some .classes := by decide
  have hdirectory : (besideBuried secret).searchDirectories none = Action.done ["."] := rfl
  have hroot : World.hasNul (besideBuried secret).settings.root = false :=
    show World.hasNul "/moodle" = false by decide
  have hlimit : (Text.decimal? (besideBuried secret).settings.limits.symbolResults).isSome = true :=
    show (Text.decimal? Settings.Limits.default.symbolResults).isSome = true by decide
  have hname : (Text.strip "x").isEmpty = false := by decide
  have hruns : (Session.begin [buriedRun] infoSeverity).runs = [buriedRun] ++ [] := rfl
  have hanswer := Navigator.searchSymbol_fst (isSound_besideBuried secret) hroot hlimit hname hkind
    hdirectory rfl husable hruns
  have hstrip : Text.strip "x" = "x" := by decide
  rw [hshown, hstrip] at hanswer
  exact hanswer

end Buried

/-- The worlds around the buried link differ in the file beside the root only. -/
theorem differOutside_besideBuried (secret other : List UInt8) :
    DifferOutside (besideBuried secret).world (besideBuried other).world
      (besideBuried secret).root := by
  refine ⟨rfl, fun place hplace => ?_⟩
  rw [reach_root_besideBuried] at hplace
  cases hplace
  rw [at?_moodle, at?_moodle]

/-- The symbol search as a query, in the world with the other file. -/
theorem answer_besideBuried (secret : List UInt8) {other : List UInt8} {shown : List String}
    (hlines : Excerpt.symbolLines (Excerpt.linesOf other) 1 = .ok shown) :
    ((Query.symbol "x" (some "class") none).answer
        ((besideBuried secret).inWorld (besideBuried other).world)
        (Session.begin [buriedRun] infoSeverity)).1
      = .ok (Navigator.symbolReport "x" "class" [(buriedMatch, Excerpt.joinLines shown)]) := by
  have hworld : (besideBuried secret).inWorld (besideBuried other).world = besideBuried other := rfl
  rw [hworld, Query.answer_symbol]
  exact searchSymbol_besideBuried other hlines

/-- **The file that an overlooked link leads to is shown.** The worlds differ only in the file beside
the root, and the answers differ. -/
theorem overlooked_link_shown :
    (besideBuried [65]).world.IsSound ∧
      DifferOutside (besideBuried [65]).world (besideBuried [66]).world (besideBuried [65]).root ∧
      ∃ (q : Query) (s : Session),
        (q.answer ((besideBuried [65]).inWorld (besideBuried [66]).world) s).1
          ≠ (q.answer (besideBuried [65]) s).1 := by
  have hlines : Excerpt.symbolLines (Excerpt.linesOf [65]) 1 = .ok ["    1 | A"] :=
    eq_ok_of_toOption (by decide)
  have hotherLines : Excerpt.symbolLines (Excerpt.linesOf [66]) 1 = .ok ["    1 | B"] :=
    eq_ok_of_toOption (by decide)
  have hanswer := answer_besideBuried [65] hlines
  rw [Navigator.inWorld_self] at hanswer
  have hotherAnswer := answer_besideBuried [65] hotherLines
  have hreports : Navigator.symbolReport "x" "class" [(buriedMatch, Excerpt.joinLines ["    1 | B"])]
      ≠ Navigator.symbolReport "x" "class" [(buriedMatch, Excerpt.joinLines ["    1 | A"])] := by
    decide
  refine ⟨isSound_besideBuried _, differOutside_besideBuried _ _, .symbol "x" (some "class") none,
    Session.begin [buriedRun] infoSeverity, fun hsame => hreports ?_⟩
  exact Except.ok.inj (hotherAnswer.symm.trans (hsame.trans hanswer))

end SourceNavigator.Navigation
