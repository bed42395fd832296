import SourceNavigator.Proofs.Navigation.Scope
import SourceNavigator.Proofs.Navigation.Symbols
import SourceNavigator.Proofs.Navigation.Usage
import SourceNavigator.Proofs.Search.Files
import SourceNavigator.Proofs.Settings.ChosenRoot

set_option autoImplicit false

/-! # Navigators over loaded settings

What is said of queries and of matches asks that the root be absolute and hold no NUL character. The
settings of a running program have passed their check (`isChecked_of_load`), which sees to both
(`IsChecked.isAbsolute_root`, `IsChecked.hasNul_root`).
-/

namespace SourceNavigator.Navigation.Navigator

open Search (Frame Match Record)
open SourceNavigator.Path (LeadsBack Route)

/-- The settings of the navigator have passed their check in some world. -/
def IsChecked (n : Navigator) : Prop := ∃ w d, Settings.check w d = .ok (.valid n.settings)

/-- Loaded settings have passed their check. -/
theorem isChecked_of_load {w w' : World} {r : Settings.Request} {s : Session} {l : Settings.Loaded}
    (h : (Settings.load w r s).1 = .ok l) : IsChecked ⟨w', l.settings⟩ := by
  obtain ⟨source, -, hload⟩ := Settings.exists_source_of_load h
  obtain ⟨root, origin, -, hcheck, -⟩ := Settings.loadFrom_eq_ok hload
  exact ⟨w, _, hcheck⟩

namespace IsChecked

variable {n : Navigator} (h : n.IsChecked)

include h

theorem isAbsolute_root : Path.isAbsolute n.settings.root = true := by
  obtain ⟨w, d, hcheck⟩ := h
  exact Settings.isAbsolute_root_of_check hcheck

theorem hasNul_root : World.hasNul n.settings.root = false := by
  obtain ⟨w, d, hcheck⟩ := h
  exact Settings.hasNul_root_of_check hcheck

/-- **A query keeps its scope** if no directory that it asks for has blanks at its ends. -/
theorem keepsScope {q : Query} (hunpadded : ∀ d ∈ q.requested n, IsUnpadded d) (s : Session) :
    q.KeepsScope n s :=
  Or.inr fun _ hc => inScope_of_isUnpadded h.isAbsolute_root hunpadded hc

/-- **A symbol search with usable runs reports what they show.** -/
theorem searchSymbol_fst (hn : n.world.IsSound)
    (hlimit : (Text.decimal? n.settings.limits.symbolResults).isSome = true) {name kindName : String}
    (hname : (Text.strip name).isEmpty = false) {kind : SymbolKind}
    (hkind : SymbolKind.ofName? kindName = some kind) {directory : Option String}
    {directories : List String} (hdirectory : n.searchDirectories directory = Action.done directories)
    {runs : List Run} (hcount : runs.length = (symbolPatterns (Text.strip name) kind).length)
    (husable : ∀ run ∈ runs, n.IsUsable run) {s : Session} {more : List Run}
    (hruns : s.runs = runs ++ more) :
    (n.searchSymbol name (some kindName) directory s).1
      = .ok (symbolReport (Text.strip name) kindName (n.symbolsShown runs)) :=
  Navigator.searchSymbol_fst hn h.hasNul_root hlimit hname hkind hdirectory hcount husable hruns

/-- **A usage search that succeeds reports the matches of one search of the engine.** -/
theorem exists_usageSearch (hn : n.world.IsSound) {term : String} {wanted : List (Option String)}
    {asked : Option Int} {s : Session} {text : String}
    (hanswer : (n.findUsage term wanted asked s).1 = .ok text) :
    ∃ directories found s₁, n.safeDirectories (n.usageDirectories wanted) s = (.ok directories, s₁) ∧
      (n.usageSearch term directories (n.usageCount asked) s₁).1 = .ok found ∧
      text = usageReport term directories found.length
        (n.usageExamples (n.usageCount asked) found) :=
  exists_usageSearch_of_findUsage hn h.hasNul_root hanswer

/-- **The file of a match leads back to the path that was reported**, if this is absolute. -/
theorem leadsBack {r : Record} {route : Route} (hroute : r.route? = some route)
    (habsolute : route.isAnchored = true) {m : Match}
    (hmatch : r.match? (Frame.ofRoot n.world.base n.settings.root) = some m) :
    LeadsBack n.settings.root route.collapse.names m.file :=
  Search.leadsBack_of_match? h.isAbsolute_root hroute habsolute hmatch

end IsChecked

end SourceNavigator.Navigation.Navigator
