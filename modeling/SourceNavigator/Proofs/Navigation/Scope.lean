import SourceNavigator.Proofs.Navigation.Query
import SourceNavigator.Proofs.Search.Wording
import SourceNavigator.Proofs.World.Plain

set_option autoImplicit false

/-! # Where the engine is sent

A query checks its directories against the root and hands their normal forms to the engine as paths
below the root. On the way the forms are stripped of blanks once more (`cleanDirectories`), after
the check. `callsOnly_answer` says which paths every call gets; `keepsScope_iff` says when these are
the checked ones: exactly if no normal form has a blank at one of its ends. A directory named ` ..`
passes the check and sends the engine above the root (`padded_directory_leaves_scope`).
-/

namespace SourceNavigator.Navigation

open SourceNavigator.Path (Route)
open Search (readWords cleanDirectories Options)

/-- The paths that the engine takes from the words of a call. -/
def searchPaths? (c : Call) : Option (List String) :=
  (readWords c.words.tail).map fun parts => parts.filterMap Search.Word.path?

namespace Navigator

variable (n : Navigator)

/-- The root as an absolute route, by its text alone. -/
def rootRoute : Route := Route.absolute n.world.base n.settings.root

/-- A directory that the guard accepts, with its normal form. -/
def Accepts (directory : Option String) (form : String) : Prop :=
  ∃ d p, directory = some d ∧ n.world.resolveSafe n.root d = .ok p ∧ normalText d = .ok form

/-- The directories to search when `forms` are the normal forms of those asked for. -/
def orRoot (forms : List String) : List String := if forms.isEmpty then ["."] else forms

/-- The paths of a search of the directories with these normal forms. -/
def scopePaths (forms : List String) : List String :=
  (orRoot forms).map (Path.joinText n.rootRoute.text)

/-- The paths that the engine gets for these normal forms. -/
def enginePaths (forms : List String) : List String :=
  (cleanDirectories (orRoot forms)).map (Path.joinText n.rootRoute.text)

/-- A path that is the root or lies below it, by its text alone. -/
def LiesBelowRoot (path : String) : Prop :=
  (Route.ofString path).collapse.beginsWith n.rootRoute = true

end Navigator

namespace Query

/-- A call that searches exactly the accepted directories, all of them below the root. -/
def InScope (n : Navigator) (q : Query) (c : Call) : Prop :=
  ∃ forms, List.Forall₂ n.Accepts (q.requested n) forms ∧
    searchPaths? c = some (n.scopePaths forms) ∧ ∀ path ∈ n.scopePaths forms, n.LiesBelowRoot path

/-- A query keeps its scope if it refuses a path before any call, or if all its calls are in scope. -/
def KeepsScope (n : Navigator) (q : Query) (s : Session) : Prop :=
  (∃ path reason, (q.answer n s).1 = .error (.invalidPath path reason)) ∧
      (q.answer n).callsMade s = [] ∨
    ∀ c ∈ (q.answer n).callsMade s, q.InScope n c

end Query

/-- A directory whose normal form has no blanks at its ends. -/
def IsUnpadded (directory : Option String) : Prop :=
  ∀ d form, directory = some d → normalText d = .ok form → Text.strip form = form

/-! ## One search -/

theorem callsOnly_search (base : Route) (pattern root : String) (o : Options) (engine : String)
    (hbase : base.isAnchored = true) :
    (Search.search base pattern root o engine).CallsOnly fun c =>
      searchPaths? c
        = some (o.directories.map (Path.joinText (Route.absolute base root).text)) := by
  unfold Search.search
  refine Action.CallsOnly.bind (Action.callsOnly_lift _) fun words hwords => ?_
  refine Action.CallsOnly.bind (Action.callsOnly_log _ _ _) fun _ _ => ?_
  refine Action.CallsOnly.bind (Action.callsOnly_call ?_) fun run _ => ?_
  · have hroot := Path.isAbsolute_text_of_isAnchored (World.isAnchored_absolute hbase root)
    have hread := Search.readWords_arguments hroot (Action.gives_lift hwords)
    show (readWords words).map _ = _
    rw [hread, Option.map_some, Search.argumentParts_paths]
  · refine Action.CallsOnly.bind ?_ fun _ _ => Action.callsOnly_lift _
    unfold Search.logOutcome
    split
    · exact Action.callsOnly_log _ _ _
    · exact Action.callsOnly_log _ _ _
    · exact Action.callsOnly_done _

/-! ## The calls of a query -/

theorem callsOnly_safeDirectory {P : Call → Prop} (n : Navigator) (d : String) :
    (n.safeDirectory d).CallsOnly P := by
  refine Action.CallsOnly.bind ?_ fun _ _ => Action.callsOnly_lift _
  unfold safeRoute
  split
  · exact Action.callsOnly_done _
  · refine Action.CallsOnly.bind ?_ fun _ _ => Action.callsOnly_fail _
    unfold Navigator.logRejection
    split
    · exact Action.callsOnly_log _ _ _
    · exact Action.callsOnly_done _

theorem callsOnly_safeDirectories {P : Call → Prop} (n : Navigator)
    (directories : List (Option String)) : (n.safeDirectories directories).CallsOnly P := by
  induction directories with
  | nil => exact Action.callsOnly_done _
  | cons d rest ih =>
      cases d with
      | none => exact Action.callsOnly_fail _
      | some d =>
          refine Action.CallsOnly.bind (callsOnly_safeDirectory n d) fun _ _ => ?_
          exact Action.CallsOnly.bind ih fun _ _ => Action.callsOnly_pure _

theorem gives_safeDirectory {n : Navigator} {d form : String}
    (h : (n.safeDirectory d).Gives form) : n.Accepts (some d) form := by
  obtain ⟨p, hp, hform⟩ := Action.gives_bind h
  refine ⟨d, p, rfl, ?_, Action.gives_lift hform⟩
  unfold safeRoute at hp
  split at hp
  · rename_i route hroute
    rw [Action.gives_done hp]
    exact hroute
  · obtain ⟨_, _, hfail⟩ := Action.gives_bind hp
    exact (Action.gives_fail hfail).elim

theorem gives_safeDirectories {n : Navigator} {directories : List (Option String)}
    {forms : List String} (h : (n.safeDirectories directories).Gives forms) :
    List.Forall₂ n.Accepts directories forms := by
  induction directories generalizing forms with
  | nil =>
      rw [Action.gives_done h]
      exact .nil
  | cons d rest ih =>
      cases d with
      | none => exact (Action.gives_fail h).elim
      | some d =>
          obtain ⟨form, hform, h⟩ := Action.gives_bind h
          obtain ⟨others, hothers, h⟩ := Action.gives_bind h
          rw [Action.gives_pure h]
          exact .cons (gives_safeDirectory hform) (ih hothers)

theorem gives_searchDirectories {n : Navigator} {name : String} {kind directory : Option String}
    {directories : List String} (h : (n.searchDirectories directory).Gives directories) :
    ∃ forms, List.Forall₂ n.Accepts ((Query.symbol name kind directory).requested n) forms ∧
      directories = Navigator.orRoot forms := by
  cases directory with
  | none => exact ⟨[], .nil, Action.gives_done h⟩
  | some d =>
      by_cases hd : d.isEmpty
      · simp only [Navigator.searchDirectories, hd, if_true] at h
        simp only [Query.requested, hd, if_true]
        exact ⟨[], .nil, Action.gives_done h⟩
      · simp only [Navigator.searchDirectories, hd] at h
        simp only [Query.requested, hd]
        have haccepts := gives_safeDirectories h
        refine ⟨directories, haccepts, ?_⟩
        cases haccepts with
        | cons _ _ => rfl

theorem cleanDirectories_orRoot (forms : List String) :
    cleanDirectories (Navigator.orRoot forms) = cleanDirectories forms := by
  cases forms with
  | nil => decide
  | cons form rest => rfl

theorem callsOnly_fullRoute {P : Call → Prop} (n : Navigator) (m : Search.Match) :
    (n.fullRoute m).CallsOnly P := by
  unfold Navigator.fullRoute
  split
  · exact Action.callsOnly_done _
  · exact Action.CallsOnly.bind (Action.callsOnly_log _ _ _) fun _ _ => Action.callsOnly_pure _

theorem callsOnly_symbolBodies {P : Call → Prop} (n : Navigator) (found : List Search.Match) :
    (n.symbolBodies found).CallsOnly P := by
  induction found with
  | nil => exact Action.callsOnly_done _
  | cons m rest ih =>
      refine Action.CallsOnly.bind (callsOnly_fullRoute n m) fun r _ => ?_
      cases r with
      | none => exact ih
      | some r =>
          refine Action.CallsOnly.bind ?_ fun _ _ => ?_
          · unfold Navigator.symbolBody
            split
            · exact Action.callsOnly_done _
            · split
              · refine Action.CallsOnly.bind (Action.callsOnly_log _ _ _) fun _ _ => ?_
                exact Action.callsOnly_pure _
              · exact Action.callsOnly_fail _
          · exact Action.CallsOnly.bind ih fun _ _ => Action.callsOnly_pure _

theorem callsOnly_usageSections {P : Call → Prop} (n : Navigator) (found : List Search.Match) :
    (n.usageSections found).CallsOnly P := by
  induction found with
  | nil => exact Action.callsOnly_done _
  | cons m rest ih =>
      refine Action.CallsOnly.bind ?_ fun _ _ => ?_
      · refine Action.CallsOnly.bind (callsOnly_fullRoute n m) fun r _ => ?_
        cases r with
        | none => exact Action.callsOnly_pure _
        | some r =>
            simp only
            split
            · exact Action.callsOnly_pure _
            · split
              · refine Action.CallsOnly.bind (Action.callsOnly_log _ _ _) fun _ _ => ?_
                exact Action.callsOnly_pure _
              · exact Action.callsOnly_fail _
      · exact Action.CallsOnly.bind ih fun _ _ => Action.callsOnly_pure _

theorem callsOnly_patternBodies {P : Call → Prop} (n : Navigator) (o : Options)
    (patterns : List String)
    (hP : ∀ pattern, (Search.search n.world.base pattern n.settings.root o
      n.settings.engine.binary).CallsOnly P) :
    (n.patternBodies o patterns).CallsOnly P := by
  induction patterns with
  | nil => exact Action.callsOnly_done _
  | cons pattern rest ih =>
      refine Action.CallsOnly.bind ?_ fun found _ => ?_
      · refine Action.CallsOnly.bind (hP pattern).attempt fun result _ => ?_
        cases result with
        | ok found => exact Action.callsOnly_pure _
        | error e =>
            simp only
            split
            · refine Action.CallsOnly.bind (Action.callsOnly_log _ _ _) fun _ _ => ?_
              exact Action.callsOnly_pure _
            · exact Action.callsOnly_fail _
      · refine Action.CallsOnly.bind (callsOnly_symbolBodies n found) fun _ _ => ?_
        exact Action.CallsOnly.bind ih fun _ _ => Action.callsOnly_pure _

/-- **What the engine gets.** Every call of a query searches the accepted directories in order, in
their normal forms, stripped of blanks and without those that are blank. -/
theorem callsOnly_answer (n : Navigator) (q : Query) :
    (q.answer n).CallsOnly fun c => ∃ forms, List.Forall₂ n.Accepts (q.requested n) forms ∧
      searchPaths? c = some (n.enginePaths forms) := by
  cases q with
  | symbol name kind directory =>
      show (n.searchSymbol name kind directory).CallsOnly _
      unfold Navigator.searchSymbol
      split
      · exact Action.callsOnly_fail _
      · refine Action.CallsOnly.bind (Action.callsOnly_lift _) fun _ _ => ?_
        refine Action.CallsOnly.bind (Action.callsOnly_lift _) fun patterns _ => ?_
        refine Action.CallsOnly.bind ?_ fun directories hdirectories => ?_
        · unfold Navigator.searchDirectories
          split
          · exact Action.callsOnly_done _
          · split
            · exact Action.callsOnly_done _
            · exact callsOnly_safeDirectories n _
        · refine Action.CallsOnly.bind ?_ fun _ _ => Action.callsOnly_pure _
          refine callsOnly_patternBodies n _ patterns fun pattern => ?_
          refine (callsOnly_search _ _ _ _ _ (World.isAnchored_base n.world)).mono fun c hc => ?_
          obtain ⟨forms, haccepts, rfl⟩ := gives_searchDirectories hdirectories
          exact ⟨forms, haccepts, hc⟩
  | usage term directories asked =>
      show (n.findUsage term directories asked).CallsOnly _
      unfold Navigator.findUsage
      split
      · exact Action.callsOnly_fail _
      · refine Action.CallsOnly.bind (callsOnly_safeDirectories n _) fun forms hforms => ?_
        refine Action.CallsOnly.bind ?_ fun found _ => ?_
        · refine (callsOnly_search _ _ _ _ _ (World.isAnchored_base n.world)).mono fun c hc => ?_
          refine ⟨forms, gives_safeDirectories hforms, ?_⟩
          rw [Navigator.enginePaths, cleanDirectories_orRoot]
          exact hc
        · split
          · exact Action.callsOnly_pure _
          · -- the sections read files and call nothing
            refine Action.CallsOnly.bind (callsOnly_usageSections n _) fun _ _ => ?_
            exact Action.callsOnly_pure _

/-! ## Stripping -/

theorem length_strip_le (s : String) : (Text.strip s).length ≤ s.length := by
  have hend (cs : List Char) : (Text.dropEndWhile Text.isBlank cs).length ≤ cs.length := by
    rw [Text.dropEndWhile, List.length_reverse]
    exact le_trans (List.dropWhile_suffix _).length_le (List.length_reverse ..).le
  rw [Text.strip, String.length_ofList, Text.trim, Text.trimEnd]
  refine le_trans (hend _) ?_
  rw [Text.trimStart, ← String.length_toList]
  exact (List.dropWhile_suffix _).length_le

/-- What a relative path is put behind. -/
theorem exists_lead {root : String} (hroot : root ≠ "") :
    ∃ lead, 0 < lead.length ∧
      ∀ d, Path.isAbsolute d = false → Path.joinText root d = lead ++ d := by
  have hpos : 0 < root.length := by
    rw [← String.length_toList, List.length_pos_iff]
    exact fun h => hroot (String.toList_eq_nil_iff.mp h)
  by_cases hend : root.isEmpty || root.toList.getLast? == some '/'
  · refine ⟨root, hpos, fun d hd => ?_⟩
    rw [Path.joinText, if_neg (by rw [hd]; decide), if_pos hend]
  · refine ⟨root ++ "/", by rw [String.length_append]; omega, fun d hd => ?_⟩
    rw [Path.joinText, if_neg (by rw [hd]; decide), if_neg hend]

/-- Behind the root, a path that loses blanks is another path. -/
theorem strip_eq_of_joinText_eq {root d : String} (hroot : root ≠ "")
    (hd : Path.isAbsolute d = false)
    (h : Path.joinText root (Text.strip d) = Path.joinText root d) : Text.strip d = d := by
  obtain ⟨lead, hlead, hjoin⟩ := exists_lead hroot
  rw [hjoin d hd] at h
  by_cases habs : Path.isAbsolute (Text.strip d) = true
  · -- the stripped path would be longer than the path
    rw [Path.joinText_of_isAbsolute root habs] at h
    have hlen := length_strip_le d
    rw [h, String.length_append] at hlen
    omega
  · rw [hjoin _ (by simpa using habs)] at h
    exact (String.append_right_inj lead).mp h

theorem cleanDirectories_of_unpadded {forms : List String} (hne : forms ≠ [])
    (h : ∀ d ∈ forms, d ≠ "" ∧ Text.strip d = d) : cleanDirectories forms = forms := by
  have hmap : forms.map Text.strip = forms := by
    conv_rhs => rw [← List.map_id forms]
    exact List.map_congr_left fun d hd => (h d hd).2
  have hkept : (forms.map Text.strip).filter (!·.isEmpty) = forms := by
    rw [hmap, List.filter_eq_self]
    intro d hd
    simp [(h d hd).1]
  rw [cleanDirectories, hkept]
  simp [hne]

/-- **Stripping is harmless only where it does nothing.** -/
theorem enginePaths_eq_iff {root : String} (hroot : root ≠ "") {forms : List String}
    (hne : forms ≠ []) (hrel : ∀ d ∈ forms, d ≠ "" ∧ Path.isAbsolute d = false) :
    (cleanDirectories forms).map (Path.joinText root) = forms.map (Path.joinText root)
      ↔ ∀ d ∈ forms, Text.strip d = d := by
  constructor
  · intro h
    have hlen := congrArg List.length h
    rw [List.length_map, List.length_map] at hlen
    by_cases hkept : (forms.map Text.strip).filter (!·.isEmpty) = []
    · -- all forms are blank: the one that is left would have to be `.`
      have hclean : cleanDirectories forms = ["."] := by rw [cleanDirectories, hkept]; rfl
      rw [hclean] at h hlen
      obtain ⟨d, rfl⟩ := List.length_eq_one_iff.mp hlen.symm
      have hd : d = "." := by
        obtain ⟨lead, _, hjoin⟩ := exists_lead hroot
        have h := (List.cons.inj h).1
        rw [hjoin "." (by decide), hjoin d (hrel d List.mem_cons_self).2] at h
        exact ((String.append_right_inj lead).mp h).symm
      subst hd
      exact absurd hkept (by decide)
    · have hclean : cleanDirectories forms = (forms.map Text.strip).filter (!·.isEmpty) := by
        rw [cleanDirectories]
        simp [hkept]
      rw [hclean] at h hlen
      -- both lists are equally long, so no form has been dropped
      have hall : (forms.map Text.strip).filter (!·.isEmpty) = forms.map Text.strip := by
        refine List.filter_sublist.eq_of_length ?_
        rw [hlen, List.length_map]
      rw [hall, List.map_map, List.map_inj_left] at h
      simp only [Function.comp_apply] at h
      intro d hd
      exact strip_eq_of_joinText_eq hroot (hrel d hd).2 (h d hd)
  · intro h
    rw [cleanDirectories_of_unpadded hne fun d hd => ⟨(hrel d hd).1, h d hd⟩]

/-! ## Scope -/

theorem text_ne_empty {r : Route} (h : r.IsProper) : r.text ≠ "" := by
  intro hempty
  have hread := Path.ofString_text r h
  rw [hempty] at hread
  rw [← hread] at hempty
  exact absurd hempty (by decide)

theorem accepts_form {n : Navigator} {d : Option String} {form : String} (h : n.Accepts d form) :
    ∃ r : Route, form = r.text ∧ r.anchor = .here ∧ r.IsProper ∧ Path.up ∉ r.names := by
  obtain ⟨d, p, rfl, -, hform⟩ := h
  unfold normalText at hform
  split at hform
  · rename_i r hr
    obtain ⟨-, hanchor, hproper, hup⟩ := Path.normalize_eq_ok hr
    exact ⟨r, (Except.ok.inj hform).symm, hanchor, hproper, hup⟩
  · cases hform

theorem exists_accepts_of_mem {n : Navigator} {requested : List (Option String)}
    {forms : List String} (h : List.Forall₂ n.Accepts requested forms) :
    (∀ form ∈ forms, ∃ d ∈ requested, n.Accepts d form) ∧
      ∀ d ∈ requested, ∃ form ∈ forms, n.Accepts d form := by
  induction h with
  | nil => exact ⟨by simp, by simp⟩
  | @cons d form others more hd _ ih =>
      obtain ⟨hforms, hrequested⟩ := ih
      constructor
      · intro f hf
        rcases List.mem_cons.mp hf with rfl | hf
        · exact ⟨d, List.mem_cons_self, hd⟩
        · obtain ⟨e, he, haccepts⟩ := hforms f hf
          exact ⟨e, List.mem_cons_of_mem _ he, haccepts⟩
      · intro e he
        rcases List.mem_cons.mp he with rfl | he
        · exact ⟨form, List.mem_cons_self, hd⟩
        · obtain ⟨f, hf, haccepts⟩ := hrequested e he
          exact ⟨f, List.mem_cons_of_mem _ hf, haccepts⟩

theorem accepts_functional {n : Navigator} {d : Option String} {form form' : String}
    (h : n.Accepts d form) (h' : n.Accepts d form') : form = form' := by
  obtain ⟨e, p, rfl, -, hform⟩ := h
  obtain ⟨e', p', he, -, hform'⟩ := h'
  obtain rfl := Option.some.inj he
  rw [hform] at hform'
  exact Except.ok.inj hform'

theorem forms_functional {n : Navigator} {requested : List (Option String)}
    {forms forms' : List String} (h : List.Forall₂ n.Accepts requested forms)
    (h' : List.Forall₂ n.Accepts requested forms') : forms = forms' := by
  induction h generalizing forms' with
  | nil =>
      cases h' with
      | nil => rfl
  | cons hd _ ih =>
      cases h' with
      | cons hd' hrest' => rw [accepts_functional hd hd', ih hrest']

theorem orRoot_form {n : Navigator} {requested : List (Option String)} {forms : List String}
    (h : List.Forall₂ n.Accepts requested forms) {form : String}
    (hform : form ∈ Navigator.orRoot forms) :
    ∃ r : Route, form = r.text ∧ r.anchor = .here ∧ r.IsProper ∧ Path.up ∉ r.names := by
  by_cases hempty : forms.isEmpty
  · rw [Navigator.orRoot, if_pos hempty, List.mem_singleton] at hform
    exact ⟨⟨.here, []⟩, hform, rfl, fun _ h => absurd h List.not_mem_nil, List.not_mem_nil⟩
  · rw [Navigator.orRoot, if_neg hempty] at hform
    obtain ⟨d, -, haccepts⟩ := (exists_accepts_of_mem h).1 form hform
    exact accepts_form haccepts

theorem orRoot_ne_nil (forms : List String) : Navigator.orRoot forms ≠ [] := by
  cases forms with
  | nil => exact List.cons_ne_nil _ _
  | cons form rest => exact List.cons_ne_nil _ _

theorem rootRoute_eq {n : Navigator} (h : Path.isAbsolute n.settings.root = true) :
    n.rootRoute = (Route.ofString n.settings.root).collapse := by
  unfold Navigator.rootRoute Route.absolute Route.append
  rw [Path.isAnchored_ofString, if_pos h]

theorem liesBelowRoot_joinText {n : Navigator} (h : Path.isAbsolute n.settings.root = true)
    {r : Route} (hanchor : r.anchor = .here) (hproper : r.IsProper) (hup : Path.up ∉ r.names) :
    n.LiesBelowRoot (Path.joinText n.rootRoute.text r.text) := by
  have hroot : n.rootRoute.IsProper := by
    rw [rootRoute_eq h]
    exact Path.collapse_isProper (Path.ofString_isProper _)
  have hrootUp : Path.up ∉ n.rootRoute.names := by
    rw [rootRoute_eq h]
    show Path.up ∉ Route.collapseNames (Route.ofString n.settings.root).isAnchored _
    rw [Path.isAnchored_ofString, h]
    exact Path.up_not_mem_collapseNames _
  have hfree : r.isAnchored = false := by
    rw [Route.isAnchored, hanchor]
    rfl
  -- the text reads back as the names of the root and those of the route
  have hjoin : Route.ofString (Path.joinText n.rootRoute.text r.text)
      = ⟨n.rootRoute.anchor, n.rootRoute.names ++ r.names⟩ := by
    calc Route.ofString (Path.joinText n.rootRoute.text r.text)
        = (Route.ofString n.rootRoute.text).append (Route.ofString r.text) :=
          Path.ofString_joinText _ _
      _ = n.rootRoute.append r := by rw [Path.ofString_text _ hroot, Path.ofString_text _ hproper]
      _ = ⟨n.rootRoute.anchor, n.rootRoute.names ++ r.names⟩ := by
          rw [Route.append, hfree]
          rfl
  unfold Navigator.LiesBelowRoot
  rw [hjoin, Path.collapse_of_no_up (by simp [hrootUp, hup]), Route.beginsWith]
  simp

/-- The forms are stable under stripping exactly if no directory that is asked for is padded. -/
theorem strip_orRoot_iff {n : Navigator} {requested : List (Option String)} {forms : List String}
    (h : List.Forall₂ n.Accepts requested forms) :
    (∀ form ∈ Navigator.orRoot forms, Text.strip form = form)
      ↔ ∀ d ∈ requested, IsUnpadded d := by
  obtain ⟨hforms, hrequested⟩ := exists_accepts_of_mem h
  constructor
  · intro hstrip d hd e form hde hform
    obtain ⟨form', hmem, d', p, hdd', -, hform'⟩ := hrequested d hd
    rw [hde] at hdd'
    obtain rfl := Option.some.inj hdd'
    rw [hform] at hform'
    obtain rfl := Except.ok.inj hform'
    refine hstrip form ?_
    cases forms with
    | nil => exact absurd hmem List.not_mem_nil
    | cons _ _ => exact hmem
  · intro hunpadded form hform
    by_cases hempty : forms.isEmpty
    · rw [Navigator.orRoot, if_pos hempty, List.mem_singleton] at hform
      rw [hform]
      decide
    · rw [Navigator.orRoot, if_neg hempty] at hform
      obtain ⟨d, hd, e, p, hde, -, hnormal⟩ := hforms form hform
      exact hunpadded d hd e form hde hnormal

theorem rootText_ne_empty (n : Navigator) : n.rootRoute.text ≠ "" := by
  intro hempty
  have habs := Path.isAbsolute_text_of_isAnchored
    (World.isAnchored_absolute n.world.isAnchored_base n.settings.root)
  rw [show (Route.absolute n.world.base n.settings.root).text = "" from hempty] at habs
  exact absurd habs (by decide)

/-- What the engine gets is what was checked exactly if stripping changes no form. -/
theorem enginePaths_eq_scopePaths_iff {n : Navigator} {requested : List (Option String)}
    {forms : List String} (h : List.Forall₂ n.Accepts requested forms) :
    n.enginePaths forms = n.scopePaths forms ↔ ∀ d ∈ requested, IsUnpadded d := by
  rw [← strip_orRoot_iff h]
  refine enginePaths_eq_iff (rootText_ne_empty n) (orRoot_ne_nil forms) fun form hform => ?_
  obtain ⟨r, rfl, hanchor, hproper, -⟩ := orRoot_form h hform
  refine ⟨text_ne_empty hproper, ?_⟩
  rw [Path.isAbsolute_text r hproper, Route.isAnchored, hanchor]
  rfl

/-- Every call for directories without blanks at their ends is in scope. -/
theorem inScope_of_isUnpadded {n : Navigator} (hroot : Path.isAbsolute n.settings.root = true)
    {q : Query} {s : Session} (hunpadded : ∀ d ∈ q.requested n, IsUnpadded d) {c : Call}
    (hc : c ∈ (q.answer n).callsMade s) : q.InScope n c := by
  obtain ⟨forms, hforms, hpaths⟩ := (callsOnly_answer n q).of_mem hc
  refine ⟨forms, hforms, ?_, ?_⟩
  · rw [hpaths, (enginePaths_eq_scopePaths_iff hforms).mpr hunpadded]
  · intro path hpath
    obtain ⟨form, hform, rfl⟩ := List.mem_map.mp hpath
    obtain ⟨r, rfl, hanchor, hproper, hup⟩ := orRoot_form hforms hform
    exact liesBelowRoot_joinText hroot hanchor hproper hup

/-- **When a query keeps its scope.** Below an absolute root, a query refuses a path before any call
or sends the engine exactly to the directories that were checked, if and only if it makes no call
at all or none of the directories it asks for has a normal form with blanks at its ends. -/
theorem keepsScope_iff (n : Navigator) (hroot : Path.isAbsolute n.settings.root = true) (q : Query)
    (s : Session) :
    q.KeepsScope n s
      ↔ (q.answer n).callsMade s = [] ∨ ∀ d ∈ q.requested n, IsUnpadded d := by
  constructor
  · rintro (⟨-, hnone⟩ | hscope)
    · exact Or.inl hnone
    · by_cases hnone : (q.answer n).callsMade s = []
      · exact Or.inl hnone
      · obtain ⟨c, hc⟩ := List.exists_mem_of_ne_nil _ hnone
        obtain ⟨forms, hforms, hpaths⟩ := (callsOnly_answer n q).of_mem hc
        obtain ⟨forms', hforms', hpaths', -⟩ := hscope c hc
        -- the directories have one list of normal forms only
        rw [forms_functional hforms' hforms, hpaths] at hpaths'
        exact Or.inr ((enginePaths_eq_scopePaths_iff hforms).mp (Option.some.inj hpaths'))
  · rintro (hnone | hunpadded)
    · right
      rw [hnone]
      exact fun c hc => absurd hc List.not_mem_nil
    · exact Or.inr fun c hc => inScope_of_isUnpadded hroot hunpadded hc

/-! ## A padded directory -/

/-- A navigator over an empty directory `/moodle`, with the built-in settings. -/
def bareNavigator : Navigator where
  world := ⟨.dir [("moodle", .dir [])], [], "/", [], []⟩
  settings := ⟨"/moodle", .default, .default, ".php", ["lib", "course"], .info⟩

/-- The search of a directory that is named by a blank and two points. -/
def paddedQuery : Query := .usage "x" [some " .."] none

/-- With the built-in directories every search keeps its scope. -/
theorem keepsScope_builtIn :
    Path.isAbsolute bareNavigator.settings.root = true ∧
      (Query.usage "x" [] none).KeepsScope bareNavigator (Session.begin [] infoSeverity) := by
  refine ⟨by decide, (keepsScope_iff bareNavigator (by decide) _ _).mpr (Or.inr ?_)⟩
  intro d hd e form hde hform
  have hd : d = some "lib" ∨ d = some "course" := by simpa [bareNavigator, Query.requested] using hd
  rcases hd with rfl | rfl
  · obtain rfl := Option.some.inj hde
    have hlib : normalText "lib" = .ok "lib" := by rfl
    rw [hlib] at hform
    obtain rfl := Except.ok.inj hform
    decide
  · obtain rfl := Option.some.inj hde
    have hcourse : normalText "course" = .ok "course" := by rfl
    rw [hcourse] at hform
    obtain rfl := Except.ok.inj hform
    decide

/-- **The directory ` ..` leads above the root.** It is accepted as a name below the root, but the
engine is sent to `/moodle/..`. -/
theorem padded_directory_leaves_scope :
    ¬ paddedQuery.KeepsScope bareNavigator (Session.begin [] infoSeverity) := by
  have hcalls : ((paddedQuery.answer bareNavigator).callsMade
      (Session.begin [] infoSeverity)).map searchPaths? = [some ["/moodle/.."]] := by
    decide +kernel
  rintro (⟨-, hnone⟩ | hscope)
  · rw [hnone] at hcalls
    cases hcalls
  · obtain ⟨c, hc, hpaths⟩ : ∃ c ∈ (paddedQuery.answer bareNavigator).callsMade
        (Session.begin [] infoSeverity), searchPaths? c = some ["/moodle/.."] := by
      refine List.mem_map.mp ?_
      rw [hcalls]
      exact List.mem_cons_self
    obtain ⟨forms, -, hforms, hbelow⟩ := hscope c hc
    rw [hpaths] at hforms
    have hmem : "/moodle/.." ∈ bareNavigator.scopePaths forms := by
      rw [← Option.some.inj hforms]
      exact List.mem_cons_self
    have hoff : ¬ bareNavigator.LiesBelowRoot "/moodle/.." := by
      unfold Navigator.LiesBelowRoot
      decide
    exact hoff (hbelow _ hmem)

end SourceNavigator.Navigation
