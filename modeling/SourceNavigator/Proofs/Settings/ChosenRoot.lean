import SourceNavigator.Proofs.Settings.Discovery
import SourceNavigator.Proofs.Settings.Root
import SourceNavigator.Proofs.World.Again
import SourceNavigator.Proofs.World.Depth

set_option autoImplicit false

/-! # The root that is chosen, and the root that is kept

The root is chosen among what the caller, the environment and the file give, and brought into its
canonical form; failing these it is the place where the process stands (`IsChosenRoot`). The check of
the settings then trims its text and resolves it once more. The chosen root is kept exactly if this
gives it back (`IsKept`). It does so whenever no blank stands at its end and its path was resolved
without a loop and without overlooking a link (`load_root_iff`). A directory whose name ends with a
blank is lost (`padded_root_is_lost`).
-/

namespace SourceNavigator.Settings

open Data (Datum Rule Validated)
open SourceNavigator.Path (Route IsName)

/-- The path that a root is given as, if it is given as one. -/
def pathOf? : Datum → Option Route
  | .text s => some (Route.ofString s)
  | .illFormed ps => some (Route.ofPoints ps)
  | _ => none

/-- The root that is chosen: the canonical form of the path that is given, or the place where the
process stands if none is. -/
def IsChosenRoot (w : World) : Option Datum → Route → Prop
  | none, root => root = w.base
  | some d, root => ∃ path, pathOf? d = some path ∧ IsCanonical w path root

/-- Halves of pairs in a root that is given are not left in its canonical form. -/
def LeavesNoHalves (given : Option Datum) (root : Route) : Prop :=
  ∀ ps, given = some (.illFormed ps) → Path.areWritable root.names = true

/-- The path that is given is resolved without a loop, and no link on it is overlooked. -/
def IsTraceable (w : World) : Option Datum → Prop
  | none => True
  | some d =>
    ∀ path r, pathOf? d = some path → w.expandHome path = .ok r → w.Discerns r ∧ w.Settles r

/-- What the check of the settings makes of a root: its text is trimmed and resolved again. -/
def IsChecked (w : World) (root again : Route) : Prop :=
  w.resolve (Route.ofString (Text.strip root.text)) = .ok again

/-- The check of the settings gives the root back. -/
def IsKept (w : World) (root : Route) : Prop := IsChecked w root root

/-! ## Trimming an absolute path -/

theorem isAbsolute_strip {s : String} (h : Path.isAbsolute s = true) :
    Path.isAbsolute (Text.strip s) = true := by
  obtain ⟨cs, hcs⟩ : ∃ cs, s.toList = '/' :: cs := by
    by_contra hno
    have hfalse := (Path.isAbsolute_eq_false_iff s).mpr fun cs hcs => hno ⟨cs, hcs⟩
    rw [h] at hfalse
    cases hfalse
  have hblank : Text.isBlank '/' = false := by decide
  have htrim : Text.trim s.toList = (List.dropWhile Text.isBlank (cs.reverse ++ ['/'])).reverse := by
    rw [Text.trim, Text.trimStart, hcs, List.dropWhile_cons_of_neg (by simp [hblank]), Text.trimEnd,
      Text.dropEndWhile, List.reverse_cons]
  -- the slash is no blank, so trimming from the end stops there at the latest
  have hslash : ∃ kept, List.dropWhile Text.isBlank (cs.reverse ++ ['/']) = kept ++ ['/'] := by
    rw [List.dropWhile_append]
    split
    · exact ⟨[], by simp [hblank]⟩
    · exact ⟨_, rfl⟩
  obtain ⟨kept, hkept⟩ := hslash
  rw [Path.isAbsolute, Text.strip, String.toList_ofList, htrim, hkept, List.reverse_append]
  rfl

theorem expandHome_of_isAnchored (w : World) {r : Route} (h : r.isAnchored = true) :
    w.expandHome r = .ok r := by
  obtain ⟨anchor, names⟩ := r
  cases anchor with
  | here => cases h
  | root => rfl
  | twin => rfl

/-! ## Choosing -/

section Choosing

variable {w w' : World} {r : Request} {source : Option Source} {given : Option Datum} {root : Route}

theorem IsCanonical.unique {path root' : Route} (h : IsCanonical w path root)
    (h' : IsCanonical w path root') : root = root' := by
  have hroot := canonicalRoot_eq_ok_iff.mpr h
  rw [canonicalRoot_eq_ok_iff.mpr h'] at hroot
  exact (Except.ok.inj hroot).symm

theorem IsChosenRoot.unique {root' : Route} (h : IsChosenRoot w given root)
    (h' : IsChosenRoot w given root') : root = root' := by
  cases given with
  | none => exact Eq.trans h (Eq.symm h')
  | some d =>
      obtain ⟨path, hpath, hcanonical⟩ := h
      obtain ⟨path', hpath', hcanonical'⟩ := h'
      rw [hpath] at hpath'
      cases hpath'
      exact hcanonical.unique hcanonical'

theorem IsChosenRoot.isAnchored (h : IsChosenRoot w given root) : root.isAnchored = true := by
  cases given with
  | none =>
      rw [show root = w.base from h]
      rfl
  | some d =>
      obtain ⟨path, -, r, -, hresolve⟩ := h
      exact World.isAnchored_resolve hresolve

/-- Worlds that differ in their files alone choose the same root. -/
theorem IsChosenRoot.of_sameLinks (hlinks : World.SameLinks w w') (h : IsChosenRoot w given root) :
    IsChosenRoot w' given root := by
  cases given with
  | none =>
      have hbase : w'.base = w.base := congrArg (Route.mk .root) hlinks.cwd
      exact Eq.trans h hbase.symm
  | some d =>
      obtain ⟨path, hpath, hcanonical⟩ := h
      refine ⟨path, hpath, canonicalRoot_eq_ok_iff.mp ?_⟩
      rw [canonicalRoot_of_sameLinks hlinks]
      exact canonicalRoot_eq_ok_iff.mpr hcanonical

theorem isProper_expandHome {path again : Route} (hpath : path.IsProper)
    (h : w.expandHome path = .ok again) : again.IsProper := by
  unfold World.expandHome at h
  split at h
  · rename_i first rest hanchor hnames
    split at h
    · split at h
      · cases h
      · split at h
        · cases h
        · split at h
          · cases h
          · cases h
            -- the names of the home directory stand before the rest of the path
            intro name hname
            rcases List.mem_append.mp hname with hname | hname
            · exact Path.ofString_isProper _ name hname
            · exact hpath name (hnames ▸ List.mem_cons_of_mem first hname)
    · cases h
      exact hpath
  · cases h
    exact hpath

/-- The names of a chosen root can be read back from its text. -/
theorem IsChosenRoot.isProper (hw : w.IsSound) (h : IsChosenRoot w given root)
    (hleaves : LeavesNoHalves given root) : root.IsProper := by
  cases given with
  | none =>
      rw [show root = w.base from h]
      exact World.isProper_base hw
  | some d =>
      obtain ⟨path, hpath, r, hhome, hresolve⟩ := h
      cases d with
      | text s =>
          cases hpath
          exact World.isProper_resolve hw (isProper_expandHome (Path.ofString_isProper s) hhome)
            hresolve
      | illFormed ps =>
          intro name hname
          refine ⟨World.leads_of_mem_resolve hw hresolve hname, ?_⟩
          have hslash := List.all_eq_true.mp (hleaves ps rfl) name hname
          simpa using hslash
      | _ => cases hpath

/-- What is chosen as a root, if it passes its check. -/
theorem exists_chosen_of_rootRule {file : Option Datum} {d : Datum} {origin : Origin} {text : String}
    (hchoose : chooseRoot w r.root r.environment file = .ok (d, origin))
    (hrule : rootRule w d = .ok (.valid text)) :
    ∃ root, IsChosenRoot w (givenRoot r file) root ∧ LeavesNoHalves (givenRoot r file) root ∧
      d = .text root.text := by
  rcases chooseRoot_cases r file with ⟨hnone, hall⟩ | ⟨d', origin', hsome, hall⟩
  · rw [hall w] at hchoose
    cases hchoose
    rw [hnone]
    exact ⟨w.base, rfl, fun ps hps => (by cases hps), rfl⟩
  · rw [hall w] at hchoose
    obtain ⟨taken, htaken, hpair⟩ := exists_of_map_eq_ok hchoose
    cases hpair
    rw [hsome]
    cases d' with
    | text s =>
        rw [rootOfDatum] at htaken
        obtain ⟨root, hroot, rfl⟩ := exists_of_map_eq_ok htaken
        refine ⟨root, ⟨_, rfl, canonicalRoot_eq_ok_iff.mp hroot⟩, fun ps hps => ?_, rfl⟩
        cases hps
    | illFormed ps =>
        obtain ⟨root, hroot, rfl⟩ := exists_root_of_rootOfPoints htaken
        by_cases hwritable : Path.areWritable root.names = true
        · rw [if_pos hwritable]
          exact ⟨root, ⟨_, rfl, canonicalRoot_eq_ok_iff.mp hroot⟩, fun _ _ => hwritable, rfl⟩
        · -- a text with halves is refused when it is checked
          rw [if_neg hwritable] at hrule
          cases hrule
    | _ => cases htaken

theorem rootRule_of_isAnchored {root : Route} (hanchored : root.isAnchored = true) :
    rootRule w (.text root.text)
      = match canonicalRoot w (Route.ofString (Text.strip root.text)) with
        | .ok again => .ok (.valid again.text)
        | .error .nulCharacter => .ok (.complain (.refused World.nulMessage))
        | .error e => .error e := by
  have habsolute : Path.isAbsolute root.text = true := Path.isAbsolute_text_of_isAnchored hanchored
  have hstripped := isAbsolute_strip habsolute
  have hne : ∀ {s : String}, Path.isAbsolute s = true → s ≠ "" := by
    rintro s hs rfl
    cases hs
  rewrite [rootRule_of_ne_empty w (hne habsolute), if_neg (by simpa using hne hstripped)]
  rfl

theorem canonicalRoot_strip_iff {root again : Route} (hanchored : root.isAnchored = true) :
    canonicalRoot w (Route.ofString (Text.strip root.text)) = .ok again ↔ IsChecked w root again := by
  have hstripped := isAbsolute_strip (Path.isAbsolute_text_of_isAnchored hanchored)
  have hhome := expandHome_of_isAnchored w (r := Route.ofString (Text.strip root.text))
    (by rw [Path.isAnchored_ofString, hstripped])
  constructor
  · intro h
    obtain ⟨path, hpath, hresolve⟩ := canonicalRoot_eq_ok_iff.mp h
    cases hhome.symm.trans hpath
    exact hresolve
  · exact fun h => canonicalRoot_eq_ok_iff.mpr ⟨_, hhome, h⟩

/-- The check of a root trims its text and resolves it again. -/
theorem exists_again_of_rootRule {root : Route} (hanchored : root.isAnchored = true) {text : String}
    (h : rootRule w (.text root.text) = .ok (.valid text)) :
    ∃ again, IsChecked w root again ∧ text = again.text := by
  rw [rootRule_of_isAnchored hanchored] at h
  cases hroot : canonicalRoot w (Route.ofString (Text.strip root.text)) with
  | error e =>
      rw [hroot] at h
      cases e <;> cases h
  | ok again =>
      rw [hroot] at h
      cases h
      exact ⟨again, (canonicalRoot_strip_iff hanchored).mp hroot, rfl⟩

/-- The root of loaded settings is what the check makes of the chosen root. -/
theorem exists_checked_of_loadFrom {l : Loaded} (h : loadFrom w r source = .ok l) :
    ∃ root again, IsChosenRoot w (givenRoot r (rootFrom source)) root ∧
      LeavesNoHalves (givenRoot r (rootFrom source)) root ∧ IsChecked w root again ∧
        l.settings.root = again.text := by
  obtain ⟨d, origin, hchoose, hcheck, -, -⟩ := loadFrom_eq_ok h
  rw [check_layered] at hcheck
  obtain ⟨checked, hrule, hvalid⟩ := exists_of_map_eq_ok hcheck
  rw [Validated.under_eq_valid (ofRoot_eq_valid hvalid)] at hrule
  obtain ⟨root, hchosen, hleaves, rfl⟩ := exists_chosen_of_rootRule hchoose hrule
  obtain ⟨again, hagain, htext⟩ := exists_again_of_rootRule hchosen.isAnchored hrule
  exact ⟨root, again, hchosen, hleaves, hagain, htext⟩

/-- Settings are loaded from the source of the request. -/
theorem exists_source_of_load {s : Session} {l : Loaded} (h : (load w r s).1 = .ok l) :
    ∃ source, IsSource w r source ∧ loadFrom w r source = .ok l := by
  cases searchOutcome w r with
  | finds source hresult hsource hsound =>
      refine ⟨source, hsource, ?_⟩
      rw [← hasResult_load hresult s, h]
  | refuses e hresult =>
      have herror : (load w r).HasResult (.error e) := hresult.bind_error _
      cases (herror s).symm.trans h
  | breaks e hresult =>
      have herror : (load w r).HasResult (.error e) := hresult.bind_error _
      cases (herror s).symm.trans h

/-! ## Keeping -/

/-- **A root is kept** if its path was resolved without a loop and without overlooking a link, and no
blank stands at its end. -/
theorem isKept_of_isTraceable (hw : w.IsSound) {given : Option Datum} {root : Route}
    (htraceable : IsTraceable w given) (hchosen : IsChosenRoot w given root)
    (hproper : root.IsProper) (hstrip : Text.strip root.text = root.text) : IsKept w root := by
  rw [IsKept, IsChecked, hstrip, Path.ofString_text root hproper]
  cases given with
  | none =>
      rw [show root = w.base from hchosen]
      exact World.resolve_base hw
  | some d =>
      obtain ⟨path, hpath, r, hhome, hresolve⟩ := hchosen
      obtain ⟨hdiscerns, hsettles⟩ := htraceable path r hpath hhome
      exact World.resolve_again hw hdiscerns hsettles hresolve

/-- **Which root loaded settings have.** The chosen root is the first that is given of the caller's, the
environment's and the file's, in its canonical form, else the place where the process stands. It is kept
exactly if trimming its text and resolving it again gives it back. In any case nothing else that is given
has an influence on the root, nor has what files hold. -/
theorem load_root_iff (hw : w.IsSound) {s : Session} {l : Loaded} (h : (load w r s).1 = .ok l) :
    ∃ source root, IsSource w r source ∧ IsChosenRoot w (givenRoot r (rootFrom source)) root ∧
      (l.settings.root = root.text ↔ IsKept w root) ∧
      (IsTraceable w (givenRoot r (rootFrom source)) → Text.strip root.text = root.text →
        l.settings.root = root.text) ∧
      ∀ (w' : World) (r' : Request) (s' : Session) (l' : Loaded) (source' : Option Source),
        w'.outline = w.outline → (load w' r' s').1 = .ok l' → IsSource w' r' source' →
        givenRoot r' (rootFrom source') = givenRoot r (rootFrom source) →
          l'.settings.root = l.settings.root := by
  obtain ⟨source, hsource, hload⟩ := exists_source_of_load h
  obtain ⟨root, again, hchosen, hleaves, hagain, htext⟩ := exists_checked_of_loadFrom hload
  have hproper : root.IsProper := hchosen.isProper hw hleaves
  have hkept : l.settings.root = root.text ↔ IsKept w root := by
    rw [htext]
    constructor
    · intro hsame
      have hagainProper : again.IsProper :=
        World.isProper_resolve hw (Path.ofString_isProper _) hagain
      have heq : again = root := by
        rw [← Path.ofString_text again hagainProper, hsame, Path.ofString_text root hproper]
      rw [heq] at hagain
      exact hagain
    · intro hkept
      rw [Except.ok.inj (hagain.symm.trans hkept)]
  refine ⟨source, root, hsource, hchosen, hkept, ?_, ?_⟩
  · intro htraceable hstrip
    exact hkept.mpr (isKept_of_isTraceable hw htraceable hchosen hproper hstrip)
  · intro w' r' s' l' source' houtline h' hsource' hgiven
    obtain ⟨found, hfound, hload'⟩ := exists_source_of_load h'
    obtain rfl := hfound.unique hsource'
    obtain ⟨root', again', hchosen', -, hagain', htext'⟩ := exists_checked_of_loadFrom hload'
    rw [hgiven] at hchosen'
    have hlinks : World.SameLinks w w' := World.sameLinks_of_outline houtline
    obtain rfl : root' = root := hchosen'.unique (hchosen.of_sameLinks hlinks)
    have hagain : w'.resolve (Route.ofString (Text.strip root'.text)) = .ok again := by
      rw [hlinks.resolve_eq]
      exact hagain
    rw [htext, htext', Except.ok.inj (hagain'.symm.trans hagain)]

end Choosing

/-! A root that is given as a link, and one with a blank at its end. -/

/-- A world with a directory, a link to it and an empty file of settings. -/
def linkedWorld : World :=
  ⟨.dir [(".codenav.yaml", .file []), ("moodle", .dir []), ("l", .link "moodle")], [], "/", [], []⟩

/-- A request for the link as the root. -/
def requestOfLink : Request := ⟨none, some "/l", false, some "/elsewhere"⟩

theorem linkedWorld_isSound : linkedWorld.IsSound := ⟨by decide, _, rfl⟩

/-- The root that the link gives is the directory. -/
theorem eq_of_isChosenRoot_link {root : Route}
    (h : IsChosenRoot linkedWorld (some (.text "/l")) root) :
    root = ⟨.root, ["moodle"]⟩ ∧ IsTraceable linkedWorld (some (.text "/l")) := by
  have hhome : linkedWorld.expandHome (Route.ofString "/l") = .ok ⟨.root, ["l"]⟩ := rfl
  have hdiscerns : linkedWorld.Discerns ⟨.root, ["l"]⟩ :=
    World.discerns_of_linksAreShort (World.linksAreShort_of_linksFit (by decide)) rfl
  have hreach : linkedWorld.reach ⟨.root, ["l"]⟩ = .ok ["moodle"] := rfl
  have hresolve := World.resolve_of_reach linkedWorld_isSound hdiscerns hreach
  refine ⟨h.unique ⟨_, rfl, _, hhome, hresolve⟩, fun path r hpath hpathHome => ?_⟩
  obtain rfl : Route.ofString "/l" = path := Option.some.inj hpath
  obtain rfl := Except.ok.inj (hhome.symm.trans hpathHome)
  exact ⟨hdiscerns, (World.realRoute_of_reach linkedWorld_isSound hdiscerns hreach).2⟩

theorem load_root_linked :
    linkedWorld.IsSound ∧
      ∃ l, (load linkedWorld requestOfLink (Session.begin [] infoSeverity)).1 = .ok l ∧
        l.settings.root = "/moodle" := by
  have hload : ((load linkedWorld requestOfLink (Session.begin [] infoSeverity)).1).toOption.isSome
      = true := by decide +kernel
  obtain ⟨l, hl⟩ := Option.isSome_iff_exists.mp hload
  replace hl := eq_ok_of_toOption hl
  refine ⟨linkedWorld_isSound, l, hl, ?_⟩
  obtain ⟨source, root, -, hchosen, -, hkept, -⟩ := load_root_iff linkedWorld_isSound hl
  -- the caller's root goes before that of the environment, whatever a file says
  have hgiven : givenRoot requestOfLink (rootFrom source) = some (.text "/l") := rfl
  rw [hgiven] at hchosen hkept
  obtain ⟨rfl, htraceable⟩ := eq_of_isChosenRoot_link hchosen
  exact hkept htraceable rfl

/-- A process that stands in a directory whose name ends with a blank. -/
def paddedWorld : World := ⟨.dir [("x ", .dir [])], ["x "], "/", [], []⟩

/-- A request that says nothing. -/
def bareRequest : Request := ⟨none, none, false, none⟩

/-- **A root with a blank at its end is lost.** The place where the process stands is chosen, and said
to be chosen, but the settings name another directory, which need not be there. -/
theorem padded_root_is_lost :
    paddedWorld.IsSound ∧
      ∃ l source root, (load paddedWorld bareRequest (Session.begin [] infoSeverity)).1 = .ok l ∧
        IsSource paddedWorld bareRequest source ∧
        IsChosenRoot paddedWorld (givenRoot bareRequest (rootFrom source)) root ∧
        l.warnings.head? = some "No path configured, using current directory: /x " ∧
        root.text = "/x " ∧ l.settings.root = "/x" := by
  have hload : ((load paddedWorld bareRequest (Session.begin [] infoSeverity)).1).toOption.map
        (fun l => (l.file, l.warnings.head?, l.settings.root))
      = some (none, some "No path configured, using current directory: /x ", "/x") := by
    decide
  obtain ⟨l, hl, hparts⟩ := Option.map_eq_some_iff.mp hload
  replace hl := eq_ok_of_toOption hl
  simp only [Prod.mk.injEq] at hparts
  obtain ⟨hnofile, hwarning, hroot⟩ := hparts
  obtain ⟨source, hsource, hfrom⟩ := exists_source_of_load hl
  obtain ⟨-, -, -, -, hfile, -⟩ := loadFrom_eq_ok hfrom
  have hnone : source = none := Option.map_eq_none_iff.mp (hfile.symm.trans hnofile)
  subst hnone
  exact ⟨⟨by decide, _, rfl⟩, l, none, paddedWorld.base, hl, hsource, rfl, hwarning, rfl, hroot⟩

end SourceNavigator.Settings
