import SourceNavigator.Proofs.Settings.Loading
import SourceNavigator.Proofs.World.Outline

set_option autoImplicit false

/-! # Settings that are discovered

If the caller names no file, the source of the settings is the first candidate that gives settings, or
none, exactly if every candidate up to it is sound (`load_discovers_iff`). What the candidates behind
it hold, and whether they are there, does not matter: in every world that looks alike up to the source
(`AlikeToSource`) and takes the root for the same, loading has the same result. It takes the root for the
same whatever files are added, removed or written anew (`load_of_sameLinks`). An unsound candidate ends
the search, also if a later one would give settings (`undecodable_candidate_ends_search`).
-/

namespace SourceNavigator.Settings

open Data (Datum Validated)
open SourceNavigator.Path (Route)

/-! ## Worlds that look alike -/

/-- The same stands at a route in two worlds, and may be opened in both or in none. -/
structure AlikeAt (w w' : World) (file : Route) : Prop where
  probe : w'.probe file.address = w.probe file.address
  denied : w'.denied.contains file.text = w.denied.contains file.text

/-- Two worlds are alike at the candidates up to the first one that gives settings. -/
def AlikeToSource (w w' : World) : List Route → Prop
  | [] => True
  | file :: rest => AlikeAt w w' file ∧ ((∀ entries, ¬ Gives w file entries) → AlikeToSource w w' rest)

/-- A root is taken for the same in two worlds, and it is the same again when it is checked. -/
def SameRoot (w w' : World) : Option Datum → Prop
  | none => rootRule w' (.text w.base.text) = rootRule w (.text w.base.text)
  | some d =>
    rootOfDatum w' d = rootOfDatum w d ∧
      ∀ root, rootOfDatum w d = .ok root → rootRule w' root = rootRule w root

variable {w w' : World} {file : Route} {files : List Route} {source : Option Source} {r : Request}

theorem AlikeAt.opens_iff (h : AlikeAt w w' file) (octets : List UInt8) :
    Opens w' file octets ↔ Opens w file octets := by
  unfold Opens
  rw [h.probe, h.denied]

theorem AlikeAt.gives_iff (h : AlikeAt w w' file) (entries : List (Datum × Datum)) :
    Gives w' file entries ↔ Gives w file entries := by
  unfold Gives
  simp only [h.opens_iff]

theorem AlikeAt.isSoundFile (h : AlikeAt w w' file) (hsound : IsSoundFile w file) :
    IsSoundFile w' file := by
  constructor
  · intro t ht
    rw [h.probe] at ht
    exact hsound.probed t ht
  · intro octets hopens
    exact hsound.readable octets ((h.opens_iff octets).mp hopens)

theorem Finds.of_alike (h : Finds w files source) (halike : AlikeToSource w w' files) :
    Finds w' files source := by
  induction h with
  | none => exact .none
  | here hgives => exact .here ((halike.1.gives_iff _).mpr hgives)
  | later hnot _ ih =>
      refine .later (fun entries hgives => ?_) (ih (halike.2 hnot))
      exact hnot entries ((halike.1.gives_iff entries).mp hgives)

theorem AllSound.of_alike (h : AllSound w files) (halike : AlikeToSource w w' files) :
    AllSound w' files := by
  induction files with
  | nil => exact trivial
  | cons file rest ih =>
      refine ⟨halike.1.isSoundFile h.1, fun hnot' => ?_⟩
      have hnot : ∀ entries, ¬ Gives w file entries :=
        fun entries hgives => hnot' entries ((halike.1.gives_iff entries).mpr hgives)
      exact ih (h.2 hnot) (halike.2 hnot)

/-! ## Loading from one source in two worlds -/

theorem loadFrom_congr (hcwd : w'.cwd = w.cwd)
    (hroot : SameRoot w w' (givenRoot r (rootFrom source))) :
    loadFrom w' r source = loadFrom w r source := by
  have hbase : w'.base = w.base := congrArg (Route.mk .root) hcwd
  -- the worlds give the same root and check it alike
  have hchoose : chooseRoot w' r.root r.environment (rootFrom source)
      = chooseRoot w r.root r.environment (rootFrom source) ∧
      ∀ root origin, chooseRoot w r.root r.environment (rootFrom source) = .ok (root, origin) →
        rootRule w' root = rootRule w root := by
    rcases chooseRoot_cases r (rootFrom source) with ⟨hnone, hall⟩ | ⟨d, origin, hsome, hall⟩
    · rw [hnone] at hroot
      rw [hall w', hall w, hbase]
      refine ⟨rfl, fun root origin h => ?_⟩
      cases h
      exact hroot
    · rw [hsome] at hroot
      rw [hall w', hall w, hroot.1]
      refine ⟨rfl, fun root origin' h => ?_⟩
      obtain ⟨d', hd', hpair⟩ := exists_of_map_eq_ok h
      cases hpair
      exact hroot.2 root hd'
  rw [loadFrom, loadFrom, hchoose.1]
  apply bind_congr_of_ok
  rintro ⟨root, origin⟩ hchosen
  simp only [check_layered, hchoose.2 root origin hchosen]

/-! ## Files do not matter for a root -/

section Files

variable (h : World.SameLinks w w')

include h

theorem canonicalRoot_of_sameLinks (root : Route) : canonicalRoot w' root = canonicalRoot w root := by
  unfold canonicalRoot
  simp only [h.expandHome_eq, h.resolve_eq]

theorem rootRule_of_sameLinks (d : Datum) : rootRule w' d = rootRule w d := by
  unfold rootRule
  simp only [canonicalRoot_of_sameLinks h]

theorem rootOfDatum_of_sameLinks (d : Datum) : rootOfDatum w' d = rootOfDatum w d := by
  cases d with
  | text s => rw [rootOfDatum, rootOfDatum, canonicalRoot_of_sameLinks h]
  | illFormed ps =>
      have hfails (r : Route) (name : Text.Points) : unencodableAt w' r name = unencodableAt w r name := by
        unfold unencodableAt
        simp only [h.resolveNames_eq (h.resolveTarget_eq World.linkRoom)]
      rw [rootOfDatum, rootOfDatum, rootOfPoints, rootOfPoints]
      simp only [canonicalRoot_of_sameLinks h, hfails, h.expandHome_eq]
  | _ => rfl

/-- Worlds that differ in their files alone take every root for the same. -/
theorem sameRoot_of_sameLinks (given : Option Datum) : SameRoot w w' given := by
  cases given with
  | none =>
      have hbase : w'.base = w.base := congrArg (Route.mk .root) h.cwd
      exact rootRule_of_sameLinks h _
  | some d => exact ⟨rootOfDatum_of_sameLinks h d, fun root _ => rootRule_of_sameLinks h root⟩

theorem isHome_of_sameLinks {home : Route} (hhome : IsHome w home) : IsHome w' home := by
  rw [IsHome, h.expandHome_eq]
  exact hhome

end Files

/-! ## Discovery -/

section Source

variable {home : Route} (hfile : r.file = "")

include hfile

theorem hasResult_sourceOf_of_finds (hhome : IsHome w home) (hsound : AllSound w (candidates w home))
    (hfinds : Finds w (candidates w home) source) : (sourceOf w r).HasResult (.ok source) := by
  obtain ⟨source', hfinds', hresult⟩ := exists_finds hsound
  rw [hfinds.unique hfinds', sourceOf_eq, if_pos hfile]
  exact hasResult_discover hhome hresult

theorem exists_error_sourceOf (hhome : IsHome w home) (hsound : ¬ AllSound w (candidates w home)) :
    ∃ e, (sourceOf w r).HasResult (.error e) ∧ isConfiguration e = false := by
  obtain ⟨e, hresult, he⟩ := exists_error_of_not_allSound hsound
  refine ⟨e, ?_, he⟩
  rw [sourceOf_eq, if_pos hfile]
  exact hasResult_discover_error hhome hresult

/-- Worlds that look alike up to the source load the same. -/
theorem hasResult_load_of_alike (hsound : AllSound w (candidates w home))
    (hfinds : Finds w (candidates w home) source) (hcwd : w'.cwd = w.cwd) (hhome : IsHome w' home)
    (halike : AlikeToSource w w' (candidates w home))
    (hroot : SameRoot w w' (givenRoot r (rootFrom source))) :
    (load w' r).HasResult (loadFrom w r source) := by
  have hsame : candidates w' home = candidates w home := by
    rw [candidates, candidates, World.base, World.base, hcwd]
  rw [← loadFrom_congr hcwd hroot]
  apply hasResult_load
  apply hasResult_sourceOf_of_finds hfile hhome
  · exact hsame ▸ hsound.of_alike halike
  · exact hsame ▸ hfinds.of_alike halike

end Source

/-- **Loading goes by the first candidate that gives settings, exactly if the candidates up to it are
sound.** If none gives any, the built-in settings count. What the candidates behind it are has no
influence, as long as they do not change which root is meant. -/
theorem load_discovers_iff {home : Route} (hfile : r.file = "") (hhome : IsHome w home) :
    (AllSound w (candidates w home) ↔
      ∃ source, Finds w (candidates w home) source ∧ (sourceOf w r).HasResult (.ok source)) ∧
    (∀ source, AllSound w (candidates w home) → Finds w (candidates w home) source →
      (load w r).HasResult (loadFrom w r source) ∧
      (∀ l, loadFrom w r source = .ok l →
        l.file = source.map (·.file) ∧ l.isDefault = source.isNone ∧
          ∃ root, Settings.check w (.map (layered root (entriesFrom source)))
            = .ok (.valid l.settings)) ∧
      ∀ w', w'.cwd = w.cwd → IsHome w' home → AlikeToSource w w' (candidates w home) →
        SameRoot w w' (givenRoot r (rootFrom source)) →
          (load w' r).HasResult (loadFrom w r source)) ∧
    (¬ AllSound w (candidates w home) →
      ∃ e, (load w r).HasResult (.error e) ∧ isConfiguration e = false) := by
  refine ⟨⟨?_, ?_⟩, ?_, ?_⟩
  · intro hsound
    obtain ⟨source, hfinds, -⟩ := exists_finds hsound
    exact ⟨source, hfinds, hasResult_sourceOf_of_finds hfile hhome hsound hfinds⟩
  · rintro ⟨source, -, hresult⟩
    by_contra hsound
    obtain ⟨e, herror, -⟩ := exists_error_sourceOf hfile hhome hsound
    cases (hresult (Session.begin [] infoSeverity)).symm.trans (herror _)
  · intro source hsound hfinds
    refine ⟨hasResult_load (hasResult_sourceOf_of_finds hfile hhome hsound hfinds), ?_, ?_⟩
    · intro l hl
      obtain ⟨root, origin, -, hcheck, hfile, hdefault⟩ := loadFrom_eq_ok hl
      exact ⟨hfile, hdefault, root, hcheck⟩
    · intro w' hcwd hhome' halike hroot
      exact hasResult_load_of_alike hfile hsound hfinds hcwd hhome' halike hroot
  · intro hsound
    obtain ⟨e, herror, he⟩ := exists_error_sourceOf hfile hhome hsound
    exact ⟨e, herror.bind_error _, he⟩

/-! ## Files behind the source -/

section Behind

variable {home : Route} (hfile : r.file = "") (hhome : IsHome w home)
  (hsound : AllSound w (candidates w home)) (hfinds : Finds w (candidates w home) source)

include hfile hhome hsound hfinds

/-- **Files behind the source have no influence.** If a world differs in its files alone and looks alike
up to the source, then it also takes the root for the same. -/
theorem load_of_sameLinks (hlinks : World.SameLinks w w')
    (halike : AlikeToSource w w' (candidates w home)) : (load w' r).HasResult (loadFrom w r source) :=
  hasResult_load_of_alike hfile hsound hfinds hlinks.cwd (isHome_of_sameLinks hlinks hhome) halike
    (sameRoot_of_sameLinks hlinks _)

/-- A file that is added, or written anew. -/
theorem load_of_putFile {file : Route} {content : List UInt8} (hput : w.putFile file content = .ok w')
    (halike : AlikeToSource w w' (candidates w home)) : (load w' r).HasResult (loadFrom w r source) :=
  load_of_sameLinks hfile hhome hsound hfinds (World.sameLinks_of_putFile hput) halike

/-- A file that is removed. -/
theorem load_of_remove {file : Route}
    (hnode : ∀ place, World.walk w.tree .kept World.maxLinks (w.start file.isAnchored) file.names = .ok place →
      World.IsDeadEnd w.tree place)
    (halike : AlikeToSource w (w.remove file) (candidates w home)) :
    (load (w.remove file) r).HasResult (loadFrom w r source) :=
  load_of_sameLinks hfile hhome hsound hfinds (World.sameLinks_remove hnode) halike

/-- Files that hold something else. -/
theorem load_of_outline (houtline : w'.outline = w.outline)
    (halike : AlikeToSource w w' (candidates w home)) : (load w' r).HasResult (loadFrom w r source) :=
  load_of_sameLinks hfile hhome hsound hfinds (World.sameLinks_of_outline houtline) halike

end Behind

/-! Candidates in the only directory there is. -/

/-- A world with some files, whose only directory is also the home. -/
def worldHolding (files : List (String × List UInt8)) : World :=
  ⟨.dir (files.map fun f => (f.1, .file f.2)), [], "/", [], []⟩

/-- A request that names no file, with a root from the caller. -/
def requestOfRoot : Request := ⟨none, some "/", false, none⟩

/-- An empty file of settings, which stands at the third place where one is looked for. -/
def emptySource : Source := ⟨⟨.root, ["codenav.yaml"]⟩, []⟩

theorem isHome_worldHolding (files : List (String × List UInt8)) :
    IsHome (worldHolding files) ⟨.root, []⟩ := by
  show (worldHolding []).expandHome ⟨.here, ["~"]⟩ = .ok ⟨.root, []⟩
  rfl

theorem gives_emptySource {w : World} (hprobe : w.probe emptySource.file.address = .ok (some (.file [])))
    (hdenied : w.denied = []) : Gives w emptySource.file [] := by
  refine ⟨[], ⟨hprobe, ?_⟩, [], rfl, Or.inr ⟨rfl, rfl⟩⟩
  rw [hdenied]
  rfl

/-- A candidate that holds no text is added behind an empty one, and the result stays as it was. -/
theorem load_discovers_empty :
    requestOfRoot.file = "" ∧ IsHome (worldHolding [("codenav.yaml", [])]) ⟨.root, []⟩ ∧
      (load (worldHolding [("codenav.yaml", []), ("codenav.yml", [0xFF])]) requestOfRoot).HasResult
        (loadFrom (worldHolding [("codenav.yaml", [])]) requestOfRoot (some emptySource)) := by
  have hgives : Gives (worldHolding [("codenav.yaml", [])]) emptySource.file [] :=
    gives_emptySource rfl rfl
  have hnone (name : String)
      (hname : (worldHolding [("codenav.yaml", [])]).probe (Route.address ⟨.root, [name]⟩) = .ok none) :
      IsSoundFile (worldHolding [("codenav.yaml", [])]) ⟨.root, [name]⟩ ∧
        ∀ entries, ¬ Gives (worldHolding [("codenav.yaml", [])]) ⟨.root, [name]⟩ entries := by
    apply isSoundFile_of_unopened
    · intro t ht
      cases hname.symm.trans ht
    · intro octets hopens
      cases hname.symm.trans hopens.1
  have hfirst := hnone ".codenav.yaml" rfl
  have hsecond := hnone ".codenav.yml" rfl
  have hsound : AllSound (worldHolding [("codenav.yaml", [])])
      (candidates (worldHolding [("codenav.yaml", [])]) ⟨.root, []⟩) := by
    refine ⟨hfirst.1, fun _ => ⟨hsecond.1, fun _ => ⟨⟨fun t ht => ?_, fun octets hopens => ?_⟩, ?_⟩⟩⟩
    · cases ht
    · cases hopens.1
      exact ⟨[], rfl, fun defect hread => (by cases hread)⟩
    · exact fun hnot => absurd hgives (hnot [])
  have hfinds : Finds (worldHolding [("codenav.yaml", [])])
      (candidates (worldHolding [("codenav.yaml", [])]) ⟨.root, []⟩) (some emptySource) :=
    .later hfirst.2 (.later hsecond.2 (.here hgives))
  refine ⟨rfl, isHome_worldHolding _, ?_⟩
  apply ((load_discovers_iff (r := requestOfRoot) rfl (isHome_worldHolding _)).2.1 _ hsound
    hfinds).2.2
  · rfl
  · exact isHome_worldHolding _
  · exact ⟨⟨rfl, rfl⟩, fun _ => ⟨⟨rfl, rfl⟩, fun _ => ⟨⟨rfl, rfl⟩, fun hnot => absurd hgives (hnot [])⟩⟩⟩
  · exact ⟨rfl, fun root hroot => by cases hroot; rfl⟩

/-- **A candidate that holds no text ends the search.** It stands before an empty one, which could be
loaded from, and its octets fail the loading as they are. -/
theorem undecodable_candidate_ends_search :
    IsHome (worldHolding [(".codenav.yaml", [0xFF]), ("codenav.yaml", [])]) ⟨.root, []⟩ ∧
      Finds (worldHolding [(".codenav.yaml", [0xFF]), ("codenav.yaml", [])])
        (candidates (worldHolding [(".codenav.yaml", [0xFF]), ("codenav.yaml", [])]) ⟨.root, []⟩)
        (some emptySource) ∧
      (∃ l, loadFrom (worldHolding [(".codenav.yaml", [0xFF]), ("codenav.yaml", [])]) requestOfRoot
        (some emptySource) = .ok l) ∧
      (load (worldHolding [(".codenav.yaml", [0xFF]), ("codenav.yaml", [])]) requestOfRoot
          (Session.begin [] infoSeverity)).1
        = .error (.undecodable ⟨0, 1, .invalidStart, 0xFF⟩) := by
  refine ⟨isHome_worldHolding _, ?_, ⟨_, rfl⟩, by rfl⟩
  refine .later ?_ (.later ?_ (.here (gives_emptySource rfl rfl)))
  · rintro entries ⟨octets, hopens, cs, hcs, -⟩
    cases hopens.1
    have hdecode := Text.Utf8.decodeStrict?_eq_ok_iff.mpr hcs
    have hfails : Text.Utf8.decodeStrict? [0xFF] = .error ⟨0, 1, .invalidStart, 0xFF⟩ := rfl
    cases hfails.symm.trans hdecode
  · rintro entries ⟨octets, hopens, -⟩
    cases hopens.1

end SourceNavigator.Settings
