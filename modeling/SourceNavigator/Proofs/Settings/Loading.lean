import SourceNavigator.Proofs.Data.Entries
import SourceNavigator.Proofs.Settings.Source

set_option autoImplicit false

/-! # When loading settings fails as promised

Loading is to end with settings that passed their check, or with a failure of configuration
(`EndsAsPromised`). It does so exactly if the files that it looks at are sound, and the root that is given
is a path with a canonical form (`LoadsCleanly`, `load_endsAsPromised_iff`). A file whose octets are no
encoded text ends it with another failure (`undecodable_file_escapes`).
-/

namespace SourceNavigator.Settings

open Data (Datum Rule Validated)
open SourceNavigator.Path (Route)

/-! ## The root -/

/-- The root that is given: the caller's, the environment's or the file's, the first that is something. -/
def givenRoot (r : Request) (file : Option Datum) : Option Datum :=
  if r.root.getD "" ≠ "" then some (.text (r.root.getD ""))
  else if r.environment.getD "" ≠ "" then some (.text (r.environment.getD ""))
  else if (file.getD .null).isTruthy = true then file
  else none

/-- The canonical form of a path: its home directory is known, and its links can be resolved. -/
def IsCanonical (w : World) (path root : Route) : Prop :=
  ∃ r, w.expandHome path = .ok r ∧ w.resolve r = .ok root

/-- What bringing a path into its canonical form comes to. -/
inductive CanonicalOutcome (w : World) (path : Route) : Prop where
  | settled (r root : Route) (hhome : w.expandHome path = .ok r) (hresolve : w.resolve r = .ok root)
      (hroot : canonicalRoot w path = .ok root)
  | homeless (hhome : w.expandHome path = .error .unknown)
      (hroot : canonicalRoot w path = .error .homeUnknown)
  | looped (r : Route) (text : String) (hhome : w.expandHome path = .ok r)
      (hresolve : w.resolve r = .error (.loop text))
      (hroot : canonicalRoot w path = .error (.linkLoop text))
  | exhausted (r : Route) (hhome : w.expandHome path = .ok r)
      (hresolve : w.resolve r = .error .tooDeep)
      (hroot : canonicalRoot w path = .error (.tooDeep ""))
  | unspeakable (hhome : w.expandHome path = .error .nulCharacter ∨
      ∃ r, w.expandHome path = .ok r ∧ w.resolve r = .error .nulCharacter)
      (hroot : canonicalRoot w path = .error .nulCharacter)

theorem canonicalOutcome (w : World) (path : Route) : CanonicalOutcome w path := by
  cases hhome : w.expandHome path with
  | error fault =>
      cases fault with
      | unknown => exact .homeless hhome (by rw [canonicalRoot, hhome]; rfl)
      | nulCharacter => exact .unspeakable (Or.inl hhome) (by rw [canonicalRoot, hhome]; rfl)
  | ok r =>
      cases hresolve : w.resolve r with
      | ok root =>
          refine .settled r root hhome hresolve ?_
          rw [canonicalRoot, hhome]
          simp only [hresolve]
      | error obstacle =>
          cases obstacle with
          | loop text =>
              refine .looped r text hhome hresolve ?_
              rw [canonicalRoot, hhome]
              simp only [hresolve]
          | nulCharacter =>
              refine .unspeakable (Or.inr ⟨r, hhome, hresolve⟩) ?_
              rw [canonicalRoot, hhome]
              simp only [hresolve]
          | tooDeep =>
              refine .exhausted r hhome hresolve ?_
              rw [canonicalRoot, hhome]
              simp only [hresolve]

theorem canonicalRoot_eq_ok_iff {w : World} {path root : Route} :
    canonicalRoot w path = .ok root ↔ IsCanonical w path root := by
  constructor
  · intro h
    cases canonicalOutcome w path with
    | settled r root' hhome hresolve hroot =>
        rw [h] at hroot
        cases hroot
        exact ⟨r, hhome, hresolve⟩
    | homeless _ hroot => cases h.symm.trans hroot
    | looped _ _ _ _ hroot => cases h.symm.trans hroot
    | exhausted _ _ _ hroot => cases h.symm.trans hroot
    | unspeakable _ hroot => cases h.symm.trans hroot
  · rintro ⟨r, hhome, hresolve⟩
    rw [canonicalRoot, hhome]
    simp only [hresolve]

theorem rootRule_of_ne_empty (w : World) {s : String} (h : s ≠ "") :
    rootRule w (.text s)
      = if (Text.strip s).isEmpty then .ok (.complain (.refused "Root directory cannot be empty"))
        else
          match canonicalRoot w (Route.ofString (Text.strip s)) with
          | .ok root => .ok (.valid root.text)
          | .error .nulCharacter => .ok (.complain (.refused World.nulMessage))
          | .error e => .error e := by
  have hrule : Rule.someText (.text s) = .valid s := by
    show (if s.isEmpty then _ else _) = _
    rw [if_neg (by simpa using h)]
  rewrite [rootRule, hrule]
  rfl

/-- A root with halves is taken if the path that it stands for has a canonical form. If this can be
written it is given instead, and otherwise the root stays as it is. -/
theorem exists_root_of_rootOfPoints {w : World} {ps : Text.Points} {d : Datum}
    (h : rootOfPoints w ps = .ok d) :
    ∃ root, canonicalRoot w (Route.ofPoints ps) = .ok root ∧
      d = if Path.areWritable root.names then .text root.text else .illFormed ps := by
  unfold rootOfPoints at h
  simp only at h
  split at h
  · obtain ⟨root, hroot, hd⟩ := exists_of_map_eq_ok h
    exact ⟨root, hroot, hd.symm⟩
  · -- a name that cannot be encoded leads to a failure of one kind or another
    split at h
    · cases h
    · split at h
      · cases h
      · cases h

/-- Where a root comes from, and whether there is one, is the same in every world. -/
theorem chooseRoot_cases (r : Request) (file : Option Datum) :
    (givenRoot r file = none ∧
        ∀ w : World, chooseRoot w r.root r.environment file = .ok (.text w.base.text, .process)) ∨
      ∃ d origin, givenRoot r file = some d ∧
        ∀ w, chooseRoot w r.root r.environment file = (rootOfDatum w d).map (·, origin) := by
  unfold givenRoot chooseRoot
  simp only [Bool.not_eq_true', ne_eq, String.isEmpty_eq_false_iff]
  by_cases hcaller : r.root.getD "" = ""
  · by_cases henvironment : r.environment.getD "" = ""
    · simp only [hcaller, henvironment, not_true_eq_false, if_false]
      cases file with
      | none => exact Or.inl ⟨rfl, fun _ => rfl⟩
      | some d =>
          simp only [Option.getD_some]
          by_cases htruthy : d.isTruthy = true
          · simp only [if_pos htruthy]
            exact Or.inr ⟨d, .file, rfl, fun _ => rfl⟩
          · simp only [if_neg htruthy]
            exact Or.inl ⟨trivial, fun _ => trivial⟩
    · simp only [hcaller, henvironment, not_true_eq_false, not_false_eq_true, if_true, if_false]
      exact Or.inr ⟨_, .environment, rfl, fun _ => rfl⟩
  · simp only [hcaller, not_false_eq_true, if_true]
    exact Or.inr ⟨_, .caller, rfl, fun _ => rfl⟩

/-- The entries of a source. Without one there are none, so that the built-in settings count. -/
def entriesFrom (source : Option Source) : List (Datum × Datum) := (source.map (·.entries)).getD []

/-- The root that a source names. -/
def rootFrom (source : Option Source) : Option Datum := Datum.lookup "root" (entriesFrom source)

/-- The warning of a root that nothing names. -/
def rootWarnings (root : Datum) (origin : Origin) : List String :=
  if origin = .process then ["No path configured, using current directory: " ++ root.shown] else []

/-- What loading comes to with the settings of a source. -/
def loadFrom (w : World) (r : Request) (source : Option Source) : Except Failure Loaded := do
  let (root, origin) ← chooseRoot w r.root r.environment (rootFrom source)
  let checked ← Settings.check w (.map (layered root (entriesFrom source)))
  let settings ← validSettings checked
  checkStrict r.strict (rootWarnings root origin ++ defaultWarnings source)
  return ⟨settings, rootWarnings root origin ++ defaultWarnings source, source.map (·.file),
    source.isNone⟩

theorem hasResult_rootWarnings (root : Datum) (origin : Origin) :
    (warnOfProcessRoot root origin).HasResult (.ok (rootWarnings root origin)) := by
  unfold warnOfProcessRoot rootWarnings
  split
  · exact (Action.hasResult_log _ _ _).bind (Action.hasResult_pure _)
  · exact Action.hasResult_done _

/-- **Loading goes by the source that is found.** -/
theorem hasResult_load {w : World} {r : Request} {source : Option Source}
    (h : (sourceOf w r).HasResult (.ok source)) : (load w r).HasResult (loadFrom w r source) := by
  refine h.bind ((Action.hasResult_lift _).seq ?_)
  rintro ⟨root, origin⟩ -
  refine (hasResult_rootWarnings root origin).bind ((Action.hasResult_lift _).seq ?_)
  intro checked _
  refine (Action.hasResult_lift _).seq fun settings _ => (Action.hasResult_lift _).seq fun _ _ => ?_
  exact (Action.hasResult_log _ _ _).bind (Action.hasResult_pure _)

/-! ## Loading -/

/-- Loading ends with settings that passed their check, or with a failure of configuration. -/
def EndsAsPromised (w : World) (result : Except Failure Loaded) : Prop :=
  (∃ l root entries, result = .ok l ∧
      Settings.check w (.map (layered root entries)) = .ok (.valid l.settings)) ∨
    ∃ e, result = .error e ∧ isConfiguration e = true

/-- The check of settings is that of their root, and of the fields around it. -/
theorem check_layered (w : World) (root : Datum) (entries : List (Datum × Datum)) :
    Settings.check w (.map (layered root entries))
      = (rootRule w root).map fun checked =>
          ofRoot (checked.under (.field "root")) (layered root entries) := by
  rw [Settings.check, rootField, layered, Data.lookup_putEntry_self]
  simp only
  cases rootRule w root with
  | ok checked => rfl
  | error e => rfl

theorem validSettings_eq_ok {checked : Validated Settings} {settings : Settings}
    (h : validSettings checked = .ok settings) : checked = .valid settings := by
  cases checked with
  | valid _ =>
      cases h
      rfl
  | invalid _ => cases h

/-- Loading from a source gives checked settings, and says which file they come from, if any. -/
theorem loadFrom_eq_ok {w : World} {r : Request} {source : Option Source} {l : Loaded}
    (h : loadFrom w r source = .ok l) :
    ∃ root origin, chooseRoot w r.root r.environment (rootFrom source) = .ok (root, origin) ∧
      Settings.check w (.map (layered root (entriesFrom source))) = .ok (.valid l.settings) ∧
        l.file = source.map (·.file) ∧ l.isDefault = source.isNone := by
  obtain ⟨⟨root, origin⟩, hchoose, h⟩ := exists_of_bind_eq_ok h
  obtain ⟨checked, hcheck, h⟩ := exists_of_bind_eq_ok h
  obtain ⟨settings, hvalid, h⟩ := exists_of_bind_eq_ok h
  obtain ⟨_, -, h⟩ := exists_of_bind_eq_ok h
  obtain rfl := Except.ok.inj h
  rw [validSettings_eq_ok hvalid] at hcheck
  exact ⟨root, origin, hchoose, hcheck, rfl, rfl⟩

theorem not_endsAsPromised {w : World} {e : Failure} (he : isConfiguration e = false) :
    ¬ EndsAsPromised w (.error e) := by
  rintro (⟨l, root, entries, h, -⟩ | ⟨e', h, he'⟩)
  · cases h
  · cases h
    rw [he] at he'
    cases he'

end SourceNavigator.Settings
