import SourceNavigator.Proofs.Settings.ChosenRoot
import SourceNavigator.Proofs.Settings.Fields

set_option autoImplicit false

/-! # Settings that are checked again

Checked settings can be written as data, and the data can be checked again. All that this can change is
the root (`check_toDatum`): every other field has its value again. The root is trimmed and resolved once
more, and the settings come back exactly if it is kept (`check_again_iff`). The root of a directory whose
name ends with a blank is not kept (`linked_root_is_not_kept`).
-/

namespace SourceNavigator.Settings

open Data (Datum Rule Validated)
open SourceNavigator.Path (Route)

/-! ## The fields besides the root -/

/-- Settings with another root. -/
def withRoot (s : Settings) (root : String) : Settings := { s with root := root }

/-- The fields that settings are written as. -/
def written (s : Settings) : List (Datum × Datum) :=
  [(.text "root", .text s.root), (.text "engine", s.engine.toDatum),
   (.text "limits", s.limits.toDatum), (.text "source_extension", .text s.sourceEnding),
   (.text "usage_directories", .list (s.usageDirectories.map .text)),
   (.text "log_level", .text s.level.name)]

theorem toDatum_eq_map (s : Settings) : s.toDatum = .map s.written := rfl

/-- Every field but the root has its value again. -/
theorem ofRoot_written {root : Validated String} {entries : List (Datum × Datum)} {s : Settings}
    (h : ofRoot root entries = .valid s) (again : Validated String) :
    ofRoot again s.written = s.withRoot <$> again := by
  obtain ⟨-, hengine, hlimits, hending, ⟨directories, -, hclean⟩, hlevel⟩ :=
    ofRoot_eq_valid_iff.mp h
  have hengine' : Rule.field "engine" (some Engine.default) Engine.check s.written
      = .valid s.engine := isStable_engine.field rfl hengine rfl
  have hlimits' : Rule.field "limits" (some Limits.default) Limits.check s.written
      = .valid s.limits := isStable_limits.field rfl hlimits rfl
  have hending' : Rule.field "source_extension" (some ".php") endingRule s.written
      = .valid s.sourceEnding := isStable_endingRule.field rfl hending rfl
  have hdirectories' : Rule.field "usage_directories" (some ["lib", "course"]) (Rule.list Rule.text)
      s.written = .valid s.usageDirectories :=
    Rule.field_eq_valid_iff.mpr (Rule.list_map fun _ _ => rfl)
  have hlevel' : Rule.field "log_level" (some Level.info) Level.check s.written
      = .valid s.level := isStable_level.field rfl hlevel rfl
  have hcleaned : Search.cleanDirectories s.usageDirectories = s.usageDirectories := by
    rw [hclean, cleanDirectories_cleanDirectories]
  -- the directories are cleaned once more, which changes nothing
  rw [ofRoot, hengine', hlimits', hending', hdirectories', hlevel']
  cases again with
  | valid text =>
      show Validated.valid (Settings.mk text s.engine s.limits s.sourceEnding
        (Search.cleanDirectories s.usageDirectories) s.level) = _
      rw [hcleaned]
      rfl
  | invalid problems => rfl

/-! ## The root -/

/-- The settings are given this text as their root, and this is its canonical form. -/
def IsTyped (w : World) (d : Datum) (typed : String) (root : Route) : Prop :=
  ∃ entries given, d = .map entries ∧ Datum.lookup "root" entries = some given ∧
    Rule.text given = .valid typed ∧ IsChosenRoot w (some (.text (Text.strip typed))) root

section Again

variable {w : World} {d : Datum} {s : Settings} {root : Route}

theorem exists_typed_of_rootRule {text : String} (h : rootRule w d = .ok (.valid text)) :
    ∃ typed root, Rule.text d = .valid typed ∧
      IsChosenRoot w (some (.text (Text.strip typed))) root ∧ text = root.text := by
  unfold rootRule at h
  split at h
  · cases h
  · rename_i typed htyped
    split at h
    · cases h
    · split at h
      · rename_i root hroot
        cases h
        exact ⟨typed, root, (Rule.someText_eq_valid htyped).1,
          ⟨_, rfl, canonicalRoot_eq_ok_iff.mp hroot⟩, rfl⟩
      · cases h
      · cases h

theorem exists_typed_of_check (h : check w d = .ok (.valid s)) :
    ∃ typed root, IsTyped w d typed root ∧ s.root = root.text := by
  cases d with
  | map entries =>
      have h : (rootField w entries).map (fun root => ofRoot root entries) = .ok (.valid s) := h
      obtain ⟨checked, hfield, hvalid⟩ := exists_of_map_eq_ok h
      rw [ofRoot_eq_valid hvalid, rootField] at hfield
      cases hlookup : Datum.lookup "root" entries with
      | none =>
          rw [hlookup] at hfield
          cases hfield
      | some given =>
          rw [hlookup] at hfield
          obtain ⟨checked, hrule, hunder⟩ := exists_of_map_eq_ok hfield
          rw [Validated.under_eq_valid hunder] at hrule
          obtain ⟨typed, root, htext, hchosen, hroot⟩ := exists_typed_of_rootRule hrule
          exact ⟨typed, root, ⟨entries, given, rfl, hlookup, htext, hchosen⟩, hroot⟩
  | _ => cases h

/-- **Written settings are checked like their root**: no other field has any influence, and all of them
come back. -/
theorem check_toDatum (h : check w d = .ok (.valid s)) :
    check w s.toDatum
      = (rootRule w (.text s.root)).map fun again => s.withRoot <$> again.under (.field "root") := by
  cases d with
  | map entries =>
      have h : (rootField w entries).map (fun root => ofRoot root entries) = .ok (.valid s) := h
      obtain ⟨checked, -, hvalid⟩ := exists_of_map_eq_ok h
      have hfield : rootField w s.written
          = (rootRule w (.text s.root)).map (·.under (.field "root")) := rfl
      rw [toDatum_eq_map, check, hfield]
      cases rootRule w (.text s.root) with
      | error e => rfl
      | ok again => exact congrArg Except.ok (ofRoot_written hvalid _)
  | _ => cases h

/-- What the check of a root makes of an absolute path. -/
theorem rootRule_of_isChecked {again : Route} (hanchored : root.isAnchored = true)
    (h : IsChecked w root again) : rootRule w (.text root.text) = .ok (.valid again.text) := by
  rw [rootRule_of_isAnchored hanchored, (canonicalRoot_strip_iff hanchored).mpr h]

/-- The check gives an absolute path back exactly if it keeps it. -/
theorem rootRule_eq_self_iff (hw : w.IsSound) (hanchored : root.isAnchored = true)
    (hproper : root.IsProper) :
    rootRule w (.text root.text) = .ok (.valid root.text) ↔ IsKept w root := by
  constructor
  · intro h
    obtain ⟨again, hagain, htext⟩ := exists_again_of_rootRule hanchored h
    have hagainProper : again.IsProper := World.isProper_resolve hw (Path.ofString_isProper _) hagain
    have heq : again = root := by
      rw [← Path.ofString_text again hagainProper, ← htext, Path.ofString_text root hproper]
    rw [heq] at hagain
    exact hagain
  · exact rootRule_of_isChecked hanchored

/-- **When settings come back.** Settings that were checked, written as data and checked again are the
same exactly if trimming their root and resolving it once more gives it back. This is so whenever the
root was resolved without a loop and without overlooking a link, and no blank stands at its end. In any
case no other field is changed, and none is refused. -/
theorem check_again_iff (hw : w.IsSound) (h : check w d = .ok (.valid s)) :
    ∃ typed root, IsTyped w d typed root ∧ s.root = root.text ∧
      ((∃ s', check w s.toDatum = .ok (.valid s') ∧ s'.toDatum = s.toDatum) ↔ IsKept w root) ∧
      (IsTraceable w (some (.text (Text.strip typed))) → Text.strip root.text = root.text →
        IsKept w root) ∧
      check w s.toDatum = (rootRule w (.text s.root)).map fun again =>
        s.withRoot <$> again.under (.field "root") := by
  obtain ⟨typed, root, htyped, hroot⟩ := exists_typed_of_check h
  have hchosen : IsChosenRoot w (some (.text (Text.strip typed))) root := by
    obtain ⟨_, _, _, _, _, hchosen⟩ := htyped
    exact hchosen
  have hproper : root.IsProper := hchosen.isProper hw fun ps hps => (by cases hps)
  have hcheck := check_toDatum h
  refine ⟨typed, root, htyped, hroot, ?_,
    fun htraceable => isKept_of_isTraceable hw htraceable hchosen hproper, hcheck⟩
  rw [← rootRule_eq_self_iff hw hchosen.isAnchored hproper, ← hroot]
  constructor
  · rintro ⟨s', hs', hsame⟩
    rw [hs'] at hcheck
    obtain ⟨again, hrule, hvalid⟩ := exists_of_map_eq_ok hcheck.symm
    obtain ⟨text, htext, rfl⟩ := Validated.map_eq_valid hvalid
    rw [Validated.under_eq_valid htext] at hrule
    -- the root stands first in what settings are written as
    have hfirst : Datum.text text = .text s.root :=
      congrArg Prod.snd (List.cons.inj (Datum.map.inj hsame)).1
    rw [hrule, Datum.text.inj hfirst]
  · intro hrule
    refine ⟨s, ?_, rfl⟩
    rw [hcheck, hrule]
    rfl

end Again

/-! Settings with a root that is given as a link. -/

/-- Settings that are not in their normal form. -/
def looseSettings : Datum :=
  .map [(.text "root", .text " /l "), (.text "engine", .map [(.text "binary", .text " rg ")]),
    (.text "source_extension", .text " PHP"), (.text "usage_directories", .list [.text " ", .text "lib "]),
    (.text "log_level", .text "debug")]

/-- What they are made into. -/
def normalSettings : Settings :=
  ⟨"/moodle", ⟨"rg", "php", ["vendor", "node_modules", ".git"]⟩, Limits.default, ".php", ["lib"], .debug⟩

theorem check_again_linked :
    linkedWorld.IsSound ∧ check linkedWorld looseSettings = .ok (.valid normalSettings) ∧
      ∃ s', check linkedWorld normalSettings.toDatum = .ok (.valid s') ∧
        s'.toDatum = normalSettings.toDatum := by
  have hcheck : check linkedWorld looseSettings = .ok (.valid normalSettings) := rfl
  obtain ⟨typed, root, ⟨entries, given, hentries, hlookup, htext, hchosen⟩, -, hagain, hkept, -⟩ :=
    check_again_iff linkedWorld_isSound hcheck
  cases hentries
  cases hlookup
  cases htext
  obtain ⟨rfl, htraceable⟩ := eq_of_isChosenRoot_link hchosen
  exact ⟨linkedWorld_isSound, hcheck, hagain.mpr (hkept htraceable rfl)⟩

/-- A world with a directory whose name ends with a blank, and a link to it. -/
def paddedLinkWorld : World := ⟨.dir [("x ", .dir []), ("l", .link "x ")], [], "/", [], []⟩

/-- **A root with a blank at its end does not come back.** Another root takes its place, which need not
be there. -/
theorem linked_root_is_not_kept :
    paddedLinkWorld.IsSound ∧
      ∃ s s', check paddedLinkWorld (.map [(.text "root", .text "/l")]) = .ok (.valid s) ∧
        s.root = "/x " ∧ check paddedLinkWorld s.toDatum = .ok (.valid s') ∧ s'.root = "/x" ∧
        s'.toDatum ≠ s.toDatum := by
  refine ⟨⟨by decide, _, rfl⟩,
    ⟨"/x ", Engine.default, Limits.default, ".php", ["lib", "course"], .info⟩,
    ⟨"/x", Engine.default, Limits.default, ".php", ["lib", "course"], .info⟩, rfl, rfl, rfl, rfl, ?_⟩
  intro hsame
  have hroot : Datum.text "/x" = .text "/x " :=
    congrArg Prod.snd (List.cons.inj (Datum.map.inj hsame)).1
  exact absurd (Datum.text.inj hroot) (by decide)

end SourceNavigator.Settings
