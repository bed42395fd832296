import SourceNavigator.Proofs.Markup.Keys
import SourceNavigator.Proofs.Settings.Fields
import SourceNavigator.Proofs.Settings.Loading

set_option autoImplicit false

/-! # Settings of a file, laid over the built-in ones

The settings of a file are laid over the built-in ones as a whole: a section of the file takes the place of
the built-in section, whatever it holds. Nothing is lost by that, because what is not there has the value
of the built-in settings in any case. So the check comes to the same as that of the file alone
(`check_layered_eq`), and it comes to what the entries that are there say (`IsFilledFrom`).
-/

namespace SourceNavigator.Settings

open Data (Datum KeysDiffer Rule Validated)
open SourceNavigator.Path (Route)

/-! ## What entries say -/

/-- The value of an entry by its rule, or the default value if there is no such entry. -/
def Takes {α : Type} (name : String) (r : Rule α) (default : α) (entries : List (Datum × Datum))
    (a : α) : Prop :=
  match Datum.lookup name entries with
  | some d => r d = .valid a
  | none => a = default

/-- The engine that a section says. -/
structure IsEngineFrom (entries : List (Datum × Datum)) (e : Engine) : Prop where
  binary : Takes "binary" Engine.binaryRule "rg" entries e.binary
  fileType : Takes "file_type" Rule.someText "php" entries e.fileType
  excludes : Takes "exclude_patterns" (Rule.list Rule.text) ["vendor", "node_modules", ".git"] entries
    e.excludes

/-- The limits that a section says. -/
structure IsLimitsFrom (entries : List (Datum × Datum)) (l : Limits) : Prop where
  symbolResults : Takes "symbol_max_results" (Rule.integerAbove 0) 10 entries l.symbolResults
  usageResults : Takes "usage_max_results" (Rule.integerAbove 0) 5 entries l.usageResults
  usageFactor : Takes "usage_fetch_multiplier" (Rule.integerAbove 0) 3 entries l.usageFactor
  usageBefore : Takes "usage_context_before" (Rule.integerFrom 0) 5 entries l.usageBefore
  usageAfter : Takes "usage_context_after" (Rule.integerFrom 0) 10 entries l.usageAfter
  readLines : Takes "read_max_lines" (Rule.integerAbove 0) 500 entries l.readLines
  treeDepth : Takes "tree_default_depth" (Rule.integerAbove 0) 2 entries l.treeDepth
  treeMaxDepth : Takes "tree_max_depth" (Rule.integerAbove 0) 4 entries l.treeMaxDepth
  depth_le : l.treeDepth ≤ l.treeMaxDepth

/-- A section of the entries. One that is not there has no entries itself. -/
def IsSectionOf (name : String) (entries inner : List (Datum × Datum)) : Prop :=
  match Datum.lookup name entries with
  | some d => d = .map inner
  | none => inner = []

/-- The settings besides the root that the entries of a file say. -/
structure IsFilledFrom (entries : List (Datum × Datum)) (s : Settings) : Prop where
  engine : ∃ inner, IsSectionOf "engine" entries inner ∧ IsEngineFrom inner s.engine
  limits : ∃ inner, IsSectionOf "limits" entries inner ∧ IsLimitsFrom inner s.limits
  ending : Takes "source_extension" endingRule ".php" entries s.sourceEnding
  directories : ∃ given, Takes "usage_directories" (Rule.list Rule.text) ["lib", "course"] entries given ∧
    s.usageDirectories = Search.cleanDirectories given
  level : Takes "log_level" Level.check .info entries s.level

section Fields

variable {α : Type} {name : String} {r : Rule α} {default a : α} {entries : List (Datum × Datum)}

theorem field_eq_valid_iff_takes :
    Rule.field name (some default) r entries = .valid a ↔ Takes name r default entries a := by
  rw [Rule.field_eq_valid_iff, Takes]
  cases Datum.lookup name entries with
  | some d => exact Iff.rfl
  | none => exact Option.some_inj.trans eq_comm

/-- A field that holds a section has the value that the entries of the section say. -/
theorem field_eq_valid_iff_section {P : List (Datum × Datum) → α → Prop}
    (hmap : ∀ inner a, r (.map inner) = .valid a ↔ P inner a)
    (hother : ∀ d a, r d = .valid a → ∃ inner, d = .map inner) (hnone : ∀ a, P [] a ↔ a = default) :
    Rule.field name (some default) r entries = .valid a ↔
      ∃ inner, IsSectionOf name entries inner ∧ P inner a := by
  rw [Rule.field_eq_valid_iff]
  unfold IsSectionOf
  cases Datum.lookup name entries with
  | some d =>
      constructor
      · intro (h : r d = .valid a)
        obtain ⟨inner, rfl⟩ := hother d a h
        exact ⟨inner, rfl, (hmap inner a).mp h⟩
      · rintro ⟨inner, rfl, h⟩
        exact (hmap inner a).mpr h
  | none =>
      constructor
      · intro h
        exact ⟨[], rfl, (hnone a).mpr (Option.some.inj h).symm⟩
      · rintro ⟨inner, rfl, h⟩
        exact congrArg some ((hnone a).mp h).symm

end Fields

theorem engineCheck_eq_valid_iff {inner : List (Datum × Datum)} {e : Engine} :
    Engine.check (.map inner) = .valid e ↔ IsEngineFrom inner e := by
  refine Engine.fields_eq_valid_iff.trans ?_
  simp only [field_eq_valid_iff_takes]
  exact ⟨fun ⟨h₁, h₂, h₃⟩ => ⟨h₁, h₂, h₃⟩, fun ⟨h₁, h₂, h₃⟩ => ⟨h₁, h₂, h₃⟩⟩

theorem isEngineFrom_nil_iff {e : Engine} : IsEngineFrom [] e ↔ e = Engine.default := by
  constructor
  · obtain ⟨binary, fileType, excludes⟩ := e
    rintro ⟨rfl, rfl, rfl⟩
    rfl
  · rintro rfl
    exact ⟨rfl, rfl, rfl⟩

theorem limitsCheck_eq_valid_iff {inner : List (Datum × Datum)} {l : Limits} :
    Limits.check (.map inner) = .valid l ↔ IsLimitsFrom inner l := by
  have hdepth {l' : Limits} : l'.withinDepth = .valid l ↔ l' = l ∧ l.treeDepth ≤ l.treeMaxDepth := by
    unfold Limits.withinDepth
    split
    · rename_i hlt
      refine iff_of_false (fun h => by cases h) ?_
      rintro ⟨rfl, hle⟩
      omega
    · rename_i hle
      constructor
      · intro h
        cases h
        exact ⟨rfl, by omega⟩
      · rintro ⟨rfl, -⟩
        rfl
  have hcheck : Limits.check (.map inner) = .valid l ↔
      Limits.fields inner = .valid l ∧ l.treeDepth ≤ l.treeMaxDepth := by
    show (Limits.fields inner).andThen Limits.withinDepth = .valid l ↔ _
    cases Limits.fields inner with
    | valid l' => simp [Validated.andThen, hdepth]
    | invalid _ => simp [Validated.andThen]
  rw [hcheck, Limits.fields_eq_valid_iff]
  simp only [field_eq_valid_iff_takes]
  constructor
  · rintro ⟨⟨h₁, h₂, h₃, h₄, h₅, h₆, h₇, h₈⟩, hle⟩
    exact ⟨h₁, h₂, h₃, h₄, h₅, h₆, h₇, h₈, hle⟩
  · rintro ⟨h₁, h₂, h₃, h₄, h₅, h₆, h₇, h₈, hle⟩
    exact ⟨⟨h₁, h₂, h₃, h₄, h₅, h₆, h₇, h₈⟩, hle⟩

theorem isLimitsFrom_nil_iff {l : Limits} : IsLimitsFrom [] l ↔ l = Limits.default := by
  constructor
  · obtain ⟨m₁, m₂, m₃, m₄, m₅, m₆, m₇, m₈⟩ := l
    rintro ⟨rfl, rfl, rfl, rfl, rfl, rfl, rfl, rfl, -⟩
    rfl
  · rintro rfl
    exact ⟨rfl, rfl, rfl, rfl, rfl, rfl, rfl, rfl, by decide⟩

/-- **What the fields of settings come to**, in terms of the entries that are there. -/
theorem ofRoot_eq_valid_iff_isFilledFrom {root : Validated String} {entries : List (Datum × Datum)}
    {s : Settings} :
    ofRoot root entries = .valid s ↔ root = .valid s.root ∧ IsFilledFrom entries s := by
  have hengine : Rule.field "engine" (some Engine.default) Engine.check entries = .valid s.engine ↔
      ∃ inner, IsSectionOf "engine" entries inner ∧ IsEngineFrom inner s.engine := by
    refine field_eq_valid_iff_section (fun _ _ => engineCheck_eq_valid_iff) (fun d e h => ?_)
      (fun _ => isEngineFrom_nil_iff)
    cases d with
    | map inner => exact ⟨inner, rfl⟩
    | _ => cases h
  have hlimits : Rule.field "limits" (some Limits.default) Limits.check entries = .valid s.limits ↔
      ∃ inner, IsSectionOf "limits" entries inner ∧ IsLimitsFrom inner s.limits := by
    refine field_eq_valid_iff_section (fun _ _ => limitsCheck_eq_valid_iff) (fun d e h => ?_)
      (fun _ => isLimitsFrom_nil_iff)
    cases d with
    | map inner => exact ⟨inner, rfl⟩
    | _ => cases h
  rw [ofRoot_eq_valid_iff, hengine, hlimits]
  simp only [field_eq_valid_iff_takes]
  constructor
  · rintro ⟨hroot, h₁, h₂, h₃, h₄, h₅⟩
    exact ⟨hroot, h₁, h₂, h₃, h₄, h₅⟩
  · rintro ⟨hroot, h₁, h₂, h₃, h₄, h₅⟩
    exact ⟨hroot, h₁, h₂, h₃, h₄, h₅⟩

/-! ## Laying over -/

section Laying

variable {w : World} {entries : List (Datum × Datum)} {root : Datum}

theorem lookup_putEntry_root {name : String} (hname : name ≠ "root") :
    Datum.lookup name (Datum.putEntry (.text "root") root entries) = Datum.lookup name entries := by
  rw [Data.lookup_putEntry, if_neg]
  intro hnamed
  exact hname (Datum.text.inj (Data.isNamed_iff.mp hnamed)).symm

theorem lookup_layered (h : KeysDiffer entries) {name : String} (hname : name ≠ "root") :
    Datum.lookup name (layered root entries)
      = (Datum.lookup name entries).or (Datum.lookup name builtIn) := by
  rw [layered, lookup_putEntry_root hname, overlay, Data.lookup_foldl_putEntry name h]

/-- A field whose built-in value is its default has the same value without the built-in settings. -/
theorem field_layered {α : Type} {name : String} {r : Rule α} {default : α} {d : Datum}
    (h : KeysDiffer entries) (hname : name ≠ "root") (hbuiltIn : Datum.lookup name builtIn = some d)
    (hdefault : r d = .valid default) :
    Rule.field name (some default) r (layered root entries)
      = Rule.field name (some default) r entries := by
  unfold Rule.field
  rw [lookup_layered h hname, hbuiltIn]
  cases Datum.lookup name entries with
  | some _ => rfl
  | none =>
      show (r d).under (.field name) = .valid default
      rw [hdefault]
      rfl

theorem ofRoot_layered (h : KeysDiffer entries) (checked : Validated String) :
    ofRoot checked (layered root entries) = ofRoot checked entries := by
  have hengine : Rule.field "engine" (some Engine.default) Engine.check (layered root entries)
      = Rule.field "engine" (some Engine.default) Engine.check entries :=
    field_layered h (by decide) rfl rfl
  have hlimits : Rule.field "limits" (some Limits.default) Limits.check (layered root entries)
      = Rule.field "limits" (some Limits.default) Limits.check entries :=
    field_layered h (by decide) rfl rfl
  have hending : Rule.field "source_extension" (some ".php") endingRule (layered root entries)
      = Rule.field "source_extension" (some ".php") endingRule entries :=
    field_layered h (by decide) rfl rfl
  have hdirectories : Rule.field "usage_directories" (some ["lib", "course"]) (Rule.list Rule.text)
        (layered root entries)
      = Rule.field "usage_directories" (some ["lib", "course"]) (Rule.list Rule.text) entries :=
    field_layered h (by decide) rfl rfl
  have hlevel : Rule.field "log_level" (some Level.info) Level.check (layered root entries)
      = Rule.field "log_level" (some Level.info) Level.check entries :=
    field_layered h (by decide) rfl rfl
  rw [ofRoot, ofRoot, hengine, hlimits, hending, hdirectories, hlevel]

/-- The fields besides the root do not look at it. -/
theorem ofRoot_putEntry_root (checked : Validated String) :
    ofRoot checked (Datum.putEntry (.text "root") root entries) = ofRoot checked entries := by
  have hfield {α : Type} {name : String} (r : Rule α) (default : α) (hname : name ≠ "root") :
      Rule.field name (some default) r (Datum.putEntry (.text "root") root entries)
        = Rule.field name (some default) r entries := by
    unfold Rule.field
    rw [lookup_putEntry_root hname]
  unfold ofRoot
  rw [hfield Engine.check _ (by decide), hfield Limits.check _ (by decide),
    hfield endingRule _ (by decide), hfield (Rule.list Rule.text) _ (by decide),
    hfield Level.check _ (by decide)]

/-- Settings with a root are checked by their root and the fields around it. -/
theorem check_putEntry_root :
    check w (.map (Datum.putEntry (.text "root") root entries))
      = (rootRule w root).map fun checked => ofRoot (checked.under (.field "root")) entries := by
  rw [check, rootField, Data.lookup_putEntry_self]
  simp only [ofRoot_putEntry_root]
  cases rootRule w root with
  | ok checked => rfl
  | error e => rfl

theorem keysDiffer_of_readEntries {file : Route} (h : readEntries w file = .ok (some entries)) :
    KeysDiffer entries := by
  unfold readEntries at h
  split at h
  · cases h
  · rename_i text htext
    split at h
    · cases h
    · cases h
    · cases h
    · rename_i found hread
      cases h
      exact Markup.keysDiffer_of_read hread
    · cases h

/-- **Laying a file over the built-in settings loses nothing.** The check comes to the same, settings or
problems, as that of what the file holds alone, with the root in it. It gives settings exactly if the root
is valid and every entry that is there has the value of the setting; where there is none, in a section or
outside, the setting has its default. -/
theorem check_layered_eq {file : Route} (h : readEntries w file = .ok (some entries)) (root : Datum) :
    check w (.map (layered root entries))
        = check w (.map (Datum.putEntry (.text "root") root entries)) ∧
      ∀ s, check w (.map (layered root entries)) = .ok (.valid s) ↔
        rootRule w root = .ok (.valid s.root) ∧ IsFilledFrom entries s := by
  have hdiffer := keysDiffer_of_readEntries h
  have hsame : check w (.map (layered root entries))
      = (rootRule w root).map fun checked => ofRoot (checked.under (.field "root")) entries := by
    rw [check_layered]
    simp only [ofRoot_layered hdiffer]
  refine ⟨hsame.trans check_putEntry_root.symm, fun s => ?_⟩
  rw [hsame]
  constructor
  · intro hvalid
    obtain ⟨checked, hrule, hs⟩ := exists_of_map_eq_ok hvalid
    obtain ⟨hroot, hfilled⟩ := ofRoot_eq_valid_iff_isFilledFrom.mp hs
    rw [Validated.under_eq_valid hroot] at hrule
    exact ⟨hrule, hfilled⟩
  · rintro ⟨hrule, hfilled⟩
    rw [hrule]
    exact congrArg Except.ok (ofRoot_eq_valid_iff_isFilledFrom.mpr ⟨rfl, hfilled⟩)

end Laying

/-! A file that says a part of a section. -/

/-- A world with a file of settings that says one of the limits. -/
def partialWorld : World :=
  ⟨.dir [("s.yaml", .file (Text.Utf8.encode "limits:\n  usage_max_results: 7\n".toList))], [], "/", [], []⟩

/-- The route of the file. -/
def partialFile : Route := ⟨.root, ["s.yaml"]⟩

/-- The settings that the file says. -/
def partialSettings : Settings :=
  ⟨"/", Engine.default, { Limits.default with usageResults := 7 }, ".php", ["lib", "course"], .info⟩

theorem check_layered_partial :
    ∃ entries, readEntries partialWorld partialFile = .ok (some entries) ∧
      check partialWorld (.map (Datum.putEntry (.text "root") (.text "/") entries))
        = .ok (.valid partialSettings) ∧
      IsFilledFrom entries partialSettings := by
  have hevaluated : (readEntries partialWorld partialFile).toOption.join.map (fun entries =>
      (check partialWorld (.map (layered (.text "/") entries)) >>= validSettings).toOption)
        = some (some partialSettings) := by decide +kernel
  obtain ⟨entries, hentries, hchecked⟩ := Option.map_eq_some_iff.mp hevaluated
  have hread := eq_ok_of_toOption (Option.join_eq_some_iff.mp hentries)
  obtain ⟨checked, hcheck, hvalid⟩ := exists_of_bind_eq_ok (eq_ok_of_toOption hchecked)
  rw [validSettings_eq_ok hvalid] at hcheck
  obtain ⟨hsame, hfilled⟩ := check_layered_eq hread (.text "/")
  exact ⟨entries, hread, hsame ▸ hcheck, ((hfilled partialSettings).mp hcheck).2⟩

end SourceNavigator.Settings
