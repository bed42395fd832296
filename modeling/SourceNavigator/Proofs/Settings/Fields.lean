import SourceNavigator.Proofs.Search.Cleaned
import SourceNavigator.Proofs.Text.Casing
import SourceNavigator.Settings.Model

set_option autoImplicit false

/-! # The fields of settings

Settings, and the engine and the limits in them, are valid exactly if each of their fields is
(`ofRoot_eq_valid_iff`, `Engine.fields_eq_valid_iff`, `Limits.fields_eq_valid_iff`). What the rule of a
field has made it makes again of the same value: `isStable_binaryRule`, `isStable_endingRule`,
`isStable_level`, `isStable_engine`, `isStable_limits`, `cleanDirectories_cleanDirectories`.
-/

namespace SourceNavigator.Settings

open Data (Datum Rule Validated)
open Text (IsLower IsTrimmed)

/-! ## Records -/

theorem Engine.fields_eq_valid_iff {entries : List (Datum × Datum)} {e : Engine} :
    Engine.fields entries = .valid e ↔
      Rule.field "binary" (some default.binary) binaryRule entries = .valid e.binary ∧
      Rule.field "file_type" (some default.fileType) Rule.someText entries = .valid e.fileType ∧
      Rule.field "exclude_patterns" (some default.excludes) (Rule.list Rule.text) entries
        = .valid e.excludes := by
  simp only [Engine.fields, Validated.seq_eq_valid_iff, Validated.map_eq_valid_iff]
  constructor
  · rintro ⟨_, _, ⟨_, _, ⟨_, h₁, rfl⟩, h₂, rfl⟩, h₃, rfl⟩
    exact ⟨h₁, h₂, h₃⟩
  · rintro ⟨h₁, h₂, h₃⟩
    exact ⟨_, _, ⟨_, _, ⟨_, h₁, rfl⟩, h₂, rfl⟩, h₃, rfl⟩

theorem Limits.fields_eq_valid_iff {entries : List (Datum × Datum)} {l : Limits} :
    Limits.fields entries = .valid l ↔
      Rule.field "symbol_max_results" (some default.symbolResults) (Rule.integerAbove 0) entries
        = .valid l.symbolResults ∧
      Rule.field "usage_max_results" (some default.usageResults) (Rule.integerAbove 0) entries
        = .valid l.usageResults ∧
      Rule.field "usage_fetch_multiplier" (some default.usageFactor) (Rule.integerAbove 0) entries
        = .valid l.usageFactor ∧
      Rule.field "usage_context_before" (some default.usageBefore) (Rule.integerFrom 0) entries
        = .valid l.usageBefore ∧
      Rule.field "usage_context_after" (some default.usageAfter) (Rule.integerFrom 0) entries
        = .valid l.usageAfter ∧
      Rule.field "read_max_lines" (some default.readLines) (Rule.integerAbove 0) entries
        = .valid l.readLines ∧
      Rule.field "tree_default_depth" (some default.treeDepth) (Rule.integerAbove 0) entries
        = .valid l.treeDepth ∧
      Rule.field "tree_max_depth" (some default.treeMaxDepth) (Rule.integerAbove 0) entries
        = .valid l.treeMaxDepth := by
  simp only [Limits.fields, Validated.seq_eq_valid_iff, Validated.map_eq_valid_iff]
  constructor
  · rintro ⟨_, _, ⟨_, _, ⟨_, _, ⟨_, _, ⟨_, _, ⟨_, _, ⟨_, _, ⟨_, h₁, rfl⟩, h₂, rfl⟩, h₃, rfl⟩, h₄,
      rfl⟩, h₅, rfl⟩, h₆, rfl⟩, h₇, rfl⟩, h₈, rfl⟩
    exact ⟨h₁, h₂, h₃, h₄, h₅, h₆, h₇, h₈⟩
  · rintro ⟨h₁, h₂, h₃, h₄, h₅, h₆, h₇, h₈⟩
    exact ⟨_, _, ⟨_, _, ⟨_, _, ⟨_, _, ⟨_, _, ⟨_, _, ⟨_, _, ⟨_, h₁, rfl⟩, h₂, rfl⟩, h₃, rfl⟩, h₄,
      rfl⟩, h₅, rfl⟩, h₆, rfl⟩, h₇, rfl⟩, h₈, rfl⟩

theorem ofRoot_eq_valid_iff {root : Validated String} {entries : List (Datum × Datum)}
    {s : Settings} :
    ofRoot root entries = .valid s ↔
      root = .valid s.root ∧
      Rule.field "engine" (some Engine.default) Engine.check entries = .valid s.engine ∧
      Rule.field "limits" (some Limits.default) Limits.check entries = .valid s.limits ∧
      Rule.field "source_extension" (some ".php") endingRule entries = .valid s.sourceEnding ∧
      (∃ directories, Rule.field "usage_directories" (some ["lib", "course"]) (Rule.list Rule.text)
        entries = .valid directories ∧ s.usageDirectories = Search.cleanDirectories directories) ∧
      Rule.field "log_level" (some Level.info) Level.check entries = .valid s.level := by
  simp only [ofRoot, Validated.seq_eq_valid_iff, Validated.map_eq_valid_iff]
  constructor
  · rintro ⟨_, _, ⟨_, _, ⟨_, _, ⟨_, _, ⟨_, _, ⟨_, h₁, rfl⟩, h₂, rfl⟩, h₃, rfl⟩, h₄, rfl⟩, h₅, rfl⟩,
      h₆, rfl⟩
    exact ⟨h₁, h₂, h₃, h₄, ⟨_, h₅, rfl⟩, h₆⟩
  · obtain ⟨text, engine, limits, ending, cleaned, level⟩ := s
    rintro ⟨h₁, h₂, h₃, h₄, ⟨directories, h₅, rfl⟩, h₆⟩
    exact ⟨_, _, ⟨_, _, ⟨_, _, ⟨_, _, ⟨_, _, ⟨_, h₁, rfl⟩, h₂, rfl⟩, h₃, rfl⟩, h₄, rfl⟩, h₅, rfl⟩,
      h₆, rfl⟩

/-! ## Texts -/

theorem isStable_binaryRule : Rule.IsStable Engine.binaryRule .text := by
  intro d binary h
  obtain ⟨s, -, hs⟩ := Rule.thenCheck_eq_valid h
  by_cases hempty : Text.strip s = ""
  · rw [if_pos (by simpa using hempty)] at hs
    cases hs
  · rw [if_neg (by simpa using hempty)] at hs
    cases hs
    have htext := Rule.someText_of_ne_empty hempty
    simp only [Engine.binaryRule, Rule.thenCheck, htext, Validated.andThen, Text.strip_strip]
    rw [if_neg (by simpa using hempty)]

/-- An ending in its normal form stays as it is. -/
theorem endingRule_of_normal {cs : List Char} (htrimmed : IsTrimmed ('.' :: cs))
    (hlower : ∀ c ∈ cs, IsLower c) :
    endingRule (.text (String.ofList ('.' :: cs))) = .valid (String.ofList ('.' :: cs)) := by
  have hdot : IsLower '.' := by decide
  have hnormal : Text.lower (Text.trim (String.ofList ('.' :: cs)).toList) = '.' :: cs := by
    rw [String.toList_ofList, Text.trim_eq_self htrimmed]
    exact Text.lowerAfter_eq_self (List.forall_mem_cons.mpr ⟨hdot, hlower⟩)
  simp only [endingRule, Rule.thenCheck, Rule.text, Validated.andThen, hnormal]

theorem isStable_endingRule : Rule.IsStable endingRule .text := by
  intro d ending h
  obtain ⟨s, -, hs⟩ := Rule.thenCheck_eq_valid h
  have htrimmed := Text.isTrimmed_lower (Text.isTrimmed_trim s.toList)
  have hlower : ∀ c ∈ Text.lower (Text.trim s.toList), IsLower c :=
    fun _ => Text.isLower_of_mem_lowerAfter
  simp only at hs
  generalize Text.lower (Text.trim s.toList) = cs at hs htrimmed hlower
  split at hs
  · cases hs
  · cases hs
    exact endingRule_of_normal htrimmed (List.forall_mem_cons.mp hlower).2
  · rename_i hne hnodot
    cases hs
    -- a dot is put in front, and neither end is a blank
    refine endingRule_of_normal ⟨fun c hc => ?_, fun c hc => ?_⟩ hlower
    · obtain rfl : '.' = c := Option.some.inj hc
      decide
    · obtain ⟨first, rest, rfl⟩ := List.exists_cons_of_ne_nil hne
      rw [List.getLast?_cons_cons] at hc
      exact htrimmed.last c hc

theorem isStable_level : Rule.IsStable Level.check fun level => .text level.name := by
  intro d level _
  cases level with
  | debug => rfl
  | info => rfl
  | warning => rfl
  | error => rfl

theorem cleanDirectories_cleanDirectories (ds : List String) :
    Search.cleanDirectories (Search.cleanDirectories ds) = Search.cleanDirectories ds :=
  Search.cleanDirectories_eq_self (Search.cleanDirectories_ne_nil ds) fun _ =>
    Search.isNeat_of_mem_cleanDirectories

/-! ## The engine and the limits -/

theorem isStable_engine : Rule.IsStable Engine.check Engine.toDatum := by
  intro d e h
  cases d with
  | map entries =>
      obtain ⟨hbinary, htype, hexcludes⟩ := Engine.fields_eq_valid_iff.mp h
      refine Engine.fields_eq_valid_iff.mpr ⟨?_, ?_, ?_⟩
      · exact isStable_binaryRule.field rfl hbinary rfl
      · exact Rule.isStable_someText.field rfl htype rfl
      · exact (Rule.isStable_list Rule.isStable_text).field rfl hexcludes rfl
  | _ => cases h

theorem isStable_limits : Rule.IsStable Limits.check Limits.toDatum := by
  intro d l h
  obtain ⟨l', hrecord, hdepth⟩ := Rule.thenCheck_eq_valid h
  -- comparing the depths changes none of the limits
  obtain rfl : l' = l := by
    unfold Limits.withinDepth at hdepth
    split at hdepth
    · cases hdepth
    · cases hdepth
      rfl
  cases d with
  | map entries =>
      obtain ⟨h₁, h₂, h₃, h₄, h₅, h₆, h₇, h₈⟩ := Limits.fields_eq_valid_iff.mp hrecord
      have hagain : Rule.record Limits.modelName Limits.fields l'.toDatum = .valid l' := by
        have habove := Rule.isStable_integerAbove 0
        have hfrom := Rule.isStable_integerFrom 0
        exact Limits.fields_eq_valid_iff.mpr ⟨habove.field rfl h₁ rfl, habove.field rfl h₂ rfl,
          habove.field rfl h₃ rfl, hfrom.field rfl h₄ rfl, hfrom.field rfl h₅ rfl,
          habove.field rfl h₆ rfl, habove.field rfl h₇ rfl, habove.field rfl h₈ rfl⟩
      rw [Limits.check, Rule.thenCheck, hagain]
      exact hdepth
  | _ => cases hrecord

end SourceNavigator.Settings
