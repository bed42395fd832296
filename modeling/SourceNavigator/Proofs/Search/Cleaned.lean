import SourceNavigator.Proofs.Data.Validation
import SourceNavigator.Proofs.Text.Blank
import SourceNavigator.Search.Options

set_option autoImplicit false

/-! # Options are cleaned once

Checking options cleans them. Directories, patterns and the file type lose the blanks around them, patterns
lose the slashes at their end as well, and what is empty then is left out. A directory is neat
afterwards (`IsNeat`), and so is the file type: written as data and checked again, they come back. A
pattern is only cut (`IsCut`). Its blanks are dropped before its slashes, so a blank that stood before
the slashes has come to its end, and is dropped when the options are checked again. The options come
back, and all of their texts are in normal form, exactly if no pattern is left with a blank at its end
(`isSettled_iff`).
-/

namespace SourceNavigator.Search

open Data (Datum Rule Validated)
open Text (IsTrimmed dropEndWhile isBlank)

/-! ## Texts -/

/-- A text that is not empty and has no blank at either end. -/
structure IsNeat (s : String) : Prop where
  ne_empty : s ≠ ""
  trimmed : IsTrimmed s.toList

/-- What is left of a pattern: it is not empty, and starts with no blank and ends with no slash. -/
structure IsCut (s : String) : Prop where
  ne_empty : s ≠ ""
  head : ∀ c, s.toList.head? = some c → isBlank c = false
  last : s.toList.getLast? ≠ some '/'

/-- The blank that was before the slashes is still there. -/
def EndsWithBlank (s : String) : Prop := s.toList.getLast?.any isBlank = true

instance (s : String) : Decidable (EndsWithBlank s) :=
  inferInstanceAs (Decidable (s.toList.getLast?.any isBlank = true))

theorem endsWithBlank_iff {s : String} :
    EndsWithBlank s ↔ ∃ c, s.toList.getLast? = some c ∧ isBlank c = true :=
  Option.any_eq_true isBlank _

/-- A pattern as it is cleaned. -/
def cleanPattern (s : String) : String := dropSlashes (Text.strip s)

theorem cleanExcludes_eq (ps : List String) :
    cleanExcludes ps = (ps.map cleanPattern).filter (!·.isEmpty) := rfl

theorem strip_eq_self {s : String} (h : IsTrimmed s.toList) : Text.strip s = s := by
  rw [Text.strip, Text.trim_eq_self h, String.ofList_toList]

theorem isTrimmed_strip (s : String) : IsTrimmed (Text.strip s).toList := by
  rw [Text.strip, String.toList_ofList]
  exact Text.isTrimmed_trim s.toList

theorem toList_cleanPattern (s : String) :
    (cleanPattern s).toList = dropEndWhile (· == '/') (Text.trim s.toList) := by
  rw [cleanPattern, dropSlashes, Text.strip, String.toList_ofList, String.toList_ofList]

theorem isCut_cleanPattern {s : String} (h : cleanPattern s ≠ "") : IsCut (cleanPattern s) := by
  refine ⟨h, ?_, ?_⟩
  · intro c hc
    rw [toList_cleanPattern] at hc
    exact (Text.isTrimmed_trim s.toList).head c (Text.head?_of_dropEndWhile hc)
  · intro hslash
    rw [toList_cleanPattern] at hslash
    have hstop := Text.getLast?_dropEndWhile hslash
    cases hstop

section Cut

variable {s : String} (h : IsCut s)
include h

/-- The start of a cut pattern is trimmed already. -/
theorem isTrimmed_iff_of_isCut : IsTrimmed s.toList ↔ ¬ EndsWithBlank s := by
  rw [endsWithBlank_iff]
  constructor
  · rintro htrimmed ⟨c, hc, hblank⟩
    rw [htrimmed.last c hc] at hblank
    cases hblank
  · intro hblank
    refine ⟨h.head, fun c hc => ?_⟩
    rw [← Bool.not_eq_true]
    exact fun hc' => hblank ⟨c, hc, hc'⟩

theorem isNeat_iff_of_isCut : IsNeat s ↔ ¬ EndsWithBlank s := by
  rw [← isTrimmed_iff_of_isCut h]
  exact ⟨IsNeat.trimmed, fun htrimmed => ⟨h.ne_empty, htrimmed⟩⟩

/-- Nothing is cleaned off a cut pattern but what follows from a blank at its end. -/
theorem cleanPattern_eq_self_iff : cleanPattern s = s ↔ ¬ EndsWithBlank s := by
  rw [← isTrimmed_iff_of_isCut h]
  constructor
  · intro hself
    -- both steps only shorten a text, so neither of them has changed this one
    have hlonger : List.Sublist s.toList (Text.trim s.toList) := by
      calc s.toList
          = dropEndWhile (· == '/') (Text.trim s.toList) := by rw [← toList_cleanPattern, hself]
        List.Sublist _ (Text.trim s.toList) := Text.dropEndWhile_sublist _ _
    exact Text.trim_eq_self_iff.mp ((Text.trim_sublist s.toList).antisymm hlonger)
  · intro htrimmed
    have hslash : ∀ c, s.toList.getLast? = some c → (c == '/') = false := by
      intro c hc
      rw [beq_eq_false_iff_ne]
      rintro rfl
      exact h.last hc
    rw [← String.toList_inj, toList_cleanPattern, Text.trim_eq_self htrimmed,
      Text.dropEndWhile_eq_self hslash]

end Cut

/-! ## Cleaned again and again

Every time that a pattern is cleaned it loses one layer of blanks and slashes, so there is no number of
times that is enough for all patterns. -/

/-- `a` with a number of blanks and slashes behind it. -/
def layered : Nat → List Char
  | 0 => ['a']
  | n + 1 => layered n ++ [' ', '/']

theorem head?_layered_append (n : Nat) (cs : List Char) : (layered n ++ cs).head? = some 'a' := by
  induction n generalizing cs with
  | zero => rfl
  | succ n ih =>
      rw [layered, List.append_assoc]
      exact ih _

theorem trim_layered (n : Nat) : Text.trim (layered n) = layered n := by
  refine Text.trim_eq_self ⟨fun c hc => ?_, fun c hc => ?_⟩
  · have hfirst := head?_layered_append n []
    rw [List.append_nil, hc] at hfirst
    obtain rfl := Option.some.inj hfirst
    decide
  · cases n with
    | zero =>
        obtain rfl : 'a' = c := Option.some.inj hc
        decide
    | succ n =>
        have hlast : (layered (n + 1)).getLast? = some '/' := by simp [layered]
        obtain rfl : '/' = c := Option.some.inj (hlast.symm.trans hc)
        decide

/-- One layer goes, and its blank is left. -/
theorem cleanPattern_layered (n : Nat) :
    cleanPattern (String.ofList (layered (n + 1) ++ [' '])) = String.ofList (layered n ++ [' ']) := by
  have hsplit : layered (n + 1) = (layered n ++ [' ']) ++ ['/'] := by simp [layered]
  have hslash : dropEndWhile (· == '/') (layered (n + 1)) = layered n ++ [' '] := by
    rw [hsplit, Text.dropEndWhile_eq_rdropWhile, List.rdropWhile_concat_pos _ _ _ (by decide),
      List.rdropWhile_concat_neg _ _ _ (by decide)]
  rw [← String.toList_inj, toList_cleanPattern, String.toList_ofList, String.toList_ofList,
    Text.trim_concat (by decide), trim_layered, hslash]

theorem iterate_cleanPattern_layered (n m : Nat) :
    cleanPattern^[n] (String.ofList (layered (n + m) ++ [' '])) = String.ofList (layered m ++ [' ']) := by
  induction n with
  | zero => rw [Nat.zero_add, Function.iterate_zero_apply]
  | succ n ih =>
      have hmore : n + 1 + m = n + m + 1 := by omega
      -- the first time takes one layer, and the induction hypothesis the others
      rw [Function.iterate_succ_apply, hmore, cleanPattern_layered, ih]

/-- **No number of times is enough.** However often patterns are cleaned, one can be left with a blank at
its end. -/
theorem exists_endsWithBlank_iterate (n : Nat) : ∃ s, EndsWithBlank (cleanPattern^[n + 1] s) := by
  refine ⟨String.ofList (layered (n + 1 + 0) ++ [' ']), ?_⟩
  rw [iterate_cleanPattern_layered]
  decide

/-! ## Lists of texts -/

theorem cleanDirectories_ne_nil (ds : List String) : cleanDirectories ds ≠ [] := by
  unfold cleanDirectories
  dsimp only
  split
  · exact List.cons_ne_nil _ _
  · rename_i h
    intro hnil
    rw [hnil] at h
    exact h rfl

/-- A list of texts, less the empty ones, holds no empty text. -/
theorem ne_empty_of_mem_filter {ss : List String} {s : String}
    (h : s ∈ ss.filter (!·.isEmpty)) : s ∈ ss ∧ s ≠ "" := by
  obtain ⟨hmem, hne⟩ := List.mem_filter.mp h
  refine ⟨hmem, ?_⟩
  rintro rfl
  cases hne

theorem isNeat_of_mem_cleanDirectories {ds : List String} {d : String}
    (h : d ∈ cleanDirectories ds) : IsNeat d := by
  unfold cleanDirectories at h
  dsimp only at h
  split at h
  · obtain rfl := List.mem_singleton.mp h
    refine ⟨by decide, ?_⟩
    exact Text.trim_eq_self_iff.mp (by decide)
  · obtain ⟨hmem, hne⟩ := ne_empty_of_mem_filter h
    obtain ⟨s, -, rfl⟩ := List.mem_map.mp hmem
    exact ⟨hne, isTrimmed_strip s⟩

/-- Neat directories stay as they are. -/
theorem cleanDirectories_eq_self {ds : List String} (hne : ds ≠ []) (h : ∀ d ∈ ds, IsNeat d) :
    cleanDirectories ds = ds := by
  have hstrip : ds.map Text.strip = ds :=
    (List.map_congr_left fun d hd => strip_eq_self (h d hd).trimmed).trans (List.map_id' ds)
  have hkept : (ds.map Text.strip).filter (!·.isEmpty) = ds := by
    rw [hstrip, List.filter_eq_self]
    intro d hd
    simpa using (h d hd).ne_empty
  unfold cleanDirectories
  simp only
  rw [hkept, if_neg (by simpa using hne)]

theorem isCut_of_mem_cleanExcludes {ps : List String} {p : String} (h : p ∈ cleanExcludes ps) :
    IsCut p := by
  rw [cleanExcludes_eq] at h
  obtain ⟨hmem, hne⟩ := ne_empty_of_mem_filter h
  obtain ⟨s, -, rfl⟩ := List.mem_map.mp hmem
  exact isCut_cleanPattern hne

/-- Cut patterns stay as they are exactly if none of them ends with a blank. -/
theorem cleanExcludes_eq_self_iff {ps : List String} (h : ∀ p ∈ ps, IsCut p) :
    cleanExcludes ps = ps ↔ ∀ p ∈ ps, ¬ EndsWithBlank p := by
  constructor
  · intro hself p hp
    rw [cleanExcludes_eq] at hself
    -- as many patterns are left as there were, so none was left out
    have hall : (ps.map cleanPattern).filter (!·.isEmpty) = ps.map cleanPattern := by
      refine List.filter_sublist.eq_of_length ?_
      rw [hself, List.length_map]
    have hmap : ps.map cleanPattern = ps.map id := by rw [← hall, hself, List.map_id]
    exact (cleanPattern_eq_self_iff (h p hp)).mp (List.map_inj_left.mp hmap p hp)
  · intro hblank
    have hmap : ps.map cleanPattern = ps :=
      (List.map_congr_left fun p hp => (cleanPattern_eq_self_iff (h p hp)).mpr (hblank p hp)).trans
        (List.map_id' ps)
    rw [cleanExcludes_eq, hmap, List.filter_eq_self]
    intro p hp
    simpa using (h p hp).ne_empty

theorem cleanFileType_ne (t : Option String) : cleanFileType t ≠ some "" := by
  intro h
  obtain ⟨s, -, hs⟩ := Option.bind_eq_some_iff.mp h
  split at hs
  · cases hs
  · rename_i hne
    injection hs with hs
    rw [hs] at hne
    exact hne rfl

theorem cleanFileType_cleanFileType (t : Option String) :
    cleanFileType (cleanFileType t) = cleanFileType t := by
  cases t with
  | none => rfl
  | some s =>
      by_cases hempty : Text.strip s = ""
      · simp [cleanFileType, hempty]
      · simp [cleanFileType, hempty, Text.strip_strip]

/-! ## Options as data -/

namespace Options

theorem fields_eq_valid_iff {entries : List (Datum × Datum)} {o : Options} :
    fields entries = .valid o ↔
      (∃ ds, Rule.field "directories" (some ["."]) (Rule.list Rule.text) entries = .valid ds ∧
        o.directories = cleanDirectories ds) ∧
      (∃ ps, Rule.field "exclude_patterns" (some defaultExcludes) (Rule.list Rule.text) entries
        = .valid ps ∧ o.excludes = cleanExcludes ps) ∧
      Rule.field "max_results" (some 100) (Rule.integerAbove 0) entries = .valid o.maxResults ∧
      Rule.field "context_before" (some 0) (Rule.integerFrom 0) entries = .valid o.contextBefore ∧
      Rule.field "context_after" (some 0) (Rule.integerFrom 0) entries = .valid o.contextAfter ∧
      Rule.field "ignore_case" (some false) Rule.truth entries = .valid o.ignoreCase ∧
      (∃ t, Rule.field "file_type" (some none) (Rule.optional Rule.text) entries = .valid t ∧
        o.fileType = cleanFileType t) ∧
      Rule.field "fixed_strings" (some false) Rule.truth entries = .valid o.fixedText := by
  simp only [fields, Validated.seq_eq_valid_iff, Validated.map_eq_valid_iff]
  constructor
  · rintro ⟨_, _, ⟨_, _, ⟨_, _, ⟨_, _, ⟨_, _, ⟨_, _, ⟨_, _, ⟨_, h₁, rfl⟩, h₂, rfl⟩, h₃, rfl⟩, h₄,
      rfl⟩, h₅, rfl⟩, h₆, rfl⟩, h₇, rfl⟩, h₈, rfl⟩
    exact ⟨⟨_, h₁, rfl⟩, ⟨_, h₂, rfl⟩, h₃, h₄, h₅, h₆, ⟨_, h₇, rfl⟩, h₈⟩
  · obtain ⟨directories, excludes, most, before, after, ignoreCase, fileType, fixedText⟩ := o
    rintro ⟨⟨_, h₁, rfl⟩, ⟨_, h₂, rfl⟩, h₃, h₄, h₅, h₆, ⟨_, h₇, rfl⟩, h₈⟩
    exact ⟨_, _, ⟨_, _, ⟨_, _, ⟨_, _, ⟨_, _, ⟨_, _, ⟨_, _, ⟨_, h₁, rfl⟩, h₂, rfl⟩, h₃, rfl⟩, h₄,
      rfl⟩, h₅, rfl⟩, h₆, rfl⟩, h₇, rfl⟩, h₈, rfl⟩

theorem check_map (entries : List (Datum × Datum)) : check (.map entries) = fields entries := rfl

theorem exists_entries_of_check {d : Datum} {o : Options} (h : check d = .valid o) :
    ∃ entries, d = .map entries ∧ fields entries = .valid o := by
  cases d with
  | map entries => exact ⟨entries, rfl, h⟩
  | _ => cases h

/-- The directories of checked options are in normal form. -/
theorem isNeat_of_check {d : Datum} {o : Options} (h : check d = .valid o) :
    o.directories ≠ [] ∧ ∀ directory ∈ o.directories, IsNeat directory := by
  obtain ⟨entries, -, hfields⟩ := exists_entries_of_check h
  obtain ⟨⟨ds, -, hds⟩, -⟩ := fields_eq_valid_iff.mp hfields
  rw [hds]
  exact ⟨cleanDirectories_ne_nil ds, fun _ => isNeat_of_mem_cleanDirectories⟩

/-- Their patterns are cut. -/
theorem isCut_of_check {d : Datum} {o : Options} (h : check d = .valid o) :
    ∀ p ∈ o.excludes, IsCut p := by
  obtain ⟨entries, -, hfields⟩ := exists_entries_of_check h
  obtain ⟨-, ⟨ps, -, hps⟩, -⟩ := fields_eq_valid_iff.mp hfields
  rw [hps]
  exact fun _ => isCut_of_mem_cleanExcludes

/-- **Written options are checked like their patterns**: every other field comes back. -/
theorem check_toDatum {d : Datum} {o : Options} (h : check d = .valid o) :
    check o.toDatum = .valid { o with excludes := cleanExcludes o.excludes } := by
  obtain ⟨entries, -, hfields⟩ := exists_entries_of_check h
  obtain ⟨-, -, hmost, hbefore, hafter, hcase, ⟨t, -, ht⟩, hfixed⟩ := fields_eq_valid_iff.mp hfields
  obtain ⟨hne, hneat⟩ := isNeat_of_check h
  rw [toDatum, check_map]
  -- field by field: a rule reads its own value back, and what it is cleaned to is clean already
  refine fields_eq_valid_iff.mpr ⟨⟨o.directories, ?_, ?_⟩, ⟨o.excludes, ?_, rfl⟩, ?_, ?_, ?_, ?_,
    ⟨o.fileType, ?_, ?_⟩, ?_⟩
  · exact Rule.field_eq_valid_iff.mpr (Rule.list_map fun _ _ => rfl)
  · exact (cleanDirectories_eq_self hne hneat).symm
  · exact Rule.field_eq_valid_iff.mpr (Rule.list_map fun _ _ => rfl)
  · exact (Rule.isStable_integerAbove 0).field rfl hmost rfl
  · exact (Rule.isStable_integerFrom 0).field rfl hbefore rfl
  · exact (Rule.isStable_integerFrom 0).field rfl hafter rfl
  · exact Rule.isStable_truth.field rfl hcase rfl
  · refine Rule.field_eq_valid_iff.mpr ?_
    cases hfile : o.fileType with
    | none => rfl
    | some s => rfl
  · show o.fileType = cleanFileType o.fileType
    rw [ht, cleanFileType_cleanFileType]
  · exact Rule.isStable_truth.field rfl hfixed rfl

/-! ## Which options come back -/

/-- The options come back if they are written and checked again, and all their directories and patterns are
in normal form. -/
structure IsSettled (o : Options) : Prop where
  again : check o.toDatum = .valid o
  directories_ne_nil : o.directories ≠ []
  directories : ∀ directory ∈ o.directories, IsNeat directory
  excludes : ∀ p ∈ o.excludes, IsNeat p ∧ p.toList.getLast? ≠ some '/'

/-- **Which options are settled once they are checked.** Written as data and checked again, options are
always valid, and come back but for their patterns, which are cleaned once more; their directories are
in normal form in any case, and their patterns are cut. So they are settled exactly if no pattern ends
with a blank, and if one does, they do not come back. -/
theorem isSettled_iff {d : Datum} {o : Options} (h : check d = .valid o) :
    (o.IsSettled ↔ ∀ p ∈ o.excludes, ¬ EndsWithBlank p) ∧
      (check o.toDatum = .valid o ↔ ∀ p ∈ o.excludes, ¬ EndsWithBlank p) ∧
      check o.toDatum = .valid { o with excludes := cleanExcludes o.excludes } ∧
      o.directories ≠ [] ∧ (∀ directory ∈ o.directories, IsNeat directory) ∧
      ∀ p ∈ o.excludes, IsCut p := by
  obtain ⟨hne, hneat⟩ := isNeat_of_check h
  have hcut := isCut_of_check h
  have hagain : check o.toDatum = .valid o ↔ ∀ p ∈ o.excludes, ¬ EndsWithBlank p := by
    rw [check_toDatum h, ← cleanExcludes_eq_self_iff hcut]
    constructor
    · intro hself
      injection hself with hself
      exact congrArg Options.excludes hself
    · intro hself
      rw [hself]
  refine ⟨⟨fun hsettled => hagain.mp hsettled.again, fun hblank => ?_⟩, hagain, check_toDatum h, hne,
    hneat, hcut⟩
  exact
    { again := hagain.mpr hblank
      directories_ne_nil := hne
      directories := hneat
      excludes := fun p hp => ⟨(isNeat_iff_of_isCut (hcut p hp)).mpr (hblank p hp), (hcut p hp).last⟩ }

/-- Options of which every text has something to be cleaned off. -/
def unclean : Datum :=
  .map
    [(.text "directories", .list [.text " lib ", .text " "]),
     (.text "exclude_patterns", .list [.text " vendor// ", .text "/", .text "a /b/"]),
     (.text "file_type", .text " ")]

theorem isSettled_unclean :
    ∃ o, check unclean = .valid o ∧ o.excludes = ["vendor", "a /b"] ∧ o.IsSettled := by
  have hcheck : check unclean = .valid ⟨["lib"], ["vendor", "a /b"], 100, 0, 0, false, none, false⟩ :=
    rfl
  refine ⟨_, hcheck, rfl, (isSettled_iff hcheck).1.mpr ?_⟩
  decide

/-- The options of a search that leaves the directories out which match these patterns. -/
def leavingOut (ps : List String) : Datum := .map [(.text "exclude_patterns", .list (ps.map .text))]

/-- **Options may not come back.** The pattern `a /` is left with a blank at its end, and loses it when it
is checked again. -/
theorem blank_is_left :
    ∃ o, check (leavingOut ["a /"]) = .valid o ∧ o.excludes = ["a "] ∧
      Text.strip "a " ≠ "a " ∧ check o.toDatum = .valid { o with excludes := ["a"] } ∧
      check o.toDatum ≠ .valid o := by
  have hcheck : check (leavingOut ["a /"]) = .valid { default with excludes := ["a "] } := rfl
  have hagain : check (toDatum { default with excludes := ["a "] })
      = .valid { default with excludes := ["a"] } := rfl
  refine ⟨_, hcheck, rfl, by decide, hagain, ?_⟩
  intro hsame
  rw [hagain] at hsame
  injection hsame with hsame
  exact absurd (congrArg Options.excludes hsame) (by decide)

end Options

end SourceNavigator.Search
