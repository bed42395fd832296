import Mathlib
import SourceNavigator.Proofs.Search.Cleaned
import SourceNavigator.Proofs.Search.Wording
import SourceNavigator.Proofs.Text.Numeral

set_option autoImplicit false

/-! # What the engine is asked for

`understand` reads a command line and collects what it asks for: the numbers, the flags, the globs,
the patterns and the paths. The words of a search ask for what is meant and for nothing else
(`understand_arguments`), whatever the pattern, the file type, the exclusions and the directories
look like. There are no such words just if a number of the options has too many digits to be
written (`arguments_eq_error`).
-/

namespace SourceNavigator.Search

open Data (Datum Validated Rule)

/-! ## Requests -/

/-- What a command line asks for. An option that is repeated has several values. -/
structure Request where
  json : Bool
  lineNumbers : Bool
  columns : Bool
  before : List Int
  after : List Int
  most : List Int
  ignoreCase : Bool
  fixedText : Bool
  fileTypes : List String
  globs : List String
  patterns : List String
  paths : List String
  deriving DecidableEq, Repr

/-- The value of a part that is the option `name`. -/
def Word.value? (name : String) : Word → Option String
  | .option other value => if other = name then some value else none
  | _ => none

/-- The values of an option, in order. -/
def valuesOf (name : String) (parts : List Word) : List String := parts.filterMap (Word.value? name)

/-- The values of an option that are to be whole numbers. -/
def numbersOf (name : String) (parts : List Word) : Option (List Int) :=
  (valuesOf name parts).mapM String.toInt?

/-- Whether a flag is set. -/
def isSet (name : String) (parts : List Word) : Bool := parts.contains (.flag name)

/-- What the parts of a command line ask for. A count that is no number is an error. -/
def Request.ofParts (parts : List Word) : Option Request := do
  let before ← numbersOf "-B" parts
  let after ← numbersOf "-A" parts
  let most ← numbersOf "--max-count" parts
  return {
    json := isSet "--json" parts
    lineNumbers := isSet "--line-number" parts
    columns := isSet "--column" parts
    before, after, most
    ignoreCase := isSet "--ignore-case" parts
    fixedText := isSet "--fixed-strings" parts
    fileTypes := valuesOf "--type" parts
    globs := valuesOf "--glob" parts
    patterns := valuesOf "-e" parts
    paths := parts.filterMap Word.path? }

/-- What a command line asks for, read from left to right. -/
def understand (words : List String) : Option Request := (readWords words).bind Request.ofParts

/-- A count as the value of its option, which is left out if the count is zero. -/
def countValues (n : Int) : List Int := if n = 0 then [] else [n]

/-- What a search for `pattern` below `root` is to ask for. -/
def Request.ofSearch (pattern root : String) (o : Options) : Request where
  json := true
  lineNumbers := true
  columns := true
  before := countValues o.contextBefore
  after := countValues o.contextAfter
  most := [o.maxResults]
  ignoreCase := o.ignoreCase
  fixedText := o.fixedText
  fileTypes := o.fileType.toList
  globs := o.excludes.map fun e => "!" ++ e ++ "/**"
  patterns := [pattern]
  paths := o.directories.map (Path.joinText root)

/-! ## What each kind of part says -/

theorem valuesOf_append (name : String) (xs ys : List Word) :
    valuesOf name (xs ++ ys) = valuesOf name xs ++ valuesOf name ys := List.filterMap_append

theorem valuesOf_countPart {n : Int} (h : 0 ≤ n) (name other : String) :
    valuesOf name (countPart other n)
      = if other = name then (countValues n).map toString else [] := by
  rcases h.eq_or_lt with rfl | hpos
  · simp [countPart, countValues, valuesOf]
  · have hne : n ≠ 0 := hpos.ne'
    by_cases hname : other = name
    · simp [countPart, countValues, valuesOf, Word.value?, hpos, hne, hname]
    · simp [countPart, valuesOf, Word.value?, hpos, hname]

theorem valuesOf_flagPart (name other : String) (set : Bool) :
    valuesOf name (flagPart other set) = [] := by
  cases set <;> rfl

theorem valuesOf_typePart {t : Option String} (h : t ≠ some "") (name : String) :
    valuesOf name (typePart t) = if "--type" = name then t.toList else [] := by
  cases t with
  | none => simp [typePart, valuesOf]
  | some t =>
      have hne : t.isEmpty = false := by
        rw [Bool.eq_false_iff]
        intro hempty
        exact h (congrArg some (String.isEmpty_iff.mp hempty))
      by_cases hname : "--type" = name <;> simp [typePart, valuesOf, Word.value?, hne, hname]

theorem valuesOf_globs (name : String) (excludes : List String) :
    valuesOf name (excludes.map fun e => .option "--glob" ("!" ++ e ++ "/**"))
      = if "--glob" = name then excludes.map (fun e => "!" ++ e ++ "/**") else [] := by
  induction excludes with
  | nil => simp [valuesOf]
  | cons e es ih =>
      rw [List.map_cons, ← List.singleton_append, valuesOf_append, ih]
      by_cases hname : "--glob" = name <;> simp [valuesOf, Word.value?, hname]

theorem valuesOf_paths (name root : String) (directories : List String) :
    valuesOf name (directories.map fun d => .path (Path.joinText root d)) = [] := by
  rw [valuesOf, List.filterMap_map, List.filterMap_eq_nil_iff]
  intro d _
  rfl

theorem isSet_append (name : String) (xs ys : List Word) :
    isSet name (xs ++ ys) = (isSet name xs || isSet name ys) := List.contains_append

theorem isSet_countPart (name other : String) (n : Int) :
    isSet name (countPart other n) = false := by
  unfold countPart
  split <;> rfl

theorem isSet_flagPart (name other : String) (set : Bool) :
    isSet name (flagPart other set) = (set && other == name) := by
  cases set with
  | false => rfl
  | true =>
      rw [flagPart, if_pos rfl, Bool.true_and, isSet, List.contains_cons, List.contains_nil,
        Bool.or_false, Bool.eq_iff_iff, beq_iff_eq, beq_iff_eq, Word.flag.injEq, eq_comm]

/-- No flag is set by parts that are options and paths. -/
theorem isSet_eq_false {name : String} {parts : List Word} (h : .flag name ∉ parts) :
    isSet name parts = false := by
  rw [isSet, Bool.eq_false_iff]
  intro hset
  exact h (List.contains_iff_mem.mp hset)

theorem isSet_typePart (name : String) (t : Option String) : isSet name (typePart t) = false := by
  unfold typePart
  split
  · split <;> rfl
  · rfl

theorem isSet_globs (name : String) (excludes : List String) :
    isSet name (excludes.map fun e => .option "--glob" ("!" ++ e ++ "/**")) = false := by
  apply isSet_eq_false
  simp

theorem isSet_paths (name root : String) (directories : List String) :
    isSet name (directories.map fun d => .path (Path.joinText root d)) = false := by
  apply isSet_eq_false
  simp

/-! ## What options in their cleaned form guarantee -/

/-- Counts that are not negative, a file type that is not empty, and directories. -/
structure Options.IsClean (o : Options) : Prop where
  before : 0 ≤ o.contextBefore
  after : 0 ≤ o.contextAfter
  most : 0 < o.maxResults
  fileType : o.fileType ≠ some ""
  directories : o.directories ≠ []

/-- **Checked options are clean.** -/
theorem Options.isClean_of_check {d : Datum} {o : Options} (h : Options.check d = .valid o) :
    o.IsClean := by
  obtain ⟨entries, -, hfields⟩ := Options.exists_entries_of_check h
  obtain ⟨⟨ds, -, hdirectories⟩, -, hmost, hbefore, hafter, -, ⟨t, -, htype⟩, -⟩ :=
    Options.fields_eq_valid_iff.mp hfields
  exact
    { before := Rule.le_of_field hbefore (by decide)
      after := Rule.le_of_field hafter (by decide)
      most := Rule.lt_of_field hmost (by decide)
      fileType := htype ▸ cleanFileType_ne t
      directories := hdirectories ▸ cleanDirectories_ne_nil ds }

/-! ## What a search asks for -/

section

variable {o : Options} (pattern root : String)

theorem valuesOf_argumentParts (h : o.IsClean) (name : String) :
    valuesOf name (argumentParts pattern root o)
      = (if "-B" = name then (countValues o.contextBefore).map toString else []) ++
        (if "-A" = name then (countValues o.contextAfter).map toString else []) ++
        (if "--max-count" = name then [toString o.maxResults] else []) ++
        (if "--type" = name then o.fileType.toList else []) ++
        (if "--glob" = name then o.excludes.map (fun e => "!" ++ e ++ "/**") else []) ++
        (if "-e" = name then [pattern] else []) := by
  have hfixed : valuesOf name [.flag "--json", .flag "--line-number", .flag "--column"] = [] := rfl
  have hone (other value : String) :
      valuesOf name [.option other value] = if other = name then [value] else [] := by
    by_cases hname : other = name <;> simp [valuesOf, Word.value?, hname]
  simp only [argumentParts, valuesOf_append, hfixed, hone, valuesOf_countPart h.before,
    valuesOf_countPart h.after, valuesOf_flagPart, valuesOf_typePart h.fileType, valuesOf_globs,
    valuesOf_paths, List.nil_append, List.append_nil]

theorem isSet_argumentParts (o : Options) (name : String) :
    isSet name (argumentParts pattern root o)
      = (["--json", "--line-number", "--column"].contains name ||
          (o.ignoreCase && "--ignore-case" == name) ||
          (o.fixedText && "--fixed-strings" == name)) := by
  have hfixed : isSet name [.flag "--json", .flag "--line-number", .flag "--column"]
      = ["--json", "--line-number", "--column"].contains name := by
    simp [isSet]
  have hone (other value : String) : isSet name [.option other value] = false := rfl
  simp only [argumentParts, isSet_append, hfixed, hone, isSet_countPart, isSet_flagPart,
    isSet_typePart, isSet_globs, isSet_paths, Bool.or_false]

theorem mapM_toInt?_toString (ns : List Int) : (ns.map toString).mapM String.toInt? = some ns := by
  induction ns with
  | nil => rfl
  | cons n ns ih =>
      have hn : (toString n).toInt? = some n := by rw [Int.toString_eq_repr, Int.toInt?_repr]
      rw [List.map_cons, List.mapM_cons, hn, ih]
      rfl

/-- **The parts of a search ask for what is meant.** -/
theorem ofParts_argumentParts (h : o.IsClean) :
    Request.ofParts (argumentParts pattern root o) = some (Request.ofSearch pattern root o) := by
  have hvalues := valuesOf_argumentParts pattern root h
  have hset := isSet_argumentParts pattern root o
  have hbefore : numbersOf "-B" (argumentParts pattern root o)
      = some (countValues o.contextBefore) := by
    rw [numbersOf, hvalues]
    simpa using mapM_toInt?_toString (countValues o.contextBefore)
  have hafter : numbersOf "-A" (argumentParts pattern root o)
      = some (countValues o.contextAfter) := by
    rw [numbersOf, hvalues]
    simpa using mapM_toInt?_toString (countValues o.contextAfter)
  have hmost : numbersOf "--max-count" (argumentParts pattern root o) = some [o.maxResults] := by
    rw [numbersOf, hvalues]
    exact mapM_toInt?_toString [o.maxResults]
  rw [Request.ofParts]
  simp only [hbefore, hafter, hmost, Option.bind_eq_bind, Option.bind_some]
  -- what is left is the value of each option and flag that holds no number
  simp [hvalues, hset, argumentParts_paths, Request.ofSearch]

end

/-! ## Which searches can be put into words -/

/-- Whether the numbers of options can be written. -/
def Options.IsWritable (o : Options) : Prop :=
  ∀ n ∈ [o.contextBefore, o.contextAfter, o.maxResults], n < 10 ^ Text.maxDigits

theorem numberWord_of_nonneg {n : Int} (h : 0 ≤ n) :
    numberWord n
      = if n < 10 ^ Text.maxDigits then .ok (toString n) else .error .numberTooLong := by
  by_cases hshort : n < 10 ^ Text.maxDigits
  · rw [numberWord, Text.decimal?_eq_some ((Text.isWritable_iff_lt h).mpr hshort), if_pos hshort]
  · rw [numberWord, Text.decimal?_eq_none ((Text.isWritable_iff_lt h).not.mpr hshort), if_neg hshort]

theorem countOption_of_nonneg {n : Int} (h : 0 ≤ n) (name : String) :
    countOption name n
      = if n < 10 ^ Text.maxDigits then .ok ((countPart name n).flatMap Word.spell)
        else .error .numberTooLong := by
  unfold countOption
  rcases h.eq_or_lt with rfl | hpos
  · rw [if_neg (lt_irrefl _), if_pos (by positivity)]
    rfl
  · rw [if_pos hpos, numberWord_of_nonneg h, countPart, if_pos hpos]
    split <;> rfl

/-- **Options in their cleaned form are put into words if their numbers can be written.** -/
theorem exists_arguments {o : Options} (h : o.IsClean) (hwritable : o.IsWritable)
    (pattern root : String) : ∃ words, arguments pattern root o = .ok words := by
  have hbefore : o.contextBefore < 10 ^ Text.maxDigits := hwritable _ (by simp)
  have hafter : o.contextAfter < 10 ^ Text.maxDigits := hwritable _ (by simp)
  have hmost : o.maxResults < 10 ^ Text.maxDigits := hwritable _ (by simp)
  unfold arguments
  rw [countOption_of_nonneg h.before, countOption_of_nonneg h.after,
    numberWord_of_nonneg h.most.le, if_pos hbefore, if_pos hafter, if_pos hmost]
  exact ⟨_, rfl⟩

/-- Otherwise the search fails for a number that is too long. -/
theorem arguments_eq_error {o : Options} (h : o.IsClean) (hwritable : ¬ o.IsWritable)
    (pattern root : String) : arguments pattern root o = .error .numberTooLong := by
  unfold arguments
  rw [countOption_of_nonneg h.before, countOption_of_nonneg h.after,
    numberWord_of_nonneg h.most.le]
  -- the first number that is too long fails the rest
  by_cases hbefore : o.contextBefore < 10 ^ Text.maxDigits
  · rw [if_pos hbefore]
    by_cases hafter : o.contextAfter < 10 ^ Text.maxDigits
    · rw [if_pos hafter]
      have hmost : ¬ o.maxResults < 10 ^ Text.maxDigits := by
        intro hmost
        apply hwritable
        simp only [Options.IsWritable, List.forall_mem_cons]
        exact ⟨hbefore, hafter, hmost, by simp⟩
      rw [if_neg hmost]
      rfl
    · rw [if_neg hafter]
      rfl
  · rw [if_neg hbefore]
    rfl

/-- **The words of a search ask for what is meant.** -/
theorem understand_arguments {pattern root : String} {o : Options} {words : List String}
    (ho : o.IsClean) (hroot : Path.isAbsolute root = true)
    (h : arguments pattern root o = .ok words) :
    understand words = some (Request.ofSearch pattern root o) := by
  rw [understand, readWords_arguments hroot h, Option.bind_some]
  exact ofParts_argumentParts pattern root ho

/-- **Exactly what is meant, and nothing else, reaches the engine, exactly if the numbers of the
options can be written.** -/
theorem arguments_understood_iff {d : Datum} {o : Options} {root : String}
    (ho : Options.check d = .valid o) (hroot : Path.isAbsolute root = true) (pattern : String) :
    ((∃ words, arguments pattern root o = .ok words ∧
        understand words = some (Request.ofSearch pattern root o)) ↔ o.IsWritable) ∧
      (¬ o.IsWritable → arguments pattern root o = .error .numberTooLong) ∧
      (Request.ofSearch pattern root o).paths ≠ [] := by
  have hclean := Options.isClean_of_check ho
  refine ⟨⟨?_, ?_⟩, ?_, ?_⟩
  · rintro ⟨words, hwords, -⟩
    by_contra hwritable
    rw [arguments_eq_error hclean hwritable] at hwords
    cases hwords
  · intro hwritable
    obtain ⟨words, hwords⟩ := exists_arguments hclean hwritable pattern root
    exact ⟨words, hwords, understand_arguments hclean hroot hwords⟩
  · intro hwritable
    exact arguments_eq_error hclean hwritable pattern root
  · show o.directories.map (Path.joinText root) ≠ []
    intro hnil
    exact hclean.directories (List.map_eq_nil_iff.mp hnil)

/-- Options in which every text looks like an option of the engine. -/
def lookalikes : Datum :=
  .map
    [(.text "directories", .list [.text "-e", .text " --json "]),
     (.text "exclude_patterns", .list [.text "--files/", .text "*"]),
     (.text "context_after", .int 2),
     (.text "file_type", .text " -x")]

theorem arguments_understood_lookalikes :
    Path.isAbsolute "/m" = true ∧
      ∃ o, Options.check lookalikes = .valid o ∧
        ∃ words, arguments "--files" "/m" o = .ok words ∧
          understand words
            = some ⟨true, true, true, [], [2], [100], false, false, ["-x"],
                ["!--files/**", "!*/**"], ["--files"], ["/m/-e", "/m/--json"]⟩ := by
  have hcheck : Options.check lookalikes
      = .valid ⟨["-e", "--json"], ["--files", "*"], 100, 0, 2, false, some "-x", false⟩ := rfl
  have hbound : (1000 : Int) ≤ 10 ^ Text.maxDigits := by
    calc (1000 : Int) = 10 ^ 3 := by norm_num
      _ ≤ 10 ^ Text.maxDigits := pow_le_pow_right₀ (by norm_num) (by decide)
  refine ⟨by decide, _, hcheck, (arguments_understood_iff hcheck (by decide) "--files").1.mpr ?_⟩
  simp only [Options.IsWritable, List.forall_mem_cons]
  exact ⟨by omega, by omega, by omega, by simp⟩

/-- The options of a search for the given number of results. -/
def capped (n : Int) : Datum := .map [(.text "max_results", .int n)]

theorem check_capped {n : Int} (h : 0 < n) :
    Options.check (capped n) = .valid { Options.default with maxResults := n } := by
  have hrule : Rule.integerAbove 0 (.int n) = .valid n := if_pos h
  show Options.ofParts
      <$> Validated.valid ["."]
      <*> Validated.valid defaultExcludes
      <*> (Rule.integerAbove 0 (.int n)).under (.field "max_results")
      <*> Validated.valid 0 <*> Validated.valid 0 <*> Validated.valid false
      <*> Validated.valid none <*> Validated.valid false = _
  rw [hrule]
  rfl

/-- A search for more results than can be written is valid, but it cannot be put into words. -/
theorem long_cap_is_not_put_into_words :
    ∃ o, Options.check (capped (10 ^ Text.maxDigits)) = .valid o ∧ Path.isAbsolute "/m" = true ∧
      ¬ ∃ words, arguments "x" "/m" o = .ok words ∧
        understand words = some (Request.ofSearch "x" "/m" o) := by
  have hcheck := check_capped (n := 10 ^ Text.maxDigits) (by positivity)
  refine ⟨_, hcheck, by decide, ?_⟩
  rintro ⟨words, hwords, -⟩
  have hwritable : ¬ Options.IsWritable { Options.default with maxResults := 10 ^ Text.maxDigits } := by
    intro h
    exact lt_irrefl _ (h (10 ^ Text.maxDigits) (by simp))
  rw [arguments_eq_error (Options.isClean_of_check hcheck) hwritable] at hwords
  cases hwords

end SourceNavigator.Search
