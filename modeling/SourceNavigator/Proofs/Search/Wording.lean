import SourceNavigator.Search.Arguments
import SourceNavigator.Proofs.Path.Collapse
import SourceNavigator.Proofs.Results

set_option autoImplicit false

/-! # The command line as the engine reads it

`readWords` reads a command line from left to right: an option takes the word behind it as its
value, whatever that word is, and what is neither an option nor a flag is a path. The words that
`arguments` gives are read as what was meant (`readWords_arguments`), so no pattern, file type,
exclusion or directory is mistaken for anything else.
-/

namespace SourceNavigator.Search

/-- What the engine takes a part of its command line for. -/
inductive Word where
  | option (name value : String)
  | flag (name : String)
  | path (text : String)
  deriving DecidableEq, Repr

namespace Word

/-- The options that take a value. -/
def optionNames : List String := ["-B", "-A", "--max-count", "--type", "--glob", "-e"]

/-- The options that take no value. -/
def flagNames : List String :=
  ["--json", "--line-number", "--column", "--ignore-case", "--fixed-strings"]

/-- Whether a word starts with a hyphen. -/
def isHyphened (s : String) : Bool := s.toList.head? == some '-'

/-- The words of a part. -/
def spell : Word → List String
  | .option name value => [name, value]
  | .flag name => [name]
  | .path text => [text]

/-- Whether the engine takes a part for what it is. -/
def isPlain : Word → Bool
  | .option name _ => optionNames.contains name
  | .flag name => flagNames.contains name
  | .path text => !isHyphened text

/-- The text of a path. -/
def path? : Word → Option String
  | .path text => some text
  | _ => none

end Word

/-- Reads a command line; a value that is missing and an option that is not known are errors. -/
def readWords : List String → Option (List Word)
  | [] => some []
  | word :: rest =>
    if word ∈ Word.optionNames then
      match rest with
      | [] => none
      | value :: rest => (readWords rest).map (Word.option word value :: ·)
    else if word ∈ Word.flagNames then (readWords rest).map (Word.flag word :: ·)
    else if Word.isHyphened word then none
    else (readWords rest).map (Word.path word :: ·)

/-! ## Reading what is spelled -/

theorem readWords_option {name : String} (h : name ∈ Word.optionNames) (value : String)
    (rest : List String) :
    readWords (name :: value :: rest) = (readWords rest).map (Word.option name value :: ·) := by
  rw [readWords, if_pos h]

theorem readWords_flag {name : String} (h : name ∈ Word.flagNames) (rest : List String) :
    readWords (name :: rest) = (readWords rest).map (Word.flag name :: ·) := by
  -- options are tried first, and no flag has the name of one
  have hno : name ∉ Word.optionNames := by
    intro ho
    simp only [Word.flagNames, List.mem_cons, List.not_mem_nil, or_false] at h
    rcases h with rfl | rfl | rfl | rfl | rfl <;> exact absurd ho (by decide)
  rw [readWords.eq_def]
  simp only [if_neg hno, if_pos h]

theorem isHyphened_of_mem {name : String} (h : name ∈ Word.optionNames ++ Word.flagNames) :
    Word.isHyphened name = true := by
  have key : ∀ name ∈ Word.optionNames ++ Word.flagNames, Word.isHyphened name = true := by decide
  exact key name h

theorem readWords_path {text : String} (h : Word.isHyphened text = false) (rest : List String) :
    readWords (text :: rest) = (readWords rest).map (Word.path text :: ·) := by
  have hno : text ∉ Word.optionNames ++ Word.flagNames := by
    intro hmem
    rw [isHyphened_of_mem hmem] at h
    cases h
  rw [List.mem_append, not_or] at hno
  rw [readWords.eq_def]
  simp only [if_neg hno.1, if_neg hno.2, h, Bool.false_eq_true, if_false]

/-- **Plain parts are read back from their words.** -/
theorem readWords_spell {parts : List Word} (h : parts.all Word.isPlain = true) :
    readWords (parts.flatMap Word.spell) = some parts := by
  induction parts with
  | nil => rfl
  | cons part rest ih =>
      rw [List.all_cons, Bool.and_eq_true] at h
      obtain ⟨hpart, hrest⟩ := h
      rw [List.flatMap_cons]
      cases part with
      | option name value =>
          show readWords (name :: value :: rest.flatMap Word.spell) = _
          rw [readWords_option (List.contains_iff_mem.mp hpart), ih hrest]
          rfl
      | flag name =>
          show readWords (name :: rest.flatMap Word.spell) = _
          rw [readWords_flag (List.contains_iff_mem.mp hpart), ih hrest]
          rfl
      | path text =>
          show readWords (text :: rest.flatMap Word.spell) = _
          rw [readWords_path (by simpa [Word.isPlain] using hpart), ih hrest]
          rfl

/-! ## The parts of a search -/

/-- A value option that is left out if the value is not positive. -/
def countPart (name : String) (n : Int) : List Word :=
  if 0 < n then [.option name (toString n)] else []

/-- A flag that is left out if it is not set. -/
def flagPart (name : String) (set : Bool) : List Word := if set then [.flag name] else []

/-- The option for the file type, left out if there is none. -/
def typePart : Option String → List Word
  | some t => if t.isEmpty then [] else [.option "--type" t]
  | none => []

/-- What a search for `pattern` below `root` means to say to the engine. -/
def argumentParts (pattern root : String) (o : Options) : List Word :=
  [.flag "--json", .flag "--line-number", .flag "--column"] ++
    countPart "-B" o.contextBefore ++ countPart "-A" o.contextAfter ++
    [.option "--max-count" (toString o.maxResults)] ++
    flagPart "--ignore-case" o.ignoreCase ++ flagPart "--fixed-strings" o.fixedText ++
    typePart o.fileType ++
    o.excludes.map (fun e => .option "--glob" ("!" ++ e ++ "/**")) ++
    [.option "-e" pattern] ++
    o.directories.map fun d => .path (Path.joinText root d)

theorem numberWord_eq_ok {n : Int} {word : String} (h : numberWord n = .ok word) :
    word = toString n := by
  unfold numberWord Text.decimal? at h
  split at h <;> simp_all

theorem countOption_eq_ok {name : String} {n : Int} {words : List String}
    (h : countOption name n = .ok words) : words = (countPart name n).flatMap Word.spell := by
  unfold countOption at h
  unfold countPart
  split at h
  · rename_i hpositive
    obtain ⟨word, hword, hwords⟩ := exists_of_bind_eq_ok h
    cases hwords
    rw [numberWord_eq_ok hword, if_pos hpositive]
    rfl
  · rename_i hnot
    cases h
    rw [if_neg hnot]
    rfl

theorem flagOption_eq (name : String) (set : Bool) :
    flagOption name set = (flagPart name set).flatMap Word.spell := by
  cases set <;> rfl

theorem typeOption_eq (t : Option String) : typeOption t = (typePart t).flatMap Word.spell := by
  cases t with
  | none => rfl
  | some t => by_cases ht : t.isEmpty <;> simp [typeOption, typePart, ht, Word.spell]

theorem arguments_eq_ok {pattern root : String} {o : Options} {words : List String}
    (h : arguments pattern root o = .ok words) :
    words = (argumentParts pattern root o).flatMap Word.spell := by
  obtain ⟨before, hbefore, h⟩ := exists_of_bind_eq_ok h
  obtain ⟨after, hafter, h⟩ := exists_of_bind_eq_ok h
  obtain ⟨most, hmost, h⟩ := exists_of_bind_eq_ok h
  have hexcludes : o.excludes.flatMap excludeOption
      = (o.excludes.map fun e => Word.option "--glob" ("!" ++ e ++ "/**")).flatMap Word.spell := by
    rw [List.flatMap_map]
    rfl
  have hpaths : o.directories.map (Path.joinText root)
      = (o.directories.map fun d => Word.path (Path.joinText root d)).flatMap Word.spell := by
    rw [List.flatMap_map, List.map_eq_flatMap]
    rfl
  rw [← Except.ok.inj h, hexcludes, hpaths, flagOption_eq, flagOption_eq, typeOption_eq,
    countOption_eq_ok hbefore, countOption_eq_ok hafter, numberWord_eq_ok hmost]
  simp only [argumentParts, List.flatMap_append]
  rfl

theorem isHyphened_of_isAbsolute {s : String} (h : Path.isAbsolute s = true) :
    Word.isHyphened s = false := by
  unfold Path.isAbsolute at h
  unfold Word.isHyphened
  rw [eq_of_beq h]
  decide

theorem argumentParts_isPlain {root : String} (pattern : String) (o : Options)
    (hroot : Path.isAbsolute root = true) :
    (argumentParts pattern root o).all Word.isPlain = true := by
  -- one fact for each kind of part; only the paths depend on what the caller says
  have hcount (name : String) (n : Int) (h : Word.optionNames.contains name = true) :
      (countPart name n).all Word.isPlain = true := by
    unfold countPart
    split
    · simpa [Word.isPlain] using h
    · rfl
  have hflag (name : String) (set : Bool) (h : Word.flagNames.contains name = true) :
      (flagPart name set).all Word.isPlain = true := by
    cases set
    · rfl
    · simpa [flagPart, Word.isPlain] using h
  have htype (t : Option String) : (typePart t).all Word.isPlain = true := by
    unfold typePart
    split
    · split <;> rfl
    · rfl
  have hexcludes : (o.excludes.map fun e => Word.option "--glob" ("!" ++ e ++ "/**")).all
      Word.isPlain = true := by
    rw [List.all_map, List.all_eq_true]
    intro e _
    rfl
  have hpaths : (o.directories.map fun d => Word.path (Path.joinText root d)).all
      Word.isPlain = true := by
    rw [List.all_map, List.all_eq_true]
    intro d _
    have hplain : Word.isHyphened (Path.joinText root d) = false :=
      isHyphened_of_isAbsolute (Path.isAbsolute_joinText d hroot)
    show (!Word.isHyphened (Path.joinText root d)) = true
    rw [hplain, Bool.not_false]
  simp only [argumentParts, List.all_append, hexcludes, hpaths, htype,
    hcount "-B" _ (by decide), hcount "-A" _ (by decide),
    hflag "--ignore-case" _ (by decide), hflag "--fixed-strings" _ (by decide), Bool.and_true]
  rfl

/-- **The engine reads what was meant.** -/
theorem readWords_arguments {pattern root : String} {o : Options} {words : List String}
    (hroot : Path.isAbsolute root = true) (h : arguments pattern root o = .ok words) :
    readWords words = some (argumentParts pattern root o) := by
  calc readWords words = readWords ((argumentParts pattern root o).flatMap Word.spell) := by
        rw [arguments_eq_ok h]
    _ = some (argumentParts pattern root o) :=
        readWords_spell (argumentParts_isPlain pattern o hroot)

/-- The paths among the parts of a search are its directories below the root. -/
theorem argumentParts_paths (pattern root : String) (o : Options) :
    (argumentParts pattern root o).filterMap Word.path?
      = o.directories.map (Path.joinText root) := by
  have hcount (name : String) (n : Int) : (countPart name n).filterMap Word.path? = [] := by
    unfold countPart
    split <;> rfl
  have hflag (name : String) (set : Bool) : (flagPart name set).filterMap Word.path? = [] := by
    cases set <;> rfl
  have htype (t : Option String) : (typePart t).filterMap Word.path? = [] := by
    unfold typePart
    split
    · split <;> rfl
    · rfl
  have hexcludes : (o.excludes.map fun e => Word.option "--glob" ("!" ++ e ++ "/**")).filterMap
      Word.path? = [] := by
    rw [List.filterMap_map, List.filterMap_eq_nil_iff]
    exact fun _ _ => rfl
  have hpaths : (o.directories.map fun d => Word.path (Path.joinText root d)).filterMap Word.path?
      = o.directories.map (Path.joinText root) := by
    rw [List.filterMap_map, ← List.filterMap_eq_map]
    rfl
  simp only [argumentParts, List.filterMap_append, hcount, hflag, htype, hexcludes, hpaths]
  rfl

end SourceNavigator.Search
