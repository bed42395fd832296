import SourceNavigator.Session
import SourceNavigator.Search.Options
import SourceNavigator.Text.Casing
import SourceNavigator.World.Canonical

/-!
# Settings

What the navigator goes by: the root of the source tree, the engine, the limits of what is shown,
and a few defaults. `Settings.check` makes settings from data in a world, because the root is kept
in its canonical form.
-/

namespace SourceNavigator

namespace Settings

open Data (Rule Validated Datum)
open SourceNavigator.Path (Route)

/-! ## The engine -/

/-- The engine and how it is called in every search. -/
structure Engine where
  binary : String
  fileType : String
  excludes : List String
  deriving DecidableEq, Repr

namespace Engine

def default : Engine := ⟨"rg", "php", Search.defaultExcludes⟩

/-- The name of the engine, trimmed. -/
def binaryRule : Rule String :=
  Rule.someText.thenCheck fun s =>
    if (Text.strip s).isEmpty then .complain (.refused "Engine binary cannot be empty")
    else .valid (Text.strip s)

def fields (entries : List (Datum × Datum)) : Validated Engine :=
  Engine.mk
    <$> Rule.field "binary" (some default.binary) binaryRule entries
    <*> Rule.field "file_type" (some default.fileType) Rule.someText entries
    <*> Rule.field "exclude_patterns" (some default.excludes) (Rule.list Rule.text) entries

def modelName : String := "EngineConfig"

def check : Rule Engine := Rule.record modelName fields

def toDatum (e : Engine) : Datum :=
  .map
    [(.text "binary", .text e.binary), (.text "file_type", .text e.fileType),
     (.text "exclude_patterns", .list (e.excludes.map .text))]

end Engine

/-! ## Limits -/

/-- How much is searched for and shown. -/
structure Limits where
  symbolResults : Int
  usageResults : Int
  usageFactor : Int
  usageBefore : Int
  usageAfter : Int
  readLines : Int
  treeDepth : Int
  treeMaxDepth : Int
  deriving DecidableEq, Repr

namespace Limits

def default : Limits := ⟨10, 5, 3, 5, 10, 500, 2, 4⟩

def fields (entries : List (Datum × Datum)) : Validated Limits :=
  Limits.mk
    <$> Rule.field "symbol_max_results" (some default.symbolResults) (Rule.integerAbove 0) entries
    <*> Rule.field "usage_max_results" (some default.usageResults) (Rule.integerAbove 0) entries
    <*> Rule.field "usage_fetch_multiplier" (some default.usageFactor) (Rule.integerAbove 0) entries
    <*> Rule.field "usage_context_before" (some default.usageBefore) (Rule.integerFrom 0) entries
    <*> Rule.field "usage_context_after" (some default.usageAfter) (Rule.integerFrom 0) entries
    <*> Rule.field "read_max_lines" (some default.readLines) (Rule.integerAbove 0) entries
    <*> Rule.field "tree_default_depth" (some default.treeDepth) (Rule.integerAbove 0) entries
    <*> Rule.field "tree_max_depth" (some default.treeMaxDepth) (Rule.integerAbove 0) entries

/-- Limits whose usual depth is within the largest one. -/
def withinDepth (l : Limits) : Validated Limits :=
  if l.treeMaxDepth < l.treeDepth then
    .complain (.refused "tree_default_depth must be <= tree_max_depth")
  else .valid l

def modelName : String := "LimitsConfig"

def check : Rule Limits := (Rule.record modelName fields).thenCheck withinDepth

/-- The depth to show when `depth` is asked for: the usual one if that is nothing, and in any case
between one and the largest one. -/
def clampDepth (l : Limits) (depth : Option Int) : Int :=
  let wanted :=
    match depth with
    | none => l.treeDepth
    | some d => if d = 0 then l.treeDepth else d
  max 1 (min l.treeMaxDepth wanted)

def toDatum (l : Limits) : Datum :=
  .map
    [(.text "symbol_max_results", .int l.symbolResults),
     (.text "usage_max_results", .int l.usageResults),
     (.text "usage_fetch_multiplier", .int l.usageFactor),
     (.text "usage_context_before", .int l.usageBefore),
     (.text "usage_context_after", .int l.usageAfter),
     (.text "read_max_lines", .int l.readLines),
     (.text "tree_default_depth", .int l.treeDepth),
     (.text "tree_max_depth", .int l.treeMaxDepth)]

end Limits

/-! ## Levels -/

/-- The levels of logging that settings can name. -/
inductive Level where
  | debug
  | info
  | warning
  | error
  deriving DecidableEq, Repr

namespace Level

def name : Level → String
  | .debug => "DEBUG"
  | .info => "INFO"
  | .warning => "WARNING"
  | .error => "ERROR"

/-- The least severity that is logged at a level. -/
def severity : Level → Severity
  | .debug => debugSeverity
  | .info => infoSeverity
  | .warning => warningSeverity
  | .error => errorSeverity

def ofName? (s : String) : Option Level :=
  [Level.debug, .info, .warning, .error].find? (·.name = s)

/-- A level given by its name in any mixture of case. -/
def check : Rule Level
  | .text s =>
    match ofName? (String.ofList (Text.upper s.toList)) with
    | some level => .valid level
    | none => .complain (.refused ("Invalid log level: " ++ s))
  | .illFormed points =>
    .complain (.refused ("Invalid log level: " ++ String.ofList points.octetwise))
  | _ => .complain .notLevel

end Level

end Settings

/-! ## Settings as a whole -/

/-- The settings of a navigator. -/
structure Settings where
  root : String
  engine : Settings.Engine
  limits : Settings.Limits
  sourceEnding : String
  usageDirectories : List String
  level : Settings.Level
  deriving DecidableEq, Repr

namespace Settings

open Data (Rule Validated Datum)
open SourceNavigator.Path (Route)

/-- The file ending, trimmed, in lower case and with a point at its start. -/
def endingRule : Rule String :=
  Rule.text.thenCheck fun s =>
    let ending := Text.lower (Text.trim s.toList)
    match ending with
    | [] => .complain (.refused "Source extension cannot be empty")
    | '.' :: _ => .valid (String.ofList ending)
    | _ => .valid (String.ofList ('.' :: ending))

/-- The failure of a path that has no home directory to start from. -/
def homeFailure : World.HomeFault → Failure
  | .unknown => .homeUnknown
  | .nulCharacter => .nulCharacter

/-- The canonical form of a root, with `~` expanded. -/
def canonicalRoot (w : World) (root : Route) : Except Failure Route :=
  match w.expandHome root with
  | .error fault => .error (homeFailure fault)
  | .ok r =>
    match w.resolve r with
    | .ok root => .ok root
    | .error (.loop text) => .error (.linkLoop text)
    | .error .nulCharacter => .error .nulCharacter
    | .error .tooDeep => .error (.tooDeep "")

/-- The root in its canonical form. A root that runs into a loop of links or into too many links within
links, or into the home of an unknown user, is no matter of validation and fails at once. -/
def rootRule (w : World) (d : Datum) : Except Failure (Validated String) :=
  match Rule.someText d with
  | .invalid problems => .ok (.invalid problems)
  | .valid s =>
    if (Text.strip s).isEmpty then .ok (.complain (.refused "Root directory cannot be empty"))
    else
      match canonicalRoot w (Route.ofString (Text.strip s)) with
      | .ok root => .ok (.valid root.text)
      | .error .nulCharacter => .ok (.complain (.refused World.nulMessage))
      | .error e => .error e

/-- The root among the fields of settings. -/
def rootField (w : World) (entries : List (Datum × Datum)) : Except Failure (Validated String) :=
  match Datum.lookup "root" entries with
  | some d => (rootRule w d).map (·.under (.field "root"))
  | none => .ok (.invalid [⟨[.field "root"], .missing⟩])

/-- The fields of settings besides the root. -/
def ofRoot (root : Validated String) (entries : List (Datum × Datum)) : Validated Settings :=
  (fun root engine limits ending directories level =>
      Settings.mk root engine limits ending (Search.cleanDirectories directories) level)
    <$> root
    <*> Rule.field "engine" (some Engine.default) Engine.check entries
    <*> Rule.field "limits" (some Limits.default) Limits.check entries
    <*> Rule.field "source_extension" (some ".php") endingRule entries
    <*> Rule.field "usage_directories" (some ["lib", "course"]) (Rule.list Rule.text) entries
    <*> Rule.field "log_level" (some Level.info) Level.check entries

def modelName : String := "NavigatorConfig"

/-- Settings from data, as seen in a world. -/
def check (w : World) : Datum → Except Failure (Validated Settings)
  | .map entries => (rootField w entries).map fun root => ofRoot root entries
  | _ => .ok (.complain (.notRecord modelName))

def toDatum (s : Settings) : Datum :=
  .map
    [(.text "root", .text s.root), (.text "engine", s.engine.toDatum),
     (.text "limits", s.limits.toDatum), (.text "source_extension", .text s.sourceEnding),
     (.text "usage_directories", .list (s.usageDirectories.map .text)),
     (.text "log_level", .text s.level.name)]

def summary (s : Settings) : String :=
  "Root: " ++ s.root ++ " | Engine: " ++ s.engine.binary ++ " (--type " ++ s.engine.fileType ++
    ") | Extension: " ++ s.sourceEnding

end Settings

end SourceNavigator
