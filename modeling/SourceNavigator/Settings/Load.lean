import SourceNavigator.Markup.Document
import SourceNavigator.Settings.Root

/-!
# Loading settings

Settings come from a file, named by the caller or found in one of the usual places, laid over the
built-in ones with the root that `chooseRoot` gives.
-/

namespace SourceNavigator.Settings

open Data (Datum Validated)
open SourceNavigator.Path (Route)

/-! ## Files -/

def loadSource : String := "codenav.config.parser.ConfigParser"

def checkSource : String := "codenav.config.parser"

/-- The names of settings files, in the order in which they are looked for. -/
def fileNames : List String := [".codenav.yaml", ".codenav.yml", "codenav.yaml", "codenav.yml"]

/-- How deep settings are nested: a list in a map in the settings. -/
def settingsDepth : Nat := 3

def readText (w : World) (file : Route) : Except Failure (List Char) :=
  match w.octetsAt file.address with
  | .error (.system e) =>
    .error (.configuration ("Cannot read configuration file " ++ file.text ++ ": " ++ e.message))
  | .error .nulCharacter => .error .nulCharacter
  | .ok octets =>
    match Text.Utf8.decodeStrict? octets with
    | .ok cs => .ok (Text.unify cs)
    | .error f => .error (.undecodable f)

/-- The entries of a settings file; nothing if the file holds nothing. -/
def readEntries (w : World) (file : Route) : Except Failure (Option (List (Datum × Datum))) :=
  match readText w file with
  | .error e => .error e
  | .ok text =>
    match Markup.read settingsDepth text with
    | .error .malformed => .error (.badMarkup file.text)
    | .error d => .error (.markup d)
    | .ok .null => .ok none
    | .ok (.map entries) => .ok (some entries)
    | .ok d =>
      .error (.configuration
        (file.text ++ " must contain a YAML object, not a " ++ d.kindName))

/-- The entries of a settings file; a file that holds nothing has none. -/
def loadEntries (w : World) (file : Route) : Action (List (Datum × Datum)) := do
  match ← Action.lift (readEntries w file) with
  | some entries => return entries
  | none =>
    Action.log warningSeverity loadSource (file.text ++ " is empty, using defaults")
    return []

/-- A file of settings with its entries. -/
structure Source where
  file : Route
  entries : List (Datum × Datum)

/-- Whether a failure is one of configuration, which discovery passes over. -/
def isConfiguration : Failure → Bool
  | .configuration _ => true
  | .badSettings _ => true
  | .badMarkup _ => true
  | _ => false

def hasFile (w : World) (file : Route) : Except Failure Bool :=
  match w.probe file.address with
  | .ok (some node) => .ok node.isFile
  | .ok none => .ok false
  | .error t => .error (.ofTrouble t)

/-- The first candidate that is there and can be read. -/
def firstReadable (w : World) : List Route → Action (Option Source)
  | [] => Action.done none
  | file :: rest => do
    if ← Action.lift (hasFile w file) then
      match ← Action.attempt (loadEntries w file) with
      | .ok entries =>
        Action.log infoSeverity loadSource ("Using configuration file " ++ file.text)
        return some ⟨file, entries⟩
      | .error e =>
        if isConfiguration e then
          Action.log warningSeverity loadSource ("Skipping " ++ file.text ++ ": " ++ e.message)
          firstReadable w rest
        else Action.fail e
    else firstReadable w rest

def homeRoute (w : World) : Except Failure Route :=
  match w.expandHome ⟨.here, ["~"]⟩ with
  | .ok r => .ok r
  | .error fault => .error (homeFailure fault)

/-- Where settings files are looked for. -/
def candidates (w : World) (home : Route) : List Route :=
  [w.base, home, (home.child ".config").child "codenav"].flatMap fun directory =>
    fileNames.map directory.child

/-- The settings file in the usual places. -/
def discover (w : World) : Action (Option Source) := do
  let home ← Action.lift (homeRoute w)
  match ← firstReadable w (candidates w home) with
  | some source => return some source
  | none =>
    Action.log infoSeverity loadSource "No codenav configuration file found"
    return none

/-- The settings file that a caller names. -/
def named (w : World) (path : String) : Action (Option Source) := do
  let file := Route.ofString path
  if ← Action.lift (hasFile w file) then
    let entries ← loadEntries w file
    return some ⟨file, entries⟩
  else Action.fail (.configuration ("Configuration file not found: " ++ file.text))

/-! ## Settings -/

/-- The built-in settings, without a root. -/
def builtIn : List (Datum × Datum) :=
  [(.text "engine", Engine.default.toDatum), (.text "limits", Limits.default.toDatum),
   (.text "source_extension", .text ".php"),
   (.text "usage_directories", .list [.text "lib", .text "course"]),
   (.text "log_level", .text Level.info.name)]

/-- Entries laid over others: those of `upper` count where both have a key. -/
def overlay (lower upper : List (Datum × Datum)) : List (Datum × Datum) :=
  upper.foldl (fun acc e => Datum.putEntry e.1 e.2 acc) lower

/-- The settings of a file with a root, laid over the built-in ones. -/
def layered (root : Datum) (file : List (Datum × Datum)) : List (Datum × Datum) :=
  Datum.putEntry (.text "root") root (overlay builtIn file)

/-- What loading comes to. -/
structure Loaded where
  settings : Settings
  warnings : List String
  file : Option Route
  isDefault : Bool
  deriving Repr

/-- The settings that are valid, or the failure that says what is not. -/
def validSettings : Validated Settings → Except Failure Settings
  | .valid s => .ok s
  | .invalid problems => .error (.badSettings problems)

/-- Warns of a root that nothing names. -/
def warnOfProcessRoot (root : Datum) (origin : Origin) : Action (List String) :=
  if origin = .process then do
    let text := "No path configured, using current directory: " ++ root.shown
    Action.log warningSeverity loadSource text
    return [text]
  else Action.done []

/-- The warning of settings that no file gives. -/
def defaultWarnings (source : Option Source) : List String :=
  if source.isNone then ["No configuration file found, using default settings"] else []

/-- Refuses warnings, if the caller asks for that. -/
def checkStrict (strict : Bool) (warnings : List String) : Except Failure Unit :=
  if strict && !warnings.isEmpty then
    .error (.configuration
      ("Refusing warnings in strict mode: " ++ String.intercalate "; " warnings))
  else .ok ()

/-- What a caller says about the settings to load; `environment` is the root of the environment. -/
structure Request where
  path : Option String
  root : Option String
  strict : Bool
  environment : Option String

/-- The settings file of a request. -/
def sourceOf (w : World) (r : Request) : Action (Option Source) :=
  match r.path with
  | none => discover w
  | some path => if path.isEmpty then discover w else named w path

def load (w : World) (r : Request) : Action Loaded := do
  let source ← sourceOf w r
  let entries := (source.map (·.entries)).getD []
  let (root, origin) ← Action.lift
    (chooseRoot w r.root r.environment (Datum.lookup "root" entries))
  let rootWarnings ← warnOfProcessRoot root origin
  let checked ← Action.lift (Settings.check w (.map (layered root entries)))
  let settings ← Action.lift (validSettings checked)
  let warnings := rootWarnings ++ defaultWarnings source
  Action.lift (checkStrict r.strict warnings)
  let shown := (source.map (·.file.text)).getD "defaults"
  Action.log infoSeverity loadSource
    ("Configuration loaded from " ++ shown ++ " (root from " ++ origin.name ++ ")")
  return ⟨settings, warnings, source.map (·.file), source.isNone⟩

/-! ## Checking the root -/

/-- What the root of the expected kind of source tree holds. -/
def markers : List String := ["version.php", "config-dist.php", "lib", "mod"]

/-- How many of them are enough. -/
def enoughMarkers : Nat := 2

def isThere (w : World) (r : Route) : Except Failure Bool :=
  match w.probe r.address with
  | .ok node => .ok node.isSome
  | .error t => .error (.ofTrouble t)

def countMarkers (w : World) (root : Route) : List String → Except Failure Nat
  | [] => .ok 0
  | name :: rest =>
    match isThere w (root.child name) with
    | .error e => .error e
    | .ok found => (countMarkers w root rest).map (· + if found then 1 else 0)

/-- A warning about a root that does not look like the expected kind of source tree. -/
def rootWarning (w : World) (root : Route) : Except Failure (Option String) :=
  match w.probe root.address with
  | .error t => .error (.ofTrouble t)
  | .ok none => .error (.configuration ("Moodle path does not exist: " ++ root.text))
  | .ok (some node) =>
    if !node.isDir then .error (.configuration ("Path is not a directory: " ++ root.text))
    else
      (countMarkers w root markers).map fun count =>
        if count < enoughMarkers then
          some (root.text ++ " may not be a valid Moodle installation. " ++
            "Expected files not found. Proceeding anyway...")
        else none

/-- Checks that the root is a directory, and warns if it does not look like the expected kind of
source tree. -/
def checkRoot (w : World) (root : Route) : Action (Option String) := do
  match ← Action.lift (rootWarning w root) with
  | none => return none
  | some text =>
    Action.log warningSeverity checkSource text
    return some text

end SourceNavigator.Settings
