import SourceNavigator.Search.Arguments
import SourceNavigator.Search.Stream
import SourceNavigator.Session

/-!
# Running the engine

A search starts one engine process, waits for its end, and reduces what it wrote. `checkEngine`
asks the engine for its version, and accepts only outputs that are well formed.
-/

namespace SourceNavigator.Search

open SourceNavigator.Path (Route)
open World (SystemError)

/-! ## What a run comes to -/

/-- The text that a process writes: octets that encode nothing are replaced, and every line ends
with a newline. -/
def outputText (octets : List UInt8) : List Char := Text.unify (Text.Utf8.decode octets)

/-- The number of the error for something that is not there. -/
def isNotFound : SystemError → Bool
  | .numbered code _ _ => code = 2
  | .plain _ => false

/-- Whether an error blames the directory that the engine was to be started in. -/
def blamesDirectory (base directory : Route) : SystemError → Bool
  | .numbered _ _ (some path) => Route.absolute base path == directory
  | _ => false

/-- The failure of an engine that does not start in a directory. -/
def startFailure (base directory : Route) (engine : String) (e : SystemError) : Failure :=
  if isNotFound e then
    if blamesDirectory base directory e then .system e else .engineMissing engine
  else .system e

/-- Whether an exit status means that the search was made. -/
def isSearched (status : Int) : Bool := status = 0 || status = 1

/-- What a run of the engine in a frame comes to, with the failure of runs that do not start. -/
def outcome (f : Frame) (cap : Int) (engine : String) : Run → Except Failure Output
  | .notStarted e => .error (startFailure f.base f.root engine e)
  | .ended status output errors =>
    if isSearched status then reduce f (some cap) (Text.splitLines (outputText output))
    else .error (.engineFailed (some status) (String.ofList (outputText errors)))

/-! ## Searching -/

def logSource : String := "codenav.tools.ripgrep"

def logOutcome (pattern : String) : Except Failure Output → Action Unit
  | .ok o =>
    Action.log infoSeverity logSource
      ("ripgrep found " ++ toString o.found.length ++ " matches for pattern '" ++ pattern ++ "'")
  | .error (.engineFailed (some status) errors) =>
    Action.log errorSeverity logSource
      ("ripgrep exited with code " ++ toString status ++ ": " ++ Text.strip errors)
  | .error _ => Action.done ()

/-- Searches for a pattern below a root. -/
def search (base : Route) (pattern root : String) (o : Options) (engine : String) :
    Action (List Match) := do
  let f := Frame.ofRoot base root
  let words ← Action.lift (arguments pattern f.root.text o)
  Action.log debugSeverity logSource
    ("Running ripgrep: " ++ engine ++ " " ++ String.intercalate " " words ++
      " (cwd=" ++ f.root.text ++ ")")
  let run ← Action.call ⟨engine :: words, some f.root.text⟩
  let result := outcome f o.maxResults engine run
  logOutcome pattern result
  Action.lift (result.map (·.found))

/-! ## The version of the engine -/

/-- The text that a process writes, if its octets are well formed; every line ends with a newline. -/
def strictText (octets : List UInt8) : Except Failure (List Char) :=
  match Text.Utf8.decodeStrict? octets with
  | .ok cs => .ok (Text.unify cs)
  | .error f => .error (.undecodable f)

/-- What an engine with these outputs says of its version. -/
def versionOf (engine : String) (status : Int) (output errors : List Char) :
    Except Failure String :=
  if status = 0 then
    match Text.splitLines output with
    | [] => .ok engine
    | line :: _ => .ok (String.ofList line)
  else
    .error (.engineFailed (some status)
      (if errors.isEmpty then "ripgrep check failed with non-zero exit code"
       else String.ofList errors))

/-- What an engine says when asked for its version. Both of its outputs must be well formed. -/
def versionOutcome (engine : String) : Run → Except Failure String
  | .notStarted e => .error (if isNotFound e then .engineMissing engine else .system e)
  | .ended status output errors => do
    let output ← strictText output
    let errors ← strictText errors
    versionOf engine status output errors

/-- The first line of the engine's version. -/
def checkEngine (engine : String) : Action String := do
  let run ← Action.call ⟨[engine, "--version"], none⟩
  let version ← Action.lift (versionOutcome engine run)
  Action.log infoSeverity logSource ("Using " ++ version)
  return version

end SourceNavigator.Search
