import SourceNavigator.Command.Arguments
import SourceNavigator.Navigation.Navigator
import SourceNavigator.Settings.Load

/-!
# The program

A run of the program from the words of its command line to its outputs and its exit status. Failures
of navigation and of values are reported with status 1, misuse of the command line with status 2;
any other failure is the failure of the run.
-/

namespace SourceNavigator.Command

open Navigation (Navigator)
open SourceNavigator.Path (Route)

/-- What a run leaves behind. -/
structure Exit where
  status : Nat
  output : String
  errors : String
  deriving DecidableEq, Repr

def logSource : String := "codenav.cli"

def ask (n : Navigator) : Question → Action String
  | .symbol name kind directory => n.searchSymbol name kind directory
  | .usage term directories count => n.findUsage term directories count
  | .read file first last => n.showFile file first last
  | .tree directory depth => n.showTree directory depth

def nonEmpty (s : Option String) : Option String := s.filter (!·.isEmpty)

/-- Sets the severity that is logged by the name of a level, in any mixture of case. -/
def setLevel (name : String) : Action Unit :=
  let name := String.ofList (Text.upper name.toList)
  match severityOfName? name with
  | some severity => Action.setThreshold severity
  | none => Action.fail (.unknownLevel name)

def perform (w : World) (environment : Option String) (i : Invocation) : Action String := do
  setLevel ((nonEmpty i.level).getD "INFO")
  let loaded ← Settings.load w ⟨i.settings, i.root, false, environment⟩
  let settings := loaded.settings
  if (nonEmpty i.level).isNone then Action.setThreshold settings.level.severity
  Action.log infoSeverity logSource ("Moodle path: " ++ settings.root)
  let _ ← Settings.checkRoot w (Route.ofString settings.root)
  let _ ← Search.checkEngine settings.engine.binary
  ask ⟨w, settings⟩ i.question

/-! ## Outputs -/

def logText (records : List LogRecord) : String := String.join (records.map (·.line ++ "\n"))

/-- The last line of a text that is not empty. -/
def lastLine (text : String) : String :=
  (((Text.cutString '\n' text).filter (!·.isEmpty)).getLast?).getD ""

/-- The exit of an early end. Of a message about misuse the last line is kept. -/
def haltExit : Halt → Exit
  | .help => ⟨0, "", ""⟩
  | .version => ⟨0, programName ++ " " ++ programVersion ++ "\n", ""⟩
  | .misuse program message => ⟨2, "", lastLine (program ++ ": error: " ++ message) ++ "\n"⟩

/-- The exit of an invocation that has been carried out in a session. -/
def exitOf (result : Except Failure String) (s : Session) : Except Failure Exit :=
  match result with
  | .ok text => .ok ⟨0, text ++ "\n", logText s.records⟩
  | .error e =>
    if e.isReported then
      .ok ⟨1, "", logText s.records ++ programName ++ ": " ++ e.message ++ "\n"⟩
    else .error e

def run (w : World) (environment : Option String) (words : List String) : Action Exit := fun s =>
  match Invocation.parse words with
  | .error halt => (.ok (haltExit halt), s)
  | .ok i =>
    match perform w environment i s with
    | (result, s) => (exitOf result s, s)

end SourceNavigator.Command
