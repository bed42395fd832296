import SourceNavigator.Command.Program
import SourceNavigator.Json.Reader
import SourceNavigator.Scene

/-!
# The executable

The command line of the program over a scene that standard input describes: an object whose field `fs`
maps absolute paths to nodes, besides the fields of `Scene.ofEntries`. The words of the command line
are those of the program.
-/

namespace SourceNavigator

open Data (Datum)
open SourceNavigator.Path (Route)

/-- The world before anything is placed in it. -/
def emptyWorld : World := ⟨.dir [], [], "/home", [], []⟩

def sceneOfText (text : List Char) : Scene :=
  let entries :=
    match Json.parse text with
    | .ok (.map entries) => entries
    | _ => []
  let files :=
    match Datum.lookup "fs" entries with
    | some (.map files) => files
    | _ => []
  Scene.ofEntries (emptyWorld.place ⟨.root, []⟩ files) "" Settings.rootVariable entries

/-- The exit of the program in a scene. A failure that is not reported ends it with status 1. -/
def runScene (scene : Scene) (words : List String) : Command.Exit :=
  let session := Session.begin scene.runs warningSeverity
  match Command.run scene.world scene.environment words session with
  | (.ok exit, _) => exit
  | (.error e, session) =>
    ⟨1, "", Command.logText session.records ++ e.message ++ "\n"⟩

end SourceNavigator

/-- Reads the scene, runs the program, and prints what it leaves behind. -/
def main (words : List String) : IO UInt32 := do
  let text ← (← IO.getStdin).readToEnd
  let exit := SourceNavigator.runScene (SourceNavigator.sceneOfText text.toList) words
  IO.print exit.output
  IO.eprint exit.errors
  return UInt32.ofNat exit.status
