import SourceNavigator.Session
import SourceNavigator.Text.Base64
import SourceNavigator.World.Edit

/-!
# Scenes

A scene is what surrounds a run of the program: a world of files, the runs that the engine will
make, and the source root that the environment names. It is described by data, so that the same
description always leads to the same scene: `Scene.ofEntries` reads the fields `cwd`, `home`, `deny`,
`engine` and `environ`, `Scene.trouble?` says why no process can be started as they ask, and
`World.place` builds a tree from a map of paths to nodes.
-/

namespace SourceNavigator

open Data (Datum)
open SourceNavigator.Path (Address Route)

/-! ## Parts of a description -/

/-- The octets that a datum gives: a text in UTF-8, or a map with octets in base 64. -/
def octetsOf : Datum → List UInt8
  | .text s => Text.Utf8.encode s.toList
  | .map entries =>
    match Datum.lookup "b64" entries with
    | some (.text s) =>
      match Text.Base64.decode? s.toList with
      | .ok octets => octets
      | .error _ => []
    | _ => []
  | _ => []

def textsOf : Datum → List String
  | .list items =>
    items.filterMap fun item =>
      match item with
      | .text s => some s
      | _ => none
  | _ => []

def textField? (name : String) (entries : List (Datum × Datum)) : Option String :=
  match Datum.lookup name entries with
  | some (.text s) => some s
  | _ => none

/-- The octets of a field; none if it is absent. -/
def octetsField (name : String) (entries : List (Datum × Datum)) : List UInt8 :=
  ((Datum.lookup name entries).map octetsOf).getD []

/-! ## Worlds -/

namespace World

/-- The world with a node at a route, below directories that are made where they are missing: a
directory for nothing, a link for a map with its target, a file for anything else. Trouble is
passed over. -/
def placeNode (w : World) (r : Route) (d : Datum) : World :=
  match d with
  | .null => (w.ensureDir r).1
  | d =>
    let (w, _) := w.ensureDir ⟨r.anchor, r.names.dropLast⟩
    let placed :=
      match d with
      | .map entries =>
        match textField? "link" entries with
        | some target => w.putLink r target
        | none => w.putFile r (octetsOf d)
      | d => w.putFile r (octetsOf d)
    match placed with
    | .ok w => w
    | .error _ => w

/-- The world with the nodes of a map of paths, which start from `base`. -/
def place (w : World) (base : Route) (entries : List (Datum × Datum)) : World :=
  entries.foldl (fun w e => w.placeNode (base.append (Route.ofString e.1.shown)) e.2) w

/-- The world of a process that stands at the end of a path. -/
def standAt (w : World) (path : String) : World :=
  match w.findPlace .followed (Address.ofString path) with
  | .ok place => { w with cwd := place }
  | .error _ => w

/-- Why a process cannot stand at the end of a path. -/
def standTrouble? (w : World) (path : String) : Option Trouble :=
  if hasNul path then some .nulCharacter
  else
    match w.findNode (Address.ofString path) with
    | .ok node => if node.isDir then none else some (.system (Fault.notDirectory.at path))
    | .error f => some (.system (f.at path))

end World

/-! ## Engine runs -/

/-- A whole number of a field; zero if it is absent. -/
def integerField (name : String) (entries : List (Datum × Datum)) : Int :=
  match Datum.lookup name entries with
  | some (.int n) => n
  | _ => 0

/-- A run of the engine: its exit status and its outputs, or the error by which it does not start. -/
def Run.ofDatum : Datum → Run
  | .map entries =>
    match Datum.lookup "fails" entries with
    | some (.map e) =>
      .notStarted (.numbered (integerField "code" e) ((textField? "text" e).getD "")
        (textField? "path" e))
    | _ =>
      .ended (integerField "code" entries) (octetsField "stdout" entries)
        (octetsField "stderr" entries)
  | _ => .nothing

/-! ## Scenes -/

/-- What surrounds a run of the program. -/
structure Scene where
  world : World
  runs : List Run
  environment : Option String

namespace Scene

/-- The variable of the environment that names the root. -/
def environmentRoot (name : String) (entries : List (Datum × Datum)) : Option String :=
  match Datum.lookup "environ" entries with
  | some (.map values) => textField? name values
  | _ => none

/-- The scene that the fields of a description make of a world; `base` is the directory where the
process stands and below which its home lies, unless the description gives others. -/
def ofEntries (w : World) (base rootVariable : String) (entries : List (Datum × Datum)) : Scene :=
  let w := w.standAt ((textField? "cwd" entries).getD base)
  let home := (textField? "home" entries).getD (base ++ "/home")
  let denied := ((Datum.lookup "deny" entries).map textsOf).getD []
  let runs :=
    match Datum.lookup "engine" entries with
    | some (.list items) => items.map Run.ofDatum
    | _ => []
  ⟨{ w with home := home, denied := denied }, runs, environmentRoot rootVariable entries⟩

/-- Whether a variable of the environment holds a NUL character. No process has such a variable. -/
def hasUnfitVariable (entries : List (Datum × Datum)) : Bool :=
  match Datum.lookup "environ" entries with
  | some (.map values) =>
    values.any fun e => World.hasNul e.1.shown || World.hasNul e.2.shown
  | _ => false

/-- Why no process can be started as a description asks: the directory where it is to stand is none,
or the path of its home holds a NUL character. -/
def trouble? (w : World) (entries : List (Datum × Datum)) : Option World.Trouble :=
  match (textField? "cwd" entries).bind w.standTrouble? with
  | some t => some t
  | none =>
    if ((textField? "home" entries).map World.hasNul).getD false then some .nulCharacter else none

end Scene

end SourceNavigator
