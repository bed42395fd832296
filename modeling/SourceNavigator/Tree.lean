import SourceNavigator.Session
import SourceNavigator.Text.Casing
import SourceNavigator.World.Lookup

/-!
# Directory trees

A directory shown as a tree of limited depth. Hidden entries and directories of dependencies are
left out, and of the files only those with the wanted ending are shown. Directories come before
files, each in order of their names without regard to case. `treeLines` draws the tree from a
function that lists a directory, so that what is drawn depends on nothing else. Each level is drawn
within the calls for the level above it, and the calls run out where directories are nested too deep
(`listBelow`).
-/

namespace SourceNavigator.Tree

open SourceNavigator.Path (Route)
open World (Node)

/-! ## Entries -/

/-- Directories that are never shown. -/
def excludedNames : List String := ["node_modules", "vendor", ".git"]

/-- A hidden name, or one of a directory that is never shown. -/
def isExcluded (name : String) : Bool :=
  name.toList.head? == some '.' || excludedNames.contains name

/-- An entry to show: a name and whether it is a directory. -/
structure Entry where
  name : String
  isDirectory : Bool
  deriving DecidableEq, Repr

def hasEnding (ending name : String) : Bool := ending.toList.isSuffixOf name.toList

def sortKey (name : String) : List Char := Text.foldCase name.toList

/-- The order of names: by their key, then by the name itself. -/
def comesBefore (a b : String) : Bool :=
  let x := sortKey a
  let y := sortKey b
  if x = y then !decide (b.toList < a.toList) else decide (x < y)

/-- The entry to show for a node, if it is shown. -/
def entryFor? (ending name : String) (node : Node) : Option Entry :=
  if isExcluded name then none
  else if node.isDir then some ⟨name, true⟩
  else if hasEnding ending name then some ⟨name, false⟩
  else none

/-- The entries to show of a directory, in order. -/
def shownEntries (ending : String) (nodes : List (String × Node)) : List Entry :=
  let shown := nodes.filterMap fun (name, node) => entryFor? ending name node
  let sorted (es : List Entry) : List Entry := es.mergeSort fun a b => comesBefore a.name b.name
  sorted (shown.filter (·.isDirectory)) ++ sorted (shown.filter (!·.isDirectory))

/-! ## Drawing -/

def connector (isLast : Bool) : String := if isLast then "└── " else "├── "

/-- What stands before the lines below an entry. -/
def indent (isLast : Bool) : String := if isLast then "    " else "│   "

def entryLine (lead : String) (isLast : Bool) (e : Entry) : String :=
  lead ++ connector isLast ++ e.name ++ if e.isDirectory then "/" else ""

/-- The lines of the entries of one directory; `below` draws what is in a directory. -/
def entryLines {ε : Type} (below : Route → String → Except ε (List String)) (place : Route)
    (lead : String) : List Entry → Except ε (List String)
  | [] => .ok []
  | e :: rest =>
    let isLast := rest.isEmpty
    let inner :=
      if e.isDirectory then below (place.child e.name) (lead ++ indent isLast) else .ok []
    match inner with
    | .error err => .error err
    | .ok inner =>
      match entryLines below place lead rest with
      | .error err => .error err
      | .ok others => .ok (entryLine lead isLast e :: inner ++ others)

/-- The lines of a directory to a depth; `list` gives the entries of a directory. -/
def treeLines {ε : Type} (list : Route → Except ε (List Entry)) :
    (depth : Nat) → Route → (lead : String) → Except ε (List String)
  | 0, _, _ => .ok []
  | depth + 1, r, lead =>
    match list r with
    | .error err => .error err
    | .ok entries => entryLines (treeLines list depth) r lead entries

/-! ## Listing, with calls for so many levels -/

/-- The entries to show of the directory at a route. -/
def listDirectory (w : World) (ending : String) (r : Route) : Except Failure (List Entry) :=
  match w.scan r.address with
  | .ok nodes => .ok (shownEntries ending nodes)
  | .error (.system e) => .error (.unreadableDirectory (some r.text) (some e))
  | .error .nulCharacter => .error .nulCharacter

/-- The levels of a tree for which there are calls. How many there are in truth depends on the calls
that the drawing is itself made in, and is a few more or less. -/
def maxNesting : Nat := 985

/-- The entries to show of a directory of the tree below `top`. Where the calls have run out, the
directory is not looked at. -/
def listBelow (w : World) (ending : String) (top r : Route) : Except Failure (List Entry) :=
  if r.names.length < top.names.length + maxNesting then listDirectory w ending r
  else .error (.tooDeep " while calling a Python object")

/-- The tree of a directory as text. Nothing is shown at a depth below one. -/
def render (w : World) (ending : String) (depth : Int) (r : Route) : Except Failure String :=
  (treeLines (listBelow w ending r) depth.toNat r "").map fun lines => Text.glueStrings "\n" lines

def logSource : String := "codenav.tools.tree"

/-- Logs a directory that cannot be listed. -/
def logFailure : Failure → Action Unit
  | .unreadableDirectory (some path) (some e) =>
    Action.log errorSeverity logSource ("Cannot list directory " ++ path ++ ": " ++ e.message)
  | _ => Action.done ()

def list (w : World) (ending : String) (depth : Int) (r : Route) : Action String :=
  match render w ending depth r with
  | .ok text => Action.done text
  | .error e => do
    logFailure e
    Action.fail e

end SourceNavigator.Tree
