import SourceNavigator.World.Node
import SourceNavigator.World.SystemError

/-!
# Looking up paths

A `World` is a tree of files as one process sees it: where the process stands, what its home is, and
which paths it may not open. `World.walk` walks a path the way an operating system does, name by
name and through every link, with at most forty links on the way. The file operations
`World.stat`, `World.octetsAt` and `World.scan` are built on it.
-/

namespace SourceNavigator

/-- A tree of files with the standpoint of a process. `accounts` lists the home directories of named
users; opening a path of `denied` is refused. -/
structure World where
  tree : World.Node
  cwd : World.Place
  home : String
  accounts : List (String × String)
  denied : List String
  deriving Repr, Inhabited

namespace World

open SourceNavigator.Path (Address Route)

/-! ## Walking -/

/-- The most octets in one name. -/
def maxName : Nat := 255

/-- The octets at which a path is too long. -/
def maxPath : Nat := 4096

/-- The most links on one way. -/
def maxLinks : Nat := 40

/-- The place that a link target is walked from. -/
def targetStart (place : Place) (target : String) : Place :=
  if Path.isAbsolute target then [] else place

/-- What becomes of a link at the end of a way, and what may be missing there: a link is kept, or it is
followed, or it is followed and a file is made where nothing is. -/
inductive Ending where
  | kept
  | followed
  | made
  deriving DecidableEq, Repr

/-- Walks names from a place. A link on the way is handed to `jump` with the place to go on from and
the names to walk, those of its target first; a link at the end as `ending` asks for. A file is made
under a name, so a slash behind the name asks for a directory in vain. -/
def walkNames (tree : Node) (jump : Place → List String → Except Fault Place) (ending : Ending) :
    Place → List String → Except Fault Place
  | place, [] => if ending = .made then .error .isDirectory else .ok place
  | place, name :: rest =>
    match tree.at? place with
    | some (.dir entries) =>
      if !Path.leads name then walkNames tree jump ending place rest
      else if name = Path.up then walkNames tree jump ending place.dropLast rest
      else if ending = .made && !rest.isEmpty && rest.all (·.isEmpty) then .error .isDirectory
      else if maxName < name.utf8ByteSize then .error .nameTooLong
      else
        match Node.named? name entries with
        | none => if rest.isEmpty && ending = .made then .ok (place ++ [name]) else .error .notFound
        | some (.link target) =>
          if rest.isEmpty && ending = .kept then .ok (place ++ [name])
          else jump (targetStart place target) (Path.pieces target ++ rest)
        | some (.file _) =>
          if rest.isEmpty then .ok (place ++ [name])
          else walkNames tree jump ending (place ++ [name]) rest
        | some (.dir _) => walkNames tree jump ending (place ++ [name]) rest
    | some _ => .error .notDirectory
    | none => .error .notFound

/-- Walks names from a place through at most `links` links. -/
def walk (tree : Node) (ending : Ending) : (links : Nat) → Place → List String → Except Fault Place
  | 0 => walkNames tree (fun _ _ => .error .tooManyLinks) ending
  | links + 1 => walkNames tree (walk tree ending links) ending

/-! ## Lookups -/

def start (w : World) (anchored : Bool) : Place := if anchored then [] else w.cwd

/-- The route of the place where the process stands. -/
def base (w : World) : Route := ⟨.root, w.cwd⟩

/-- The place that an address leads to, or why it leads nowhere. -/
def findPlace (w : World) (ending : Ending) (a : Address) : Except Fault Place :=
  if a.text.isEmpty then .error .notFound
  else if maxPath ≤ a.text.utf8ByteSize then .error .nameTooLong
  else walk w.tree ending maxLinks (w.start a.anchored) a.pieces

/-- The node that an address leads to, every link followed. -/
def findNode (w : World) (a : Address) : Except Fault Node :=
  match w.findPlace .followed a with
  | .error f => .error f
  | .ok place =>
    match w.tree.at? place with
    | some node => .ok node
    | none => .error .notFound

/-! ## File operations -/

def hasNul (s : String) : Bool := s.toList.contains '\x00'

/-- A fault at an address. -/
def refuse {α : Type} (f : Fault) (a : Address) : Except Trouble α := .error (.system (f.at a.text))

def stat (w : World) (a : Address) : Except Trouble Node :=
  if hasNul a.text then .error .nulCharacter
  else
    match w.findNode a with
    | .ok node => .ok node
    | .error f => refuse f a

/-- The node to open at an address. Paths that are denied are refused before they are looked up. -/
def openNode (w : World) (a : Address) : Except Trouble Node :=
  if w.denied.contains a.text then refuse .denied a else w.stat a

/-- The octets of the file at an address. -/
def octetsAt (w : World) (a : Address) : Except Trouble (List UInt8) :=
  match w.openNode a with
  | .error t => .error t
  | .ok (.file content) => .ok content
  | .ok _ => refuse .isDirectory a

/-- The entries of the directory at an address. -/
def scan (w : World) (a : Address) : Except Trouble (List (String × Node)) :=
  match w.openNode a with
  | .error t => .error t
  | .ok (.dir entries) => .ok entries
  | .ok _ => refuse .notDirectory a

/-- Faults that mean that nothing is there. -/
def isAbsence (f : Fault) : Bool := f == .notFound || f == .notDirectory || f == .tooManyLinks

/-- The node at an address, if there is one. A fault that does not mean absence is reported. -/
def probe (w : World) (a : Address) : Except Trouble (Option Node) :=
  if hasNul a.text then .ok none
  else
    match w.findNode a with
    | .ok node => .ok (some node)
    | .error f => if isAbsence f then .ok none else refuse f a

/-- The node at an address, if any; every fault counts as absence. -/
def glance (w : World) (a : Address) : Option Node := (w.stat a).toOption

def Node.isDir : Node → Bool
  | .dir _ => true
  | _ => false

def Node.isFile : Node → Bool
  | .file _ => true
  | _ => false

end World

end SourceNavigator
