import SourceNavigator.World.Lookup

/-!
# Changing the tree

Making directories, writing files and links, and removing nodes. A single change gives the world after
it, or the trouble it ran into. `World.ensureDir` makes a directory with all that is missing above
it; what it has made before it runs into trouble stays. `World.putFile` follows links, so that
writing to a link whose target is missing creates the target.
-/

namespace SourceNavigator.World

open SourceNavigator.Path (Anchor Route)

/-! ## Directories -/

/-- The place of a new directory. Its parent must be there and the name must be free. -/
def newPlace (tree : Node) (place : Place) (names : List String) : Except Fault Place :=
  match names.getLast? with
  | none => .error .alreadyExists
  | some name =>
    match walk tree .followed maxLinks place names.dropLast with
    | .error f => .error f
    | .ok parent =>
      match tree.at? parent with
      | some (.dir entries) =>
        if name = Path.up then .error .alreadyExists
        else if maxName < name.utf8ByteSize then .error .nameTooLong
        else if (Node.named? name entries).isSome then .error .alreadyExists
        else .ok (parent ++ [name])
      | _ => .error .notDirectory

def withNode (w : World) (place : Place) (node : Node) : World :=
  { w with tree := Node.put node place w.tree }

/-- The world with a new directory at a route. -/
def makeDir (w : World) (r : Route) : Except Trouble World :=
  if hasNul r.text then .error .nulCharacter
  else if maxPath ≤ r.text.utf8ByteSize then refuse .nameTooLong r.address
  else
    match newPlace w.tree (w.start r.isAnchored) r.names with
    | .ok place => .ok (w.withNode place (.dir []))
    | .error f => refuse f r.address

def hasDir (w : World) (r : Route) : Bool :=
  match w.glance r.address with
  | some node => node.isDir
  | none => false

/-- The report of a missing node at a route. -/
def missing (r : Route) : Trouble := .system (Fault.notFound.at r.text)

/-- Makes a directory unless there is one already. -/
def makeOrKeepDir (w : World) (r : Route) : World × Option Trouble :=
  match w.makeDir r with
  | .ok w => (w, none)
  | .error t => (w, if w.hasDir r then none else some t)

/-- Makes a directory, and directories above it where there are none. The names stand in reverse
order. -/
def ensureNames (w : World) (anchor : Anchor) : List String → World × Option Trouble
  | [] => w.makeOrKeepDir ⟨anchor, []⟩
  | name :: above =>
    let r : Route := ⟨anchor, (name :: above).reverse⟩
    match w.makeOrKeepDir r with
    | (w, none) => (w, none)
    | (w, some t) =>
      if t = missing r then
        match ensureNames w anchor above with
        | (w, some t) => (w, some t)
        | (w, none) => w.makeOrKeepDir r
      else (w, some t)

/-- Makes a directory, and directories above it where there are none: the world after that, and the
trouble that it ran into, if any. -/
def ensureDir (w : World) (r : Route) : World × Option Trouble := w.ensureNames r.anchor r.names.reverse

/-! ## Files and links -/

/-- The world with a file of this content at a route. -/
def putFile (w : World) (r : Route) (content : List UInt8) : Except Trouble World :=
  if w.denied.contains r.text then refuse .denied r.address
  else if hasNul r.text then .error .nulCharacter
  else if maxPath ≤ r.text.utf8ByteSize then refuse .nameTooLong r.address
  else
    match walk w.tree .made maxLinks (w.start r.isAnchored) r.names with
    | .ok place => .ok (w.withNode place (.file content))
    | .error f => refuse f r.address

/-- The world with a link at a route, in place of what was there. -/
def putLink (w : World) (r : Route) (target : String) : Except Trouble World :=
  match walk w.tree .followed maxLinks (w.start r.isAnchored) r.names.dropLast with
  | .ok place => .ok (w.withNode (place ++ r.names.getLast?.toList) (.link target))
  | .error f => refuse f r.address

/-- The world without the node at a route. A link at the end is removed itself. -/
def remove (w : World) (r : Route) : World :=
  match walk w.tree .kept maxLinks (w.start r.isAnchored) r.names with
  | .ok place => { w with tree := Node.erase place w.tree }
  | .error _ => w

end SourceNavigator.World
