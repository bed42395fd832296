import SourceNavigator.Text.Lines
import SourceNavigator.Text.Point

/-!
# Routes

A route is a path read as text, without a look at any file system: where it starts and the names
along it. Empty names and the name `.` lead nowhere and are dropped at once; `..` is kept, because
what it means depends on links. `collapse` takes `..` away by the text alone. A path that holds
halves of pairs is read by its code points. Main definitions: `Route.ofString`, `Route.ofPoints`,
`Route.text`, `Route.collapse`, `Route.append`, `relativeText`.
-/

namespace SourceNavigator.Path

/-- Where a route starts: at the place the reader stands, at the root, or at a root that is
written with exactly two slashes. -/
inductive Anchor where
  | here
  | root
  | twin
  deriving DecidableEq, Repr

/-- A start and the names that lead on from it. -/
structure Route where
  anchor : Anchor
  names : List String
  deriving DecidableEq, Repr

def up : String := ".."

/-- A name that leads somewhere. -/
def leads (name : String) : Bool := name != "" && name != "."

/-- The pieces of a text between slashes. -/
def pieces (s : String) : List String := Text.cutString '/' s

def anchorOf (s : String) : Anchor :=
  match s.toList with
  | '/' :: '/' :: '/' :: _ => .root
  | '/' :: '/' :: _ => .twin
  | '/' :: _ => .root
  | _ => .here

/-- A path that starts at a root. -/
def isAbsolute (s : String) : Bool := s.toList.head? == some '/'

/-- The text of one path behind another: the second one alone if it is absolute. -/
def joinText (a b : String) : String :=
  if isAbsolute b then b
  else if a.isEmpty || a.toList.getLast? == some '/' then a ++ b
  else a ++ "/" ++ b

namespace Route

/-- The route that a text describes. -/
def ofString (s : String) : Route := ⟨anchorOf s, (pieces s).filter leads⟩

def anchorText : Anchor → String
  | .here => ""
  | .root => "/"
  | .twin => "//"

/-- The text of a route. The route that leads nowhere is written `.`. -/
def text (r : Route) : String :=
  match r.anchor, r.names with
  | .here, [] => "."
  | anchor, names => anchorText anchor ++ Text.glueStrings "/" names

def isAnchored (r : Route) : Bool := r.anchor != .here

/-- The second route walked after the first one. -/
def append (a b : Route) : Route :=
  if b.isAnchored then b else ⟨a.anchor, a.names ++ b.names⟩

def child (r : Route) (name : String) : Route := ⟨r.anchor, r.names ++ [name]⟩

/-- The names walked so far, last one first, after one more name. `..` takes the last name away;
where there is none it stays, except at a root. -/
def push (anchored : Bool) (trail : List String) (name : String) : List String :=
  if name = up then
    match trail with
    | [] => if anchored then [] else [up]
    | last :: rest => if last = up then up :: trail else rest
  else name :: trail

def parent (r : Route) : Route := ⟨r.anchor, (push (r.anchor != .here) r.names.reverse up).reverse⟩

/-- The names without those that `..` takes away. -/
def collapseNames (anchored : Bool) (names : List String) : List String :=
  (names.foldl (push anchored) []).reverse

/-- The route with `..` taken away by the text alone. -/
def collapse (r : Route) : Route := ⟨r.anchor, collapseNames r.isAnchored r.names⟩

/-- The route that a text describes to one who stands at `base`, with `..` taken away. -/
def absolute (base : Route) (s : String) : Route := (base.append (ofString s)).collapse

/-- Whether the names of `a` begin those of `b`. -/
def beginsWith (b a : Route) : Bool := a.anchor == b.anchor && a.names.isPrefixOf b.names

end Route

/-! ## Addresses -/

/-- A path as it is handed to a file system: its text, where it starts, and the pieces to walk.
Empty pieces count here, because a slash at the end asks for a directory. -/
structure Address where
  text : String
  anchored : Bool
  pieces : List String
  deriving DecidableEq, Repr

def Address.ofString (s : String) : Address := ⟨s, isAbsolute s, Path.pieces s⟩

def Route.address (r : Route) : Address := ⟨r.text, r.isAnchored, r.names⟩

/-! ## The way from one route to another -/

/-- What is left of two lists behind their common beginning. -/
def dropCommon : List String → List String → List String × List String
  | a :: as, b :: bs => if a = b then dropCommon as bs else (a :: as, b :: bs)
  | as, bs => (as, bs)

/-- The names that lead from one place to another, up and then down. -/
def namesBetween (start goal : List String) : List String :=
  let (left, right) := dropCommon start goal
  left.map (fun _ => up) ++ right

/-- The text of the path from `start` to `goal`, both of them collapsed. -/
def relativeText (start goal : Route) : String :=
  match namesBetween start.names goal.names with
  | [] => "."
  | names => Text.glueStrings "/" names

/-! ## Paths by their code points -/

def namesOfPoints (ps : Text.Points) : List Text.Points :=
  (Text.cut '/'.toNat ps).filter fun name => leads (String.ofList name.shown)

/-- A name given by its code points. One that holds halves of pairs gets a slash at its end, so that it
is not mistaken for a name that can be written. -/
def nameOfPoints (ps : Text.Points) : String :=
  match ps.chars? with
  | some cs => String.ofList cs
  | none => String.ofList ps.shown ++ "/"

/-- The route that a path describes which is given by its code points. -/
def Route.ofPoints (ps : Text.Points) : Route :=
  ⟨anchorOf (String.ofList ps.shown), (namesOfPoints ps).map nameOfPoints⟩

/-- Whether all of some names can be written. No name that can be holds a slash. -/
def areWritable (names : List String) : Bool := names.all (!·.toList.contains '/')

end SourceNavigator.Path
