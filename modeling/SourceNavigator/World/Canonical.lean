import SourceNavigator.Text.Blank
import SourceNavigator.World.Lookup

/-!
# Canonical routes

`World.resolve` gives the route of a path with every link resolved, whether or not anything is
there. It follows links itself, name by name: where it meets a link that it is already resolving it
stops, and the rest of the path is joined on as text. What the system fails to look up counts as no
link, also if only the route to it is too long. If the route that comes out still runs into too many
links, resolving fails; so it does if a name on the way holds a NUL character, or if so many links are
met one within the other that the calls run out.
-/

namespace SourceNavigator.World

open SourceNavigator.Path (Anchor Route)

/-! ## What is known while links are resolved -/

/-- The links met so far: each with the route it leads to, or nothing while it is being resolved. -/
abbrev Seen := List (Route × Option Route)

def Seen.known (seen : Seen) (r : Route) : Option (Option Route) :=
  (seen.find? (·.1 = r)).map (·.2)

/-- How the resolution of some names ends: at a route, at a link that leads back to itself with the
text of the path from there on, at a name that cannot be looked up, or at a link for which no calls are
left. -/
inductive Resolution where
  | settled (route : Route) (seen : Seen)
  | looped (text : String)
  | unspeakable
  | exhausted

/-- Why a path has no canonical route. -/
inductive Obstacle where
  | loop (text : String)
  | nulCharacter
  | tooDeep
  deriving DecidableEq, Repr

def Obstacle.message : Obstacle → String
  | .loop text => "Symlink loop from " ++ Text.quote text
  | .nulCharacter => nulMessage
  | .tooDeep => "maximum recursion depth exceeded"

def restText (names : List String) : String := Text.glueStrings "/" names

/-! ## Following links -/

/-- The target of the link at a route, if the system finds one there. A link under a route that is too
long to be looked up is overlooked. -/
def linkTarget? (w : World) (r : Route) : Option String :=
  match w.findPlace .kept r.address with
  | .error _ => none
  | .ok place =>
    match w.tree.at? place with
    | some (.link target) => some target
    | _ => none

/-- Resolves names from a route; `enter` resolves the target of a link that is met for the first
time. -/
def resolveNames (w : World) (enter : Route → String → Seen → Resolution) :
    Route → List String → Seen → Resolution
  | r, [], seen => .settled r seen
  | r, name :: rest, seen =>
    if !Path.leads name then resolveNames w enter r rest seen
    else if name = Path.up then resolveNames w enter r.parent rest seen
    else if hasNul name then .unspeakable
    else
      let next := r.child name
      match w.linkTarget? next with
      | none => resolveNames w enter next rest seen
      | some target =>
        match seen.known next with
        | some (some known) => resolveNames w enter known rest seen
        | some none => .looped (Path.joinText next.text (restText rest))
        | none =>
          match enter r target ((next, none) :: seen) with
          | .unspeakable => .unspeakable
          | .exhausted => .exhausted
          | .looped text => .looped (Path.joinText text (restText rest))
          | .settled known seen => resolveNames w enter known rest ((next, some known) :: seen)

/-- The route from which a link target is resolved. -/
def targetRoute (r : Route) (target : String) : Route :=
  if Path.isAbsolute target then ⟨.root, []⟩ else r

/-- Resolves the target of a link with calls for `depth` links within links. -/
def resolveTarget (w : World) : (depth : Nat) → Route → String → Seen → Resolution
  | 0, _, _, _ => .exhausted
  | depth + 1, r, target, seen =>
    resolveNames w (resolveTarget w depth) (targetRoute r target) (Path.pieces target) seen

/-- The links that there are calls for, one within the other. How many there are in truth depends on
the calls that the resolution is itself made in, and is a few more or less. -/
def linkRoom : Nat := 985

/-! ## The canonical route -/

/-- The route of a path with links resolved as far as they can be. -/
def realRoute (w : World) (r : Route) : Except Obstacle Route :=
  let origin : Route := if r.isAnchored then ⟨.root, []⟩ else ⟨.here, []⟩
  match resolveNames w (resolveTarget w linkRoom) origin r.names [] with
  | .settled route _ => .ok (w.base.append route).collapse
  | .looped text => .ok (Route.absolute w.base text)
  | .unspeakable => .error .nulCharacter
  | .exhausted => .error .tooDeep

/-- The canonical route of a path. -/
def resolve (w : World) (r : Route) : Except Obstacle Route :=
  match w.realRoute r with
  | .error o => .error o
  | .ok route =>
    if hasNul route.text then .error .nulCharacter
    else
      match w.findNode route.address with
      | .error .tooManyLinks => .error (.loop route.text)
      | _ => .ok route

/-! ## Home directories -/

/-- The home directory of the user of a path that starts with `~`, if it is known. -/
def homeOf? (w : World) (first : String) : Option String :=
  let trimmed (s : String) : String :=
    let t := String.ofList (Text.dropEndWhile (· == '/') s.toList)
    if t.isEmpty then "/" else t
  if first = "~" then some (trimmed w.home)
  else (w.accounts.find? ("~" ++ ·.1 = first)).map fun account => trimmed account.2

/-- Why a path has no home directory to start from: the user is not known, or the name holds a NUL
character, so that no user can have it. -/
inductive HomeFault where
  | unknown
  | nulCharacter
  deriving DecidableEq, Repr

/-- The route with a `~` at its start replaced by a home directory. -/
def expandHome (w : World) (r : Route) : Except HomeFault Route :=
  match r.anchor, r.names with
  | .here, first :: rest =>
    if first.toList.head? = some '~' then
      if hasNul first then .error .nulCharacter
      else
        match w.homeOf? first with
        | none => .error .unknown
        | some home =>
          if home.toList.head? = some '~' then .error .unknown
          else
            let h := Route.ofString home
            .ok ⟨h.anchor, h.names ++ rest⟩
    else .ok r
  | _, _ => .ok r

end SourceNavigator.World
