import SourceNavigator.Path.Relative
import SourceNavigator.World.Canonical

/-!
# Containment in a root

`World.isWithin` asks whether the canonical form of a path is the root or lies below it;
`World.resolveSafe` gives the canonical route of a caller's path, and refuses one that lies outside.
-/

namespace SourceNavigator.World

open SourceNavigator.Path (Route Refusal)

/-- Whether the canonical route of a path begins with that of the root. The path is read from the
root on, unless it is absolute. -/
def isWithin (w : World) (root path : Route) : Bool :=
  match w.resolve root, w.resolve (root.append path) with
  | .ok r, .ok p => p.beginsWith r
  | _, _ => false

/-- Why a caller's path is refused; a path that leads outside is given with its canonical route. -/
structure Rejection where
  refusal : Refusal
  outside : Option Route
  deriving Repr

/-- The canonical route of a caller's path below a root. -/
def resolveSafe (w : World) (root : Route) (candidate : String) : Except Rejection Route :=
  match Path.normalize candidate with
  | .error refusal => .error ⟨refusal, none⟩
  | .ok relative =>
    match w.resolve root with
    | .error o => .error ⟨.unresolved o.message, none⟩
    | .ok r =>
      match w.resolve (root.append relative) with
      | .error o => .error ⟨.unresolved o.message, none⟩
      | .ok p => if p.beginsWith r then .ok p else .error ⟨.leavesRoot, some p⟩

end SourceNavigator.World
