import SourceNavigator.Path.Route

/-!
# Paths inside a root

The paths that callers may give: relative, without a NUL character, and never above the root they
start from. `normalize` accepts exactly these and writes them without `.` and `..`.
-/

namespace SourceNavigator.Path

/-- Why a path is refused. -/
inductive Refusal where
  | nulCharacter
  | notRelative
  | leavesRoot
  | unresolved (why : String)
  | fileRequired
  | directoryMissing
  | notADirectory
  deriving DecidableEq, Repr

def Refusal.reason : Refusal → String
  | .nulCharacter => "contains a NUL byte"
  | .notRelative => "must be relative to the root"
  | .leavesRoot => "path traversal detected"
  | .unresolved why => "cannot be resolved: " ++ why
  | .fileRequired => "file_path is required"
  | .directoryMissing => "directory not found"
  | .notADirectory => "not a directory"

/-- A path that starts with a slash or a backslash. -/
def startsWithSlash (s : String) : Bool :=
  match s.toList with
  | c :: _ => c == '/' || c == '\\'
  | [] => false

/-- A path without the steps that go nowhere or back. The empty path is the root itself. -/
def normalize (candidate : String) : Except Refusal Route :=
  if candidate.toList.contains '\x00' then .error .nulCharacter
  else if startsWithSlash candidate then .error .notRelative
  else
    let r := (Route.ofString candidate).collapse
    if r.names.head? = some up then .error .leavesRoot else .ok r

end SourceNavigator.Path
