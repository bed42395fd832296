import SourceNavigator.Markup.Document
import SourceNavigator.Settings.Model

/-!
# Choosing the root

The root is the first that is given of: the caller's, the environment's and the file's; failing these,
it is the directory where the process stands. A file can name a root in a text that is no file name,
because it holds halves of pairs. Main definition: `chooseRoot`.
-/

namespace SourceNavigator.Settings

open Data (Datum)
open SourceNavigator.Path (Route)
open Text (Points)

/-- Where a root comes from. -/
inductive Origin where
  | caller
  | environment
  | file
  | process
  deriving DecidableEq, Repr

/-- The variable of the environment that names the root. -/
def rootVariable : String := "MOODLE_SRC_PATH"

def Origin.name : Origin → String
  | .caller => "command line"
  | .environment => rootVariable
  | .file => "config file"
  | .process => "cwd"

/-! ## Texts that are no file names -/

/-- A half that stands for an octet which is part of no character, as file names may hold it. -/
def isStrayOctet (n : Nat) : Bool := 0xDC80 ≤ n && n ≤ 0xDCFF

/-- A half that no file name can hold. -/
def isUnencodable (n : Nat) : Bool := Text.isHalf n && !isStrayOctet n

/-- The failure of a text that no file name can hold: it blames the first such half and those next to
it. `start` is the place where the text starts. -/
def unencodable? (start : Nat) (ps : Points) : Option Failure :=
  match ps.dropWhile (!isUnencodable ·) with
  | [] => none
  | half :: rest =>
    let first := start + (ps.takeWhile (!isUnencodable ·)).length
    some (.unencodable half first (first + (rest.takeWhile Text.isHalf).length))

/-- The failure of resolving a route as far as a name that cannot be encoded. -/
def unencodableAt (w : World) (r : Route) (name : Points) : Failure :=
  let origin : Route := if r.isAnchored then ⟨.root, []⟩ else ⟨.here, []⟩
  match World.resolveNames w (World.resolveTarget w World.linkRoom) origin r.names [] with
  | .settled route _ =>
    let start := (route.child (String.ofList name.shown)).text.length - name.length
    (unencodable? start name).getD .homeUnknown
  | .looped text => .linkLoop text
  | .unspeakable => .nulCharacter
  | .exhausted => .tooDeep ""

/-- The root that a text with halves gives. If its names can be encoded, and one that holds halves is
left when links are followed, the text itself is checked later. -/
def rootOfPoints (w : World) (ps : Points) : Except Failure Datum :=
  let whole := Route.ofString (String.ofList ps.shown)
  let names := Path.namesOfPoints ps
  match names.dropWhile fun name => (unencodable? 0 name).isNone with
  | [] =>
    (canonicalRoot w (Route.ofPoints ps)).map fun r =>
      if Path.areWritable r.names then .text r.text else .illFormed ps
  | name :: later =>
    let before := names.length - (later.length + 1)
    if before = 0 && !whole.isAnchored && name.head? = some '~'.toNat then
      .error ((unencodable? 0 (name.drop 1)).getD .homeUnknown)
    else
      match w.expandHome ⟨whole.anchor, whole.names.take before⟩ with
      | .error fault => .error (homeFailure fault)
      | .ok r => .error (unencodableAt w r name)

/-! ## The root -/

/-- The root that a file gives, in its canonical form. -/
def rootOfDatum (w : World) : Datum → Except Failure Datum
  | .text s => (canonicalRoot w (Route.ofString s)).map fun r => .text r.text
  | .illFormed ps => rootOfPoints w ps
  | .bytes _ => .error .octetPath
  | d => .error (.notAPath d.kindName)

/-- The root and where it comes from. -/
def chooseRoot (w : World) (caller environment : Option String) (file : Option Datum) :
    Except Failure (Datum × Origin) :=
  let caller := caller.getD ""
  let environment := environment.getD ""
  let file := file.getD .null
  if !caller.isEmpty then (rootOfDatum w (.text caller)).map (·, .caller)
  else if !environment.isEmpty then (rootOfDatum w (.text environment)).map (·, .environment)
  else if file.isTruthy then (rootOfDatum w file).map (·, .file)
  else .ok (.text w.base.text, .process)

end SourceNavigator.Settings
