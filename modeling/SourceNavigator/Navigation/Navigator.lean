import SourceNavigator.Excerpt.Range
import SourceNavigator.Excerpt.Symbol
import SourceNavigator.Excerpt.Window
import SourceNavigator.Navigation.Pattern
import SourceNavigator.Search.Engine
import SourceNavigator.Settings.Model
import SourceNavigator.Tree
import SourceNavigator.World.Guard

/-!
# The navigator

The four questions about a source tree: where a symbol is defined, how a term is used, what a file
holds, and how a directory is laid out. Every path of a caller, and every path that the engine
reports, is checked against the root before a file is read.
-/

namespace SourceNavigator.Navigation

open Excerpt (numbered)
open SourceNavigator.Path (Route)
open Search (Match Options)

/-- A source tree with the settings to go by. -/
structure Navigator where
  world : World
  settings : Settings

namespace Navigator

def root (n : Navigator) : Route := Route.ofString n.settings.root

def logSource : String := "codenav.navigator"

def guardSource : String := "codenav.tools.path_guard"

/-! ## Paths -/

/-- Logs a path that leads outside. -/
def logRejection (candidate : String) (r : World.Rejection) : Action Unit :=
  match r.outside with
  | some route =>
    Action.log warningSeverity guardSource
      ("Rejected path outside root: " ++ candidate ++ " -> " ++ route.text)
  | none => Action.done ()

end Navigator

/-- The canonical route of a caller's path below a root. -/
def safeRoute (w : World) (root : Route) (candidate : String) : Action Route :=
  match w.resolveSafe root candidate with
  | .ok route => Action.done route
  | .error rejection => do
    Navigator.logRejection candidate rejection
    Action.fail (.invalidPath (some candidate) rejection.refusal.reason)

/-- A path without steps that go nowhere or back, as text. -/
def normalText (candidate : String) : Except Failure String :=
  match Path.normalize candidate with
  | .ok r => .ok r.text
  | .error refusal => .error (.invalidPath (some candidate) refusal.reason)

namespace Navigator

/-- The normal form of a caller's directory, which must lie below the root. -/
def safeDirectory (n : Navigator) (directory : String) : Action String := do
  let _ ← safeRoute n.world n.root directory
  Action.lift (normalText directory)

/-- The normal forms of several directories. One that is not named is no path. -/
def safeDirectories (n : Navigator) : List (Option String) → Action (List String)
  | [] => Action.done []
  | none :: _ => Action.fail (.notAPath "list")
  | some d :: rest => do
    let d ← n.safeDirectory d
    let rest ← n.safeDirectories rest
    return d :: rest

/-- The route of a match, unless it lies outside the root. -/
def matchRoute? (n : Navigator) (m : Match) : Option Route :=
  if n.world.isWithin n.root (Route.ofString m.file) then
    some (n.root.append (Route.ofString m.file))
  else none

/-- The route of a match; one that lies outside is logged. -/
def fullRoute (n : Navigator) (m : Match) : Action (Option Route) :=
  match n.matchRoute? m with
  | some r => Action.done (some r)
  | none => do
    Action.log warningSeverity logSource ("Ignoring match outside root: " ++ m.file)
    return none

/-! ## Text -/

def codeBlock (body : String) : String := "\x60\x60\x60php\n" ++ body ++ "\n\x60\x60\x60"

/-- Sections with a rule between them. -/
def sections (parts : List String) : String := String.intercalate "\n---\n" parts

/-! ## Symbols -/

/-- The body that is shown for a match: the excerpt of the symbol, or the text of the match if
there is no excerpt. -/
def symbolBody (n : Navigator) (m : Match) (r : Route) : Action String :=
  match Excerpt.readSymbol n.world r.address m.line with
  | .ok text => Action.done text
  | .error e =>
    if e.isNavigation then do
      Action.log warningSeverity logSource
        ("Context extraction failed for " ++ m.location ++ ": " ++ e.message)
      return m.text
    else Action.fail e

/-- The matches inside the root with what is shown for them. -/
def symbolBodies (n : Navigator) : List Match → Action (List (Match × String))
  | [] => Action.done []
  | m :: rest => do
    match ← n.fullRoute m with
    | none => n.symbolBodies rest
    | some r =>
      let body ← n.symbolBody m r
      let others ← n.symbolBodies rest
      return (m, body) :: others

/-- A failure of one search that does not end the others. -/
def isSearchFailure : Failure → Bool
  | .engineFailed .. | .badOutput .. | .badRecord .. => true
  | _ => false

def symbolOptions (n : Navigator) (directories : List String) : Options :=
  Options.ofParts directories n.settings.engine.excludes n.settings.limits.symbolResults 0 0 false
    (some n.settings.engine.fileType) false

/-- The matches of one pattern; a search that fails finds nothing. -/
def patternMatches (n : Navigator) (o : Options) (pattern : String) : Action (List Match) := do
  let result ← Action.attempt
    (Search.search n.world.base pattern n.settings.root o n.settings.engine.binary)
  match result with
  | .ok found => return found
  | .error e =>
    if isSearchFailure e then do
      Action.log errorSeverity logSource ("Pattern search failed: " ++ pattern ++ ": " ++ e.message)
      return []
    else Action.fail e

/-- What is shown for the matches of several patterns. -/
def patternBodies (n : Navigator) (o : Options) : List String → Action (List (Match × String))
  | [] => Action.done []
  | pattern :: rest => do
    let found ← n.patternMatches o pattern
    let bodies ← n.symbolBodies found
    let others ← n.patternBodies o rest
    return bodies ++ others

/-- One numbered result. -/
def symbolSection (index : Nat) (m : Match) (body : String) : String :=
  "\n### Result " ++ toString index ++ ": " ++ m.location ++ "\n\n" ++ codeBlock body ++ "\n"

/-- Results numbered from `index` on. -/
def symbolSections : (index : Nat) → List (Match × String) → List String
  | _, [] => []
  | index, (m, body) :: rest => symbolSection index m body :: symbolSections (index + 1) rest

def symbolReport (name kind : String) (found : List (Match × String)) : String :=
  if found.isEmpty then
    "No symbols found matching \"" ++ name ++ "\" of type \"" ++ kind ++ "\""
  else
    "Found " ++ toString found.length ++ " symbol(s) matching \"" ++ name ++ "\":\n" ++
      sections (symbolSections 1 found)

/-- The directories of a symbol search: the one asked for, or the root. -/
def searchDirectories (n : Navigator) : Option String → Action (List String)
  | none => Action.done ["."]
  | some d => if d.isEmpty then Action.done ["."] else n.safeDirectories [some d]

/-- Shows the definitions of a symbol of a kind, below the root or below one directory. -/
def searchSymbol (n : Navigator) (name : String) (kind directory : Option String) :
    Action String := do
  if (Text.strip name).isEmpty then Action.fail .nameMissing
  else
    let name := Text.strip name
    let kind ← Action.lift (kind.elim (.error .typeMissing) .ok)
    let patterns ← Action.lift (namedPatterns name kind)
    let directories ← n.searchDirectories directory
    let found ← n.patternBodies (n.symbolOptions directories) patterns
    return symbolReport name kind found

/-! ## Usage -/

def usageCount (n : Navigator) (asked : Option Int) : Int :=
  match asked with
  | none => n.settings.limits.usageResults
  | some k => if 0 < k then k else n.settings.limits.usageResults

/-- The options of a usage search that shows `count` examples. -/
def usageOptions (n : Navigator) (directories : List String) (count : Int) : Options :=
  Options.ofParts directories n.settings.engine.excludes
    (count * n.settings.limits.usageFactor) 3 5 false (some n.settings.engine.fileType) true

/-- The body that is shown for a usage: the lines around it, or the text of the match if they cannot
be shown. -/
def usageBody (n : Navigator) (m : Match) : Action String := do
  match ← n.fullRoute m with
  | none => return m.text
  | some r =>
    let limits := n.settings.limits
    match Excerpt.readWindow n.world r.address m.line limits.usageBefore limits.usageAfter with
    | .ok text => return text
    | .error e =>
      if e.isNavigation then do
        Action.log warningSeverity logSource
          ("Context read failed for " ++ m.location ++ ": " ++ e.message)
        return m.text
      else Action.fail e

def usageSections (n : Navigator) : List Match → Action (List String)
  | [] => Action.done []
  | m :: rest => do
    let body ← n.usageBody m
    let others ← n.usageSections rest
    return ("\n### " ++ m.location ++ "\n\n" ++ codeBlock body ++ "\n") :: others

/-- Shows how a term is used in some directories, or in the usual ones. -/
def findUsage (n : Navigator) (term : String) (directories : List (Option String))
    (asked : Option Int) : Action String := do
  if term.isEmpty then Action.fail .termMissing
  else
    let usual := n.settings.usageDirectories.map some
    let wanted := if directories.isEmpty then usual else directories
    let directories ← n.safeDirectories wanted
    let count := n.usageCount asked
    let found ← Search.search n.world.base term n.settings.root (n.usageOptions directories count)
      n.settings.engine.binary
    if found.isEmpty then
      return "No usage examples found for \"" ++ term ++ "\" in directories: " ++
        String.intercalate ", " directories
    else
      let shown := found.take count.toNat
      let parts ← n.usageSections shown
      return "Found " ++ toString found.length ++ " usage(s) of \"" ++ term ++ "\". Showing " ++
        toString shown.length ++ " examples:\n" ++ sections parts

/-! ## Files -/

/-- The note that lines follow. -/
def moreNote (r : Excerpt.Range) : String :=
  if r.isTruncated then
    "\n\n[... " ++ toString r.remaining ++ " more lines. Use start_line/end_line to read more.]"
  else ""

/-- A range with a header and, if lines follow, a note. -/
def fileReport (path : String) (r : Excerpt.Range) : Except Failure String :=
  r.render.map fun body =>
    "File: " ++ path ++ " (lines " ++ toString r.first ++ "-" ++ toString r.last ++ " of " ++
      toString r.total ++ ")\n\n" ++ codeBlock body ++ moreNote r

/-- Shows a file or a part of it. -/
def showFile (n : Navigator) (path : String) (startLine endLine : Option Int) : Action String := do
  if path.isEmpty then
    Action.fail (.invalidPath (some "") Path.Refusal.fileRequired.reason)
  else
    let route ← safeRoute n.world n.root path
    let shownPath ← Action.lift (normalText path)
    let first :=
      match startLine with
      | none => 1
      | some k => if k = 0 then 1 else k
    let range ← Excerpt.readRange n.world route.address first endLine n.settings.limits.readLines
    Action.lift (fileReport shownPath range)

/-! ## Directories -/

/-- The name for the files of an ending. -/
def endingName (ending : String) : String :=
  String.ofList (Text.upper (ending.toList.dropWhile (· == '.')))

/-- A tree with a header, unless its depth is too long to be written. -/
def treeReport (n : Navigator) (path : String) (depth : Int) (tree : String) :
    Except Failure String :=
  let place := if path = "." then "(root)" else path
  let body :=
    if tree.isEmpty then "(empty or no " ++ endingName n.settings.sourceEnding ++ " files)" else tree
  match Text.decimal? depth with
  | none => .error .numberTooLong
  | some depth =>
    .ok ("Directory structure of " ++ place ++ " (depth: " ++ depth ++ "):\n\n" ++ body)

/-- Shows the layout of a directory. -/
def showTree (n : Navigator) (directory : String) (depth : Option Int) : Action String := do
  let depth := n.settings.limits.clampDepth depth
  let directory := if directory.isEmpty then "." else directory
  let route ← safeRoute n.world n.root directory
  let path ← Action.lift (normalText directory)
  match n.world.glance route.address with
  | none => Action.fail (.invalidPath (some path) Path.Refusal.directoryMissing.reason)
  | some node =>
    if node.isDir then do
      let tree ← Tree.list n.world n.settings.sourceEnding depth route
      Action.lift (n.treeReport path depth tree)
    else Action.fail (.invalidPath (some path) Path.Refusal.notADirectory.reason)

end Navigator

end SourceNavigator.Navigation
