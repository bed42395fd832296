import SourceNavigator.Data.Check
import SourceNavigator.Markup.Defect
import SourceNavigator.World.SystemError

/-!
# Failures

Every way in which an operation of the library can fail, and its wording. The first group are
failures of navigation, which are reported to the caller of the command line; of the others only
those that blame a value are (`isReported`).
-/

namespace SourceNavigator

open Data (Problem)
open World (SystemError)

inductive Failure where
  | general (text : String)
  | invalidPath (path : Option String) (reason : String)
  | engineMissing (engine : String)
  | engineFailed (exitCode : Option Int) (errors : String)
  | badOutput (line : Int) (detail : String)
  | badRecord (line : Int) (kind : String) (problems : List Problem)
  | unreadableFile (path : Option String) (cause : Option SystemError)
  | unreadableDirectory (path : Option String) (cause : Option SystemError)
  | lineOutside (line count : Int)
  | configuration (text : String)
  | badSettings (problems : List Problem)
  | badMarkup (path : String)
  | invalid (model : String) (problems : List Problem)
  | system (error : SystemError)
  | nulCharacter
  | emptyPath
  | nameMissing
  | termMissing
  | unknownSymbolType (name : String) (known : List String)
  | unknownLevel (name : String)
  | tooManyDigits (count : Nat)
  | numberTooLong
  | undecodable (failure : Text.Utf8.Failure)
  | unencodable (half first last : Nat)
  | lineMissing
  | homeUnknown
  | linkLoop (text : String)
  | notAPath (kind : String)
  | octetPath
  | typeMissing
  | tooDeep (activity : String)
  | markup (defect : Markup.Defect)
  deriving Repr

namespace Failure

/-! ## Wording -/

def orNone (s : Option String) : String := s.getD "None"

/-- The wording for halves of pairs from one position of a text to another, the first of which is
`half`. -/
def unencodableMessage (half first last : Nat) : String :=
  let which :=
    if first = last then
      "character '\\u" ++ String.ofList (Text.hexDigits 4 half) ++ "' in position " ++
        toString first
    else "characters in position " ++ toString first ++ "-" ++ toString last
  "'utf-8' codec can't encode " ++ which ++ ": surrogates not allowed"

def message : Failure → String
  | general text => text
  | invalidPath path reason => "Invalid path '" ++ orNone path ++ "': " ++ reason
  | engineMissing engine =>
    "ripgrep (" ++ engine ++ ") is not installed or not in PATH. " ++
      "Please install ripgrep: https://github.com/BurntSushi/ripgrep#installation"
  | engineFailed exitCode errors =>
    "ripgrep error (exit code " ++ orNone (exitCode.map toString) ++ "): " ++ Text.strip errors
  | badOutput line detail => "Failed to parse ripgrep output (line " ++ toString line ++ "): " ++ detail
  | badRecord line kind _ =>
    "Failed to parse ripgrep output (line " ++ toString line ++ "): malformed " ++ kind ++ " record"
  | unreadableFile path cause =>
    "File not found: " ++ orNone path ++
      match cause with
      | none => ""
      | some e => " (" ++ e.message ++ ")"
  | unreadableDirectory path cause =>
    "Failed to list directory " ++ orNone path ++ ": " ++ orNone (cause.map SystemError.message)
  | lineOutside line count =>
    "Line " ++ toString line ++ " is outside the file's " ++ toString count ++ " lines"
  | configuration text => text
  | badSettings _ => "Configuration validation failed"
  | badMarkup path => "Invalid YAML syntax in " ++ path
  | invalid model problems =>
    toString problems.length ++ " validation error" ++ (if problems.length = 1 then "" else "s") ++
      " for " ++ model
  | system error => error.message
  | nulCharacter => World.nulMessage
  | emptyPath => "no path specified"
  | nameMissing => "symbol_name is required"
  | termMissing => "search_term is required"
  | unknownSymbolType name known =>
    "Invalid symbol type: " ++ name ++ ". Expected one of " ++ String.intercalate ", " known
  | unknownLevel name => "Unknown level: " ++ Text.quote name
  | tooManyDigits count => Markup.tooManyDigitsMessage count
  | numberTooLong =>
    "Exceeds the limit (4300 digits) for integer string conversion; use " ++
      "sys.set_int_max_str_digits() to increase the limit"
  | undecodable failure => failure.message
  | unencodable half first last => unencodableMessage half first last
  | lineMissing => "list index out of range"
  | homeUnknown => "Could not determine home directory."
  | linkLoop text => "Symlink loop from " ++ Text.quote text
  | notAPath kind => "expected str, bytes or os.PathLike object, not " ++ kind
  | octetPath =>
    "argument should be a str object or an os.PathLike object returning str, not <class 'bytes'>"
  | typeMissing => "unhashable type: 'list'"
  | tooDeep activity => "maximum recursion depth exceeded" ++ activity
  | markup defect => defect.message

/-! ## Who is told -/

def isNavigation : Failure → Bool
  | general _ | invalidPath .. | engineMissing _ | engineFailed .. | badOutput .. | badRecord ..
  | unreadableFile .. | unreadableDirectory .. | lineOutside .. | configuration _ | badSettings _
  | badMarkup _ => true
  | _ => false

def blamesValue : Failure → Bool
  | invalid .. | nulCharacter | emptyPath | nameMissing | termMissing | unknownSymbolType ..
  | unknownLevel _ | tooManyDigits _ | numberTooLong | undecodable _ | unencodable .. => true
  | markup defect =>
    match defect with
    | .notInteger .. | .tooManyDigits _ | .notFloat _ | .badDate _ | .characterTooLarge => true
    | _ => false
  | _ => false

/-- A failure that the command line reports; others end the program. -/
def isReported (f : Failure) : Bool := f.isNavigation || f.blamesValue

/-- The failure of a file operation that is passed on as it is. -/
def ofTrouble : World.Trouble → Failure
  | .system e => .system e
  | .nulCharacter => .nulCharacter

end Failure

end SourceNavigator
